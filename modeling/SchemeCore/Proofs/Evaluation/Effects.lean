import SchemeCore.Proofs.Evaluation.Coupling
import SchemeCore.Proofs.Evaluation.Write
import SchemeCore.Proofs.Forest
import SchemeCore.Session

/-!
# What evaluation changes

An evaluation changes the chain by writes, and each write is an instance of an access at one of the
evaluated positions of the expression. That is so whether it ends with a value or stops, since what
was written before a stop stays written. What sequences of writes can do is known
(`Chain.Confined`), and scopes that lie outside of the chain are never touched.
-/

namespace SchemeCore

namespace Coupling

/-- Two runs that differ in their logs only, the first of which has come from the store `s₀` by
writes that are instances of the accesses. -/
def writing (A : Set Access) (s₀ : Store) : Coupling :=
  ofStores fun s₁ s₂ => s₁.chain = s₂.chain ∧ s₀.Wrote A s₁

variable {A : Set Access} {s₀ : Store}

theorem writing_supports {a : Access} (ha : a ∈ A) : (writing A s₀).Supports a := by
  cases a with
  | read name =>
    rintro s₁ s₂ ⟨hchain, hwrote⟩
    rw [Eval.exec_lookup, Eval.exec_lookup, ← hchain]
    cases s₁.chain.lookup name with
    | some v => exact .value True.intro ⟨hchain, hwrote⟩
    | none => exact .stop rfl ⟨hchain, hwrote⟩
  | define target =>
    rintro - v - s₁ s₂ ⟨hchain, hwrote⟩
    rw [Eval.exec_define, Eval.exec_define, ← hchain]
    cases hbind : s₁.chain.bindItem (.datum target) v with
    | ok c =>
      have hwrite : s₁.chain.write? (.define target v) = some c := by
        rw [Chain.write?, hbind]
        rfl
      exact .value True.intro ⟨rfl, hwrote.wrote ha hwrite⟩
    | error e => exact .stop rfl ⟨hchain, hwrote⟩
  | assign name =>
    rintro v - s₁ s₂ ⟨hchain, hwrote⟩
    rw [Eval.exec_assign, Eval.exec_assign, ← hchain]
    cases hassign : s₁.chain.assign name v with
    | some c => exact .value True.intro ⟨rfl, hwrote.wrote (w := .assign name v) ha hassign⟩
    | none => exact .stop rfl ⟨hchain, hwrote⟩

end Coupling

theorem Store.wrote_evalAt (settings : Settings) (e : Datum) (limit depth : Int) (s : Store) :
    s.Wrote { a | a ∈ e.accesses }
      ((Context.evalAt ⟨settings, Forms.builtin⟩ limit depth e).exec s).2 := by
  have hruns : (Coupling.writing { a | a ∈ e.accesses } s).Holds (fun _ => True)
      (Context.evalAt ⟨settings, Forms.builtin⟩ limit depth e)
      (Context.evalAt ⟨settings, Forms.builtin⟩ limit depth e) :=
    Coupling.evalWithin_holds True.intro (fun a ha => Coupling.writing_supports ha)
      (fun _ _ hs => hs) rfl rfl
  exact (Coupling.ends_ofStores (hruns s s ⟨rfl, .refl _ _⟩)).2.2

theorem Store.wrote_evaluate (settings : Settings) (e : Datum) (s : Store) :
    s.Wrote { a | a ∈ e.accesses }
      ((Context.evaluate ⟨settings, Forms.builtin⟩ (.datum e)).run s).2 := by
  rw [Context.run_evaluate]
  obtain ⟨ms, hms, hwrites⟩ := wrote_evalAt settings e settings.maxDepth 0
    { s with log := s.log ++ settings.records }
  refine ⟨ms, ?_, ?_⟩
  · dsimp only
    rw [Store.writes_noted]
    exact hms
  · dsimp only
    rw [Store.chain_noted]
    exact hwrites

/-- A scope shows the chain that was put back into it, if writes have led there. -/
theorem Forest.chain_putChain_of_written {A : Set Access} {f : Forest} {scope : Nat} {c : Chain}
    (h : (f.chain scope).Written A c) (hscope : scope < f.scopes.length) :
    (f.putChain scope c).chain scope = c := by
  obtain ⟨ms, -, hleads⟩ := h
  exact chain_putChain hscope hleads.confined.length_frames

/-- What runs in a scope runs in its chain, which is put back then. -/
theorem Session.forest_inScope {α : Type} (s : Session) (scope : Nat) (m : StateM Store α) :
    (s.inScope scope m).2.forest =
      s.forest.putChain scope (m.run { chain := s.forest.chain scope }).2.chain := rfl

/-- The effects of an evaluation are confined, whether it comes to a value or not. It puts on record
what it changes in the chain, and each write on record is an instance of an access at an evaluated
position. By these writes the outer frames keep their names, the current one gets only names that
were defined, and a value changes only by a definition in the current frame or by an assignment that
found the nearest binding of the name at its moment. Scopes off the path stay as they are, and an
expression that only reads leaves everything so. -/
theorem evaluation_effects_confined (settings : Settings) (e : Datum) :
    let ctx : Context := ⟨settings, Forms.builtin⟩
    (∀ (limit depth : Int) (s : Store),
      let t := ((ctx.evalAt limit depth e).exec s).2
      ∃ ms, t.writes = s.writes ++ ms ∧ (∀ m ∈ ms, m.write.access ∈ e.accesses) ∧
        s.chain.Confined ms t.chain) ∧
    (∀ s : Store,
      let t := ((ctx.evaluate (.datum e)).run s).2
      ∃ ms, t.writes = s.writes ++ ms ∧ (∀ m ∈ ms, m.write.access ∈ e.accesses) ∧
        s.chain.Confined ms t.chain) ∧
    (∀ (f : Forest) (scope : Nat),
      let t := ((ctx.evaluate (.datum e)).run { chain := f.chain scope }).2
      let g := ((Session.mk f ctx).inScope scope (ctx.evaluate (.datum e))).2.forest
      (scope < f.scopes.length → (∀ m ∈ t.writes, m.write.access ∈ e.accesses) ∧
        (f.chain scope).Confined t.writes (g.chain scope)) ∧
      g.path = f.path ∧ ∀ m ∉ f.path scope, g.scopes[m]? = f.scopes[m]?) ∧
    ((∀ a ∈ e.accesses, ∃ name, a = .read name) →
      (∀ (limit depth : Int) (s : Store),
        let t := ((ctx.evalAt limit depth e).exec s).2
        t.writes = s.writes ∧ t.chain = s.chain) ∧
      (∀ s : Store,
        let t := ((ctx.evaluate (.datum e)).run s).2
        t.writes = s.writes ∧ t.chain = s.chain) ∧
      ∀ (f : Forest) (scope : Nat),
        ((Session.mk f ctx).inScope scope (ctx.evaluate (.datum e))).2.forest = f) := by
  intro ctx
  have hat (limit depth : Int) (s : Store) := Store.wrote_evalAt settings e limit depth s
  have hrun (s : Store) := Store.wrote_evaluate settings e s
  refine ⟨fun limit depth s => (hat limit depth s).confined, fun s => (hrun s).confined,
    fun f scope => ⟨fun hscope => ?_, ?_, fun m hm => ?_⟩,
    fun hreads => ⟨fun limit depth s => (hat limit depth s).eq_of_reads hreads,
      fun s => (hrun s).eq_of_reads hreads, fun f scope => ?_⟩⟩
  · have hwrote := hrun { chain := f.chain scope }
    obtain ⟨ms, hms, haccess, hconfined⟩ := hwrote.confined
    rw [List.nil_append] at hms
    rw [hms, Session.forest_inScope, Forest.chain_putChain_of_written hwrote.written hscope]
    exact ⟨haccess, hconfined⟩
  · exact Forest.path_putChain f scope _
  · exact Forest.scopes_putChain hm _
  · obtain ⟨-, hchain⟩ := (hrun { chain := f.chain scope }).eq_of_reads hreads
    rw [Session.forest_inScope]
    dsimp only
    rw [hchain, Forest.putChain_chain]

theorem evaluation_effects_confined_shadowing :
    let ctx : Context := ⟨{}, Forms.builtin⟩
    let number (n : Int) : Datum := .integer n
    let shadowing : Datum := .list [.symbol "begin",
      .list [.symbol "set!", .symbol "x", number 1],
      .list [.symbol "define", .symbol "x", number 2],
      .list [.symbol "set!", .symbol "x", number 3]]
    let reading : Datum := .list [.symbol "if", .symbol "x", .list [.symbol "quote", shadowing]]
    let f : Forest := ⟨[⟨[("x", .datum (number 0))], none⟩, ⟨[], some 0⟩, ⟨[], some 0⟩]⟩
    let t := ((ctx.evaluate (.datum shadowing)).run { chain := f.chain 1 }).2
    let g := ((Session.mk f ctx).inScope 1 (ctx.evaluate (.datum shadowing))).2.forest
    t.writes.map (fun m => (m.write.access, m.chain.distance? "x")) =
        [(.assign "x", some 1), (.define (.symbol "x"), some 1), (.assign "x", some 0)] ∧
      (f.chain 1).Confined t.writes
        ⟨[("x", .datum (number 3))], [[("x", .datum (number 1))]]⟩ ∧
      g.chain 1 = ⟨[("x", .datum (number 3))], [[("x", .datum (number 1))]]⟩ ∧
      g.scopes[2]? = f.scopes[2]? ∧ reading.accesses = [.read "x"] ∧
      ((Session.mk f ctx).inScope 1 (ctx.evaluate (.datum reading))).2.forest = f := by
  intro ctx number shadowing reading f t g
  have hpath : f.path 1 = [1, 0] := by
    rw [Forest.path]
    show 1 :: f.path 0 = [1, 0]
    rw [Forest.path]
    rfl
  have hchain : f.chain 1 = ⟨[], [[("x", .datum (number 0))]]⟩ := by
    rw [Forest.chain, hpath]
    rfl
  have hrun : t.chain = ⟨[("x", .datum (number 3))], [[("x", .datum (number 1))]]⟩ := by
    show ((ctx.evaluate (.datum shadowing)).run { chain := f.chain 1 }).2.chain = _
    rw [hchain]
    rfl
  have hwrites : t.writes.map (fun m => (m.write.access, m.chain.distance? "x")) =
      [(.assign "x", some 1), (.define (.symbol "x"), some 1), (.assign "x", some 0)] := by
    show ((ctx.evaluate (.datum shadowing)).run { chain := f.chain 1 }).2.writes.map _ = _
    rw [hchain]
    rfl
  have hg : g = f.putChain 1 t.chain := Session.forest_inScope _ 1 _
  have hshown : g.chain 1 = ⟨[("x", .datum (number 3))], [[("x", .datum (number 1))]]⟩ := by
    rw [hg, hrun]
    exact Forest.chain_putChain (by decide) (by rw [hchain]; rfl)
  have hreads : reading.accesses = [.read "x"] := by decide
  have hread : ∀ a ∈ reading.accesses, ∃ name, a = .read name := by
    rw [hreads]
    simp
  obtain ⟨hconfined, -, hoff⟩ := (evaluation_effects_confined {} shadowing).2.2.1 f 1
  have hmoments := (hconfined (by decide)).2
  rw [hshown] at hmoments
  exact ⟨hwrites, hmoments, hshown, hoff 2 (by rw [hpath]; decide), hreads,
    ((evaluation_effects_confined {} reading).2.2.2 hread).2.2 f 1⟩

end SchemeCore
