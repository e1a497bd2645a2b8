import SchemeCore.Proofs.Evaluation.Scope
import SchemeCore.Proofs.Evaluation.Wording
import SchemeCore.Proofs.Evaluation.Write

/-!
# Failures tell the truth

The built-in forms fail with six tags, and a failure for an unbound variable is about a name that is
not bound.

1. The faults by shape and those of binding and of depth have five of the tags; the sixth is that of
   a name without a binding (`Stop.Misses`).
2. Where a run stops at such a name, it has just looked for it in the chain, which it leaves as it
   is. The chain has come about by writes, and these take no binding away, so the name was not bound
   before either (`Coupling.missing`).
-/

namespace SchemeCore

/-- No frame of the chain binds the name. -/
def Chain.Lacks (c : Chain) (x : String) : Prop := ∀ frame ∈ c.frames, frame.binds x = false

theorem Chain.lookup_eq_none_iff {c : Chain} {x : String} : c.lookup x = none ↔ c.Lacks x := by
  unfold lookup lookupIn Lacks Frame.binds
  simp

/-- The stop is due to a variable or to a target of `set!` that is not bound. -/
inductive Stop.Misses (A : Set Access) (x : String) : Stop → Prop where
  | read (h : .read x ∈ A) : Misses A x (.fault (.name (.unbound (.datum (.symbol x)))))
  | assign (h : .assign x ∈ A) : Misses A x (.fault (.name (.cannotAssign (.datum (.symbol x)))))

/-- The tags of the failures that are not about unbound variables. -/
def otherKinds : List String :=
  ["invalid-symbol", "arity", "bad-form", "unsupported-form", "recursion-depth"]

theorem Fault.OfShape.kind_mem {f : Fault} (h : f.OfShape) : f.kind ∈ otherKinds := by
  cases f with
  | operands | outsideTemplate | assignTarget | spliceAlone | spliceNotList | notAForm =>
    simp [Fault.kind, ErrorClass.kind, otherKinds]
  | name | notADatum | tooDeep | templateTooDeep | declared => exact False.elim h

namespace Coupling

/-- A run beside itself that has come from the chain `c₀` by writes and stops for what the accesses
miss, which neither `c₀` nor the chain that it leaves binds, or for something else. -/
def missing (A : Set Access) (c₀ : Chain) : Coupling where
  store s₁ s₂ := s₁ = s₂ ∧ c₀.Written A s₁.chain
  item _ := True
  stop e₁ e₂ := e₁ = e₂ ∧ ∀ kind ∈ e₁.kind?, kind ∈ otherKinds
  excused e t := ∃ x, e.Misses A x ∧ c₀.Lacks x ∧ t.chain.Lacks x
  item_symbol _ := True.intro
  item_items _ ds _ := item_items_true ds
  stop_fault f hf _ := ⟨rfl, by rintro _ ⟨⟩; exact hf.kind_mem⟩
  stop_unmade _ _ _ _ := ⟨rfl, by rintro _ ⟨⟩⟩

variable {A : Set Access} {c₀ : Chain}

theorem missing_supports {a : Access} (ha : a ∈ A) : (missing A c₀).Supports a := by
  -- what a chain lacks that has come from `c₀`, `c₀` lacked already
  have hlacks {c : Chain} {x : String} (hc : c₀.Written A c) (hx : c.lookup x = none) :
      c₀.Lacks x ∧ c.Lacks x :=
    ⟨Chain.lookup_eq_none_iff.1 (hc.lookup_eq_none hx), Chain.lookup_eq_none_iff.1 hx⟩
  cases a with
  | read name =>
    rintro s _ ⟨rfl, hwritten⟩
    rw [Eval.exec_lookup]
    cases hlookup : s.chain.lookup name with
    | some v => exact .value True.intro ⟨rfl, hwritten⟩
    | none => exact .excused ⟨name, .read ha, hlacks hwritten hlookup⟩
  | define target =>
    rintro - v - s _ ⟨rfl, hwritten⟩
    rw [Eval.exec_define]
    cases target with
    | symbol name =>
      have hnext : c₀.Written A (s.chain.bind name v) :=
        hwritten.trans (.single (w := .define (.symbol name) v) ha rfl)
      exact .value True.intro ⟨rfl, hnext⟩
    | integer | string | boolean | char | list | vector =>
      refine .stop ⟨rfl, ?_⟩ ⟨rfl, hwritten⟩
      rintro _ ⟨⟩
      exact List.mem_cons_self
  | assign name =>
    rintro v - s _ ⟨rfl, hwritten⟩
    rw [Eval.exec_assign]
    cases hassign : s.chain.assign name v with
    | some c =>
      have hnext : c₀.Written A c := hwritten.trans (.single (w := .assign name v) ha hassign)
      exact .value True.intro ⟨rfl, hnext⟩
    | none => exact .excused ⟨name, .assign ha, hlacks hwritten (Chain.assign_eq_none.1 hassign)⟩

/-- An evaluation that stops misses a name that is bound nowhere, or stops for something else. -/
theorem missing_evalAt (settings : Settings) (e : Datum) (limit depth : Int) (s : Store) :
    (missing { a | a ∈ e.accesses } s.chain).Ends (fun _ => True)
      ((Context.evalAt ⟨settings, Forms.builtin⟩ limit depth e).exec s)
      ((Context.evalAt ⟨settings, Forms.builtin⟩ limit depth e).exec s) := by
  have hdeep (f : Fault) (hf : f.kind = "recursion-depth") :
      (missing { a | a ∈ e.accesses } s.chain).stop (.fault f) (.fault f) := by
    refine ⟨rfl, ?_⟩
    rintro _ ⟨⟩
    rw [hf]
    decide
  refine evalWithin_holds True.intro (fun a ha => missing_supports ha) ?_ (hdeep _ rfl)
    (hdeep _ rfl) s s ⟨rfl, .refl _ _⟩
  rintro s _ ⟨rfl, hwritten⟩
  exact ⟨rfl, hwritten⟩

end Coupling

/-- What a failure says of an evaluation of `e` between two states of the chain is so: it has one of
the tags of the built-in forms, and if it is about an unbound variable then a variable or a target
of `set!` at an evaluated position of `e` is bound in neither state. -/
structure EvalFailure.TruthfulOf (e : Datum) (before after : Chain) (f : EvalFailure) : Prop where
  kind_mem : f.kind ∈ ["unbound-variable", "invalid-symbol", "arity", "bad-form",
    "unsupported-form", "recursion-depth"]
  unbound : f.kind = "unbound-variable" → ∃ x,
    (.read x ∈ e.accesses ∧ f.message = "Unbound variable " ++ x ∨
      .assign x ∈ e.accesses ∧ f.message = "Cannot set unbound variable " ++ x) ∧
    before.Lacks x ∧ after.Lacks x

namespace EvalFailure.TruthfulOf

variable {e : Datum} {before after : Chain} {f : EvalFailure}

theorem of_misses {x : String} {levels : Nat} {limit : Int} {stop : Stop}
    (h : stop.Misses { a | a ∈ e.accesses } x) (hbefore : before.Lacks x) (hafter : after.Lacks x)
    (hf : (Outcome.ofResult levels limit (.error stop) : Outcome Item) = .failure f) :
    f.TruthfulOf e before after := by
  cases h with
  | read h =>
    cases hf
    exact ⟨List.mem_cons_self, fun _ => ⟨x, .inl ⟨h, rfl⟩, hbefore, hafter⟩⟩
  | assign h =>
    cases hf
    exact ⟨List.mem_cons_self, fun _ => ⟨x, .inr ⟨h, rfl⟩, hbefore, hafter⟩⟩

theorem of_otherKinds (h : f.kind ∈ otherKinds) : f.TruthfulOf e before after := by
  refine ⟨List.mem_cons_of_mem _ h, fun hkind => ?_⟩
  rw [hkind] at h
  exact absurd h (by decide)

theorem of_evalAt (settings : Settings) (limit depth : Int) {s : Store}
    (hf : Outcome.ofResult settings.textLevels limit
      ((Context.evalAt ⟨settings, Forms.builtin⟩ limit depth e).exec s).1 = .failure f) :
    f.TruthfulOf e s.chain
      ((Context.evalAt ⟨settings, Forms.builtin⟩ limit depth e).exec s).2.chain := by
  have hends := Coupling.missing_evalAt settings e limit depth s
  generalize (Context.evalAt ⟨settings, Forms.builtin⟩ limit depth e).exec s = r at hends hf ⊢
  obtain ⟨result, t⟩ := r
  cases hends with
  | value => cases hf
  | stop he =>
    rcases Stop.kind?_of_ofResult hf with hkind | ⟨-, -, -, rfl⟩
    · exact of_otherKinds (he.2 f.kind hkind)
    · exact of_otherKinds (by simp [otherKinds, EvalFailure.tooDeep])
  | excused he =>
    obtain ⟨x, hmisses, hbefore, hafter⟩ := he
    exact of_misses hmisses hbefore hafter hf

/-- Where all free names are bound, no failure is about an unbound variable. -/
theorem kind_ne (h : f.TruthfulOf e before after) (hfree : ∀ x ∈ e.freeNames, ¬ before.Lacks x) :
    f.kind ≠ "unbound-variable" := by
  intro hkind
  obtain ⟨x, hx, hlacks, -⟩ := h.unbound hkind
  apply hfree x _ hlacks
  obtain ⟨ha, -⟩ | ⟨ha, -⟩ := hx <;> exact List.mem_filterMap.2 ⟨_, ha, rfl⟩

end EvalFailure.TruthfulOf

/-- Failures of evaluations tell the truth, for callers and at every depth under every limit. A
failure has one of six tags; one for an unbound variable names a variable or a target of `set!` at
an evaluated position, which no frame binds, neither before the evaluation nor when it stops. So an
expression all of whose free names are bound never fails for an unbound variable, whatever it
defines and sets on the way. -/
theorem evaluation_failures_are_truthful (settings : Settings) (e : Datum) (s : Store) :
    let ctx : Context := ⟨settings, Forms.builtin⟩
    (∀ f, ((ctx.evaluate (.datum e)).run s).1 = .failure f →
      f.TruthfulOf e s.chain ((ctx.evaluate (.datum e)).run s).2.chain) ∧
    (∀ (limit depth : Int) (f : EvalFailure),
      Outcome.ofResult settings.textLevels limit ((ctx.evalAt limit depth e).exec s).1 =
        .failure f → f.TruthfulOf e s.chain ((ctx.evalAt limit depth e).exec s).2.chain) ∧
    ((∀ x ∈ e.freeNames, ¬ s.chain.Lacks x) →
      (∀ f, ((ctx.evaluate (.datum e)).run s).1 = .failure f → f.kind ≠ "unbound-variable") ∧
      ∀ (limit depth : Int) (f : EvalFailure),
        Outcome.ofResult settings.textLevels limit ((ctx.evalAt limit depth e).exec s).1 =
          .failure f → f.kind ≠ "unbound-variable") := by
  intro ctx
  have hevaluate : ∀ f, ((ctx.evaluate (.datum e)).run s).1 = .failure f →
      f.TruthfulOf e s.chain ((ctx.evaluate (.datum e)).run s).2.chain := by
    intro f hf
    rw [Context.run_evaluate] at hf ⊢
    dsimp only at hf ⊢
    rw [Store.chain_noted]
    exact .of_evalAt settings settings.maxDepth 0 hf
  have hevalAt := fun limit depth f hf =>
    @EvalFailure.TruthfulOf.of_evalAt e f settings limit depth s hf
  exact ⟨hevaluate, hevalAt, fun hfree =>
    ⟨fun f hf => (hevaluate f hf).kind_ne hfree, fun limit depth f hf =>
      (hevalAt limit depth f hf).kind_ne hfree⟩⟩

theorem evaluation_failures_are_truthful_nested :
    let ctx : Context := ⟨{}, Forms.builtin⟩
    let missing : Datum := .list [.symbol "begin", .list [.symbol "define", .symbol "x", .symbol "y"],
      Mark.quasiquote.on (.list [.symbol "w",
        Mark.unquote.on (.list [.symbol "set!", .symbol "z", .symbol "x"])])]
    let closed : Datum := .list [.symbol "begin", .list [.symbol "define", .symbol "x", .symbol "y"],
      .list [.symbol "set!", .symbol "y", .list [.symbol "quote"]]]
    let s : Store := { chain := ⟨[], [[("x", .datum .nil), ("y", .datum (.integer 7))]]⟩ }
    let f : EvalFailure := ⟨"unbound-variable", "Cannot set unbound variable z"⟩
    ((ctx.evaluate (.datum missing)).run s).1 = .failure f ∧
      f.TruthfulOf missing s.chain ⟨[("x", .datum (.integer 7))],
        [[("x", .datum .nil), ("y", .datum (.integer 7))]]⟩ ∧
      closed.freeNames = ["y", "y"] ∧ ∃ g : EvalFailure,
        ((ctx.evaluate (.datum closed)).run s).1 = .failure g ∧ g.kind ≠ "unbound-variable" := by
  intro ctx missing closed s f
  have hmissing : ((ctx.evaluate (.datum missing)).run s).1 = .failure f := by decide
  have hleft : ((ctx.evaluate (.datum missing)).run s).2.chain = ⟨[("x", .datum (.integer 7))],
      [[("x", .datum .nil), ("y", .datum (.integer 7))]]⟩ := by rfl
  have htruthful := (evaluation_failures_are_truthful {} missing s).1 f hmissing
  rw [hleft] at htruthful
  have hnames : closed.freeNames = ["y", "y"] := by decide
  have hbound : ∀ x ∈ closed.freeNames, ¬ s.chain.Lacks x := by
    rw [hnames]
    intro x hx hlacks
    have hx : x = "y" := by simpa using hx
    rw [hx] at hlacks
    have hlookup : s.chain.lookup "y" = none := Chain.lookup_eq_none_iff.2 hlacks
    revert hlookup
    decide
  have hclosed : ((ctx.evaluate (.datum closed)).run s).1 =
      .failure ⟨"arity", "quote expects exactly 1 argument"⟩ := by decide
  exact ⟨hmissing, htruthful, hnames, _, hclosed,
    ((evaluation_failures_are_truthful {} closed s).2.2 hbound).1 _ hclosed⟩

end SchemeCore
