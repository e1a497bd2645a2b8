import SchemeCore.Proofs.Evaluation.Effects
import SchemeCore.Proofs.Evaluation.Table
import SchemeCore.Proofs.Reader.Joined
import SchemeCore.Proofs.Reader.Written

/-!
# Programs in turn

A program that is joined from two texts does what the two do in turn, the second only if the first
comes to values.

1. No form reads the log, so that runs which differ in their logs only stay that way
   (`SameButLog`). This holds of the built-in forms, of forms that stop, and with these of the
   evaluator.
2. The data of a list and those of another are evaluated one after the other, and a failure in the
   first list ends both (`run_evaluateAll_append`).
3. The two texts are read one after the other (`Reader.readAll_joined_eq`), before anything is
   evaluated.
-/

namespace SchemeCore

/-! ## Runs that differ in their logs only -/

/-- Two runs end alike and leave the same chain. -/
structure SameButLog {α : Type} (r₁ r₂ : α × Store) : Prop where
  result : r₁.1 = r₂.1
  chain : r₁.2.chain = r₂.2.chain

theorem SameButLog.split {α : Type} {r₁ r₂ : α × Store} (h : SameButLog r₁ r₂) :
    ∃ a t₁ t₂, r₁ = (a, t₁) ∧ r₂ = (a, t₂) ∧ t₁.chain = t₂.chain :=
  ⟨r₁.1, r₁.2, r₂.2, rfl, Prod.ext h.result.symm rfl, h.chain⟩

namespace Context

variable {settings : Settings} {stops : List (String × Stop)} {s s₁ s₂ : Store}

/-- Runs that differ in their logs only change the chain by the same writes. -/
theorem evalAt_writing (settings : Settings) (stops : List (String × Stop)) (s₀ : Store)
    (limit depth : Int) (e : Datum) : (Coupling.writing Set.univ s₀).Holds (fun _ => True)
      (evalAt ⟨settings, .stoppingAt stops⟩ limit depth e)
      (evalAt ⟨settings, .stoppingAt stops⟩ limit depth e) := by
  have hbuiltin : (Coupling.writing Set.univ s₀).Admits settings Forms.builtin Forms.builtin :=
    Coupling.admits_builtin (fun _ => Coupling.writing_supports (Set.mem_univ _))
      (fun _ _ h => h) fun _ => rfl
  have hstops : List.Forall₂ (fun a b : String × Stop => a.1 = b.1 ∧ a.2 = b.2) stops stops :=
    List.forall₂_same.2 fun _ _ => ⟨rfl, rfl⟩
  exact (hbuiltin.stoppingAt hstops).evalWithin
    (fun _ => Coupling.writing_supports (Set.mem_univ _)) rfl _ True.intro

theorem evaluate_sameButLog (e : Datum) (hs : s₁.chain = s₂.chain) :
    SameButLog ((evaluate ⟨settings, .stoppingAt stops⟩ (.datum e)).run s₁)
      ((evaluate ⟨settings, .stoppingAt stops⟩ (.datum e)).run s₂) := by
  obtain ⟨hresult, hchain, -⟩ := Coupling.ends_ofStores
    (evalAt_writing settings stops { s₁ with log := s₁.log ++ settings.records }
      settings.maxDepth 0 e { s₁ with log := s₁.log ++ settings.records }
      { s₂ with log := s₂.log ++ settings.records } ⟨hs, .refl _ _⟩)
  rw [run_evaluate, run_evaluate]
  constructor
  · exact congrArg (Outcome.ofResult settings.textLevels settings.maxDepth) hresult
  · rw [Store.chain_noted, Store.chain_noted]
    exact hchain

theorem evaluateAll_sameButLog (exprs : List Datum) (total₁ total₂ done₁ done₂ : Nat)
    (hs : s₁.chain = s₂.chain) :
    SameButLog ((evaluateAll ⟨settings, .stoppingAt stops⟩ total₁ done₁ exprs).run s₁)
      ((evaluateAll ⟨settings, .stoppingAt stops⟩ total₂ done₂ exprs).run s₂) := by
  induction exprs generalizing done₁ done₂ s₁ s₂ with
  | nil => exact ⟨rfl, hs⟩
  | cons expr exprs ih =>
    rw [run_evaluateAll_cons, run_evaluateAll_cons]
    obtain ⟨outcome, t₁, t₂, h₁, h₂, ht⟩ := (@evaluate_sameButLog settings stops _ _ expr hs).split
    rw [h₁, h₂]
    cases outcome with
    | value v =>
      obtain ⟨others, t₁', t₂', h₁, h₂, ht'⟩ := (ih (done₁ + 1) (done₂ + 1) ht).split
      dsimp only
      rw [h₁, h₂]
      cases others <;> exact ⟨rfl, ht'⟩
    | failure | unmade | oversized => exact ⟨rfl, ht⟩

end Context

/-! ## Texts in turn -/

namespace Context

variable (ctx : Context)

/-- Runs a program, and a second one if the first comes to values: the values of both, or the first
failure. -/
def runInTurn (a b : String) : StateM Store (Except ParseFailure (Outcome (List Item))) := do
  match ← ctx.run a with
  | .ok (.value vs) =>
    match ← ctx.run b with
    | .ok (.value ws) => return .ok (.value (vs ++ ws))
    | stopped => return stopped
  | stopped => return stopped

theorem run_runInTurn (a b : String) (s : Store) : (ctx.runInTurn a b).run s =
    match (ctx.run a).run s with
    | (.ok (.value vs), t) =>
      match (ctx.run b).run t with
      | (.ok (.value ws), t') => (.ok (.value (vs ++ ws)), t')
      | r => r
    | r => r := by
  rw [runInTurn, StateT.run_bind]
  rcases (ctx.run a).run s with ⟨_ | ⟨vs | _ | _ | _⟩, t⟩
  · rfl
  · show StateT.run (ctx.run b >>= _) t = _
    rw [StateT.run_bind]
    dsimp only
    rcases (ctx.run b).run t with ⟨_ | ⟨_ | _ | _ | _⟩, t'⟩ <;> rfl
  all_goals rfl

/-- The data of two texts in one list come to what the texts come to in turn. -/
theorem run_joined {settings : Settings} {stops : List (String × Stop)} {a b : String}
    {xs ys : List Datum} (ha : readAll settings.maxDepth a = .ok xs)
    (hb : readAll settings.maxDepth b = .ok ys) (s : Store) :
    SameButLog ((run ⟨settings, .stoppingAt stops⟩ (a ++ "\n" ++ b)).run s)
      ((runInTurn ⟨settings, .stoppingAt stops⟩ a b).run s) := by
  have hab : readAll settings.maxDepth (a ++ "\n" ++ b) = .ok (xs ++ ys) := by
    rw [Reader.readAll_joined_eq ha, Reader.readAll_eq_ok.1 hb]
    rfl
  obtain ⟨t, ht, hrun⟩ := run_of_readAll_ok ⟨settings, .stoppingAt stops⟩ hab s
  obtain ⟨t₁, ht₁, hrun₁⟩ := run_of_readAll_ok ⟨settings, .stoppingAt stops⟩ ha s
  rw [run_runInTurn, hrun, hrun₁, run_evaluateAll_append]
  -- in turn, the data are counted and logged anew for each text, which changes the log only
  obtain ⟨first, u, u₁, hu, hu₁, hchain⟩ := (evaluateAll_sameButLog xs (xs ++ ys).length xs.length
    0 0 (ht.trans ht₁.symm)).split
  rw [hu, hu₁]
  cases first with
  | value vs =>
    obtain ⟨t₂, ht₂, hrun₂⟩ := run_of_readAll_ok ⟨settings, .stoppingAt stops⟩ hb u₁
    obtain ⟨second, v, v₂, hv, hv₂, hchain'⟩ := (evaluateAll_sameButLog ys (xs ++ ys).length
      ys.length (0 + xs.length) 0 (hchain.trans ht₂.symm)).split
    dsimp only
    rw [hrun₂, hv, hv₂]
    cases second <;> exact ⟨rfl, hchain'⟩
  | failure | unmade | oversized => exact ⟨rfl, hchain⟩

end Context

/-- A program of two texts that can be read, joined by a line feed, comes to the same and leaves the
same chain as the two in turn. A text that cannot be read is refused as a whole: it leaves the chain
as it was, whatever it begins with. A program that comes to values has one for each datum. -/
theorem programs_run_in_turn (settings : Settings) (stops : List (String × Stop)) (a b : String)
    (s : Store) :
    let ctx : Context := ⟨settings, .stoppingAt stops⟩
    (∀ xs ys, readAll settings.maxDepth a = .ok xs → readAll settings.maxDepth b = .ok ys →
      ((ctx.run (a ++ "\n" ++ b)).run s).1 = ((ctx.runInTurn a b).run s).1 ∧
      ((ctx.run (a ++ "\n" ++ b)).run s).2.chain = ((ctx.runInTurn a b).run s).2.chain) ∧
    (∀ f, readAll settings.maxDepth a = .error f →
      ((ctx.run a).run s).1 = .error f ∧ ((ctx.run a).run s).2.chain = s.chain) ∧
    ∀ vs, ((ctx.run a).run s).1 = .ok (.value vs) →
      ∃ exprs, readAll settings.maxDepth a = .ok exprs ∧ vs.length = exprs.length := by
  intro ctx
  refine ⟨fun xs ys ha hb => ?_, fun f hf => ctx.run_of_readAll_error hf s,
    fun vs hvs => ctx.length_of_run hvs⟩
  obtain ⟨hresult, hchain⟩ := @Context.run_joined settings stops a b xs ys ha hb s
  exact ⟨hresult, hchain⟩

theorem programs_run_in_turn_stopped :
    let ctx : Context := ⟨{}, .stoppingAt []⟩
    let arity : EvalFailure := ⟨"arity", "quote expects exactly 1 argument"⟩
    let s : Store := { chain := ⟨[], []⟩ }
    ((ctx.run "(define x #t)\nx (quote)").run s).1 = .ok (.failure arity) ∧
      ((ctx.runInTurn "(define x #t)" "x (quote)").run s).1 = .ok (.failure arity) ∧
      ((ctx.runInTurn "(define x #t)" "x (quote)").run s).2.chain =
        ⟨[("x", .datum (.boolean true))], []⟩ ∧
      ∃ f, ((ctx.run "(define x #t)\n)").run s).1 = .error f ∧ f.position = 14 ∧
        ((ctx.run "(define x #t)\n)").run s).2.chain = s.chain := by
  intro ctx arity s
  have hname (name : String) (h : name ∈ ["define", "x", "quote"]) : Reader.IsName name.toList := by
    simp only [List.mem_cons, List.not_mem_nil, or_false] at h
    rcases h with rfl | rfl | rfl <;>
      exact Reader.isName_of_all (by decide) (by decide) (by decide) (by decide)
  have ha : readAll ctx.settings.maxDepth (String.ofList (Datum.writtenItems
      [.list [.symbol "define", .symbol "x", .boolean true]])) =
        .ok [.list [.symbol "define", .symbol "x", .boolean true]] := by
    apply Reader.readAll_writtenItems
    rw [List.forall_mem_singleton]
    exact ⟨⟨hname _ (by simp), hname _ (by simp), True.intro, True.intro⟩, by decide⟩
  have hb : readAll ctx.settings.maxDepth (String.ofList (Datum.writtenItems
      [.symbol "x", .list [.symbol "quote"]])) = .ok [.symbol "x", .list [.symbol "quote"]] := by
    apply Reader.readAll_writtenItems
    rw [List.forall_mem_cons, List.forall_mem_singleton]
    exact ⟨⟨hname _ (by simp), by decide⟩, ⟨hname _ (by simp), True.intro⟩, by decide⟩
  have hc : Reader.readEvery ctx.settings.maxDepth ")".toList = .error ⟨0, .unexpectedClose⟩ := by
    rw [Reader.readEvery, Reader.readRest_eq]
    rfl
  rw [show String.ofList (Datum.writtenItems _) = "(define x #t)" by decide] at ha
  rw [show String.ofList (Datum.writtenItems _) = "x (quote)" by decide] at hb
  have hab : readAll ctx.settings.maxDepth "(define x #t)\nx (quote)" =
      .ok [.list [.symbol "define", .symbol "x", .boolean true], .symbol "x",
        .list [.symbol "quote"]] := by
    have hjoined := @Reader.readAll_joined_eq _ _ "x (quote)" _ ha
    rw [Reader.readAll_eq_ok.1 hb] at hjoined
    exact hjoined
  have hac : ∃ f, readAll ctx.settings.maxDepth "(define x #t)\n)" = .error f ∧
      f.position = 14 := by
    have hjoined := @Reader.readAll_joined_eq _ _ ")" _ ha
    rw [hc] at hjoined
    exact ⟨_, hjoined, by decide⟩
  have hrun : ((ctx.run "(define x #t)\nx (quote)").run s).1 = .ok (.failure arity) ∧
      ((ctx.run "(define x #t)\nx (quote)").run s).2.chain =
        ⟨[("x", .datum (.boolean true))], []⟩ := by
    rw [Context.run_run, hab]
    exact ⟨by decide, rfl⟩
  obtain ⟨hresult, hchain⟩ :=
    (programs_run_in_turn {} [] "(define x #t)" "x (quote)" s).1 _ _ ha hb
  obtain ⟨f, hf, hposition⟩ := hac
  obtain ⟨herror, hkept⟩ := (programs_run_in_turn {} [] "(define x #t)\n)" "" s).2.1 f hf
  exact ⟨hrun.1, hresult.symm.trans hrun.1, hchain.symm.trans hrun.2, f, herror, hposition, hkept⟩

end SchemeCore
