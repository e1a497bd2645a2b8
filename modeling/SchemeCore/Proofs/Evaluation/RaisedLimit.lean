import SchemeCore.Proofs.Evaluation.Coupling
import SchemeCore.Proofs.Evaluation.Wording

/-!
# Raised limits

A run that does not stop for its depth does not show its limit: under a higher one it comes to the
same and changes the chain in the same way. The two runs take the same steps for as long as the
first one is within its limit, since no form goes on behind a stop of one of its operands. The limit
of templates moves together with that of evaluations, and a failure that the stack is large enough
to word under the first limit is worded in the same way under the second.
-/

namespace SchemeCore

/-- The stop looks to the outermost call like too deep a nesting. -/
def Stop.ForDepth (levels : Nat) (limit : Int) (e : Stop) : Prop :=
  ∃ f, (Outcome.ofResult levels limit (.error e) : Outcome Item) = .failure f ∧
    f.kind = "recursion-depth"

/-- A fault that can be worded looks the same under all limits, since its wording holds the limit
that it ran into. -/
theorem Outcome.ofResult_fault {levels₁ levels₂ : Nat} (h : levels₁ ≤ levels₂) (limit₁ limit₂ : Int)
    (f : Fault) : Stop.ForDepth levels₁ limit₁ (.fault f) ∨
      (ofResult levels₁ limit₁ (.error (.fault f)) : Outcome Item) =
        ofResult levels₂ limit₂ (.error (.fault f)) := by
  cases hfits : f.wordingFits levels₁ with
  | false => exact .inl ⟨_, Fault.outcome_of_not_fits hfits, rfl⟩
  | true =>
    right
    rw [ofResult, ofResult, Fault.outcome_of_fits hfits,
      Fault.outcome_of_fits (Fault.wordingFits_mono h hfits)]

namespace Coupling

/-- Runs in one chain under two limits, the first of which may stop for its depth. Their other ends
look the same to the outermost call. -/
def raising {levels₁ levels₂ : Nat} (h : levels₁ ≤ levels₂) (limit₁ limit₂ : Int) : Coupling where
  store s₁ s₂ := s₁.chain = s₂.chain
  item _ := True
  stop e₁ e₂ := Stop.ForDepth levels₁ limit₁ e₁ ∨
    (Outcome.ofResult levels₁ limit₁ (.error e₁) : Outcome Item) =
      Outcome.ofResult levels₂ limit₂ (.error e₂)
  excused e _ := Stop.ForDepth levels₁ limit₁ e
  item_symbol _ := True.intro
  item_items _ ds _ := item_items_true ds
  stop_fault f _ _ := Outcome.ofResult_fault h limit₁ limit₂ f
  stop_unmade _ _ _ _ := .inr rfl

theorem forDepth_tooDeep (levels : Nat) (limit limit' : Int) :
    Stop.ForDepth levels limit (.fault (.tooDeep limit')) :=
  ⟨_, rfl, rfl⟩

theorem forDepth_templateTooDeep (levels : Nat) (limit limit' : Int) :
    Stop.ForDepth levels limit (.fault (.templateTooDeep limit')) :=
  ⟨_, rfl, rfl⟩

section

variable {text₁ text₂ : Nat} (hstack : text₁ ≤ text₂) {limit₁ limit₂ : Int}

theorem raising_supports (a : Access) : (raising hstack limit₁ limit₂).Supports a :=
  supports_of_chain (fun _ => True.intro) (fun _ _ hs => hs) (fun _ _ _ _ _ => rfl)
    (fun e => Outcome.ofResult_fault hstack limit₁ limit₂ (.name e)) a

/-- A template that is within the first limit is within the second one. -/
theorem raising_fits {n : Int} {max₁ max₂ : Int} (h : max₁ ≤ max₂) :
    (raising hstack limit₁ limit₂).Fits max₁ max₂ n :=
  ⟨fun _ => .inl fun _ => forDepth_templateTooDeep _ _ _, fun hn => Int.le_trans hn h⟩

/-- With more levels left and a higher limit on templates, a run comes to the same unless the first
one ends for its depth. The induction is on the levels of the first run. -/
theorem evalWithin_raising {settings₁ settings₂ : Settings}
    (h : settings₁.maxDepth ≤ settings₂.maxDepth) {levels₁ levels₂ : Nat}
    (hlevels : levels₁ ≤ levels₂) (e : Datum) :
    (raising hstack limit₁ limit₂).Holds (fun _ => True)
      (Context.evalWithin ⟨settings₁, Forms.builtin⟩ limit₁ levels₁ e)
      (Context.evalWithin ⟨settings₂, Forms.builtin⟩ limit₂ levels₂ e) := by
  induction levels₁ generalizing levels₂ e with
  | zero =>
    unfold Context.evalWithin
    exact holds_excused fun _ => forDepth_tooDeep _ _ _
  | succ levels₁ ih =>
    obtain ⟨levels₂, rfl⟩ := Nat.exists_eq_add_of_le' (Nat.le_trans (Nat.le_add_left 1 _) hlevels)
    exact evalWithin_succ_holds True.intro (fun a _ => raising_supports hstack a)
      (fun _ _ hs => hs) (fun _ _ => raising_fits hstack h) fun e' _ _ _ =>
        ih (Nat.le_of_succ_le_succ hlevels) e'

theorem evalItem_raising {settings₁ settings₂ : Settings}
    (h : settings₁.maxDepth ≤ settings₂.maxDepth) (hlimit : limit₁ ≤ limit₂) (depth : Int)
    (expr : Item) : (raising hstack limit₁ limit₂).Holds (fun _ => True)
      (Context.evalItem ⟨settings₁, Forms.builtin⟩ limit₁ depth expr)
      (Context.evalItem ⟨settings₂, Forms.builtin⟩ limit₂ depth expr) := by
  cases expr with
  | datum e =>
    apply evalWithin_raising hstack h
    unfold levelsLeft
    omega
  | foreign what =>
    unfold Context.evalItem
    dsimp only
    by_cases hdeep : limit₁ < depth
    · rw [if_pos hdeep]
      exact holds_excused fun _ => forDepth_tooDeep _ _ _
    · rw [if_neg hdeep, if_neg (by omega)]
      exact holds_throw (Outcome.ofResult_fault hstack limit₁ limit₂ (.notADatum what))

theorem same_of_raising {P : Item → Prop} {r₁ r₂ : Except Stop Item × Store}
    (h : (raising hstack limit₁ limit₂).Ends P r₁ r₂)
    (hdepth : ∀ f, Outcome.ofResult text₁ limit₁ r₁.1 = .failure f → f.kind ≠ "recursion-depth") :
    Outcome.ofResult text₁ limit₁ r₁.1 = Outcome.ofResult text₂ limit₂ r₂.1 ∧
      r₁.2.chain = r₂.2.chain := by
  cases h with
  | value _ ht => exact ⟨rfl, ht⟩
  | stop he ht =>
    rcases he with ⟨f, hf, hkind⟩ | hsame
    · exact absurd hkind (hdepth f hf)
    · exact ⟨hsame, ht⟩
  | excused he =>
    obtain ⟨f, hf, hkind⟩ := he
    exact absurd hkind (hdepth f hf)

end

end Coupling

/-- An evaluation that does not fail for its depth comes to the same under every higher limit, on a
stack that is no smaller, be it a value, a failure or a refusal, and leaves every frame in the same
state. -/
theorem raising_the_limit_changes_nothing (settings₁ settings₂ : Settings)
    (h : settings₁.maxDepth ≤ settings₂.maxDepth)
    (hstack : settings₁.textLevels ≤ settings₂.textLevels) (expr : Item) (s : Store)
    (hdepth : ∀ f, ((Context.evaluate ⟨settings₁, Forms.builtin⟩ expr).run s).1 = .failure f →
      f.kind ≠ "recursion-depth") :
    ((Context.evaluate ⟨settings₂, Forms.builtin⟩ expr).run s).1 =
        ((Context.evaluate ⟨settings₁, Forms.builtin⟩ expr).run s).1 ∧
      ((Context.evaluate ⟨settings₂, Forms.builtin⟩ expr).run s).2.chain =
        ((Context.evaluate ⟨settings₁, Forms.builtin⟩ expr).run s).2.chain := by
  simp only [Context.run_evaluate, Store.chain_noted] at hdepth ⊢
  have hruns := Coupling.evalItem_raising hstack h h 0 expr
    { s with log := s.log ++ settings₁.records } { s with log := s.log ++ settings₂.records } rfl
  obtain ⟨houtcome, hchain⟩ := Coupling.same_of_raising hstack hruns hdepth
  exact ⟨houtcome.symm, hchain.symm⟩

theorem raising_the_limit_changes_nothing_nested :
    let low : Settings := { depthText := some "3" }
    let high : Settings := {}
    let expr : Item := .datum (.list [.symbol "begin", .list [.symbol "define", .symbol "x",
      Mark.quasiquote.on (.list [.list [Mark.unquote.on (.symbol "y")]])],
        .list [.symbol "set!", .symbol "z", .symbol "x"]])
    let s : Store := { chain := ⟨[("y", .datum (.integer 7))], []⟩ }
    let f : EvalFailure := ⟨"unbound-variable", "Cannot set unbound variable z"⟩
    low.maxDepth = 3 ∧ high.maxDepth = 200 ∧
      ((Context.evaluate ⟨low, Forms.builtin⟩ expr).run s).1 = .failure f ∧
      ((Context.evaluate ⟨high, Forms.builtin⟩ expr).run s).1 = .failure f ∧
      ((Context.evaluate ⟨high, Forms.builtin⟩ expr).run s).2.chain = ⟨[("y", .datum (.integer 7)),
        ("x", .datum (.list [.list [.integer 7]]))], []⟩ := by
  intro low high expr s f
  have hlow : low.maxDepth = 3 := by decide
  have hhigh : high.maxDepth = 200 := by decide
  have houtcome : ((Context.evaluate ⟨low, Forms.builtin⟩ expr).run s).1 = .failure f := by decide
  have hchain : ((Context.evaluate ⟨low, Forms.builtin⟩ expr).run s).2.chain =
      ⟨[("y", .datum (.integer 7)), ("x", .datum (.list [.list [.integer 7]]))], []⟩ := by rfl
  have hdepth : ∀ f', ((Context.evaluate ⟨low, Forms.builtin⟩ expr).run s).1 = .failure f' →
      f'.kind ≠ "recursion-depth" := by
    rw [houtcome]
    rintro _ ⟨⟩
    decide
  obtain ⟨hsame, hsameChain⟩ := raising_the_limit_changes_nothing low high
    (by rw [hlow, hhigh]; decide) (by decide) expr s hdepth
  exact ⟨hlow, hhigh, houtcome, hsame.trans houtcome, hsameChain.trans hchain⟩

end SchemeCore
