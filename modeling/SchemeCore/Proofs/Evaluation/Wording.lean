import SchemeCore.Evaluation.Evaluator
import SchemeCore.Proofs.Datum

/-!
# The stack while failures are worded

The text of a nested datum takes one level of the stack for each level of nesting, so that the stack
may end before a failure is worded that shows the datum.

1. The stack lasts for every datum that is at most as high as it has levels, and for no other that
   has a text (`textFits_iff_height_le`). With more levels it lasts as well (`textFits_mono`).
2. A fault is worded, or else it is taken for too deep an evaluation (`Fault.outcome_of_fits`,
   `Fault.outcome_of_not_fits`), so that the failure of a stop has the tag of the stop or that of
   too deep an evaluation (`Stop.kind?_of_ofResult`).
-/

namespace SchemeCore

namespace Datum

variable {d : Datum} {items : List Datum} {levels levels' : Nat}

theorem itemTextsFit_cons {item : Datum} : itemTextsFit levels (item :: items) = true ↔
    ∃ n, levels = n + 1 ∧ item.textFits n = true ∧
      (item.display? = none ∨ itemTextsFit levels items = true) := by
  cases levels with
  | zero => simp [itemTextsFit]
  | succ n => simp [itemTextsFit]

theorem textFits_of_height_le (h : d.height ≤ levels) : d.textFits levels = true := by
  induction d using Datum.induction generalizing levels with
  | atom d hd =>
    cases d with
    | list items => cases hd
    | vector items => cases hd
    | symbol | integer | string | boolean | char => rfl
  | list items ih | vector items ih =>
    rw [height] at h
    rw [textFits]
    induction items with
    | nil => rw [itemTextsFit]
    | cons item items ihItems =>
      rw [heightItems] at h
      obtain ⟨hitem, hitems⟩ := List.forall_mem_cons.1 ih
      obtain ⟨n, rfl⟩ : ∃ n, levels = n + 1 := ⟨levels - 1, by omega⟩
      exact itemTextsFit_cons.2 ⟨n, rfl, hitem (by omega), .inr (ihItems hitems (by omega))⟩

theorem textFits_mono (hle : levels ≤ levels') (h : d.textFits levels = true) :
    d.textFits levels' = true := by
  induction d using Datum.induction generalizing levels levels' with
  | atom d hd => exact textFits_of_height_le (by rw [height_eq_zero hd]; exact Nat.zero_le _)
  | list items ih | vector items ih =>
    rw [textFits] at h ⊢
    induction items with
    | nil => rw [itemTextsFit]
    | cons item items ihItems =>
      obtain ⟨hitem, hitems⟩ := List.forall_mem_cons.1 ih
      obtain ⟨n, rfl, hfirst, hothers⟩ := itemTextsFit_cons.1 h
      obtain ⟨n', rfl⟩ : ∃ n', levels' = n' + 1 := ⟨levels' - 1, by omega⟩
      exact itemTextsFit_cons.2
        ⟨n', rfl, hitem (by omega) hfirst, hothers.imp_right (ihItems hitems)⟩

theorem isSome_displayItemsWith {printable : Char → Bool} :
    (displayItemsWith printable items).isSome = true ↔
      ∀ item ∈ items, (displayWith printable item).isSome = true := by
  induction items with
  | nil => simp [displayItemsWith]
  | cons item items ih =>
    rw [displayItemsWith, List.forall_mem_cons, ← ih]
    cases displayWith printable item <;> cases displayItemsWith printable items <;> simp

/-- A datum that has a text is at most as high as the levels that its text takes. -/
theorem height_le_of_textFits (htext : d.display?.isSome) (h : d.textFits levels = true) :
    d.height ≤ levels := by
  induction d using Datum.induction generalizing levels with
  | atom d hd =>
    rw [height_eq_zero hd]
    exact Nat.zero_le _
  | list items ih | vector items ih =>
    rw [display?, displayWith, Option.isSome_map, isSome_displayItemsWith] at htext
    rw [textFits] at h
    rw [height]
    induction items with
    | nil => exact Nat.zero_le _
    | cons item items ihItems =>
      obtain ⟨hitem, hitems⟩ := List.forall_mem_cons.1 ih
      obtain ⟨htext, htexts⟩ := List.forall_mem_cons.1 htext
      obtain ⟨n, rfl, hfirst, hothers⟩ := itemTextsFit_cons.1 h
      have hheight := hitem htext hfirst
      rcases hothers with hnone | hothers
      · rw [display?] at hnone
        simp [hnone] at htext
      · have hheights := ihItems hitems htexts hothers
        rw [heightItems]
        omega

/-- The stack lasts for exactly the height of a datum that has a text. -/
theorem textFits_iff_height_le (htext : d.display?.isSome) :
    d.textFits levels = true ↔ d.height ≤ levels :=
  ⟨height_le_of_textFits htext, textFits_of_height_le⟩

theorem textFits_of_items? (h : d.items? = some items) :
    d.textFits levels = itemTextsFit levels items := by
  cases d <;> cases h <;> rw [textFits]

/-- A datum inside so many containers that hold nothing else. -/
def inside (wrap : Datum → Datum) : Nat → Datum → Datum
  | 0, d => d
  | n + 1, d => wrap (inside wrap n d)

theorem height_inside {wrap : Datum → Datum} (hwrap : ∀ d, (wrap d).items? = some [d]) (n : Nat) :
    (inside wrap n d).height = n + d.height := by
  induction n with
  | zero => rw [inside, Nat.zero_add]
  | succ n ih =>
    rw [inside, height_eq_heightItems (hwrap _), heightItems, heightItems, ih]
    omega

theorem not_textFits_inside {wrap : Datum → Datum} (hwrap : ∀ d, (wrap d).items? = some [d])
    {n : Nat} (h : levels < n) : (inside wrap n d).textFits levels = false := by
  induction n generalizing levels with
  | zero => omega
  | succ n ih =>
    rw [inside, textFits_of_items? (hwrap _)]
    cases levels with
    | zero => rfl
    | succ levels => rw [itemTextsFit, ih (by omega), Bool.false_and]

end Datum

namespace Fault

variable {f : Fault} {levels levels' : Nat} {limit : Int}

theorem wordingFits_mono (hle : levels ≤ levels') (h : f.wordingFits levels = true) :
    f.wordingFits levels' = true := by
  unfold wordingFits at h ⊢
  rw [Option.all_eq_true] at h ⊢
  intro v hv
  cases v with
  | datum d => exact Datum.textFits_mono hle (h _ hv)
  | foreign what => rfl

/-- Only a datum can be nested deeper than the stack lasts for. -/
theorem exists_of_not_fits (h : f.wordingFits levels = false) :
    ∃ d, f.subject? = some (.datum d) ∧ d.textFits levels = false := by
  unfold wordingFits at h
  cases hv : f.subject? with
  | none =>
    rw [hv] at h
    cases h
  | some v =>
    rw [hv] at h
    cases v with
    | datum d => exact ⟨d, rfl, h⟩
    | foreign what => cases h

theorem outcome_of_fits {α : Type} (h : f.wordingFits levels = true) :
    (f.outcome levels limit : Outcome α) = match f.failure? with
      | some failure => .failure failure
      | none => .oversized := if_pos h

theorem outcome_of_not_fits {α : Type} (h : f.wordingFits levels = false) :
    (f.outcome levels limit : Outcome α) = .failure (.tooDeep limit) :=
  if_neg (Bool.eq_false_iff.1 h)

end Fault

/-- The tag of the failure that a stop is, if it is one. -/
def Stop.kind? : Stop → Option String
  | fault f => some f.kind
  | raised e => some e.cls.kind
  | stackEnded _ => some "recursion-depth"
  | unmade _ => none

/-- A stop that becomes a failure keeps its tag, unless the stack ends while it is worded. -/
theorem Stop.kind?_of_ofResult {α : Type} {levels : Nat} {limit : Int} {e : Stop}
    {failure : EvalFailure}
    (h : (Outcome.ofResult levels limit (.error e) : Outcome α) = .failure failure) :
    e.kind? = some failure.kind ∨
      ∃ f, e = .fault f ∧ f.wordingFits levels = false ∧ failure = .tooDeep limit := by
  cases e with
  | fault f =>
    replace h : (f.outcome levels limit : Outcome α) = .failure failure := h
    cases hfits : f.wordingFits levels with
    | false =>
      rw [Fault.outcome_of_not_fits hfits] at h
      cases h
      exact .inr ⟨f, rfl, hfits, rfl⟩
    | true =>
      rw [Fault.outcome_of_fits hfits, Fault.failure?] at h
      cases hm : f.message? with
      | none =>
        rw [hm] at h
        cases h
      | some message =>
        rw [hm] at h
        cases h
        exact .inl rfl
  | raised e | stackEnded message =>
    cases h
    exact .inl rfl
  | unmade e => cases h

end SchemeCore
