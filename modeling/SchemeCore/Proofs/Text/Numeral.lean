import SchemeCore.Text.Numeral
import Mathlib.Tactic.Ring

/-!
# Positional values

What a run of digits counts does not depend on where it is cut: the digits in front count as often
as the base has to be multiplied to get past those behind (`positional_append`,
`positionalValue_append`). The base may be any integer.
-/

namespace SchemeCore.Text

/-! ## Values of digits in a row -/

/-- The steps from digit to digit carry what they start from past all digits. -/
theorem foldl_positional (radix n : Int) (digits : List Nat) :
    digits.foldl (fun (n : Int) (d : Nat) => n * radix + d) n =
      n * radix ^ digits.length + positional radix digits := by
  unfold positional
  induction digits generalizing n with
  | nil => simp
  | cons d digits ih =>
    rw [List.foldl_cons, List.foldl_cons, ih, ih (0 * radix + d), List.length_cons, pow_succ]
    ring

theorem positional_append (radix : Int) (xs ys : List Nat) :
    positional radix (xs ++ ys) = positional radix xs * radix ^ ys.length + positional radix ys := by
  rw [positional, List.foldl_append, foldl_positional]
  rfl

theorem positional_singleton (radix : Int) (d : Nat) : positional radix [d] = d := by
  simp [positional]

/-! ## Digits -/

theorem digitValue?_digitChar : ∀ n < 16, digitValue? n.digitChar = some n := by decide

/-- Digits of a radix have values. -/
theorem isSome_digitValue? {r : Radix} {c : Char} (h : r.isDigit c = true) :
    (digitValue? c).isSome = true := by
  rw [Radix.isDigit, Option.any_eq_true] at h
  obtain ⟨d, hd, -⟩ := h
  rw [hd]
  rfl

theorem digitValues_eq {r : Radix} {digits : List Char} (h : ∀ c ∈ digits, r.isDigit c = true) :
    digitValues digits = .ok (digits.filterMap digitValue?) := by
  induction digits with
  | nil => rfl
  | cons c digits ih =>
    obtain ⟨hc, hdigits⟩ := List.forall_mem_cons.1 h
    obtain ⟨d, hd⟩ := Option.isSome_iff_exists.1 (isSome_digitValue? hc)
    rw [digitValues, wideDigitValue?, List.filterMap_cons, hd, ih hdigits]
    rfl

theorem length_filterMap_digitValue? {r : Radix} {digits : List Char}
    (h : ∀ c ∈ digits, r.isDigit c = true) :
    (digits.filterMap digitValue?).length = digits.length :=
  List.filterMap_length_eq_length.2 fun c hc => isSome_digitValue? (h c hc)

/-- The value of digits, whatever the radix that they are digits of. -/
theorem positionalValue_eq {r : Radix} {digits : List Char} (h : ∀ c ∈ digits, r.isDigit c = true)
    (radix : Int) :
    positionalValue digits radix = .ok (positional radix (digits.filterMap digitValue?)) := by
  rw [positionalValue, digitValues_eq h]
  rfl

theorem positionalValue_append {r : Radix} {xs ys : List Char}
    (hxs : ∀ c ∈ xs, r.isDigit c = true) (hys : ∀ c ∈ ys, r.isDigit c = true) (radix : Int) :
    ∃ m n, positionalValue xs radix = .ok m ∧ positionalValue ys radix = .ok n ∧
      positionalValue (xs ++ ys) radix = .ok (m * radix ^ ys.length + n) := by
  refine ⟨_, _, positionalValue_eq hxs radix, positionalValue_eq hys radix, ?_⟩
  rw [positionalValue_eq (List.forall_mem_append.2 ⟨hxs, hys⟩), List.filterMap_append,
    positional_append, length_filterMap_digitValue? hys]

end SchemeCore.Text
