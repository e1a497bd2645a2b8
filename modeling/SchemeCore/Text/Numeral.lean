import SchemeCore.Text.DecimalDigit
import SchemeCore.Text.LetterCase

/-!
# Numerals

Positional notation. A numeral is a run of digits of one radix, most significant first, and its
value is computed by one step `n ↦ n * radix + d` for each digit `d` (`positional`).
-/

namespace SchemeCore.Text

/-- The value of a hexadecimal digit in either case. -/
def digitValue? (c : Char) : Option Nat :=
  if '0' ≤ c ∧ c ≤ '9' then some (c.toNat - '0'.toNat)
  else if 'a' ≤ c ∧ c ≤ 'f' then some (c.toNat - 'a'.toNat + 10)
  else if 'A' ≤ c ∧ c ≤ 'F' then some (c.toNat - 'A'.toNat + 10)
  else none

/-- The value of a run of digit values in `radix`, most significant first. -/
def positional (radix : Int) (digits : List Nat) : Int :=
  digits.foldl (fun (n : Int) (d : Nat) => n * radix + d) 0

/-- The value of a hexadecimal digit, or of a decimal digit of any script. -/
def wideDigitValue? (c : Char) : Option Nat :=
  (digitValue? c).or (decimalDigit? c)

/-- The values of a run of such digits, or the first character that is none. -/
def digitValues : List Char → Except Char (List Nat)
  | [] => .ok []
  | c :: cs =>
    match wideDigitValue? c with
    | none => .error c
    | some d => (digitValues cs).map (d :: ·)

/-- The value of `digits` in `radix`. Each character counts as a hexadecimal digit, whatever the
radix, and so do the decimal digits of all scripts; the first that is none is the error. -/
def positionalValue (digits : List Char) (radix : Int) : Except Char Int :=
  (digitValues digits).map (positional radix)

/-- The radixes of integer literals. -/
inductive Radix where
  | binary
  | octal
  | decimal
  | hexadecimal
  deriving DecidableEq, Repr

namespace Radix

def base : Radix → Nat
  | binary => 2
  | octal => 8
  | decimal => 10
  | hexadecimal => 16

/-- The radix that the letter after `#` announces, in either case. -/
def ofLetter? (c : Char) : Option Radix :=
  match foldCase c with
  | 'b' => some binary
  | 'o' => some octal
  | 'd' => some decimal
  | 'x' => some hexadecimal
  | _ => none

/-- The radix with a given base. -/
def ofBase? (n : Int) : Option Radix :=
  [binary, octal, decimal, hexadecimal].find? fun r => (r.base : Int) = n

/-- Whether `c` is a digit of the radix. -/
def isDigit (r : Radix) (c : Char) : Bool :=
  (digitValue? c).any (· < r.base)

/-- The value of a run of digits of the radix. -/
def value (r : Radix) (digits : List Char) : Int :=
  positional r.base (digits.filterMap digitValue?)

end Radix

end SchemeCore.Text
