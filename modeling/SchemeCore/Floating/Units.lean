/-!
# The worth of floating-point numbers

Every finite floating-point number is a whole number of units, where a unit is the least positive
one, `2 ^ (-1074)`. In units a number and an integer are compared without rounding.
-/

namespace SchemeCore.Floating

/-- How many units make 1. -/
def unitsPerOne : Nat := Nat.pow 2 1074

/-- Whether a number carries a minus sign. Zero may carry one, too. -/
def isNegative (x : Float) : Bool := x.toBits.toNat.testBit 63

/-- The worth of a finite number in units, without its sign. -/
def units? (x : Float) : Option Nat :=
  let bits := x.toBits.toNat
  let fraction := bits % Nat.pow 2 52
  match bits / Nat.pow 2 52 % Nat.pow 2 11 with
  | 0 => some fraction
  | 2047 => none
  | exponent => some ((Nat.pow 2 52 + fraction) * Nat.pow 2 (exponent - 1))

/-- The worth of a finite number in units. Both zeros are worth 0. -/
def worth? (x : Float) : Option Int :=
  (units? x).map fun units => if isNegative x then -units else units

/-- The worth of an integer in units. -/
def worthOfInt (n : Int) : Int := n * unitsPerOne

end SchemeCore.Floating
