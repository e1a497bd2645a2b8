import SchemeCore.Floating.Units

/-!
# Shortest decimals

A finite floating-point number is written with the fewest decimal digits that read back as the same
number, and of two such decimals with the nearer one. For each number of digits the decimals next to
the number on both sides are tried; `readsBack` is the test, and `shortest` the result.
-/

namespace SchemeCore.Floating

/-- The decimal `digits * 10 ^ exponent`. -/
structure Decimal where
  digits : Nat
  exponent : Int
  deriving DecidableEq, Repr

/-- Whether the decimal, read as a floating-point number, is worth `units`. -/
def Decimal.readsBack (d : Decimal) (units : Nat) : Bool :=
  units? (Float.ofScientific d.digits (d.exponent < 0) d.exponent.natAbs) = some units

/-- The number of digits in front of the point of a positive number. Each zero that follows the
point directly counts as one less than none. -/
def pointOf (units : Nat) : Int :=
  let shift := 400
  (Nat.toDigits 10 (units * Nat.pow 10 shift / unitsPerOne)).length - shift

/-- The multiples of `10 ^ exponent` below and above a number, the nearer one first. Where both are
equally near, the even one counts as the nearer. -/
def neighbours (units : Nat) (exponent : Int) : List Decimal :=
  let scaled := units * Nat.pow 10 (-exponent).toNat
  let grid := unitsPerOne * Nat.pow 10 exponent.toNat
  let below := scaled / grid
  let rest := 2 * (scaled % grid)
  if rest < grid ∨ rest = grid ∧ below % 2 = 0 then [⟨below, exponent⟩, ⟨below + 1, exponent⟩]
  else [⟨below + 1, exponent⟩, ⟨below, exponent⟩]

/-- The most digits that are ever needed. -/
def maxDigits : Nat := 17

/-- The shortest decimal that reads back as a positive number. The number is a decimal itself, which
stands in should none be found. -/
def shortest (units : Nat) : Decimal :=
  let found := (List.range maxDigits).findSome? fun (n : Nat) =>
    (neighbours units (pointOf units - (n + 1))).find? (·.readsBack units)
  found.getD ⟨units * Nat.pow 5 1074, -1074⟩

end SchemeCore.Floating
