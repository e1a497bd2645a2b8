import SchemeCore.Floating.Shortest

/-!
# The text of floating-point numbers

A number is written positionally, with at least one digit on each side of the point, if its first
digit is at most 4 places behind the point or at most 16 places in front of it. Other numbers are
written with a power of ten that has a sign and at least two digits.
-/

namespace SchemeCore.Floating

/-- The digits with a point behind the first `point` of them. -/
def positional (digits : List Char) (point : Int) : List Char :=
  if point ≤ 0 then '0' :: '.' :: (List.replicate (-point).toNat '0' ++ digits)
  else
    let fraction := digits.drop point.toNat
    (digits.take point.toNat).rightpad point.toNat '0' ++ '.' ::
      (if fraction.isEmpty then ['0'] else fraction)

/-- The digits with a point behind the first one, if more follow, and a power of ten. -/
def scientific (digits : List Char) (exponent : Int) : List Char :=
  let fraction := digits.drop 1
  digits.take 1 ++ (if fraction.isEmpty then [] else '.' :: fraction) ++
    'e' :: (if exponent < 0 then '-' else '+') ::
      (Nat.toDigits 10 exponent.natAbs).leftpad 2 '0'

/-- The text of a decimal without its sign, where `point` digits stand in front of the point. -/
def layOut (digits : List Char) (point : Int) : List Char :=
  if -4 < point ∧ point ≤ 16 then positional digits point else scientific digits (point - 1)

/-- The text of a finite number, worth `units` without its sign. -/
def finiteText (units : Nat) : List Char :=
  if units = 0 then layOut ['0'] 1
  else
    let d := shortest units
    let digits := Nat.toDigits 10 d.digits
    layOut (digits.reverse.dropWhile (· == '0')).reverse (digits.length + d.exponent)

/-- The text of a number. -/
def text (x : Float) : String :=
  match units? x with
  | some units => String.ofList ((if isNegative x then ['-'] else []) ++ finiteText units)
  | none => if x.isNaN then "nan" else if isNegative x then "-inf" else "inf"

end SchemeCore.Floating
