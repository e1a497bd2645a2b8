/-!
# Decimal integers

The decimal text of an integer. An integer of more than `maxDigits` digits has none: where a
message needs it, the answer is the error `oversizeMessage`.
-/

namespace SchemeCore.Text

/-- The most digits of an integer that has a text. The sign does not count. -/
def maxDigits : Nat := 4300

/-- The decimal digits of an integer, behind a minus sign if it is negative. -/
def decimalDigits (n : Int) : List Char :=
  (if n < 0 then ['-'] else []) ++ Nat.toDigits 10 n.natAbs

/-- The decimal text of an integer of at most `maxDigits` digits. -/
def decimal? (n : Int) : Option String :=
  if (Nat.toDigits 10 n.natAbs).length ≤ maxDigits then some (String.ofList (decimalDigits n))
  else none

/-- What is said where the text of a longer integer is needed. -/
def oversizeMessage : String :=
  "Exceeds the limit (4300 digits) for integer string conversion; " ++
    "use sys.set_int_max_str_digits() to increase the limit"

end SchemeCore.Text
