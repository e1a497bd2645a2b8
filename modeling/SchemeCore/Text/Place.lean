/-!
# Lines and columns

A position in a text counts characters from 0. Its line and column count from 1, and only the line
feed ends a line. A position behind the end of the text lies on the last line. A negative position
lies on the line that is found from the end of the text, and its column counts from the start of
that line all the same.
-/

namespace SchemeCore.Text

/-- The part of the text in front of a position. A negative position counts from the end. -/
def before (text : List Char) (pos : Int) : List Char :=
  text.take (if pos < 0 then pos + text.length else pos).toNat

/-- The line of the position `pos`. -/
def lineAt (text : List Char) (pos : Int) : Nat :=
  (before text pos).count '\n' + 1

/-- The position at which the line of `pos` starts. -/
def lineStart (text : List Char) (pos : Int) : Nat :=
  (before text pos).length - ((before text pos).reverse.takeWhile (· != '\n')).length

/-- The column of the position `pos`. -/
def columnAt (text : List Char) (pos : Int) : Int :=
  pos - lineStart text pos + 1

/-- A position in or behind the text has the characters up to it in front. -/
theorem before_natCast (text : List Char) (pos : Nat) : before text pos = text.take pos := by
  rw [before, if_neg (by omega), Int.toNat_natCast]

end SchemeCore.Text
