import SchemeCore.Failure
import SchemeCore.Text.Numeral

/-!
# Failures of the reader

A fault is a cause for which the reader gives up; together with the position that it blames it is a
`ReadFailure`, and together with the source text a `ParseFailure`.
-/

namespace SchemeCore

/-- Why the reader gives up. -/
inductive ReadFault where
  | endOfInput
  | tooDeep (limit : Int)
  | unexpectedClose
  | openBlockComment
  | openString
  /-- A list or vector, named by `what`, without its closing parenthesis. -/
  | openSequence (what : String)
  | dottedList
  /-- A numeral without digits behind what announces it. -/
  | missingDigits (radix : Text.Radix) (introducer : String)
  | missingCharacter
  deriving DecidableEq, Repr

/-- The wording of a fault. -/
def ReadFault.message : ReadFault → String
  | endOfInput => "unexpected end of input"
  | tooDeep limit => "nesting deeper than " ++ toString limit ++ " levels"
  | unexpectedClose => "unexpected ')'"
  | openBlockComment => "unterminated block comment"
  | openString => "unterminated string literal"
  | openSequence what => "unterminated " ++ what ++ ": missing ')'"
  | dottedList => "dotted lists are not supported"
  | missingDigits radix introducer =>
    "expected base-" ++ toString radix.base ++ " digits after " ++ Text.quote introducer
  | missingCharacter => "expected a character after '#\\'"

/-- A fault and the position that is to blame. -/
structure ReadFailure where
  position : Nat
  fault : ReadFault
  deriving DecidableEq, Repr

/-- The failure as a caller sees it, for a reader of `text`. -/
def ReadFailure.inText (f : ReadFailure) (text : String) : ParseFailure :=
  ⟨f.position, f.fault.message, text⟩

end SchemeCore
