import SchemeCore.Text.Blank
import SchemeCore.Text.Decimal
import SchemeCore.Text.DecimalDigit
import SchemeCore.Text.Numeral
import SchemeCore.Text.Quoted

/-!
# Settings

How deep data may nest. The limit is taken from the text of a variable; a text that is no positive
integer is ignored with a warning, and a limit above what the stack can hold is capped with a
warning.
-/

namespace SchemeCore

/-- The digits behind the first one: each may follow a single underscore. -/
def Settings.moreDigits : List Char → Option (List Nat)
  | [] => some []
  | '_' :: c :: cs => do
    let d ← Text.decimalDigit? c
    let ds ← moreDigits cs
    return d :: ds
  | c :: cs => do
    let d ← Text.decimalDigit? c
    let ds ← moreDigits cs
    return d :: ds

/-- The digits of a natural number: at least one, with single underscores between them. -/
def Settings.digits : List Char → Option (List Nat)
  | [] => none
  | c :: cs => do
    let d ← Text.decimalDigit? c
    let ds ← moreDigits cs
    return d :: ds

/-- The natural number that a text of at most `Text.maxDigits` digits spells, leading zeros
included. -/
def Settings.natural? (text : List Char) : Option Int := do
  let ds ← digits text
  if ds.length ≤ Text.maxDigits then some (Text.positional 10 ds) else none

/-- The integer that a text spells: at most one sign and the digits, between white space. -/
def Settings.integer? (text : List Char) : Option Int :=
  match Text.trimBlank text with
  | '+' :: cs => natural? cs
  | '-' :: cs => (natural? cs).map (-·)
  | cs => natural? cs

/-- The variable that sets the limit, and the limits of the stack. -/
structure Settings where
  /-- The text of the variable, if it is set. -/
  depthText : Option String := none
  /-- How many calls the stack can hold. -/
  stackLimit : Int := 1000
  /-- How many levels of nesting the stack can hold while the text of a datum is made. Each level
  takes five calls, and those of the evaluation that the text is made for are taken already. -/
  textLevels : Nat := (stackLimit / 5).toNat - 4

namespace Settings

/-- The name of the variable. -/
def depthVariable : String := "SABLE_MAX_DEPTH"

/-- What is wrong with the text of the variable. -/
inductive Warning where
  | notInteger (text : String)
  | notPositive (text : String)
  | capped (depth ceiling stackLimit : Int)
  deriving DecidableEq, Repr

/-- The wording of a warning. -/
def Warning.message : Warning → String
  | notInteger text =>
    "Ignoring " ++ depthVariable ++ "=" ++ Text.quote text ++ ": not an integer"
  | notPositive text =>
    "Ignoring " ++ depthVariable ++ "=" ++ Text.quote text ++ ": must be positive"
  | capped depth ceiling stackLimit =>
    "Capping " ++ depthVariable ++ "=" ++ toString depth ++ " to " ++ toString ceiling ++
      " for recursion limit " ++ toString stackLimit

/-- The limit where the variable does not set one. -/
def defaultDepth : Int := 200

/-- How many calls one level of nesting may take. -/
def callsPerLevel : Int := 4

/-- How many calls are left to the caller. -/
def reservedCalls : Int := 100

/-- The positive integer that the variable spells. An empty text counts as none, and a text that
spells something else is ignored. -/
def positiveDepth (s : Settings) (fallback : Int) : Int × List Warning :=
  match s.depthText with
  | none => (fallback, [])
  | some text =>
    if text.isEmpty then (fallback, [])
    else
      match integer? text.toList with
      | none => (fallback, [.notInteger text])
      | some n => if n ≤ 0 then (fallback, [.notPositive text]) else (n, [])

/-- The deepest nesting that the stack can hold, and at least 1. -/
def depthCeiling (s : Settings) : Int :=
  max 1 ((s.stackLimit - reservedCalls).fdiv callsPerLevel)

/-- The limit that is in force, and the warnings that asking for it gives. -/
def askDepth (s : Settings) : Int × List Warning :=
  let (depth, warnings) := s.positiveDepth defaultDepth
  if s.depthCeiling < depth then
    (s.depthCeiling, warnings ++ [.capped depth s.depthCeiling s.stackLimit])
  else (depth, warnings)

/-- The limit that is in force. -/
def maxDepth (s : Settings) : Int := s.askDepth.1

/-- The warnings that asking for the limit gives. -/
def warnings (s : Settings) : List Warning := s.askDepth.2

/-- The limit where a caller names one. -/
def capDepth (s : Settings) (depth : Int) : Int := min depth s.depthCeiling

theorem one_le_positiveDepth (s : Settings) {fallback : Int} (h : 1 ≤ fallback) :
    1 ≤ (s.positiveDepth fallback).1 := by
  unfold positiveDepth
  split
  · exact h
  · split
    · exact h
    · split
      · exact h
      · split
        · exact h
        · omega

/-- The limit that is in force leaves room for one level at least. -/
theorem one_le_maxDepth (s : Settings) : 1 ≤ s.maxDepth := by
  have hdepth : 1 ≤ (s.positiveDepth defaultDepth).1 := s.one_le_positiveDepth (by decide)
  unfold maxDepth askDepth
  dsimp only
  split
  · exact Int.le_max_left ..
  · exact hdepth

end Settings

end SchemeCore
