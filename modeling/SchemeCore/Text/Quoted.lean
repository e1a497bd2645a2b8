import SchemeCore.Text.Printable

/-!
# Quoted text

A text as messages show it: between quotation marks, with the marks, backslashes, line ends, tabs
and unprintable characters escaped. Which characters are printable is a parameter of `quoteWith`;
`quote` takes those of `isPrintable`.
-/

namespace SchemeCore.Text

/-- The `width` last hexadecimal digits of `n`, in lower case. -/
def hexDigits : (width n : Nat) → List Char
  | 0, _ => []
  | width + 1, n => hexDigits width (n / 16) ++ [Nat.digitChar (n % 16)]

/-- An unprintable character by its number, in the narrowest of three widths. -/
def numberEscape (c : Char) : List Char :=
  let n := c.toNat
  if n < 0x100 then '\\' :: 'x' :: hexDigits 2 n
  else if n < 0x10000 then '\\' :: 'u' :: hexDigits 4 n
  else '\\' :: 'U' :: hexDigits 8 n

/-- One character of a text between two marks `mark`. -/
def escapeWith (printable : Char → Bool) (mark c : Char) : List Char :=
  if c = mark ∨ c = '\\' then ['\\', c]
  else if c = '\n' then ['\\', 'n']
  else if c = '\r' then ['\\', 'r']
  else if c = '\t' then ['\\', 't']
  else if printable c then [c]
  else numberEscape c

/-- The mark around a text: an apostrophe, or a double quote where the text holds an apostrophe
and no double quote. -/
def quoteMark (text : List Char) : Char :=
  if '\'' ∈ text ∧ '"' ∉ text then '"' else '\''

/-- The text between its marks, escaped. -/
def quoteWith (printable : Char → Bool) (text : List Char) : List Char :=
  let mark := quoteMark text
  mark :: text.flatMap (escapeWith printable mark) ++ [mark]

/-- The text between its marks, with the characters that are not printable escaped. -/
def quote (text : String) : String :=
  String.ofList (quoteWith isPrintable text.toList)

end SchemeCore.Text
