import SchemeCore.Reader.Element
import Mathlib.Data.Nat.Digits.Defs

/-!
# Layouts

A datum may be spelled in many ways: with or without a radix, in either letter case, with comments
between its parts, with a mark in its short or its long form. `Layout d s rest` says that `s` is a
spelling of `d` in front of the characters `rest`. The characters behind take part, because a token
goes on for as long as it can: `12` spells an integer in front of `a` but not in front of `3`, and
`#` spells a symbol in front of `)` but not in front of `(`.

The rules speak of characters alone; no rule mentions a reader. Atmosphere is `IsAtmosphere`, the
inside of a block comment is `Closes`.
-/

namespace SchemeCore.Reader

/-! ## Atmosphere -/

/-- What is left of a block comment, from a place where `inner` more are open inside it up to its
end. The two-character marks are taken before single characters. -/
inductive Closes : (inner : Nat) → List Char → Prop where
  | last : Closes 0 ['|', '#']
  | outward {inner : Nat} {body : List Char} (h : Closes inner body) :
      Closes (inner + 1) ('|' :: '#' :: body)
  | inward {inner : Nat} {body : List Char} (h : Closes (inner + 1) body) :
      Closes inner ('#' :: '|' :: body)
  | plain {inner : Nat} {c : Char} {body : List Char} (hopen : ¬ ['#', '|'] <+: c :: body)
      (hclose : ¬ ['|', '#'] <+: c :: body) (h : Closes inner body) : Closes inner (c :: body)

/-- White space and comments. A line comment goes on to the end of its line. -/
inductive IsAtmosphere : List Char → Prop where
  | nil : IsAtmosphere []
  | blank {c : Char} {w : List Char} (hc : Text.isBlank c = true) (hw : IsAtmosphere w) :
      IsAtmosphere (c :: w)
  | lineComment {line w : List Char} (hl : '\n' ∉ line) (hw : IsAtmosphere w) :
      IsAtmosphere (';' :: (line ++ '\n' :: w))
  | blockComment {body w : List Char} (hb : Closes 0 body) (hw : IsAtmosphere w) :
      IsAtmosphere ('#' :: '|' :: (body ++ w))

/-! ## Atoms -/

/-- The end of the text or a character that ends a token. -/
def Delimited (rest : List Char) : Prop := ∀ c ∈ rest.head?, Cursor.isDelimiter c = true

/-- The characters in front of the first that ends a token. -/
def token (cs : List Char) : List Char := cs.takeWhile (!Cursor.isDelimiter ·)

/-- A non-empty run of digits that counts `n` in positional notation, leading zeros included. -/
def IsNumeral (radix : Text.Radix) (digits : List Char) (n : Nat) : Prop :=
  digits ≠ [] ∧ (∀ c ∈ digits, radix.isDigit c = true) ∧
    Nat.ofDigits radix.base (digits.filterMap Text.digitValue?).reverse = n

/-- The numeral does not go on behind its digits. -/
def EndsNumeral (radix : Text.Radix) (rest : List Char) : Prop :=
  ∀ c ∈ rest.head?, radix.isDigit c = false

/-- The contents of a string between its marks: a backslash stands in front of each double quote,
and in front of nothing else. -/
def escaped (contents : List Char) : List Char :=
  contents.flatMap fun c => if c = '"' then ['\\', '"'] else [c]

/-- What may follow the `#` of a symbol: nothing that announces a vector, a character, a comment, a
number with a radix, or a boolean. -/
def HashName (tail : List Char) : Prop :=
  (∀ c ∈ tail.head?, Text.foldCase c ∉ ['|', '\\', 'b', 'o', 'd', 'x']) ∧
    String.ofList (tail.map Text.foldCase) ∉ ["t", "f", "true", "false"]

/-- The names that symbols can have in a source text. -/
structure IsName (name : List Char) : Prop where
  ne_nil : name ≠ []
  noDelimiter : ∀ c ∈ name, Cursor.isDelimiter c = false
  ne_dot : name ≠ ['.']
  noDigit : ∀ c ∈ name.head?, c.isDigit = false
  hash : ∀ tail, name = '#' :: tail → HashName tail

/-- The short form of a mark. -/
def shortForm : Mark → List Char
  | .quote => ['\'']
  | .quasiquote => ['\x60']
  | .unquote => [',']
  | .unquoteSplicing => [',', '@']

/-! ## Data -/

mutual

/-- `s` spells the datum in front of `rest`. -/
inductive Layout : Datum → (s rest : List Char) → Prop where
  | decimal {n : Nat} {digits rest : List Char} (hn : IsNumeral .decimal digits n)
      (hr : EndsNumeral .decimal rest) : Layout (.integer n) digits rest
  | radix {n : Nat} {letter : Char} {digits rest : List Char} (radix : Text.Radix)
      (hl : Text.Radix.ofLetter? letter = some radix) (hn : IsNumeral radix digits n)
      (hr : EndsNumeral radix rest) : Layout (.integer n) ('#' :: letter :: digits) rest
  | boolean {value : Bool} {name : String} {tok rest : List Char}
      (hm : (name, value) ∈ booleanNames) (hs : Text.spells tok name = true)
      (hr : Delimited rest) : Layout (.boolean value) ('#' :: tok) rest
  | character {c : Char} {rest : List Char}
      (hr : ∀ entry ∈ characterNames, Text.spells (token (c :: rest)) entry.1 = false) :
      Layout (.char c) ['#', '\\', c] rest
  | characterName {c : Char} {name : String} {tok rest : List Char}
      (hm : (name, c) ∈ characterNames) (hs : Text.spells tok name = true)
      (hr : Delimited rest) : Layout (.char c) ('#' :: '\\' :: tok) rest
  | string {contents rest : List Char} (hc : contents.getLast? ≠ some '\\') :
      Layout (.string (String.ofList contents)) ('"' :: (escaped contents ++ ['"'])) rest
  | symbol {name rest : List Char} (hn : IsName name) (hr : Delimited rest)
      (hp : name = ['#'] → rest.head? ≠ some '(') : Layout (.symbol (String.ofList name)) name rest
  | list {items : List Datum} {w s rest : List Char} (hw : IsAtmosphere w)
      (hs : LayoutItems items s (')' :: rest)) :
      Layout (.list items) ('(' :: (w ++ s ++ [')'])) rest
  | vector {items : List Datum} {w s rest : List Char} (hw : IsAtmosphere w)
      (hs : LayoutItems items s (')' :: rest)) :
      Layout (.vector items) ('#' :: '(' :: (w ++ s ++ [')'])) rest
  | marked {d : Datum} {w s rest : List Char} (mark : Mark) (hw : IsAtmosphere w)
      (hs : Layout d s rest) (ha : mark = .unquote → (w ++ s).head? ≠ some '@') :
      Layout (mark.on d) (shortForm mark ++ w ++ s) rest

/-- `s` spells the data one after another in front of `rest`, with atmosphere behind each. -/
inductive LayoutItems : List Datum → (s rest : List Char) → Prop where
  | nil {rest : List Char} : LayoutItems [] [] rest
  | cons {d : Datum} {ds : List Datum} {s w ss rest : List Char}
      (hs : Layout d s (w ++ ss ++ rest)) (hw : IsAtmosphere w) (hss : LayoutItems ds ss rest) :
      LayoutItems (d :: ds) (s ++ w ++ ss) rest

end

end SchemeCore.Reader
