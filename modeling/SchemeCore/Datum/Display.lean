import SchemeCore.Datum.Basic
import SchemeCore.Text.Decimal
import SchemeCore.Text.Quoted

/-!
# Displayed data

The text of a datum in messages: the name of its kind and its content in parentheses, as in
`List(Symbol('a'), Integer(5))`. An integer of more than 4300 digits has no text, and neither has a
datum that holds one, so a displayed datum is an `Option`. The text of a nested datum is made from
the inside out on the stack, which may end before the text does: `textFits` says whether it lasts.
-/

namespace SchemeCore

namespace Datum

/-- The text of a truth value. -/
def truthText (value : Bool) : String := if value then "True" else "False"

/-- The name of a kind, and a content in parentheses. -/
def inParens (kind : Kind) (content : String) : String :=
  kind.name ++ "(" ++ content ++ ")"

/-- A text between its marks, where `printable` says which characters need no escape. -/
def quotedWith (printable : Char → Bool) (text : String) : String :=
  String.ofList (Text.quoteWith printable text.toList)

mutual

/-- The text of a datum, where `printable` says which characters need no escape. -/
def displayWith (printable : Char → Bool) : Datum → Option String
  | symbol name => some (inParens .symbol (quotedWith printable name))
  | integer value => (Text.decimal? value).map (inParens .integer)
  | string text => some (inParens .string (quotedWith printable text))
  | boolean value => some (inParens .boolean (truthText value))
  | char value => some (inParens .char (quotedWith printable (String.singleton value)))
  | list items =>
    (displayItemsWith printable items).map fun texts => inParens .list (", ".intercalate texts)
  | vector items =>
    (displayItemsWith printable items).map fun texts => inParens .vector (", ".intercalate texts)

/-- The texts of the elements of a list or vector. -/
def displayItemsWith (printable : Char → Bool) : List Datum → Option (List String)
  | [] => some []
  | item :: items => do
    let text ← displayWith printable item
    let texts ← displayItemsWith printable items
    return text :: texts

end

/-- The text of a datum in messages. -/
def display? (d : Datum) : Option String := displayWith Text.isPrintable d

mutual

/-- Whether a stack that holds so many levels of nesting lasts while the text of a datum is made. -/
def textFits (levels : Nat) : Datum → Bool
  | list items | vector items => itemTextsFit levels items
  | symbol _ | integer _ | string _ | boolean _ | char _ => true

/-- Whether it lasts while the texts of the elements of a list or vector are made in order. The
first element without a text ends them all. -/
def itemTextsFit : (levels : Nat) → List Datum → Bool
  | _, [] => true
  | 0, _ :: _ => false
  | levels + 1, item :: items =>
    item.textFits levels && (item.display?.isNone || itemTextsFit (levels + 1) items)

end

/-- The text of a datum where a name is wanted: a symbol shows its name alone. -/
def bare? : Datum → Option String
  | symbol name => some name
  | d => d.display?

end Datum

end SchemeCore
