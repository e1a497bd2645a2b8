import SchemeCore.Datum.Display
import SchemeCore.Failure
import SchemeCore.Floating.Layout

/-!
# Foreign values

A caller may hand over something that is no datum where a datum or a name is wanted. Such a value
can be bound to a name, but it is no expression and no part of a datum, and it is refused as one
with a message that shows it. An `Item` is what a caller hands over and what a name stands for: a
datum or a foreign value.
-/

namespace SchemeCore

/-- A value that is no datum. -/
inductive Foreign where
  | nothing
  | truth (value : Bool)
  | whole (value : Int)
  | real (value : Float)
  | text (value : String)
  | parseFailure (failure : ParseFailure)
  deriving DecidableEq, Repr

namespace Foreign

/-- The name of the sort of value, as the log writes it. -/
def kindName : Foreign → String
  | nothing => "NoneType"
  | truth _ => "bool"
  | whole _ => "int"
  | real _ => "float"
  | text _ => "str"
  | parseFailure _ => "ParseFailure"

/-- The text of a foreign value in messages. -/
def display? : Foreign → Option String
  | nothing => some "None"
  | truth value => some (Datum.truthText value)
  | whole value => Text.decimal? value
  | real value => some (Floating.text value)
  | text value => some (Text.quote value)
  | parseFailure failure => some failure.display

/-- The text of a foreign value where a name is wanted: a text shows itself. -/
def bare? : Foreign → Option String
  | text value => some value
  | parseFailure failure => some failure.describe
  | v => v.display?

/-- What a foreign value is worth as a finite number: truth values are worth 0 and 1. -/
def worth? : Foreign → Option Int
  | truth value => some (Floating.worthOfInt (if value then 1 else 0))
  | whole value => some (Floating.worthOfInt value)
  | real value => Floating.worth? value
  | _ => none

/-- Equality of foreign values: finite numbers by their exact worth, all else by its content. What
is not a number does not even equal itself. -/
def agrees (a b : Foreign) : Bool :=
  match a.worth?, b.worth? with
  | some m, some n => m == n
  | none, none =>
    match a, b with
    | real x, real y => x == y
    | parseFailure f, parseFailure g => f.agrees g
    | _, _ => a == b
  | _, _ => false

end Foreign

/-- What a caller hands over, or what a name stands for. -/
inductive Item where
  | datum (value : Datum)
  | foreign (value : Foreign)
  deriving DecidableEq

namespace Item

/-- The name of the kind of datum or of the sort of foreign value. -/
def kindName : Item → String
  | datum d => d.kind.name
  | foreign v => v.kindName

/-- The text of an item in messages. -/
def display? : Item → Option String
  | datum d => d.display?
  | foreign v => v.display?

/-- Whether a stack that holds so many levels of nesting lasts while the text of an item is made. A
foreign value does not nest. -/
def textFits (levels : Nat) : Item → Bool
  | datum d => d.textFits levels
  | foreign _ => true

/-- The text of an item where a name is wanted. -/
def bare? : Item → Option String
  | datum d => d.bare?
  | foreign v => v.bare?

/-- Equality of items. A datum never equals a foreign value. -/
def agrees : Item → Item → Bool
  | datum a, datum b => a == b
  | foreign a, foreign b => a.agrees b
  | _, _ => false

/-- The name that the item is, if it is a symbol. -/
def name? : Item → Option String
  | datum (.symbol name) => some name
  | _ => none

end Item

end SchemeCore
