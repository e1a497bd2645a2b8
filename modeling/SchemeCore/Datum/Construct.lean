import SchemeCore.Datum.Foreign

/-!
# Checked construction

Data made of what a caller hands over. A list or vector is made of data only, however many; every
other kind of datum is made of a single foreign value of its own sort.
-/

namespace SchemeCore

/-- Why a datum was not made. -/
inductive ConstructionError where
  /-- What was handed over is no content for the kind. -/
  | content (kind : Kind) (got : Item)
  /-- An atom takes a single content. -/
  | operands (kind : Kind) (count : Nat)
  deriving DecidableEq

namespace ConstructionError

/-- What the kind wants. -/
def wanted : Kind → String
  | .symbol => "Symbol name must be a str"
  | .integer => "Integer expects an int"
  | .string => "Str expects a str"
  | .boolean => "Boolean expects a bool"
  | .char => "Char expects exactly one character"
  | .list => "List elements must be Values"
  | .vector => "Vector elements must be Values"

/-- What the content of the kind is called. -/
def contentName : Kind → String
  | .symbol => "name"
  | _ => "value"

/-- The text of the error, if the refused item has one. The count that it gives for too many
operands includes the datum to be made. -/
def message? : ConstructionError → Option String
  | content kind got => got.display?.map fun text => wanted kind ++ ", got " ++ text
  | operands kind 0 =>
    some (kind.name ++ ".__init__() missing 1 required positional argument: '" ++
      contentName kind ++ "'")
  | operands kind count =>
    some (kind.name ++ ".__init__() takes 2 positional arguments but " ++ toString (count + 1) ++
      " were given")

end ConstructionError

namespace Datum

/-- The data among the items, or the first item that is none. -/
def ofItems : List Item → Except Item (List Datum)
  | [] => .ok []
  | .datum d :: items => (ofItems items).map (d :: ·)
  | item :: _ => .error item

/-- The list of the items. -/
def listOf (items : List Item) : Except ConstructionError Datum :=
  ((ofItems items).map list).mapError (.content .list)

/-- The vector of the items. -/
def vectorOf (items : List Item) : Except ConstructionError Datum :=
  ((ofItems items).map vector).mapError (.content .vector)

/-- The atom of a kind with the content `got`. -/
def atom? : Kind → Item → Option Datum
  | .symbol, .foreign (.text name) => some (symbol name)
  | .integer, .foreign (.whole value) => some (integer value)
  | .string, .foreign (.text text) => some (string text)
  | .boolean, .foreign (.truth value) => some (boolean value)
  | .char, .foreign (.text text) =>
    match text.toList with
    | [c] => some (char c)
    | _ => none
  | _, _ => none

/-- The datum of a kind that is made of the items. -/
def make : Kind → List Item → Except ConstructionError Datum
  | .list, items => listOf items
  | .vector, items => vectorOf items
  | kind, [got] =>
    match atom? kind got with
    | some d => .ok d
    | none => .error (.content kind got)
  | kind, items => .error (.operands kind items.length)

theorem ofItems_map_datum (ds : List Datum) : ofItems (ds.map .datum) = .ok ds := by
  induction ds with
  | nil => rfl
  | cons d ds ih => simp [ofItems, ih, Except.map]

/-- Data make a list. -/
theorem listOf_map_datum (ds : List Datum) : listOf (ds.map .datum) = .ok (list ds) := by
  rw [listOf, ofItems_map_datum]
  rfl

/-- Data make a vector. -/
theorem vectorOf_map_datum (ds : List Datum) : vectorOf (ds.map .datum) = .ok (vector ds) := by
  rw [vectorOf, ofItems_map_datum]
  rfl

end Datum

end SchemeCore
