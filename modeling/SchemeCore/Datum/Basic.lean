/-!
# Data

The data that the reader produces and the evaluator consumes. Two data of different kinds are never
equal, whatever they hold.
-/

namespace SchemeCore

/-- A datum: an atom, or a list or vector of data. -/
inductive Datum where
  | symbol (name : String)
  | integer (value : Int)
  | string (text : String)
  | boolean (value : Bool)
  | char (value : Char)
  | list (items : List Datum)
  | vector (items : List Datum)
  deriving Inhabited

/-- The kinds of data, one for each constructor of `Datum`. -/
inductive Kind where
  | symbol
  | integer
  | string
  | boolean
  | char
  | list
  | vector
  deriving DecidableEq, Repr

/-- The name of the kind, as messages and displayed data write it. -/
def Kind.name : Kind → String
  | symbol => "Symbol"
  | integer => "Integer"
  | string => "Str"
  | boolean => "Boolean"
  | char => "Char"
  | list => "List"
  | vector => "Vector"

namespace Datum

mutual

/-- Equality of data is decided constructor by constructor. -/
def decEq : (a b : Datum) → Decidable (a = b)
  | symbol a, symbol b => decidable_of_iff (a = b) (by simp)
  | integer a, integer b => decidable_of_iff (a = b) (by simp)
  | string a, string b => decidable_of_iff (a = b) (by simp)
  | boolean a, boolean b => decidable_of_iff (a = b) (by simp)
  | char a, char b => decidable_of_iff (a = b) (by simp)
  | list a, list b =>
    match decEqItems a b with
    | isTrue h => isTrue (by rw [h])
    | isFalse h => isFalse (by simpa using h)
  | vector a, vector b =>
    match decEqItems a b with
    | isTrue h => isTrue (by rw [h])
    | isFalse h => isFalse (by simpa using h)
  | symbol _, integer _ | symbol _, string _ | symbol _, boolean _ | symbol _, char _
  | symbol _, list _ | symbol _, vector _ => isFalse (by simp)
  | integer _, symbol _ | integer _, string _ | integer _, boolean _ | integer _, char _
  | integer _, list _ | integer _, vector _ => isFalse (by simp)
  | string _, symbol _ | string _, integer _ | string _, boolean _ | string _, char _
  | string _, list _ | string _, vector _ => isFalse (by simp)
  | boolean _, symbol _ | boolean _, integer _ | boolean _, string _ | boolean _, char _
  | boolean _, list _ | boolean _, vector _ => isFalse (by simp)
  | char _, symbol _ | char _, integer _ | char _, string _ | char _, boolean _
  | char _, list _ | char _, vector _ => isFalse (by simp)
  | list _, symbol _ | list _, integer _ | list _, string _ | list _, boolean _
  | list _, char _ | list _, vector _ => isFalse (by simp)
  | vector _, symbol _ | vector _, integer _ | vector _, string _ | vector _, boolean _
  | vector _, char _ | vector _, list _ => isFalse (by simp)

/-- Equality of runs of data is decided element by element. -/
def decEqItems : (as bs : List Datum) → Decidable (as = bs)
  | [], [] => isTrue rfl
  | [], _ :: _ | _ :: _, [] => isFalse (by simp)
  | a :: as, b :: bs =>
    match decEq a b with
    | isFalse h => isFalse (by simp [h])
    | isTrue h =>
      match decEqItems as bs with
      | isTrue hs => isTrue (by rw [h, hs])
      | isFalse hs => isFalse (by simp [hs])

end

instance : DecidableEq Datum := decEq

def kind : Datum → Kind
  | symbol _ => .symbol
  | integer _ => .integer
  | string _ => .string
  | boolean _ => .boolean
  | char _ => .char
  | list _ => .list
  | vector _ => .vector

/-- The elements of a list or vector. -/
def items? : Datum → Option (List Datum)
  | list items | vector items => some items
  | _ => none

mutual

/-- How deep a datum nests: atoms and empty containers have height 0, and a container is one higher
than its highest element. -/
def height : Datum → Nat
  | list items | vector items => heightItems items
  | symbol _ | integer _ | string _ | boolean _ | char _ => 0

/-- The height of a container with these elements. -/
def heightItems : List Datum → Nat
  | [] => 0
  | item :: items => max (item.height + 1) (heightItems items)

end

/-- The empty list, which stands for an unspecified value too. -/
abbrev nil : Datum := list []

end Datum

end SchemeCore
