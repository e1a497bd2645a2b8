import SchemeCore.Datum.Foreign

/-!
# Data as runs of elements

Length, truth, position and membership of data, and the removal of repeated data.
-/

namespace SchemeCore.Datum

/-- The number of characters or elements, for the kinds that have one. -/
def length? : Datum → Option Nat
  | string text => some text.length
  | list items | vector items => some items.length
  | _ => none

/-- Whether a caller takes the datum for true: a datum with a length where that is positive, and
every other one, a false boolean and zero included. -/
def truthy (d : Datum) : Bool :=
  d.length?.all (0 < ·)

/-- The element at `index`, where negative numbers count from the end. -/
def element? (items : List Datum) (index : Int) : Option Datum :=
  let fromStart := if index < 0 then index + items.length else index
  if fromStart < 0 then none else items[fromStart.toNat]?

/-- Whether one of the elements equals the item. -/
def hasMember (items : List Datum) (item : Item) : Bool :=
  items.any fun d => (Item.datum d).agrees item

/-- The data in order without those that occurred before. -/
def distinct (data : List Datum) : List Datum :=
  data.foldl (fun kept d => if d ∈ kept then kept else kept ++ [d]) []

end SchemeCore.Datum
