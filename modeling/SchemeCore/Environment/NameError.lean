import SchemeCore.Environment.Chain

/-!
# Names as a caller gives them

A caller names a binding by an item. Only a symbol can be bound; anything else is merely not bound.
-/

namespace SchemeCore

/-- Why an operation on a name was refused. -/
inductive NameError where
  | cannotBind (what : Item)
  | unbound (what : Item)
  | cannotAssign (what : Item)

namespace NameError

/-- The class of the error. -/
def cls : NameError → ErrorClass
  | cannotBind _ => .invalidSymbol
  | unbound _ | cannotAssign _ => .unboundSymbol

/-- The wording of the error, if the item has a text. -/
def message? : NameError → Option String
  | cannotBind what => what.display?.map fun text => "Cannot bind " ++ text ++ ": not a symbol"
  | unbound what => what.bare?.map ("Unbound variable " ++ ·)
  | cannotAssign what => what.bare?.map ("Cannot set unbound variable " ++ ·)

end NameError

namespace Chain

/-- The value of a name. -/
def lookupItem (c : Chain) (name : Item) : Except NameError Item :=
  match name.name?.bind c.lookup with
  | some value => .ok value
  | none => .error (.unbound name)

/-- How many frames away the nearest binding of a name is. -/
def distanceItem? (c : Chain) (name : Item) : Option Nat := name.name?.bind c.distance?

/-- Binds a name in the current frame. -/
def bindItem (c : Chain) (name : Item) (value : Item) : Except NameError Chain :=
  match name.name? with
  | some n => .ok (c.bind n value)
  | none => .error (.cannotBind name)

/-- Gives a bound name a new value where it is bound. -/
def assignItem (c : Chain) (name : Item) (value : Item) : Except NameError Chain :=
  match name.name?.bind (c.assign · value) with
  | some c' => .ok c'
  | none => .error (.cannotAssign name)

/-- Puts a pair into a mapping: the first of two equal names keeps its place and takes the value of
the second. -/
def insertPair (name : Item) (value : Item) : List (Item × Item) → List (Item × Item)
  | [] => [(name, value)]
  | (n, v) :: rest =>
    if n.agrees name then (n, value) :: rest else (n, v) :: insertPair name value rest

/-- The mapping that a list of pairs describes. -/
def mapping (pairs : List (Item × Item)) : List (Item × Item) :=
  pairs.foldl (fun kept (name, value) => insertPair name value kept) []

/-- Binds names in order up to the first that is none. -/
def bindPairs (c : Chain) : List (Item × Item) → Chain × Option NameError
  | [] => (c, none)
  | (name, value) :: rest =>
    match c.bindItem name value with
    | .ok c' => bindPairs c' rest
    | .error e => (c, some e)

/-- Binds the names of a mapping in the current frame. -/
def update (c : Chain) (pairs : List (Item × Item)) : Chain × Option NameError :=
  c.bindPairs (mapping pairs)

end Chain

end SchemeCore
