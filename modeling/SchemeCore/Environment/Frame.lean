import SchemeCore.Datum.Foreign

/-!
# Frames

A frame binds names to items, in the order in which the names were first bound. Binding a name
again changes its value in place.
-/

namespace SchemeCore

/-- The bindings of one scope, oldest first. -/
abbrev Frame := List (String × Item)

namespace Frame

/-- The value that the frame binds to a name. -/
def find? (f : Frame) (name : String) : Option Item := f.lookup name

/-- Binds a name: in place if it is bound, and behind all others otherwise. -/
def bind : Frame → String → Item → Frame
  | [], name, value => [(name, value)]
  | (n, v) :: rest, name, value =>
    if n = name then (n, value) :: rest else (n, v) :: bind rest name value

/-- The bound names, in order. -/
def names (f : Frame) : List String := f.map (·.1)

/-- Whether the frame binds the name. -/
def binds (f : Frame) (name : String) : Bool := (f.find? name).isSome

/-- The bindings in braces. -/
def display? (f : Frame) : Option String := do
  let entries ← f.mapM fun (name, value) => value.display?.map (name ++ ": " ++ ·)
  return "\x7b" ++ ", ".intercalate entries ++ "\x7d"

theorem find?_cons (n : String) (v : Item) (rest : Frame) (name : String) :
    find? ((n, v) :: rest) name = if name = n then some v else find? rest name := by
  by_cases h : name = n
  · simp [find?, h]
  · simp [find?, List.lookup_cons, h, beq_false_of_ne h]

theorem find?_bind_self (f : Frame) (name : String) (value : Item) :
    (f.bind name value).find? name = some value := by
  induction f with
  | nil => simp [bind, find?_cons]
  | cons entry rest ih =>
    obtain ⟨n, v⟩ := entry
    by_cases h : n = name
    · simp [bind, h, find?_cons]
    · simp [bind, h, find?_cons, ih, Ne.symm h]

theorem find?_bind_of_ne (f : Frame) {name other : String} (value : Item) (h : other ≠ name) :
    (f.bind name value).find? other = f.find? other := by
  induction f with
  | nil => simp [bind, find?_cons, h]
  | cons entry rest ih =>
    obtain ⟨n, v⟩ := entry
    by_cases hn : n = name
    · simp [bind, hn, find?_cons, h]
    · simp [bind, hn, find?_cons, ih]

end Frame

end SchemeCore
