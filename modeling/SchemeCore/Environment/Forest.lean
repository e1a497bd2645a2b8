import SchemeCore.Environment.NameError

/-!
# Forests of scopes

The scopes of a session are numbered in the order in which they were made. A scope may be made
inside an older one, whose bindings are visible in it; scopes share the frames of the scopes that
they lie in. `chain` shows a scope as the chain of its frames, and `inChain` runs an operation on
that chain and puts the frames back.
-/

namespace SchemeCore

/-- A scope: its own bindings, and the number of the scope around it. -/
structure Scope where
  frame : Frame := []
  parent : Option Nat := none

/-- All scopes, by number. -/
structure Forest where
  scopes : List Scope

namespace Forest

/-- A single scope, number 0, without bindings. -/
def root : Forest := ⟨[⟨[], none⟩]⟩

/-- Adds a scope without bindings; its number is the second component. -/
def addScope (f : Forest) (parent : Option Nat) : Forest × Nat :=
  (⟨f.scopes ++ [⟨[], parent⟩]⟩, f.scopes.length)

/-- The numbers of the scope and of those around it, from the inside out. Scopes lie in older ones
only, so the numbers descend. -/
def path (f : Forest) (scope : Nat) : List Nat :=
  match f.scopes[scope]? with
  | none => []
  | some s =>
    match s.parent with
    | none => [scope]
    | some parent => if parent < scope then scope :: f.path parent else [scope]
termination_by scope

/-- The bindings of a scope. -/
def frame (f : Forest) (scope : Nat) : Frame :=
  (f.scopes[scope]?.map Scope.frame).getD []

/-- The frames that are visible from a scope. -/
def chain (f : Forest) (scope : Nat) : Chain :=
  ⟨f.frame scope, (f.path scope).tail.map f.frame⟩

/-- Replaces the bindings of a scope. -/
def putFrame (f : Forest) (scope : Nat) (frame : Frame) : Forest :=
  ⟨f.scopes.modify scope fun s => { s with frame }⟩

/-- Replaces the bindings of a scope and of those around it. -/
def putChain (f : Forest) (scope : Nat) (c : Chain) : Forest :=
  ((f.path scope).zip c.frames).foldl (fun f (n, frame) => f.putFrame n frame) f

/-- The number of the scope whose bindings are the nearest to hold a name. -/
def find? (f : Forest) (scope : Nat) (name : Item) : Option Nat :=
  ((f.chain scope).distanceItem? name).bind fun distance => (f.path scope)[distance]?

/-- The bindings of a scope, with an arrow where there is a scope around it. -/
def displayScope? (f : Forest) (scope : Nat) : Option String := do
  let text ← (f.frame scope).display?
  return if (f.path scope).length > 1 then text ++ " -> ..." else text

/-- The bindings of a scope and of those around it. -/
def displayChain? (f : Forest) (scope : Nat) : Option String := do
  let texts ← (f.chain scope).frames.mapM Frame.display?
  return "<Environment chain: " ++ " -> ".intercalate texts ++ ">"

end Forest

end SchemeCore
