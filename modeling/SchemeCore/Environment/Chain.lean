import SchemeCore.Environment.Frame

/-!
# Chains of frames

Evaluation happens in a chain: the current frame, and the frames of the enclosing scopes from the
nearest outwards. A name means its binding in the nearest frame that has one.
-/

namespace SchemeCore

/-- The frames that are visible from a scope, nearest first. -/
structure Chain where
  current : Frame
  outer : List Frame := []

namespace Chain

/-- All frames, nearest first. -/
def frames (c : Chain) : List Frame := c.current :: c.outer

/-- The value of a name in the nearest of the frames that binds it. -/
def lookupIn (frames : List Frame) (name : String) : Option Item :=
  frames.findSome? (·.find? name)

/-- Gives a name a new value in the nearest of the frames that binds it. -/
def assignIn : (frames : List Frame) → String → Item → Option (List Frame)
  | [], _, _ => none
  | f :: fs, name, value =>
    if f.binds name then some (f.bind name value :: fs)
    else (assignIn fs name value).map (f :: ·)

/-- The value of a name. -/
def lookup (c : Chain) (name : String) : Option Item := lookupIn c.frames name

/-- How many frames away the nearest binding of a name is. -/
def distance? (c : Chain) (name : String) : Option Nat := c.frames.findIdx? (·.binds name)

/-- Binds a name in the current frame, whatever the outer ones hold. -/
def bind (c : Chain) (name : String) (value : Item) : Chain :=
  { c with current := c.current.bind name value }

/-- Gives a bound name a new value where it is bound. -/
def assign (c : Chain) (name : String) (value : Item) : Option Chain :=
  if c.current.binds name then some (c.bind name value)
  else (assignIn c.outer name value).map fun outer => { c with outer }

end Chain

end SchemeCore
