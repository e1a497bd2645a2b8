import SchemeCore.Evaluation.Fault
import SchemeCore.Log

/-!
# Computations of the evaluator

A computation reads and changes the chain of frames, adds to the log, and ends with a result or
stops. What it did to the chain and the log before it stopped stays done. The store keeps a record
of all writes to the chain, which no computation reads.
-/

namespace SchemeCore

/-- A change to a chain: a binding in the current frame, or a new value for a bound name. -/
inductive Write where
  | define (target : Datum) (value : Item)
  | assign (name : String) (value : Item)

/-- A write at the moment when it was made: the chain that it met stands beside it. -/
structure Moment where
  chain : Chain
  write : Write

/-- What computations change. -/
structure Store where
  chain : Chain
  log : List Record := []
  /-- The writes to the chain so far, in order. -/
  writes : List Moment := []

/-- The store after a write that has led to the chain `c`. -/
def Store.wrote (s : Store) (w : Write) (c : Chain) : Store :=
  { s with chain := c, writes := s.writes ++ [⟨s.chain, w⟩] }

/-- A computation of the evaluator. -/
abbrev Eval := ExceptT Stop (StateM Store)

namespace Eval

/-- Stops at a fault. -/
def fail {α : Type} (f : Fault) : Eval α := throw (.fault f)

/-- The value of a name. -/
def lookup (name : String) : Eval Item := do
  match (← get).chain.lookup name with
  | some value => return value
  | none => fail (.name (.unbound (.datum (.symbol name))))

/-- Binds in the current frame what `target` names. -/
def define (target : Datum) (value : Item) : Eval Unit := do
  match (← get).chain.bindItem (.datum target) value with
  | .ok chain => modify (·.wrote (.define target value) chain)
  | .error e => fail (.name e)

/-- Gives a bound name a new value where it is bound. -/
def assign (name : String) (value : Item) : Eval Unit := do
  match (← get).chain.assign name value with
  | some chain => modify (·.wrote (.assign name value) chain)
  | none => fail (.name (.cannotAssign (.datum (.symbol name))))

/-- The datum that was to be made. -/
def made : Except ConstructionError Datum → Eval Item
  | .ok d => return .datum d
  | .error e => throw (.unmade e)

/-- The limit on nesting that is in force. Asking for it puts the warnings on record. -/
def askDepth (settings : Settings) : Eval Int := do
  modify fun s => { s with log := s.log ++ settings.records }
  return settings.maxDepth

end Eval

/-- A way to evaluate a datum. -/
abbrev Evaluator := Datum → Eval Item

/-- A form computes its value from the settings, its operands as they stand, and an evaluator for
those operands that it wants evaluated. -/
abbrev Form := Settings → (operands : List Datum) → Evaluator → Eval Item

end SchemeCore
