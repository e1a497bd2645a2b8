import SchemeCore.Environment.Forest
import SchemeCore.Evaluation.Program

/-!
# Sessions

A session owns a forest of scopes, the settings and the table of forms. Programs and single
operations run in one of the scopes, see its chain of frames, and leave their changes behind.
-/

namespace SchemeCore

/-- The state that lasts from one operation to the next. -/
structure Session where
  forest : Forest := Forest.root
  context : Context := {}

namespace Session

/-- Runs a computation in a scope. -/
def inScope {α : Type} (s : Session) (scope : Nat) (m : StateM Store α) :
    (α × List Record) × Session :=
  let (a, store) := m.run { chain := s.forest.chain scope }
  ((a, store.log), { s with forest := s.forest.putChain scope store.chain })

/-- Runs a program in a scope of its own, which is lost afterwards. -/
def runApart (s : Session) (text : String) :
    Except ParseFailure (Outcome (List Item)) × List Record :=
  let (result, store) := (s.context.run text).run { chain := ⟨[], []⟩ }
  (result, store.log)

/-- Sets the variable that limits the nesting, or unsets it. -/
def setDepth (s : Session) (text : Option String) : Session :=
  { s with context.settings.depthText := text }

/-- Puts a form into the table. -/
def install (s : Session) (name : String) (form : Form) : Session :=
  { s with context.forms := s.context.forms.install name form }

/-- Makes a scope without bindings, and answers with its number. -/
def addScope (s : Session) (parent : Option Nat) : Nat × Session :=
  let (forest, scope) := s.forest.addScope parent
  (scope, { s with forest })

/-- Changes the chain of a scope as far as the operation goes, and answers with what stopped it. -/
def change (s : Session) (scope : Nat) (f : Chain → Chain × Option NameError) :
    Option NameError × Session :=
  let (c, e) := f (s.forest.chain scope)
  (e, { s with forest := s.forest.putChain scope c })

/-- An operation that changes nothing if it is refused. -/
def orUnchanged (f : Chain → Except NameError Chain) (c : Chain) : Chain × Option NameError :=
  match f c with
  | .ok c' => (c', none)
  | .error e => (c, some e)

/-- Binds a name in a scope. -/
def bind (s : Session) (scope : Nat) (name : Item) (value : Item) : Option NameError × Session :=
  s.change scope (orUnchanged (·.bindItem name value))

/-- Changes the nearest binding of a name that is visible from a scope. -/
def assign (s : Session) (scope : Nat) (name : Item) (value : Item) :
    Option NameError × Session :=
  s.change scope (orUnchanged (·.assignItem name value))

/-- Binds the names of a mapping in a scope, up to the first that is none. -/
def update (s : Session) (scope : Nat) (pairs : List (Item × Item)) :
    Option NameError × Session :=
  s.change scope (·.update pairs)

/-- The value of a name as a scope sees it. -/
def lookup (s : Session) (scope : Nat) (name : Item) : Except NameError Item :=
  (s.forest.chain scope).lookupItem name

end Session

end SchemeCore
