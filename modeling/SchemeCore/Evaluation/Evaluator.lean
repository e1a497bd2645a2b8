import SchemeCore.Depth
import SchemeCore.Evaluation.Forms

/-!
# The evaluator

A symbol evaluates to its binding, a list whose head names a form as that form says, and every
other datum to itself; there are no procedures. Each operand that a form evaluates lies one level
deeper than the form, and `evalWithin` has one step for each level that is left. `evaluate` is the
entry for callers: it answers with a value or a failure, and puts the failure on record.
-/

namespace SchemeCore

/-- What evaluation takes for granted. -/
structure Context where
  settings : Settings := {}
  forms : Forms := Forms.builtin

namespace Context

/-- Evaluates a datum with so many levels left, under a limit that failures name. -/
def evalWithin (ctx : Context) (limit : Int) : (levels : Nat) → Evaluator
  | 0, _ => Eval.fail (.tooDeep limit)
  | levels + 1, expr =>
    match expr with
    | .symbol name => Eval.lookup name
    | .list (.symbol head :: operands) =>
      match ctx.forms head with
      | some form => form ctx.settings operands (ctx.evalWithin limit levels)
      | none => Eval.fail (.notAForm expr)
    | .list (_ :: _) => Eval.fail (.notAForm expr)
    | _ => return .datum expr

/-- Evaluates a datum at a depth. -/
def evalAt (ctx : Context) (limit depth : Int) : Evaluator :=
  ctx.evalWithin limit (levelsLeft limit depth)

/-- Evaluates what a caller hands over. A foreign value has no meaning. -/
def evalItem (ctx : Context) (limit depth : Int) : Item → Eval Item
  | .datum expr => ctx.evalAt limit depth expr
  | .foreign what => Eval.fail (if limit < depth then .tooDeep limit else .notADatum what)

end Context

/-- What an evaluation comes to for its caller. -/
inductive Outcome (α : Type) where
  | value (a : α)
  | failure (f : EvalFailure)
  /-- A datum could not be made. -/
  | unmade (e : ConstructionError)
  /-- The failure is about an integer that is too long to be written in its wording. -/
  | oversized
  deriving DecidableEq

/-- A fault as its caller sees it. Where the stack ends while the fault is worded, that counts as
too deep an evaluation under the limit. -/
def Fault.outcome {α : Type} (levels : Nat) (limit : Int) (f : Fault) : Outcome α :=
  if f.wordingFits levels then
    match f.failure? with
    | some failure => .failure failure
    | none => .oversized
  else .failure (.tooDeep limit)

/-- The end of an evaluation as its caller sees it. What a form raises becomes a failure, and the
end of the stack counts as too deep an evaluation. -/
def Outcome.ofResult {α : Type} (levels : Nat) (limit : Int) : Except Stop α → Outcome α
  | .ok a => .value a
  | .error (.fault f) => f.outcome levels limit
  | .error (.unmade e) => .unmade e
  | .error (.raised e) => .failure e.failure
  | .error (.stackEnded _) => .failure (.tooDeep limit)

/-- Adds entries to the log. -/
def Store.record (entries : List Record) : StateM Store Unit :=
  modify fun s => { s with log := s.log ++ entries }

namespace Context

/-- Evaluates what a caller hands over, under the limit that is in force. -/
def evaluate (ctx : Context) (expr : Item) : StateM Store (Outcome Item) := do
  Store.record ctx.settings.records
  let limit := ctx.settings.maxDepth
  let result ← (ctx.evalItem limit 0 expr).run
  let outcome := Outcome.ofResult ctx.settings.textLevels limit result
  match outcome with
  | .failure f => Store.record [.evaluationFailed expr.kindName f]
  | _ => pure ()
  return outcome

/-- Fills in a template for a caller. Its unquoted parts are evaluated at depth 1 under the limit
that is in force; the template itself has the limit `limit?`, or else the one in force, too. A
foreign value stands for itself. -/
def fillTemplate (ctx : Context) (template : Item) (level nesting : Int) (limit? : Option Int) :
    Eval Item := do
  let limit ← match limit? with
    | some limit => pure limit
    | none => Eval.askDepth ctx.settings
  match template with
  | .datum d => Template.fill (ctx.evalAt ctx.settings.maxDepth 1) limit level nesting d
  | .foreign _ => if limit < nesting then Eval.fail (.templateTooDeep limit) else return template

end Context

end SchemeCore
