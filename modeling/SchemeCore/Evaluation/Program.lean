import SchemeCore.Evaluation.Evaluator
import SchemeCore.Reader.Recorded

/-!
# Programs

A program is a source text whose data are evaluated in order. The whole text is read before the
first datum is evaluated, and the first failure ends the program.
-/

namespace SchemeCore

namespace Context

/-- Evaluates data in order, as the part of a text of `total` data that follows `done` of them. -/
def evaluateAll (ctx : Context) (total : Nat) :
    (done : Nat) → List Datum → StateM Store (Outcome (List Item))
  | _, [] => return .value []
  | done, expr :: exprs => do
    match ← ctx.evaluate (.datum expr) with
    | .failure f =>
      Store.record [.stopped done total]
      return .failure f
    | .unmade e => return .unmade e
    | .oversized => return .oversized
    | .value v =>
      match ← ctx.evaluateAll total (done + 1) exprs with
      | .value vs => return .value (v :: vs)
      | outcome => return outcome

/-- Reads a text under the limit in force. The entries of the reader follow the warnings. -/
def reading {α : Type} (ctx : Context)
    (read : Int → String → Except ParseFailure α × List Record) (text : String) :
    StateM Store (Except ParseFailure α) := do
  let (result, entries) := read ctx.settings.maxDepth text
  Store.record (ctx.settings.records ++ entries)
  return result

/-- Runs a program: its values in order, or the first failure. -/
def run (ctx : Context) (text : String) :
    StateM Store (Except ParseFailure (Outcome (List Item))) := do
  match ← ctx.reading readAllOnRecord text with
  | .error f => return .error f
  | .ok exprs => return .ok (← ctx.evaluateAll exprs.length 0 exprs)

/-- Reads the first datum of a text and evaluates it. A failure of the reader is handed on to the
evaluator, which refuses it. -/
def runFirst (ctx : Context) (text : String) : StateM Store (Outcome Item) := do
  match ← ctx.reading readOnRecord text with
  | .error f => ctx.evaluate (.foreign (.parseFailure f))
  | .ok expr => ctx.evaluate (.datum expr)

end Context

end SchemeCore
