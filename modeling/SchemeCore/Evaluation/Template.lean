import SchemeCore.Datum.Mark
import SchemeCore.Evaluation.Eval

/-!
# Templates

A quasiquoted datum is a template: it stands for itself except for its unquoted parts, which are
evaluated and filled in. Quasiquotes in a template raise its level and unquotes lower it again;
only unquotes at level 1 are evaluated. An `unquote-splicing` at level 1 that stands as an element
of a list or vector is replaced by the elements of its value. What is filled in must be a datum
where it becomes part of one.
-/

namespace SchemeCore.Template

/-- The operand of an `unquote-splicing`. -/
def splice? : Datum → Option Datum
  | .list [.symbol head, operand] =>
    if Mark.ofName? head = some .unquoteSplicing then some operand else none
  | _ => none

/-- The elements that a value contributes where it is spliced in. -/
def spliced : Item → Eval (List Item)
  | .datum (.list items) => return items.map .datum
  | value => Eval.fail (.spliceNotList value)

/-- The list in which the mark heads `operand`. -/
def marked (mark : Mark) (operand : Item) : Eval Item :=
  Eval.made (Datum.listOf [.datum (.symbol mark.name), operand])

mutual

/-- Fills in a template at a quasiquote level. `nesting` counts how far inside the whole template
this part lies, and must not exceed `limit`. -/
def fill (eval : Evaluator) (limit level nesting : Int) : Datum → Eval Item
  | .list [.symbol head, operand] =>
    if limit < nesting then Eval.fail (.templateTooDeep limit)
    else
      match Mark.ofName? head with
      | none | some .quote => do
        let items ← fillItems eval limit level nesting [.symbol head, operand]
        Eval.made (Datum.listOf items)
      | some .quasiquote => do
        marked .quasiquote (← fill eval limit (level + 1) (nesting + 1) operand)
      | some .unquote =>
        if level = 1 then eval operand
        else do marked .unquote (← fill eval limit (level - 1) (nesting + 1) operand)
      | some .unquoteSplicing =>
        if level = 1 then Eval.fail .spliceAlone
        else do marked .unquoteSplicing (← fill eval limit (level - 1) (nesting + 1) operand)
  | .list items =>
    if limit < nesting then Eval.fail (.templateTooDeep limit)
    else do Eval.made (Datum.listOf (← fillItems eval limit level nesting items))
  | .vector items =>
    if limit < nesting then Eval.fail (.templateTooDeep limit)
    else do Eval.made (Datum.vectorOf (← fillItems eval limit level nesting items))
  | atom => if limit < nesting then Eval.fail (.templateTooDeep limit) else return .datum atom

/-- Fills in the elements of a list or vector, splicing where the level is 1. -/
def fillItems (eval : Evaluator) (limit level nesting : Int) : List Datum → Eval (List Item)
  | [] => return []
  | item :: items => do
    let first ←
      match splice? item with
      | some operand =>
        if level = 1 then eval operand >>= spliced
        else (fun v => [v]) <$> fill eval limit level (nesting + 1) item
      | none => (fun v => [v]) <$> fill eval limit level (nesting + 1) item
    let others ← fillItems eval limit level nesting items
    return first ++ others

end

end SchemeCore.Template
