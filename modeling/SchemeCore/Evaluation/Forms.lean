import SchemeCore.Evaluation.Template

/-!
# Forms

The eight forms that are built in, and tables of forms by name. A table is extended by `install`,
which also replaces a form.
-/

namespace SchemeCore

namespace Form

/-- `(quote datum)` has the value `datum`. -/
def quote : Form := fun _ operands _ =>
  match operands with
  | [datum] => return .datum datum
  | _ => Eval.fail (.operands "quote" "expects exactly 1 argument")

/-- `(quasiquote template)` has the filled in template as its value. -/
def quasiquote : Form := fun settings operands eval =>
  match operands with
  | [template] => do
    let limit ← Eval.askDepth settings
    Template.fill eval limit 1 0 template
  | _ => Eval.fail (.operands "quasiquote" "expects exactly 1 argument")

/-- `(unquote expr)` has a meaning inside a template only. -/
def unquote : Form := fun _ _ _ => Eval.fail (.outsideTemplate "unquote")

/-- `(unquote-splicing expr)` has a meaning inside a template only. -/
def unquoteSplicing : Form := fun _ _ _ => Eval.fail (.outsideTemplate "unquote-splicing")

/-- `(if test consequent alternative)` evaluates the alternative if the test is false, and the
consequent if it is anything else. An alternative that is not there counts as the empty list. -/
def conditional : Form := fun _ operands eval =>
  match operands with
  | [test, consequent] => do
    if (← eval test) = .datum (.boolean false) then return .datum .nil else eval consequent
  | [test, consequent, alternative] => do
    if (← eval test) = .datum (.boolean false) then eval alternative else eval consequent
  | _ => Eval.fail (.operands "if" "requires a test, a consequent and an optional alternative")

/-- `(define name expr)` binds the name in the current frame and has the name as its value. -/
def define : Form := fun _ operands eval =>
  match operands with
  | [target, expr] => do
    let value ← eval expr
    Eval.define target value
    return .datum target
  | _ => Eval.fail (.operands "define" "requires exactly 2 arguments: (define name value)")

/-- `(set! name expr)` changes the nearest binding of the name and has the new value as its
value. -/
def assign : Form := fun _ operands eval =>
  match operands with
  | [.symbol name, expr] => do
    let value ← eval expr
    Eval.assign name value
    return value
  | [target, _] => Eval.fail (.assignTarget target)
  | _ => Eval.fail (.operands "set!" "requires exactly 2 arguments: (set! var value)")

/-- `(begin expr ...)` evaluates its operands in order and has the last value, or the empty list
where there is none. -/
def begin : Form := fun _ operands eval =>
  operands.foldlM (fun _ expr => eval expr) (.datum .nil)

/-- A form that stops in the same way whatever its operands are. -/
def stopping (stop : Stop) : Form := fun _ _ _ => throw stop

end Form

/-- A table of forms by name. -/
abbrev Forms := String → Option Form

namespace Forms

/-- The forms that are built in. -/
def builtin : Forms
  | "quote" => some Form.quote
  | "quasiquote" => some Form.quasiquote
  | "unquote" => some Form.unquote
  | "unquote-splicing" => some Form.unquoteSplicing
  | "if" => some Form.conditional
  | "define" => some Form.define
  | "set!" => some Form.assign
  | "begin" => some Form.begin
  | _ => none

/-- The table with a form under `name`. -/
def install (forms : Forms) (name : String) (form : Form) : Forms :=
  fun n => if n = name then some form else forms n

end Forms

end SchemeCore
