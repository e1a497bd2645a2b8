import SchemeCore.Evaluation.Evaluator

/-!
# Failures that are returned

In `Eval` every fault stops the computation. Here is the evaluator with failures as ordinary values:
a handler returns one, whoever evaluates an operand looks whether it got one and hands it on, and
only errors are raised. Looking up, binding and assigning a name raise, and what calls them catches
the error of its own class there and then (`catching`). A failure is worded where it arises, and
where the stack ends meanwhile, that is raised too. At the outermost call what was raised becomes a
failure.
-/

namespace SchemeCore

/-! ## Steps that return failures -/

/-- What a handler returns. -/
inductive Answer (α : Type) where
  | value (a : α)
  | failure (f : EvalFailure)

/-- What is raised instead of being returned. -/
inductive Raised where
  | error (e : SchemeError)
  /-- The stack ended, with the text that says so. -/
  | stackEnded (message : String)
  | unmade (e : ConstructionError)
  /-- A wording needs the text of an integer that is too long. -/
  | oversized

/-- A computation that may raise. -/
abbrev Steps := ExceptT Raised (StateM Store)

namespace Steps

/-- The end of the stack while a text is made. -/
def outOfStack : Raised := .stackEnded "maximum recursion depth exceeded"

/-- Returns the failure that a fault is worded as, on a stack of so many levels. -/
def failing {α : Type} (levels : Nat) (f : Fault) : Steps (Answer α) :=
  if f.wordingFits levels then
    match f.failure? with
    | some failure => return .failure failure
    | none => throw .oversized
  else throw outOfStack

/-- Raises the refusal of a name. -/
def refuse {α : Type} (levels : Nat) (e : NameError) : Steps α :=
  if (Fault.name e).wordingFits levels then
    match e.message? with
    | some message => throw (.error ⟨e.cls, message⟩)
    | none => throw .oversized
  else throw outOfStack

/-- Returns the failure form of an error of one class, and leaves all else raised. -/
def catching {α : Type} (cls : ErrorClass) (m : Steps α) : Steps (Answer α) :=
  tryCatch (Answer.value <$> m) fun
    | .error e => if e.cls = cls then return .failure e.failure else throw (.error e)
    | other => throw other

/-- The value of a name. -/
def lookup (levels : Nat) (name : String) : Steps Item := do
  match (← get).chain.lookupItem (.datum (.symbol name)) with
  | .ok value => return value
  | .error e => refuse levels e

/-- Binds in the current frame what `target` names. -/
def define (levels : Nat) (target : Datum) (value : Item) : Steps Unit := do
  match (← get).chain.bindItem (.datum target) value with
  | .ok chain => modify (·.wrote (.define target value) chain)
  | .error e => refuse levels e

/-- Gives a bound name a new value where it is bound. -/
def assign (levels : Nat) (name : String) (value : Item) : Steps Unit := do
  match (← get).chain.assignItem (.datum (.symbol name)) value with
  | .ok chain => modify (·.wrote (.assign name value) chain)
  | .error e => refuse levels e

/-- The datum that was to be made. -/
def made : Except ConstructionError Datum → Steps (Answer Item)
  | .ok d => return .value (.datum d)
  | .error e => throw (.unmade e)

/-- The limit on nesting that is in force. -/
def askDepth (settings : Settings) : Steps Int := do
  modify fun s => { s with log := s.log ++ settings.records }
  return settings.maxDepth

/-- Looks whether a failure was returned and hands it on, or else goes on with the value. -/
def handOn {α β : Type} (next : α → Steps (Answer β)) : Answer α → Steps (Answer β)
  | .failure f => return .failure f
  | .value a => next a

end Steps

/-- A handler computes its answer from the settings, its operands as they stand, and an evaluator
for those operands that it wants evaluated. -/
abbrev Handler := Settings → (operands : List Datum) → (Datum → Steps (Answer Item)) →
  Steps (Answer Item)

namespace Handler

open Steps

/-- The elements that a value contributes where it is spliced in. -/
def spliced (levels : Nat) : Item → Steps (Answer (List Item))
  | .datum (.list items) => return .value (items.map .datum)
  | value => failing levels (.spliceNotList value)

/-- The list in which the mark heads `operand`. -/
def marked (mark : Mark) (operand : Item) : Steps (Answer Item) :=
  made (Datum.listOf [.datum (.symbol mark.name), operand])

mutual

/-- Fills in a template. -/
def fill (levels : Nat) (eval : Datum → Steps (Answer Item)) (limit level nesting : Int) :
    Datum → Steps (Answer Item)
  | .list [.symbol head, operand] =>
    if limit < nesting then failing levels (.templateTooDeep limit)
    else
      match Mark.ofName? head with
      | none | some .quote =>
        fillItems levels eval limit level nesting [.symbol head, operand] >>=
          handOn fun items => made (Datum.listOf items)
      | some .quasiquote =>
        fill levels eval limit (level + 1) (nesting + 1) operand >>= handOn (marked .quasiquote)
      | some .unquote =>
        if level = 1 then eval operand
        else fill levels eval limit (level - 1) (nesting + 1) operand >>= handOn (marked .unquote)
      | some .unquoteSplicing =>
        if level = 1 then failing levels .spliceAlone
        else
          fill levels eval limit (level - 1) (nesting + 1) operand >>=
            handOn (marked .unquoteSplicing)
  | .list items =>
    if limit < nesting then failing levels (.templateTooDeep limit)
    else
      fillItems levels eval limit level nesting items >>=
        handOn fun items => made (Datum.listOf items)
  | .vector items =>
    if limit < nesting then failing levels (.templateTooDeep limit)
    else
      fillItems levels eval limit level nesting items >>=
        handOn fun items => made (Datum.vectorOf items)
  | atom =>
    if limit < nesting then failing levels (.templateTooDeep limit)
    else return .value (.datum atom)

/-- Fills in the elements of a list or vector. -/
def fillItems (levels : Nat) (eval : Datum → Steps (Answer Item)) (limit level nesting : Int) :
    List Datum → Steps (Answer (List Item))
  | [] => return .value []
  | item :: items =>
    (match if level = 1 then Template.splice? item else none with
      | some operand => eval operand >>= handOn (spliced levels)
      | none =>
        fill levels eval limit level (nesting + 1) item >>= handOn fun v => return .value [v]) >>=
      handOn fun first =>
        fillItems levels eval limit level nesting items >>=
          handOn fun others => return .value (first ++ others)

end

def quote : Handler := fun settings operands _ =>
  match operands with
  | [datum] => return .value (.datum datum)
  | _ => failing settings.textLevels (.operands "quote" "expects exactly 1 argument")

def quasiquote : Handler := fun settings operands eval =>
  match operands with
  | [template] => do
    let limit ← askDepth settings
    fill settings.textLevels eval limit 1 0 template
  | _ => failing settings.textLevels (.operands "quasiquote" "expects exactly 1 argument")

def unquote : Handler := fun settings _ _ =>
  failing settings.textLevels (.outsideTemplate "unquote")

def unquoteSplicing : Handler := fun settings _ _ =>
  failing settings.textLevels (.outsideTemplate "unquote-splicing")

def conditional : Handler := fun settings operands eval =>
  match operands with
  | [test, consequent] =>
    eval test >>= handOn fun v =>
      if v = .datum (.boolean false) then return .value (.datum .nil) else eval consequent
  | [test, consequent, alternative] =>
    eval test >>= handOn fun v =>
      if v = .datum (.boolean false) then eval alternative else eval consequent
  | _ => failing settings.textLevels
    (.operands "if" "requires a test, a consequent and an optional alternative")

def define : Handler := fun settings operands eval =>
  match operands with
  | [target, expr] =>
    eval expr >>= handOn fun v =>
      catching .invalidSymbol (Steps.define settings.textLevels target v) >>=
        handOn fun _ => return .value (.datum target)
  | _ => failing settings.textLevels
    (.operands "define" "requires exactly 2 arguments: (define name value)")

def assign : Handler := fun settings operands eval =>
  match operands with
  | [.symbol name, expr] =>
    eval expr >>= handOn fun v =>
      catching .unboundSymbol (Steps.assign settings.textLevels name v) >>=
        handOn fun _ => return .value v
  | [target, _] => failing settings.textLevels (.assignTarget target)
  | _ => failing settings.textLevels
    (.operands "set!" "requires exactly 2 arguments: (set! var value)")

/-- Evaluates in order, up to the first failure. -/
def inOrder (eval : Datum → Steps (Answer Item)) (last : Item) :
    List Datum → Steps (Answer Item)
  | [] => return .value last
  | expr :: exprs => eval expr >>= handOn fun v => inOrder eval v exprs

def begin : Handler := fun _ operands eval => inOrder eval (.datum .nil) operands

end Handler

/-- A table of handlers by name. -/
abbrev Handlers := String → Option Handler

namespace Handlers

open Steps

/-- The handlers of the built-in forms. -/
def builtin : Handlers
  | "quote" => some Handler.quote
  | "quasiquote" => some Handler.quasiquote
  | "unquote" => some Handler.unquote
  | "unquote-splicing" => some Handler.unquoteSplicing
  | "if" => some Handler.conditional
  | "define" => some Handler.define
  | "set!" => some Handler.assign
  | "begin" => some Handler.begin
  | _ => none

/-- Evaluates a datum with so many levels left, under a limit that failures name. -/
def evalWithin (settings : Settings) (handlers : Handlers) (limit : Int) :
    (levels : Nat) → Datum → Steps (Answer Item)
  | 0, _ => failing settings.textLevels (.tooDeep limit)
  | levels + 1, expr =>
    match expr with
    | .symbol name => catching .unboundSymbol (lookup settings.textLevels name)
    | .list (.symbol head :: operands) =>
      match handlers head with
      | some handler => handler settings operands (evalWithin settings handlers limit levels)
      | none => failing settings.textLevels (.notAForm expr)
    | .list (_ :: _) => failing settings.textLevels (.notAForm expr)
    | _ => return .value (.datum expr)

/-- Evaluates what a caller hands over. -/
def evalItem (settings : Settings) (handlers : Handlers) (limit depth : Int) :
    Item → Steps (Answer Item)
  | .datum expr => evalWithin settings handlers limit (levelsLeft limit depth) expr
  | .foreign what =>
    failing settings.textLevels (if limit < depth then .tooDeep limit else .notADatum what)

/-- What the outermost call makes of the end of an evaluation: a failure that was returned, the
failure form of an error that was raised, or that of the end of the stack. -/
def outcome (limit : Int) : Except Raised (Answer Item) → Outcome Item
  | .ok (.value v) => .value v
  | .ok (.failure f) => .failure f
  | .error (.error e) => .failure e.failure
  | .error (.stackEnded _) => .failure (.tooDeep limit)
  | .error (.unmade e) => .unmade e
  | .error .oversized => .oversized

/-- Evaluates what a caller hands over, under the limit that is in force. -/
def evaluate (settings : Settings) (handlers : Handlers) (expr : Item) :
    StateM Store (Outcome Item) := do
  Store.record settings.records
  let limit := settings.maxDepth
  let outcome := outcome limit (← (evalItem settings handlers limit 0 expr).run)
  match outcome with
  | .failure f => Store.record [.evaluationFailed expr.kindName f]
  | _ => pure ()
  return outcome

end Handlers

end SchemeCore
