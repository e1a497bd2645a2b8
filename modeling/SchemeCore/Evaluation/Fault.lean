import SchemeCore.Datum.Construct
import SchemeCore.Environment.NameError

/-!
# Why an evaluation stops

An evaluation stops at a fault, which is the failure that it answers with, at a datum that cannot be
made because a name stands for a foreign value, or at something raised by a form: an error of one of
the classes, or the end of the stack. A fault keeps the item that it is about; its wording needs the
text of that item, which an oversized integer does not have, and for which the stack may be too
small.
-/

namespace SchemeCore

/-- The failure of an evaluation that nests too deep. -/
def EvalFailure.tooDeep (limit : Int) : EvalFailure :=
  ⟨"recursion-depth", "evaluation nested deeper than " ++ toString limit ++ " levels"⟩

/-- A cause of failure. -/
inductive Fault where
  | name (error : NameError)
  /-- A form got the wrong number of operands. -/
  | operands (form wanted : String)
  /-- A form that only has a meaning inside a template stands elsewhere. -/
  | outsideTemplate (form : String)
  | assignTarget (target : Datum)
  | spliceAlone
  | spliceNotList (value : Item)
  | notAForm (expr : Datum)
  | notADatum (what : Foreign)
  | tooDeep (limit : Int)
  | templateTooDeep (limit : Int)
  /-- A failure that a form answers with by itself. -/
  | declared (failure : EvalFailure)

namespace Fault

/-- The tag of the failure. -/
def kind : Fault → String
  | name error => error.cls.kind
  | operands _ _ => ErrorClass.arity.kind
  | outsideTemplate _ | spliceAlone | spliceNotList _ => ErrorClass.badForm.kind
  | assignTarget _ => ErrorClass.invalidSymbol.kind
  | notAForm _ => "unsupported-form"
  | notADatum _ => "unsupported"
  | tooDeep limit => (EvalFailure.tooDeep limit).kind
  | templateTooDeep _ => "recursion-depth"
  | declared failure => failure.kind

/-- The wording of the failure, if what it is about has a text. -/
def message? : Fault → Option String
  | name error => error.message?
  | operands form wanted => some (form ++ " " ++ wanted)
  | outsideTemplate form => some (form ++ " not valid outside of quasiquote")
  | assignTarget target =>
    target.display?.map ("set! first argument must be a Symbol, got " ++ ·)
  | spliceAlone => some "unquote-splicing is only valid inside a list"
  | spliceNotList value =>
    value.display?.map ("unquote-splicing must produce a list, got " ++ ·)
  | notAForm expr =>
    expr.display?.map ("Cannot evaluate " ++ · ++ ": procedure application is not supported")
  | notADatum what => what.display?.map ("Cannot evaluate " ++ ·)
  | tooDeep limit => some (EvalFailure.tooDeep limit).message
  | templateTooDeep limit =>
    some ("quasiquote template nested deeper than " ++ toString limit ++ " levels")
  | declared failure => some failure.message

/-- The failure, if it can be worded. -/
def failure? (f : Fault) : Option EvalFailure := f.message?.map (⟨f.kind, ·⟩)

/-- The item that the wording of a fault shows, if it shows one. -/
def subject? : Fault → Option Item
  | name (.cannotBind what) | name (.unbound what) | name (.cannotAssign what) => some what
  | assignTarget target => some (.datum target)
  | spliceNotList value => some value
  | notAForm expr => some (.datum expr)
  | notADatum what => some (.foreign what)
  | operands _ _ | outsideTemplate _ | spliceAlone | tooDeep _ | templateTooDeep _
  | declared _ => none

/-- Whether a stack that holds so many levels of nesting lasts while the fault is worded. -/
def wordingFits (levels : Nat) (f : Fault) : Bool := f.subject?.all (·.textFits levels)

end Fault

/-- Why an evaluation stops. -/
inductive Stop where
  | fault (f : Fault)
  | unmade (e : ConstructionError)
  | raised (e : SchemeError)
  /-- The stack ended, with the text that says so. -/
  | stackEnded (message : String)

end SchemeCore
