import SchemeCore.Text.Place
import SchemeCore.Text.Quoted

/-!
# Failures and errors

The reader and the evaluator answer with a value or with a failure. A `ParseFailure` says where and
why the reader gave up, an `EvalFailure` why evaluation stopped. A `SchemeError` is what the
environment and the forms raise; each failure has an error form, and each error a failure form.
-/

namespace SchemeCore

/-- Why evaluation stopped: a tag and a text. -/
structure EvalFailure where
  kind : String
  message : String
  deriving DecidableEq, Repr

/-- The classes of errors. A syntax error knows its position in the source text. -/
inductive ErrorClass where
  | general
  | invalidSymbol
  | unboundSymbol
  | arity
  | badForm
  | syntaxError (position : Int)
  deriving DecidableEq, Repr

/-- The tag of the failures that errors of the class become. -/
def ErrorClass.kind : ErrorClass → String
  | general => "error"
  | invalidSymbol => "invalid-symbol"
  | unboundSymbol => "unbound-variable"
  | arity => "arity"
  | badForm => "bad-form"
  | syntaxError _ => "syntax"

/-- The class of the error that a failure with this tag becomes. -/
def ErrorClass.ofKind (kind : String) : ErrorClass :=
  ([invalidSymbol, unboundSymbol, arity, badForm].find? (·.kind == kind)).getD general

/-- An error of one of the classes. -/
structure SchemeError where
  cls : ErrorClass
  message : String
  deriving DecidableEq, Repr

/-- The failure that the error becomes where evaluation ends. -/
def SchemeError.failure (e : SchemeError) : EvalFailure := ⟨e.cls.kind, e.message⟩

namespace EvalFailure

/-- The failure in one line. -/
def describe (f : EvalFailure) : String := f.kind ++ ": " ++ f.message

/-- The failure as a record of its fields. -/
def display (f : EvalFailure) : String :=
  "EvalFailure(kind=" ++ Text.quote f.kind ++ ", message=" ++ Text.quote f.message ++ ")"

/-- The error form of the failure. -/
def toError (f : EvalFailure) : SchemeError := ⟨.ofKind f.kind, f.message⟩

end EvalFailure

/-- Why and where the reader gave up on `text`. -/
structure ParseFailure where
  position : Int
  message : String
  text : String := ""
  deriving DecidableEq, Repr

namespace ParseFailure

def line (f : ParseFailure) : Nat := Text.lineAt f.text.toList f.position

def column (f : ParseFailure) : Int := Text.columnAt f.text.toList f.position

/-- The failure in one line. -/
def describe (f : ParseFailure) : String :=
  f.message ++ " (line " ++ toString f.line ++ ", column " ++ toString f.column ++ ")"

/-- The failure as a record of its fields, without the text. -/
def display (f : ParseFailure) : String :=
  "ParseFailure(position=" ++ toString f.position ++ ", message=" ++ Text.quote f.message ++ ")"

/-- Whether two failures say the same; the texts may differ. -/
def agrees (f g : ParseFailure) : Bool := f.position == g.position && f.message == g.message

/-- The error form of the failure. -/
def toError (f : ParseFailure) : SchemeError := ⟨.syntaxError f.position, f.describe⟩

end ParseFailure

end SchemeCore
