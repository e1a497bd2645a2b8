import SchemeCore.Failure
import SchemeCore.Settings

/-!
# The log

What is put on record beside the answers: warnings about the settings, failures of the reader and
of evaluations, and where a failure stopped a text.
-/

namespace SchemeCore

/-- One entry of the log. -/
inductive Record where
  | warning (w : Settings.Warning)
  | readFailed (failure : ParseFailure)
  /-- The evaluation of an item of the kind `what` failed. -/
  | evaluationFailed (what : String) (failure : EvalFailure)
  /-- A failure ended a text of `total` data after `done` of them. -/
  | stopped (done total : Nat)
  deriving DecidableEq, Repr

/-- The wording of an entry. -/
def Record.message : Record → String
  | warning w => w.message
  | readFailed f => "read failed at " ++ toString f.position ++ ": " ++ f.message
  | evaluationFailed what f => "evaluation of " ++ what ++ " failed: " ++ f.describe
  | stopped done total =>
    "stopping after " ++ toString done ++ " of " ++ toString total ++ " forms"

/-- The name of the logger that takes an entry. -/
def Record.logger : Record → String
  | warning _ => "sable.config"
  | readFailed _ => "sable.reader.parser"
  | evaluationFailed _ _ => "sable.evaluation.evaluator"
  | stopped _ _ => "sable.interpreter"

/-- The level of an entry. -/
def Record.level : Record → String
  | warning _ => "WARNING"
  | readFailed _ | evaluationFailed _ _ | stopped _ _ => "DEBUG"

/-- The entries that asking for the limit gives. -/
def Settings.records (s : Settings) : List Record := s.warnings.map .warning

end SchemeCore
