import SchemeCore.Datum.Basic

/-!
# Quotation marks

Four symbols mark a datum as quoted or unquoted when they head a list of two elements. The source
text has an abbreviation for each of these lists, and templates give a meaning to three of them.
-/

namespace SchemeCore

/-- The symbols that mark a datum. -/
inductive Mark where
  | quote
  | quasiquote
  | unquote
  | unquoteSplicing
  deriving DecidableEq, Repr

namespace Mark

/-- The name of the symbol. -/
def name : Mark → String
  | quote => "quote"
  | quasiquote => "quasiquote"
  | unquote => "unquote"
  | unquoteSplicing => "unquote-splicing"

/-- The mark with a given name. -/
def ofName? : String → Option Mark
  | "quote" => some quote
  | "quasiquote" => some quasiquote
  | "unquote" => some unquote
  | "unquote-splicing" => some unquoteSplicing
  | _ => none

/-- The list in which the mark heads `operand`. -/
def on (mark : Mark) (operand : Datum) : Datum := .list [.symbol mark.name, operand]

@[simp] theorem ofName?_name (mark : Mark) : ofName? mark.name = some mark := by
  cases mark <;> rfl

theorem name_of_ofName? {name : String} {mark : Mark} (h : ofName? name = some mark) :
    mark.name = name := by
  unfold ofName? at h
  split at h <;> cases h <;> rfl

end Mark

end SchemeCore
