import SchemeCore.Proofs.Evaluation.Template

/-!
# Accesses

An expression touches the chain only at its evaluated positions: the operands of `if` and `begin`,
the value operands of `define` and `set!`, and the unquoted parts of a template at level 1. Nothing
in quoted data, in a vector or in the other parts of a template is evaluated. `Datum.accesses` lists
what the evaluated positions may do with the chain.
-/

namespace SchemeCore

/-- A way to touch the chain. -/
inductive Access where
  | read (name : String)
  | define (target : Datum)
  | assign (name : String)
  deriving DecidableEq

/-- The name that an access needs to be bound. -/
def Access.needs? : Access → Option String
  | read name | assign name => some name
  | define _ => none

namespace Datum

mutual

/-- What the evaluation of a datum may do with the chain. -/
def accesses : Datum → List Access
  | symbol name => [.read name]
  | list (symbol "if" :: operands) => allAccesses operands
  | list (symbol "begin" :: operands) => allAccesses operands
  | list [symbol "define", target, expr] => .define target :: accesses expr
  | list [symbol "set!", symbol name, expr] => .assign name :: accesses expr
  | list [symbol "quasiquote", template] => templateAccesses 1 template
  | _ => []

/-- What the evaluation of some of the data may do with the chain. -/
def allAccesses : List Datum → List Access
  | [] => []
  | expr :: exprs => accesses expr ++ allAccesses exprs

/-- What filling in a template at a quasiquote level may do with the chain. -/
def templateAccesses (level : Int) : Datum → List Access
  | list [symbol head, operand] =>
    match Mark.ofName? head with
    | none | some .quote => itemAccesses level [symbol head, operand]
    | some .quasiquote => templateAccesses (level + 1) operand
    | some .unquote =>
      if level = 1 then accesses operand else templateAccesses (level - 1) operand
    | some .unquoteSplicing => if level = 1 then [] else templateAccesses (level - 1) operand
  | list items | vector items => itemAccesses level items
  | _ => []

/-- What filling in the elements of a list or vector may do with the chain. -/
def itemAccesses (level : Int) : List Datum → List Access
  | [] => []
  | list [symbol head, operand] :: items =>
    if Mark.ofName? head = some .unquoteSplicing ∧ level = 1 then
      accesses operand ++ itemAccesses level items
    else templateAccesses level (list [symbol head, operand]) ++ itemAccesses level items
  | item :: items => templateAccesses level item ++ itemAccesses level items

end

theorem accesses_if (operands : List Datum) :
    accesses (list (symbol "if" :: operands)) = allAccesses operands := by rw [accesses]

theorem accesses_begin (operands : List Datum) :
    accesses (list (symbol "begin" :: operands)) = allAccesses operands := by rw [accesses]

theorem accesses_define (target expr : Datum) :
    accesses (list [symbol "define", target, expr]) = .define target :: accesses expr := by
  rw [accesses]

theorem accesses_assign (name : String) (expr : Datum) :
    accesses (list [symbol "set!", symbol name, expr]) = .assign name :: accesses expr := by
  rw [accesses]

theorem accesses_quasiquote (template : Datum) :
    accesses (list [symbol "quasiquote", template]) = templateAccesses 1 template := by
  rw [accesses]

theorem templateAccesses_list {level : Int} {items : List Datum} (h : Template.Unmarked items) :
    templateAccesses level (list items) = itemAccesses level items := by
  rcases h.cases with ⟨head, operand, rfl, hm | hm⟩ | hshape
  · rw [templateAccesses, hm]
  · rw [templateAccesses, hm]
  · rw [templateAccesses]
    exact hshape

theorem templateAccesses_unquote (operand : Datum) :
    templateAccesses 1 (Mark.unquote.on operand) = accesses operand := by
  rw [Mark.on, templateAccesses, Mark.ofName?_name]
  rfl

theorem templateAccesses_marked {mark : Mark} {level level' : Int}
    (h : mark.inner? level = some level') (operand : Datum) :
    templateAccesses level (mark.on operand) = templateAccesses level' operand := by
  rw [Mark.on, templateAccesses, Mark.ofName?_name]
  rcases Mark.inner?_eq_some h with ⟨rfl, rfl⟩ | ⟨rfl | rfl, hl, rfl⟩
  · rfl
  · simp only [if_neg hl]
  · simp only [if_neg hl]

theorem mem_allAccesses_of_mem {a : Access} {expr : Datum} {exprs : List Datum} (he : expr ∈ exprs)
    (ha : a ∈ accesses expr) : a ∈ allAccesses exprs := by
  induction exprs with
  | nil => cases he
  | cons first exprs ih =>
    rw [allAccesses, List.mem_append]
    rcases List.mem_cons.1 he with rfl | he
    · exact .inl ha
    · exact .inr (ih he)

theorem itemAccesses_cons (level : Int) (item : Datum) (items : List Datum) :
    itemAccesses level (item :: items) = (match Template.splice? item with
      | some operand => if level = 1 then accesses operand else templateAccesses level item
      | none => templateAccesses level item) ++ itemAccesses level items := by
  cases hs : Template.splice? item with
  | some operand =>
    obtain ⟨head, rfl, hm⟩ := Template.eq_of_splice? hs
    rw [itemAccesses, hm]
    by_cases hl : level = 1 <;> simp [hl]
  | none =>
    by_cases hpair : ∃ head operand, item = list [symbol head, operand]
    · obtain ⟨head, operand, rfl⟩ := hpair
      rw [itemAccesses, if_neg]
      rintro ⟨hm, -⟩
      rw [Template.splice?, if_pos hm] at hs
      cases hs
    · rw [itemAccesses]
      rintro head operand rfl
      exact hpair ⟨head, operand, rfl⟩

end Datum

end SchemeCore
