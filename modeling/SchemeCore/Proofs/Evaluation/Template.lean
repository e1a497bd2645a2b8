import SchemeCore.Evaluation.Forms
import SchemeCore.Proofs.Datum

/-!
# Templates

What is read off a template depends on the template and on its quasiquote level. A template is an
atom, a vector, a list that is not marked, or a mark on an operand. At level 1 an unquoted operand
is an expression; any other operand is a template again, at the level that `Mark.inner?` says.

1. `Template.induction` has one case for each of these, and is used for all that is said of
   templates.
2. For each case there is an equation of the walk (`fill_atom`, `fill_list`, `fill_marked`); the
   functions that other modules define by the same recursion have equations of the same names.
3. The elements of a list or vector are filled in one after the other: each contributes the elements
   of a spliced value, or one item (`fillItems_cons`).
-/

namespace SchemeCore

/-- The items make no data because of one of them that is none. -/
theorem Datum.of_ofItems_error {vs : List Item} {v : Item} (h : Datum.ofItems vs = .error v) :
    v ∈ vs ∧ ∀ d, v ≠ .datum d := by
  induction vs with
  | nil => cases h
  | cons first vs ih =>
    cases first with
    | datum d =>
      rw [Datum.ofItems] at h
      cases hd : Datum.ofItems vs with
      | ok ds =>
        rw [hd] at h
        cases h
      | error v' =>
        rw [hd] at h
        cases h
        exact ⟨List.mem_cons_of_mem _ (ih hd).1, (ih hd).2⟩
    | foreign what =>
      cases h
      exact ⟨List.mem_cons_self, by simp⟩

theorem Datum.eq_map_of_ofItems {vs : List Item} {ds : List Datum} (h : Datum.ofItems vs = .ok ds) :
    vs = ds.map .datum := by
  induction vs generalizing ds with
  | nil =>
    cases h
    rfl
  | cons first vs ih =>
    cases first with
    | datum d =>
      rw [Datum.ofItems] at h
      cases hd : Datum.ofItems vs with
      | ok ds' =>
        rw [hd] at h
        cases h
        rw [List.map_cons, ih hd]
      | error v =>
        rw [hd] at h
        cases h
    | foreign what => cases h

/-- The level of the operand of a mark, where the operand is a template. A `quote` is no mark of
templates, and an unquoted operand of level 1 is none. -/
def Mark.inner? (level : Int) : Mark → Option Int
  | quote => none
  | quasiquote => some (level + 1)
  | unquote | unquoteSplicing => if level = 1 then none else some (level - 1)

theorem Mark.inner?_eq_some {mark : Mark} {level level' : Int}
    (h : mark.inner? level = some level') :
    mark = .quasiquote ∧ level' = level + 1 ∨
      (mark = .unquote ∨ mark = .unquoteSplicing) ∧ level ≠ 1 ∧ level' = level - 1 := by
  cases mark with
  | quote => cases h
  | quasiquote =>
    cases h
    exact .inl ⟨rfl, rfl⟩
  | unquote | unquoteSplicing =>
    right
    by_cases hl : level = 1
    · simp [inner?, hl] at h
    · simp only [inner?, if_neg hl, Option.some.injEq] at h
      exact ⟨by simp, hl, h.symm⟩

namespace Template

/-- The elements are not those of a mark that has a meaning in templates. -/
def Unmarked (items : List Datum) : Prop :=
  ∀ (mark : Mark) (operand : Datum), mark ≠ .quote → .list items ≠ mark.on operand

/-- An unmarked list has another symbol in front of its two elements, or another shape. -/
theorem Unmarked.cases {items : List Datum} (h : Unmarked items) :
    (∃ head operand, items = [.symbol head, operand] ∧
      (Mark.ofName? head = none ∨ Mark.ofName? head = some .quote)) ∨
    ∀ head operand, items = [.symbol head, operand] → False := by
  by_cases hpair : ∃ head operand, items = [.symbol head, operand]
  · obtain ⟨head, operand, rfl⟩ := hpair
    refine .inl ⟨head, operand, rfl, ?_⟩
    cases hm : Mark.ofName? head with
    | none => exact .inl rfl
    | some mark =>
      obtain rfl := Mark.name_of_ofName? hm
      by_cases hquote : mark = .quote
      · exact .inr (congrArg some hquote)
      · exact absurd rfl (h mark operand hquote)
  · exact .inr fun head operand he => hpair ⟨head, operand, he⟩

/-- The cases of a template and its level. -/
@[elab_as_elim]
theorem induction {motive : Int → Datum → Prop}
    (atom : ∀ level d, d.items? = none → motive level d)
    (vector : ∀ level items, (∀ item ∈ items, motive level item) → motive level (.vector items))
    (list : ∀ level items, Unmarked items → (∀ item ∈ items, motive level item) →
      motive level (.list items))
    (evaluated : ∀ operand, motive 1 (Mark.unquote.on operand))
    (stray : ∀ operand, motive 1 (Mark.unquoteSplicing.on operand))
    (marked : ∀ level level' (mark : Mark) operand, mark.inner? level = some level' →
      motive level' operand → motive level (mark.on operand))
    (level : Int) (d : Datum) : motive level d := by
  induction d using Datum.induction generalizing level with
  | atom d hd => exact atom level d hd
  | vector items ih => exact vector level items fun item hmem => ih item hmem level
  | list items ih =>
    by_cases hmark : ∃ (mark : Mark) (operand : Datum),
        mark ≠ .quote ∧ .list items = mark.on operand
    · obtain ⟨mark, operand, hquote, hitems⟩ := hmark
      cases hitems
      have hoperand : ∀ level', motive level' operand := ih operand (by simp)
      cases hinner : mark.inner? level with
      | some level' => exact marked level level' mark operand hinner (hoperand level')
      | none =>
        cases mark with
        | quote => exact absurd rfl hquote
        | quasiquote => cases hinner
        | unquote =>
          obtain rfl : level = 1 := by simpa [Mark.inner?] using hinner
          exact evaluated operand
        | unquoteSplicing =>
          obtain rfl : level = 1 := by simpa [Mark.inner?] using hinner
          exact stray operand
    · exact list level items (fun mark operand hquote he => hmark ⟨mark, operand, hquote, he⟩)
        fun item hmem => ih item hmem level

section

variable (eval : Evaluator) (limit : Int) {level nesting : Int}

theorem fill_atom {d : Datum} (h : d.items? = none) : fill eval limit level nesting d =
    if limit < nesting then Eval.fail (.templateTooDeep limit) else return .datum d := by
  cases d with
  | list items => cases h
  | vector items => cases h
  | symbol | integer | string | boolean | char =>
    rw [fill]
    all_goals simp

theorem fill_list {items : List Datum} (h : Unmarked items) :
    fill eval limit level nesting (.list items) =
      if limit < nesting then Eval.fail (.templateTooDeep limit)
      else fillItems eval limit level nesting items >>= fun vs => Eval.made (Datum.listOf vs) := by
  rcases h.cases with ⟨head, operand, rfl, hm | hm⟩ | hshape
  · rw [fill, hm]
  · rw [fill, hm]
  · rw [fill]
    exact hshape

theorem fill_unquote (operand : Datum) : fill eval limit 1 nesting (Mark.unquote.on operand) =
    if limit < nesting then Eval.fail (.templateTooDeep limit) else eval operand := by
  rw [Mark.on, fill, Mark.ofName?_name]
  rfl

theorem fill_stray (operand : Datum) :
    fill eval limit 1 nesting (Mark.unquoteSplicing.on operand) =
      if limit < nesting then Eval.fail (.templateTooDeep limit) else Eval.fail .spliceAlone := by
  rw [Mark.on, fill, Mark.ofName?_name]
  rfl

theorem fill_marked {mark : Mark} {level' : Int} (h : mark.inner? level = some level')
    (operand : Datum) : fill eval limit level nesting (mark.on operand) =
      if limit < nesting then Eval.fail (.templateTooDeep limit)
      else fill eval limit level' (nesting + 1) operand >>= marked mark := by
  rw [Mark.on, fill, Mark.ofName?_name]
  rcases Mark.inner?_eq_some h with ⟨rfl, rfl⟩ | ⟨rfl | rfl, hl, rfl⟩
  · rfl
  · simp only [if_neg hl]
  · simp only [if_neg hl]

end

/-- The splice of a template is the one whose mark says so. -/
theorem eq_of_splice? {item operand : Datum} (h : splice? item = some operand) :
    ∃ head, item = .list [.symbol head, operand] ∧
      Mark.ofName? head = some .unquoteSplicing := by
  unfold splice? at h
  split at h
  · rename_i head operand'
    by_cases hm : Mark.ofName? head = some .unquoteSplicing
    · rw [if_pos hm] at h
      cases h
      exact ⟨head, rfl, hm⟩
    · rw [if_neg hm] at h
      cases h
  · cases h

/-- What an element contributes to the list or vector that it stands in. -/
def contribution (eval : Evaluator) (limit level nesting : Int) (item : Datum) :
    Eval (List Item) :=
  match splice? item with
  | some operand =>
    if level = 1 then eval operand >>= spliced
    else (fun v => [v]) <$> fill eval limit level (nesting + 1) item
  | none => (fun v => [v]) <$> fill eval limit level (nesting + 1) item

theorem fillItems_cons (eval : Evaluator) (limit level nesting : Int) (item : Datum)
    (items : List Datum) : fillItems eval limit level nesting (item :: items) =
      contribution eval limit level nesting item >>= fun first =>
        (first ++ ·) <$> fillItems eval limit level nesting items := by
  rw [fillItems]
  unfold contribution
  simp only [map_eq_pure_bind]
  cases splice? item with
  | none => rfl
  | some operand => by_cases hl : level = 1 <;> simp only [hl, if_true, if_false]

end Template

end SchemeCore
