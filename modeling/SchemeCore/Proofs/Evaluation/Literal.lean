import SchemeCore.Evaluation.Evaluator
import SchemeCore.Proofs.Evaluation.Holes

/-!
# Templates without holes

A template that has no holes is taken as it stands, however many marks it holds at other levels: the
walk takes it apart and puts the same datum together again. Nothing in it is evaluated, so the chain
plays no part. The only thing that a quasiquote does and a quote does not is to look at the height,
which may not exceed the limit.
-/

namespace SchemeCore

namespace Template

/-- The datum itself, unless it is too high for what is left of the limit. -/
def literal {α : Type} (limit nesting : Int) (height : Nat) (value : α) : Eval α :=
  if limit < nesting + height then Eval.fail (.templateTooDeep limit) else return value

section

variable {α β : Type} {eval : Evaluator} {limit level nesting : Int}

theorem literal_bind (height : Nat) (value : α) (f : α → Eval β) :
    literal limit nesting height value >>= f =
      if limit < nesting + height then Eval.fail (.templateTooDeep limit) else f value := by
  unfold literal
  split <;> rfl

/-- What is too deep on its own is too deep together with all that it holds. -/
theorem check_literal (height : Nat) (value : α) :
    (if limit < nesting then Eval.fail (.templateTooDeep limit)
      else literal limit nesting height value) = literal limit nesting height value := by
  unfold literal
  by_cases h : limit < nesting
  · rw [if_pos h, if_pos (by omega)]
  · rw [if_neg h]

theorem splice?_eq_none_of_no_holes {item : Datum} (h : elementHoles level item = []) :
    splice? item = none ∨ level ≠ 1 := by
  unfold elementHoles at h
  by_cases hl : level = 1
  · left
    cases hs : splice? item with
    | none => rfl
    | some operand =>
      rw [hs] at h
      simp [hl] at h
  · exact .inr hl

theorem holes_of_elementHoles {item : Datum} (h : elementHoles level item = []) :
    holes level item = [] := by
  unfold elementHoles at h
  split at h
  · split at h
    · simp at h
    · exact h
  · exact h

/-- An element without holes contributes itself. -/
theorem contribution_of_no_holes {item : Datum} (h : elementHoles level item = [])
    (hfill : fill eval limit level (nesting + 1) item =
      literal limit (nesting + 1) item.height (.datum item)) :
    contribution eval limit level nesting item =
      literal limit (nesting + 1) item.height [.datum item] := by
  have hsingle : (fun v => [v]) <$> fill eval limit level (nesting + 1) item =
      literal limit (nesting + 1) item.height [.datum item] := by
    rw [hfill, map_eq_pure_bind, literal_bind]
    rfl
  unfold contribution
  rcases splice?_eq_none_of_no_holes h with hs | hl
  · rw [hs]
    exact hsingle
  · simp only [if_neg hl]
    split <;> exact hsingle

/-- Elements without holes contribute themselves. -/
theorem fillItems_of_no_holes {items : List Datum} (hn : nesting ≤ limit)
    (h : itemHoles level items = [])
    (hfill : ∀ item ∈ items, holes level item = [] → fill eval limit level (nesting + 1) item =
      literal limit (nesting + 1) item.height (.datum item)) :
    fillItems eval limit level nesting items =
      literal limit nesting (Datum.heightItems items) (items.map .datum) := by
  induction items with
  | nil =>
    rw [fillItems, literal, Datum.heightItems, if_neg (by simpa using hn)]
    rfl
  | cons item items ih =>
    rw [itemHoles_cons, List.append_eq_nil_iff] at h
    obtain ⟨hitem, hitems⟩ := h
    rw [fillItems_cons, contribution_of_no_holes hitem
        (hfill item List.mem_cons_self (holes_of_elementHoles hitem)),
      ih hitems fun item' hmem => hfill item' (List.mem_cons_of_mem _ hmem), literal_bind,
      map_eq_pure_bind, literal_bind, literal, Datum.heightItems]
    -- the first element is too deep, or else one of the others is, or none
    by_cases hfirst : limit < nesting + 1 + item.height
    · rw [if_pos hfirst, if_pos (by omega)]
    · rw [if_neg hfirst]
      by_cases hothers : limit < nesting + (Datum.heightItems items : Nat)
      · rw [if_pos hothers, if_pos (by omega)]
      · rw [if_neg hothers, if_neg (by omega)]
        rfl

theorem marked_of_no_holes {level' : Int} {mark : Mark} {operand : Datum}
    (hfill : fill eval limit level' (nesting + 1) operand =
      literal limit (nesting + 1) operand.height (.datum operand)) :
    fill eval limit level' (nesting + 1) operand >>= marked mark =
      literal limit nesting (mark.on operand).height (.datum (mark.on operand)) := by
  rw [hfill, literal_bind, literal, Mark.height_on,
    show nesting + 1 + (operand.height : Int) = nesting + (operand.height + 1 : Nat) by omega]
  rfl

/-- A template without holes stands for itself, at every level and whatever evaluator there is,
unless it is too high for the limit. The induction is over the template; the level and the nesting
change on the way in. -/
theorem fill_of_no_holes {d : Datum} (h : holes level d = []) :
    fill eval limit level nesting d = literal limit nesting d.height (.datum d) := by
  induction level, d using Template.induction generalizing nesting with
  | atom level d hd =>
    rw [fill_atom _ _ hd, literal, Datum.height_eq_zero hd, Int.natCast_zero, Int.add_zero]
  | vector level items ih =>
    rw [holes] at h
    rw [fill, ← check_literal]
    by_cases hn : limit < nesting
    · rw [if_pos hn, if_pos hn]
    · rw [if_neg hn, if_neg hn, fillItems_of_no_holes (Int.not_lt.1 hn) h fun item hmem hitem =>
        ih item hmem hitem, literal_bind, Datum.vectorOf_map_datum]
      rfl
  | list level items hmark ih =>
    rw [holes_list hmark] at h
    rw [fill_list _ _ hmark, ← check_literal]
    by_cases hn : limit < nesting
    · rw [if_pos hn, if_pos hn]
    · rw [if_neg hn, if_neg hn, fillItems_of_no_holes (Int.not_lt.1 hn) h fun item hmem hitem =>
        ih item hmem hitem, literal_bind, Datum.listOf_map_datum]
      rfl
  | evaluated operand =>
    rw [holes_unquote] at h
    cases h
  | stray operand =>
    rw [holes_stray] at h
    cases h
  | marked level level' mark operand hinner ih =>
    rw [holes_marked hinner] at h
    rw [fill_marked _ _ hinner, marked_of_no_holes (ih h), check_literal]

end

end Template

namespace Context

variable {settings : Settings}

/-- Under every limit that is in force, the operands of the outermost form are within reach. -/
theorem evalItem_form {head : String} {form : Form} (hform : Forms.builtin head = some form)
    (operands : List Datum) :
    evalItem ⟨settings, Forms.builtin⟩ settings.maxDepth 0
        (.datum (.list (.symbol head :: operands))) =
      form settings operands (evalAt ⟨settings, Forms.builtin⟩ settings.maxDepth 1) := by
  have hlimit : 0 ≤ settings.maxDepth := Int.le_trans (by decide) settings.one_le_maxDepth
  show evalWithin _ _ (levelsLeft settings.maxDepth 0) _ = _
  rw [levelsLeft_of_le hlimit, evalWithin]
  dsimp only
  rw [hform]
  rfl

theorem run_evaluate_quote (d : Datum) (s : Store) :
    let r := (evaluate ⟨settings, Forms.builtin⟩ (.datum (Mark.quote.on d))).run s
    r.1 = .value (.datum d) ∧ r.2.chain = s.chain := by
  dsimp only
  rw [run_evaluate, Mark.on, evalItem_form rfl]
  exact ⟨rfl, rfl⟩

theorem run_evaluate_quasiquote {d : Datum} (h : Template.holes 1 d = []) (s : Store) :
    let r := (evaluate ⟨settings, Forms.builtin⟩ (.datum (Mark.quasiquote.on d))).run s
    r.1 = (if settings.maxDepth < d.height then .failure ⟨"recursion-depth",
        "quasiquote template nested deeper than " ++ toString settings.maxDepth ++ " levels"⟩
      else .value (.datum d)) ∧ r.2.chain = s.chain := by
  dsimp only
  rw [run_evaluate, Mark.on, evalItem_form rfl]
  dsimp only
  rw [Form.quasiquote, Eval.exec_bind, Eval.exec_askDepth]
  dsimp only
  rw [Template.fill_of_no_holes h, Template.literal, Int.zero_add, Store.chain_noted]
  split <;> exact ⟨rfl, rfl⟩

end Context

/-- On a template without holes a quasiquote is a quote, up to the limit on nesting. Whatever the
chain holds, the value is the template itself if that is at most as high as the limit, and otherwise
the template is too deep; no frame changes. The walk over such a template asks its evaluator for
nothing under any limit. -/
theorem quasiquote_is_quote_without_holes (d : Datum) (h : Template.holes 1 d = []) :
    (∀ (settings : Settings) (s : Store),
      let ctx : Context := ⟨settings, Forms.builtin⟩
      let quoted := (ctx.evaluate (.datum (Mark.quote.on d))).run s
      let filled := (ctx.evaluate (.datum (Mark.quasiquote.on d))).run s
      quoted.1 = .value (.datum d) ∧
      ((d.height : Int) ≤ settings.maxDepth → filled.1 = quoted.1) ∧
      (settings.maxDepth < (d.height : Int) → filled.1 = .failure ⟨"recursion-depth",
        "quasiquote template nested deeper than " ++ toString settings.maxDepth ++ " levels"⟩) ∧
      quoted.2.chain = s.chain ∧ filled.2.chain = s.chain) ∧
    ∀ (eval : Evaluator) (limit : Int), Template.fill eval limit 1 0 d =
      if limit < d.height then Eval.fail (.templateTooDeep limit) else return .datum d := by
  refine ⟨fun settings s => ?_, fun eval limit => ?_⟩
  · obtain ⟨hquoted, hchain⟩ := @Context.run_evaluate_quote settings d s
    obtain ⟨hfilled, hchain'⟩ := @Context.run_evaluate_quasiquote settings d h s
    refine ⟨hquoted, fun hle => ?_, fun hlt => ?_, hchain, hchain'⟩
    · rw [hfilled, if_neg (Int.not_lt.2 hle)]
      exact hquoted.symm
    · rw [hfilled, if_pos hlt]
  · rw [Template.fill_of_no_holes h, Template.literal, Int.zero_add]

theorem quasiquote_is_quote_without_holes_at_limit :
    let d : Datum := .list [.symbol "a",
      Mark.quasiquote.on (Mark.unquote.on (.vector [.symbol "x"])),
      .list [.symbol "unquote", .symbol "x", .symbol "y"]]
    let ctx (depth : String) : Context := ⟨{ depthText := some depth }, Forms.builtin⟩
    let s : Store := { chain := ⟨[("x", .datum (.integer 1))], []⟩ }
    Template.holes 1 d = [] ∧ d.height = 4 ∧
      (((ctx "4").evaluate (.datum (Mark.quasiquote.on d))).run s).1 = .value (.datum d) ∧
      (((ctx "3").evaluate (.datum (Mark.quasiquote.on d))).run s).1 =
        .failure ⟨"recursion-depth", "quasiquote template nested deeper than 3 levels"⟩ := by
  intro d ctx s
  have hholes : Template.holes 1 d = [] := by decide
  have hheight : d.height = 4 := by decide
  have hfour : (ctx "4").settings.maxDepth = 4 := by decide
  have hthree : (ctx "3").settings.maxDepth = 3 := by decide
  obtain ⟨hquoted, hvalue, -⟩ :=
    (quasiquote_is_quote_without_holes d hholes).1 (ctx "4").settings s
  obtain ⟨-, -, hdeep, -⟩ := (quasiquote_is_quote_without_holes d hholes).1 (ctx "3").settings s
  refine ⟨hholes, hheight, (hvalue ?_).trans hquoted, hdeep ?_⟩
  · rw [hheight, hfour]
    decide
  · rw [hheight, hthree]
    decide

end SchemeCore
