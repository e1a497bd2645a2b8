import SchemeCore.Evaluation.Evaluator
import SchemeCore.Proofs.Datum
import SchemeCore.Proofs.Evaluation.Run
import SchemeCore.Proofs.Evaluation.Template

/-!
# Where splices have an effect

The rule is that a splice of level 1 is replaced, in the list or vector that it is an element of, by
the elements of its value; only a template that is a splice itself has no list to take them. A
marked datum is a list as well, with its operand as the second element. `fillEvenly` is the walk
that knows no other rule.

The walk over templates does not treat the operands of nested marks as elements. So it parts from
the rule where one of them is a splice of level 1, which it refuses (`splicesUnderMark`), and
nowhere else.

1. Without such an operand the two walks are the same computation (`fill_eq_fillEvenly`).
2. The even walk refuses no splice but one that is the whole template (`neverAlone_fillEvenly`).
3. With such an operand there is no value at all (`alwaysStops_fill`).
-/

namespace SchemeCore.Template

/-! ## The rule -/

/-- What an element contributes: the elements of its value if it is a splice of level 1, and else
the one item that is its own. -/
def contributed (eval : Evaluator) (level : Int) (own : Eval Item) (item : Datum) :
    Eval (List Item) :=
  match splice? item with
  | some operand => if level = 1 then eval operand >>= spliced else (fun v => [v]) <$> own
  | none => (fun v => [v]) <$> own

mutual

/-- Fills in a template with the same rule for the elements of every list. A mark changes the level
of the elements of its list; it does not change what they are. -/
def fillEvenly (eval : Evaluator) (limit level nesting : Int) : Datum → Eval Item
  | .list [.symbol head, operand] =>
    if limit < nesting then Eval.fail (.templateTooDeep limit)
    else
      match Mark.ofName? head with
      | none | some .quote => do
        Eval.made (Datum.listOf
          (← fillEvenlyItems eval limit level nesting [.symbol head, operand]))
      | some .quasiquote => do
        Eval.made (Datum.listOf
          (← fillEvenlyItems eval limit (level + 1) nesting [.symbol head, operand]))
      | some .unquote =>
        if level = 1 then eval operand
        else do
          Eval.made (Datum.listOf
            (← fillEvenlyItems eval limit (level - 1) nesting [.symbol head, operand]))
      | some .unquoteSplicing =>
        if level = 1 then Eval.fail .spliceAlone
        else do
          Eval.made (Datum.listOf
            (← fillEvenlyItems eval limit (level - 1) nesting [.symbol head, operand]))
  | .list items =>
    if limit < nesting then Eval.fail (.templateTooDeep limit)
    else do Eval.made (Datum.listOf (← fillEvenlyItems eval limit level nesting items))
  | .vector items =>
    if limit < nesting then Eval.fail (.templateTooDeep limit)
    else do Eval.made (Datum.vectorOf (← fillEvenlyItems eval limit level nesting items))
  | atom => if limit < nesting then Eval.fail (.templateTooDeep limit) else return .datum atom

/-- Fills in the elements of a list or vector, splicing where the level is 1. -/
def fillEvenlyItems (eval : Evaluator) (limit level nesting : Int) :
    List Datum → Eval (List Item)
  | [] => return []
  | item :: items => do
    let first ← contributed eval level (fillEvenly eval limit level (nesting + 1) item) item
    let others ← fillEvenlyItems eval limit level nesting items
    return first ++ others

end

section

variable {eval : Evaluator} {limit level nesting : Int}

theorem fillEvenly_atom {d : Datum} (h : d.items? = none) :
    fillEvenly eval limit level nesting d =
      if limit < nesting then Eval.fail (.templateTooDeep limit) else return .datum d := by
  cases d with
  | list items => cases h
  | vector items => cases h
  | symbol | integer | string | boolean | char =>
    rw [fillEvenly]
    all_goals simp

theorem fillEvenly_list {items : List Datum} (h : Unmarked items) :
    fillEvenly eval limit level nesting (.list items) =
      if limit < nesting then Eval.fail (.templateTooDeep limit)
      else fillEvenlyItems eval limit level nesting items >>= fun vs =>
        Eval.made (Datum.listOf vs) := by
  rcases h.cases with ⟨head, operand, rfl, hm | hm⟩ | hshape
  · rw [fillEvenly, hm]
  · rw [fillEvenly, hm]
  · rw [fillEvenly]
    exact hshape

theorem fillEvenly_unquote (operand : Datum) :
    fillEvenly eval limit 1 nesting (Mark.unquote.on operand) =
      if limit < nesting then Eval.fail (.templateTooDeep limit) else eval operand := by
  rw [Mark.on, fillEvenly, Mark.ofName?_name]
  rfl

theorem fillEvenly_stray (operand : Datum) :
    fillEvenly eval limit 1 nesting (Mark.unquoteSplicing.on operand) =
      if limit < nesting then Eval.fail (.templateTooDeep limit) else Eval.fail .spliceAlone := by
  rw [Mark.on, fillEvenly, Mark.ofName?_name]
  rfl

theorem fillEvenly_marked {mark : Mark} {level' : Int} (h : mark.inner? level = some level')
    (operand : Datum) : fillEvenly eval limit level nesting (mark.on operand) =
      if limit < nesting then Eval.fail (.templateTooDeep limit)
      else fillEvenlyItems eval limit level' nesting [.symbol mark.name, operand] >>= fun vs =>
        Eval.made (Datum.listOf vs) := by
  rw [Mark.on, fillEvenly, Mark.ofName?_name]
  rcases Mark.inner?_eq_some h with ⟨rfl, rfl⟩ | ⟨rfl | rfl, hl, rfl⟩
  · rfl
  · simp only [if_neg hl]
  · simp only [if_neg hl]

end

/-! ## Splices under marks -/

/-- Whether a part of a template is a splice of level 1. -/
def isSplice (level : Int) (d : Datum) : Bool := level = 1 && (splice? d).isSome

theorem isSplice_iff {level : Int} {d : Datum} :
    isSplice level d = true ↔ level = 1 ∧ ∃ operand, splice? d = some operand := by
  rw [isSplice, Bool.and_eq_true, decide_eq_true_eq, Option.isSome_iff_exists]

mutual

/-- Whether somewhere in a template a splice of level 1 is the operand of a nested mark. -/
def splicesUnderMark (level : Int) : Datum → Bool
  | .list [.symbol head, operand] =>
    match Mark.ofName? head with
    | none | some .quote => splicesUnderMarkAmong level [.symbol head, operand]
    | some .quasiquote => isSplice (level + 1) operand || splicesUnderMark (level + 1) operand
    | some .unquote | some .unquoteSplicing =>
      level ≠ 1 && (isSplice (level - 1) operand || splicesUnderMark (level - 1) operand)
  | .list items | .vector items => splicesUnderMarkAmong level items
  | _ => false

/-- Whether that is so somewhere in the elements of a list or vector. -/
def splicesUnderMarkAmong (level : Int) : List Datum → Bool
  | [] => false
  | item :: items => splicesUnderMark level item || splicesUnderMarkAmong level items

end

theorem splicesUnderMark_atom {level : Int} {d : Datum} (h : d.items? = none) :
    splicesUnderMark level d = false := by
  cases d with
  | list items => cases h
  | vector items => cases h
  | symbol | integer | string | boolean | char => simp [splicesUnderMark]

theorem splicesUnderMark_list {level : Int} {items : List Datum} (h : Unmarked items) :
    splicesUnderMark level (.list items) = splicesUnderMarkAmong level items := by
  rcases h.cases with ⟨head, operand, rfl, hm | hm⟩ | hshape
  · rw [splicesUnderMark, hm]
  · rw [splicesUnderMark, hm]
  · rw [splicesUnderMark]
    exact hshape

theorem splicesUnderMark_unquote (operand : Datum) :
    splicesUnderMark 1 (Mark.unquote.on operand) = false := by
  rw [Mark.on, splicesUnderMark, Mark.ofName?_name]
  rfl

theorem splicesUnderMark_marked {mark : Mark} {level level' : Int}
    (h : mark.inner? level = some level') (operand : Datum) :
    splicesUnderMark level (mark.on operand) =
      (isSplice level' operand || splicesUnderMark level' operand) := by
  rw [Mark.on, splicesUnderMark, Mark.ofName?_name]
  rcases Mark.inner?_eq_some h with ⟨rfl, rfl⟩ | ⟨rfl | rfl, hl, rfl⟩
  · rfl
  · simp [hl]
  · simp [hl]

theorem splicesUnderMarkAmong_eq (level : Int) (items : List Datum) :
    splicesUnderMarkAmong level items = items.any (splicesUnderMark level) := by
  induction items with
  | nil => rfl
  | cons item items ih => rw [splicesUnderMarkAmong, ih, List.any_cons]

theorem splicesUnderMark_of_among {level : Int} {items : List Datum}
    (h : splicesUnderMarkAmong level items = false) :
    ∀ item ∈ items, splicesUnderMark level item = false := by
  simpa [splicesUnderMarkAmong_eq] using h

/-- What a splice of level 1 has inside is an expression and no part of the template. -/
theorem splicesUnderMark_of_isSplice {level : Int} {d : Datum} (h : isSplice level d = true) :
    splicesUnderMark level d = false := by
  obtain ⟨rfl, operand, hs⟩ := isSplice_iff.1 h
  obtain ⟨head, rfl, hm⟩ := eq_of_splice? hs
  rw [splicesUnderMark, hm]
  rfl

section

variable {eval : Evaluator} {limit level nesting : Int} {item : Datum}

theorem contributed_of_not_isSplice (h : isSplice level item = false) (own : Eval Item) :
    contributed eval level own item = (fun v => [v]) <$> own := by
  unfold contributed
  cases hs : splice? item with
  | none => rfl
  | some operand =>
    dsimp only
    rw [if_neg]
    rintro rfl
    simp [isSplice, hs] at h

theorem contributed_splice (operand : Datum) (own : Eval Item) :
    contributed eval 1 own (Mark.unquoteSplicing.on operand) = eval operand >>= spliced := rfl

/-! ## The walks agree -/

theorem fillEvenly_of_lt (h : limit < nesting) (d : Datum) :
    fillEvenly eval limit level nesting d = Eval.fail (.templateTooDeep limit) := by
  unfold fillEvenly
  split <;> rw [if_pos h]

/-- A marked operand that is no splice becomes what it is on its own, under its mark. -/
theorem fillEvenlyItems_marked {mark : Mark} {operand : Datum}
    (h : isSplice level operand = false) :
    (fillEvenlyItems eval limit level nesting [.symbol mark.name, operand] >>= fun vs =>
        Eval.made (Datum.listOf vs)) =
      fillEvenly eval limit level (nesting + 1) operand >>= marked mark := by
  have hhead : isSplice level (.symbol mark.name) = false := Bool.and_false _
  rw [fillEvenlyItems, fillEvenlyItems, fillEvenlyItems, contributed_of_not_isSplice h,
    contributed_of_not_isSplice hhead]
  by_cases hdeep : limit < nesting + 1
  · rw [fillEvenly_of_lt hdeep, fillEvenly_of_lt hdeep]
    rfl
  · rw [fillEvenly_atom rfl, if_neg hdeep]
    simp only [map_eq_pure_bind, bind_assoc, pure_bind]
    rfl

theorem fillItems_eq_fillEvenlyItems {items : List Datum}
    (h : ∀ item ∈ items, fill eval limit level (nesting + 1) item =
      fillEvenly eval limit level (nesting + 1) item) :
    fillItems eval limit level nesting items = fillEvenlyItems eval limit level nesting items := by
  induction items with
  | nil => rfl
  | cons item items ih =>
    have hitem : contribution eval limit level nesting item =
        contributed eval level (fillEvenly eval limit level (nesting + 1) item) item := by
      rw [← h item List.mem_cons_self]
      rfl
    rw [fillItems_cons, fillEvenlyItems, hitem,
      ih fun item' hmem => h item' (List.mem_cons_of_mem _ hmem)]
    simp only [map_eq_pure_bind]

/-- Where no nested mark has a splice of level 1 as its operand, the walk over the template follows
the rule. The induction is over the template; the level and the nesting change on the way in. -/
theorem fill_eq_fillEvenly {d : Datum} (h : splicesUnderMark level d = false) :
    fill eval limit level nesting d = fillEvenly eval limit level nesting d := by
  induction level, d using Template.induction generalizing nesting with
  | atom level d hd => rw [fill_atom _ _ hd, fillEvenly_atom hd]
  | vector level items ih =>
    rw [splicesUnderMark] at h
    rw [fill, fillEvenly, fillItems_eq_fillEvenlyItems fun item hmem =>
      ih item hmem (splicesUnderMark_of_among h item hmem)]
  | list level items hmark ih =>
    rw [splicesUnderMark_list hmark] at h
    rw [fill_list _ _ hmark, fillEvenly_list hmark, fillItems_eq_fillEvenlyItems fun item hmem =>
      ih item hmem (splicesUnderMark_of_among h item hmem)]
  | evaluated operand => rw [fill_unquote, fillEvenly_unquote]
  | stray operand => rw [fill_stray, fillEvenly_stray]
  | marked level level' mark operand hinner ih =>
    rw [splicesUnderMark_marked hinner, Bool.or_eq_false_iff] at h
    rw [fill_marked _ _ hinner, fillEvenly_marked hinner, fillEvenlyItems_marked h.1, ih h.2]

/-- The elements in front of a splice, those of its value, and the elements behind it, one after the
other. -/
theorem fillEvenlyItems_splice (before after : List Datum) (operand : Datum) :
    fillEvenlyItems eval limit 1 nesting (before ++ Mark.unquoteSplicing.on operand :: after) = do
      let front ← fillEvenlyItems eval limit 1 nesting before
      let elements ← eval operand >>= spliced
      let back ← fillEvenlyItems eval limit 1 nesting after
      return front ++ (elements ++ back) := by
  induction before with
  | nil =>
    rw [List.nil_append, fillEvenlyItems, fillEvenlyItems, contributed_splice, pure_bind]
    rfl
  | cons item before ih =>
    rw [List.cons_append, fillEvenlyItems, fillEvenlyItems, ih]
    simp only [bind_assoc, pure_bind, List.append_assoc]

end

/-! ## Refused splices -/

section

variable {α β : Type}

/-- The computation does not stop because of a splice that stands alone. -/
def NeverAlone (m : Eval α) : Prop := ∀ s, (m.exec s).1 ≠ .error (.fault .spliceAlone)

theorem neverAlone_pure (a : α) : NeverAlone (pure a) := by
  rintro s ⟨⟩

theorem neverAlone_fail {f : Fault} (h : f ≠ .spliceAlone) : NeverAlone (Eval.fail f : Eval α) := by
  intro s hs
  cases hs
  exact h rfl

theorem NeverAlone.bind {m : Eval α} {f : α → Eval β} (hm : NeverAlone m)
    (hf : ∀ a, NeverAlone (f a)) : NeverAlone (m >>= f) := by
  intro s
  rw [Eval.exec_bind]
  have h := hm s
  generalize m.exec s = r at h ⊢
  rcases r with ⟨stop | a, t⟩
  · intro he
    cases he
    exact h rfl
  · exact hf a t

theorem NeverAlone.map {m : Eval α} (hm : NeverAlone m) (f : α → β) : NeverAlone (f <$> m) := by
  rw [map_eq_pure_bind]
  exact hm.bind fun a => neverAlone_pure (f a)

theorem neverAlone_made (d : Except ConstructionError Datum) : NeverAlone (Eval.made d) := by
  cases d <;> rintro s ⟨⟩

theorem neverAlone_spliced (v : Item) : NeverAlone (spliced v) := by
  unfold spliced
  split
  · exact neverAlone_pure _
  · exact neverAlone_fail (by rintro ⟨⟩)

/-- The computation has no value from any store. -/
def AlwaysStops (m : Eval α) : Prop := ∀ s, ∃ stop, (m.exec s).1 = .error stop

theorem alwaysStops_fail (f : Fault) : AlwaysStops (Eval.fail f : Eval α) := fun _ => ⟨_, rfl⟩

theorem AlwaysStops.bind {m : Eval α} (hm : AlwaysStops m) (f : α → Eval β) :
    AlwaysStops (m >>= f) := by
  intro s
  obtain ⟨stop, hs⟩ := hm s
  rw [Eval.exec_bind]
  generalize m.exec s = r at hs ⊢
  rcases r with ⟨_ | a, t⟩
  · exact ⟨_, rfl⟩
  · cases hs

theorem AlwaysStops.bind_left (m : Eval α) {f : α → Eval β} (hf : ∀ a, AlwaysStops (f a)) :
    AlwaysStops (m >>= f) := by
  intro s
  rw [Eval.exec_bind]
  rcases m.exec s with ⟨stop | a, t⟩
  · exact ⟨stop, rfl⟩
  · exact hf a t

theorem AlwaysStops.map {m : Eval α} (hm : AlwaysStops m) (f : α → β) : AlwaysStops (f <$> m) := by
  rw [map_eq_pure_bind]
  exact hm.bind _

end

section

variable {eval : Evaluator} {limit level nesting : Int}

theorem neverAlone_check {m : Eval Item} (h : NeverAlone m) :
    NeverAlone (if limit < nesting then Eval.fail (.templateTooDeep limit) else m) := by
  split
  · exact neverAlone_fail (by rintro ⟨⟩)
  · exact h

theorem neverAlone_fillEvenlyItems (heval : ∀ e, NeverAlone (eval e)) {items : List Datum}
    (h : ∀ item ∈ items, isSplice level item = false →
      NeverAlone (fillEvenly eval limit level (nesting + 1) item)) :
    NeverAlone (fillEvenlyItems eval limit level nesting items) := by
  induction items with
  | nil => exact neverAlone_pure []
  | cons item items ih =>
    have hothers := ih fun item' hmem => h item' (List.mem_cons_of_mem _ hmem)
    have hfirst : NeverAlone
        (contributed eval level (fillEvenly eval limit level (nesting + 1) item) item) := by
      cases hs : isSplice level item with
      | false =>
        rw [contributed_of_not_isSplice hs]
        exact (h item List.mem_cons_self hs).map _
      | true =>
        obtain ⟨rfl, operand, hs⟩ := isSplice_iff.1 hs
        unfold contributed
        rw [hs]
        exact (heval operand).bind neverAlone_spliced
    rw [fillEvenlyItems]
    exact hfirst.bind fun first => hothers.bind fun others => neverAlone_pure _

/-- The even walk refuses no splice of level 1 but one that is the whole template. -/
theorem neverAlone_fillEvenly (heval : ∀ e, NeverAlone (eval e)) {d : Datum}
    (h : isSplice level d = false) : NeverAlone (fillEvenly eval limit level nesting d) := by
  induction level, d using Template.induction generalizing nesting with
  | atom level d hd =>
    rw [fillEvenly_atom hd]
    exact neverAlone_check (neverAlone_pure _)
  | vector level items ih =>
    rw [fillEvenly]
    exact neverAlone_check ((neverAlone_fillEvenlyItems heval fun item hmem hs =>
      ih item hmem hs).bind fun _ => neverAlone_made _)
  | list level items hmark ih =>
    rw [fillEvenly_list hmark]
    exact neverAlone_check ((neverAlone_fillEvenlyItems heval fun item hmem hs =>
      ih item hmem hs).bind fun _ => neverAlone_made _)
  | evaluated operand =>
    rw [fillEvenly_unquote]
    exact neverAlone_check (heval operand)
  | stray operand => cases (show true = false from h)
  | marked level level' mark operand hinner ih =>
    rw [fillEvenly_marked hinner]
    refine neverAlone_check ((neverAlone_fillEvenlyItems heval fun item hmem hs => ?_).bind
      fun _ => neverAlone_made _)
    rcases List.mem_cons.1 hmem with rfl | hmem
    · rw [fillEvenly_atom rfl]
      exact neverAlone_check (neverAlone_pure _)
    · obtain rfl := List.mem_singleton.1 hmem
      exact ih hs

theorem alwaysStops_check {m : Eval Item} (h : AlwaysStops m) :
    AlwaysStops (if limit < nesting then Eval.fail (.templateTooDeep limit) else m) := by
  split
  · exact alwaysStops_fail _
  · exact h

theorem alwaysStops_fill_of_isSplice {d : Datum} (h : isSplice level d = true) :
    AlwaysStops (fill eval limit level nesting d) := by
  obtain ⟨rfl, operand, hs⟩ := isSplice_iff.1 h
  obtain ⟨head, rfl, hm⟩ := eq_of_splice? hs
  rw [fill, hm]
  exact alwaysStops_check (alwaysStops_fail _)

theorem alwaysStops_fillItems {items : List Datum}
    (h : splicesUnderMarkAmong level items = true)
    (hitem : ∀ item ∈ items, splicesUnderMark level item = true →
      AlwaysStops (fill eval limit level (nesting + 1) item)) :
    AlwaysStops (fillItems eval limit level nesting items) := by
  induction items with
  | nil => cases h
  | cons item items ih =>
    rw [splicesUnderMarkAmong, Bool.or_eq_true] at h
    rw [fillItems_cons]
    rcases h with h | h
    · have hsplice : isSplice level item = false := by
        cases hs : isSplice level item with
        | false => rfl
        | true => rw [← h, splicesUnderMark_of_isSplice hs]
      have hfirst : contribution eval limit level nesting item =
          (fun v => [v]) <$> fill eval limit level (nesting + 1) item :=
        contributed_of_not_isSplice hsplice _
      rw [hfirst]
      exact ((hitem item List.mem_cons_self h).map _).bind _
    · exact .bind_left _ fun first =>
        (ih h fun item' hmem => hitem item' (List.mem_cons_of_mem _ hmem)).map _

/-- Where a nested mark has a splice of level 1 as its operand, the walk never comes to a value. The
induction is over the template; the level and the nesting change on the way in. -/
theorem alwaysStops_fill {d : Datum} (h : splicesUnderMark level d = true) :
    AlwaysStops (fill eval limit level nesting d) := by
  induction level, d using Template.induction generalizing nesting with
  | atom level d hd =>
    rw [splicesUnderMark_atom hd] at h
    cases h
  | vector level items ih =>
    rw [splicesUnderMark] at h
    rw [fill]
    exact alwaysStops_check ((alwaysStops_fillItems h fun item hmem => ih item hmem).bind _)
  | list level items hmark ih =>
    rw [splicesUnderMark_list hmark] at h
    rw [fill_list _ _ hmark]
    exact alwaysStops_check ((alwaysStops_fillItems h fun item hmem => ih item hmem).bind _)
  | evaluated operand =>
    rw [splicesUnderMark_unquote] at h
    cases h
  | stray operand =>
    rw [splicesUnderMark_of_isSplice rfl] at h
    cases h
  | marked level level' mark operand hinner ih =>
    rw [splicesUnderMark_marked hinner, Bool.or_eq_true] at h
    rw [fill_marked _ _ hinner]
    apply alwaysStops_check
    rcases h with h | h
    · exact (alwaysStops_fill_of_isSplice h).bind _
    · exact (ih h).bind _

end

/-- Splices have their effect everywhere but under the marks of a template. If no nested mark has a
splice of level 1 as its operand, the walk over the template is the even one, in which every such
splice among the elements of a list or vector gives way to the elements of its value; and then only
a template that is a splice itself is refused for one. If a nested mark has one, the template never
comes to a value. -/
theorem splices_take_effect_but_under_marks (eval : Evaluator) (limit : Int) (template : Datum) :
    (splicesUnderMark 1 template = false →
      fill eval limit 1 0 template = fillEvenly eval limit 1 0 template ∧
      ((∀ e, NeverAlone (eval e)) → ∀ s, ((fill eval limit 1 0 template).exec s).1 =
        .error (.fault .spliceAlone) → ∃ operand, splice? template = some operand)) ∧
    (∀ (nesting : Int) (before after : List Datum) (operand : Datum),
      fillEvenlyItems eval limit 1 nesting (before ++ Mark.unquoteSplicing.on operand :: after) = do
        let front ← fillEvenlyItems eval limit 1 nesting before
        let elements ← eval operand >>= spliced
        let back ← fillEvenlyItems eval limit 1 nesting after
        return front ++ (elements ++ back)) ∧
    (splicesUnderMark 1 template = true →
      ∀ s, ∃ stop, ((fill eval limit 1 0 template).exec s).1 = .error stop) := by
  refine ⟨fun h => ⟨fill_eq_fillEvenly h, fun heval s hs => ?_⟩,
    fun nesting => fillEvenlyItems_splice, fun h => alwaysStops_fill h⟩
  rw [fill_eq_fillEvenly h] at hs
  cases hsplice : splice? template with
  | some operand => exact ⟨operand, rfl⟩
  | none => exact absurd hs (neverAlone_fillEvenly heval (by simp [isSplice, hsplice]) s)

theorem splices_take_effect_but_under_marks_nested :
    let eval : Evaluator := Context.evalAt {} 200 1
    let constant : Evaluator := fun _ => return .datum .nil
    let template (part : Datum) : Datum := Mark.quasiquote.on (.list [Mark.unquote.on part])
    let xs : Datum := Mark.unquoteSplicing.on (.symbol "xs")
    let s : Store := { chain := ⟨[("xs", .datum (.list [.integer 1, .integer 2]))], []⟩ }
    splicesUnderMark 1 (template (.list [.symbol "b", xs])) = false ∧
      ((fill eval 200 1 0 (template (.list [.symbol "b", xs]))).exec s).1 =
        .ok (.datum (template (.list [.symbol "b", .integer 1, .integer 2]))) ∧
      splicesUnderMark 1 (template xs) = true ∧
      (∃ stop, ((fill eval 200 1 0 (template xs)).exec s).1 = .error stop) ∧
      (∀ e, NeverAlone (constant e)) ∧
      ((fill constant 200 1 0 xs).exec s).1 = .error (.fault .spliceAlone) ∧
      ∃ operand, splice? xs = some operand := by
  intro eval constant template xs s
  have hplain : splicesUnderMark 1 (template (.list [.symbol "b", xs])) = false := by decide
  have hmarked : splicesUnderMark 1 (template xs) = true := by decide
  have hconstant : ∀ e, NeverAlone (constant e) := fun _ => neverAlone_pure _
  have halone : ((fill constant 200 1 0 xs).exec s).1 = .error (.fault .spliceAlone) := by rfl
  have heven := ((splices_take_effect_but_under_marks eval 200 _).1 hplain).1
  refine ⟨hplain, ?_, hmarked, (splices_take_effect_but_under_marks eval 200 _).2.2 hmarked s,
    hconstant, halone,
    ((splices_take_effect_but_under_marks constant 200 xs).1 (by decide)).2 hconstant s halone⟩
  rw [heven]
  rfl

/-- A splice that is the operand of a nested mark is refused as if it were in no list, where the
rule puts its elements behind the mark. -/
theorem splice_under_mark_is_refused :
    let template : Datum := Mark.quasiquote.on
      (.list [Mark.unquote.on (Mark.unquoteSplicing.on (.symbol "xs"))])
    let s : Store := { chain := ⟨[("xs", .datum (.list [.integer 1, .integer 2]))], []⟩ }
    splice? template = none ∧
      ((Context.evaluate {} (.datum (Mark.quasiquote.on template))).run s).1 =
        .failure ⟨"bad-form", "unquote-splicing is only valid inside a list"⟩ ∧
      ((fillEvenly (Context.evalAt {} 200 1) 200 1 0 template).exec s).1 = .ok (.datum
        (Mark.quasiquote.on (.list [.list [.symbol "unquote", .integer 1, .integer 2]]))) := by
  refine ⟨by decide, by decide, by rfl⟩

end SchemeCore.Template
