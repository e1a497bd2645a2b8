import SchemeCore.Proofs.Datum
import SchemeCore.Proofs.Evaluation.Run
import SchemeCore.Proofs.Evaluation.Template

/-!
# The holes of a template

Filling in a template is one walk that looks for what is to be evaluated, evaluates it and builds
the result. It comes to the same as three passes, one after the other.

1. `holes` lists the parts that are evaluated, from left to right. The template and the level alone
   decide which they are.
2. Each hole is evaluated once, in this order, up to the first that stops (`Hole.evaluate`). What it
   contributes is a list: the elements of the spliced list, or its one value.
3. `plug` puts the contributions into the places of the holes, and leaves everything else.

`inPasses` says so of the walk over any template that is not too deep for it.
-/

namespace SchemeCore.Template

/-- A part of a template that is evaluated. -/
inductive Hole where
  /-- An `unquote`, which takes the value of the expression. -/
  | value (expr : Datum)
  /-- An `unquote-splicing` among the elements of a list or vector, which takes the elements of the
  value. -/
  | splice (expr : Datum)
  /-- An `unquote-splicing` that is no element of anything. -/
  | stray
  deriving DecidableEq

mutual

/-- The holes of a template at a quasiquote level, from left to right. -/
def holes (level : Int) : Datum → List Hole
  | .list [.symbol head, operand] =>
    match Mark.ofName? head with
    | none | some .quote => itemHoles level [.symbol head, operand]
    | some .quasiquote => holes (level + 1) operand
    | some .unquote => if level = 1 then [.value operand] else holes (level - 1) operand
    | some .unquoteSplicing => if level = 1 then [.stray] else holes (level - 1) operand
  | .list items | .vector items => itemHoles level items
  | _ => []

/-- The holes of the elements of a list or vector. -/
def itemHoles (level : Int) : List Datum → List Hole
  | [] => []
  | item :: items =>
    (match splice? item with
      | some operand => if level = 1 then [.splice operand] else holes level item
      | none => holes level item) ++ itemHoles level items

end

theorem holes_atom {level : Int} {d : Datum} (h : d.items? = none) : holes level d = [] := by
  cases d with
  | list items => cases h
  | vector items => cases h
  | symbol | integer | string | boolean | char =>
    rw [holes]
    all_goals simp

theorem holes_list {level : Int} {items : List Datum} (h : Unmarked items) :
    holes level (.list items) = itemHoles level items := by
  rcases h.cases with ⟨head, operand, rfl, hm | hm⟩ | hshape
  · rw [holes, hm]
  · rw [holes, hm]
  · rw [holes]
    exact hshape

theorem holes_unquote (operand : Datum) : holes 1 (Mark.unquote.on operand) = [.value operand] := by
  rw [Mark.on, holes, Mark.ofName?_name]
  rfl

theorem holes_stray (operand : Datum) : holes 1 (Mark.unquoteSplicing.on operand) = [.stray] := by
  rw [Mark.on, holes, Mark.ofName?_name]
  rfl

theorem holes_marked {mark : Mark} {level level' : Int} (h : mark.inner? level = some level')
    (operand : Datum) : holes level (mark.on operand) = holes level' operand := by
  rw [Mark.on, holes, Mark.ofName?_name]
  rcases Mark.inner?_eq_some h with ⟨rfl, rfl⟩ | ⟨rfl | rfl, hl, rfl⟩
  · rfl
  · simp only [if_neg hl]
  · simp only [if_neg hl]

/-- The holes of an element of a list or vector. -/
def elementHoles (level : Int) (item : Datum) : List Hole :=
  match splice? item with
  | some operand => if level = 1 then [.splice operand] else holes level item
  | none => holes level item

theorem itemHoles_cons (level : Int) (item : Datum) (items : List Datum) :
    itemHoles level (item :: items) = elementHoles level item ++ itemHoles level items := by
  rw [itemHoles]
  rfl

/-- Evaluates a hole to what it contributes. -/
def Hole.evaluate (eval : Datum → Eval Datum) : Hole → Eval (List Datum)
  | value expr => return [← eval expr]
  | splice expr => do
    match ← eval expr with
    | .list items => return items
    | v => Eval.fail (.spliceNotList (.datum v))
  | stray => Eval.fail .spliceAlone

mutual

/-- The template with the contributions of its holes in their places. -/
def plug (level : Int) : Datum → List (List Datum) → Datum
  | .list [.symbol head, operand], parts =>
    match Mark.ofName? head with
    | none | some .quote => .list (plugItems level [.symbol head, operand] parts)
    | some .quasiquote => Mark.quasiquote.on (plug (level + 1) operand parts)
    | some .unquote =>
      if level = 1 then parts.flatten.headD operand
      else Mark.unquote.on (plug (level - 1) operand parts)
    | some .unquoteSplicing =>
      if level = 1 then .list [.symbol head, operand]
      else Mark.unquoteSplicing.on (plug (level - 1) operand parts)
  | .list items, parts => .list (plugItems level items parts)
  | .vector items, parts => .vector (plugItems level items parts)
  | atom, _ => atom

/-- The elements of a list or vector with the contributions of their holes in their places. -/
def plugItems (level : Int) : List Datum → List (List Datum) → List Datum
  | [], _ => []
  | item :: items, parts =>
    let own := parts.take (elementHoles level item).length
    let others := parts.drop (elementHoles level item).length
    (match splice? item with
      | some _ => if level = 1 then own.flatten else [plug level item own]
      | none => [plug level item own]) ++ plugItems level items others

end

theorem plug_atom {level : Int} {d : Datum} (h : d.items? = none) (parts : List (List Datum)) :
    plug level d parts = d := by
  cases d with
  | list items => cases h
  | vector items => cases h
  | symbol | integer | string | boolean | char =>
    rw [plug]
    all_goals simp

theorem plug_list {level : Int} {items : List Datum} (h : Unmarked items)
    (parts : List (List Datum)) :
    plug level (.list items) parts = .list (plugItems level items parts) := by
  rcases h.cases with ⟨head, operand, rfl, hm | hm⟩ | hshape
  · rw [plug, hm]
  · rw [plug, hm]
  · rw [plug]
    exact hshape

theorem plug_unquote (operand : Datum) (parts : List (List Datum)) :
    plug 1 (Mark.unquote.on operand) parts = parts.flatten.headD operand := by
  rw [Mark.on, plug, Mark.ofName?_name]
  rfl

theorem plug_marked {mark : Mark} {level level' : Int} (h : mark.inner? level = some level')
    (operand : Datum) (parts : List (List Datum)) :
    plug level (mark.on operand) parts = mark.on (plug level' operand parts) := by
  rw [Mark.on, plug, Mark.ofName?_name]
  rcases Mark.inner?_eq_some h with ⟨rfl, rfl⟩ | ⟨rfl | rfl, hl, rfl⟩
  · rfl
  · simp only [if_neg hl]
  · simp only [if_neg hl]

/-- What an element gives to its list or vector, with the contributions of its holes. -/
def plugElement (level : Int) (item : Datum) (parts : List (List Datum)) : List Datum :=
  match splice? item with
  | some _ => if level = 1 then parts.flatten else [plug level item parts]
  | none => [plug level item parts]

theorem plugItems_cons {level : Int} {item : Datum} {items : List Datum}
    {own others : List (List Datum)} (h : own.length = (elementHoles level item).length) :
    plugItems level (item :: items) (own ++ others) =
      plugElement level item own ++ plugItems level items others := by
  rw [plugItems, ← h, List.take_left, List.drop_left]
  rfl

/-! ## The walk and the passes -/

/-- What follows a list of computations may count on a value for each. -/
theorem mapM_bind_congr {α β γ : Type} {f : α → Eval β} {as : List α} {g₁ g₂ : List β → Eval γ}
    (h : ∀ bs, bs.length = as.length → g₁ bs = g₂ bs) : as.mapM f >>= g₁ = as.mapM f >>= g₂ := by
  induction as generalizing g₁ g₂ with
  | nil =>
    rw [List.mapM_nil, pure_bind, pure_bind]
    exact h [] rfl
  | cons a as ih =>
    rw [List.mapM_cons, bind_assoc, bind_assoc]
    congr
    funext b
    rw [bind_assoc, bind_assoc]
    apply ih
    intro bs hbs
    rw [pure_bind, pure_bind]
    exact h (b :: bs) (congrArg Nat.succ hbs)

/-- An evaluator whose values are data. -/
abbrev dataOnly (eval : Datum → Eval Datum) : Evaluator := fun e => .datum <$> eval e

section

variable {eval : Datum → Eval Datum} {limit level nesting : Int}

/-- The walk over a template comes to what its three passes come to. -/
def InPasses (eval : Datum → Eval Datum) (limit level nesting : Int) (d : Datum) : Prop :=
  fill (dataOnly eval) limit level nesting d =
    (holes level d).mapM (Hole.evaluate eval) >>= fun parts => pure (.datum (plug level d parts))

theorem splice_eq (operand : Datum) : dataOnly eval operand >>= spliced =
    Hole.evaluate eval (.splice operand) >>= fun items => pure (items.map .datum) := by
  show (.datum <$> eval operand) >>= spliced = _
  rw [Hole.evaluate, map_eq_pure_bind, bind_assoc, bind_assoc]
  congr
  funext v
  cases v <;> rfl

theorem value_eq (operand : Datum) : dataOnly eval operand =
    [Hole.value operand].mapM (Hole.evaluate eval) >>= fun parts =>
      pure (.datum (parts.flatten.headD operand)) := by
  rw [List.mapM_cons, List.mapM_nil, Hole.evaluate, bind_assoc, bind_assoc]
  exact map_eq_pure_bind ..

/-- An element contributes what its holes contribute, and itself. -/
theorem contribution_eq_plugElement {item : Datum}
    (h : InPasses eval limit level (nesting + 1) item) :
    contribution (dataOnly eval) limit level nesting item =
      (elementHoles level item).mapM (Hole.evaluate eval) >>= fun parts =>
        pure ((plugElement level item parts).map .datum) := by
  have hsingle : (fun v => [v]) <$> fill (dataOnly eval) limit level (nesting + 1) item =
      (holes level item).mapM (Hole.evaluate eval) >>= fun parts =>
        pure ([plug level item parts].map .datum) := by
    rw [h, map_eq_pure_bind, bind_assoc]
    congr
  unfold contribution elementHoles plugElement
  cases hs : splice? item with
  | none => exact hsingle
  | some operand =>
    by_cases hl : level = 1
    · simp only [if_pos hl, List.mapM_cons, List.mapM_nil, bind_assoc, pure_bind, List.flatten_cons,
        List.flatten_nil, List.append_nil]
      exact splice_eq operand
    · simp only [if_neg hl]
      exact hsingle

/-- The elements contribute what their holes contribute, and themselves. -/
theorem fillItems_eq_plugItems {items : List Datum}
    (h : ∀ item ∈ items, InPasses eval limit level (nesting + 1) item) :
    fillItems (dataOnly eval) limit level nesting items =
      (itemHoles level items).mapM (Hole.evaluate eval) >>= fun parts =>
        pure ((plugItems level items parts).map .datum) := by
  induction items with
  | nil => rfl
  | cons item items ih =>
    rw [fillItems_cons, contribution_eq_plugElement (h item List.mem_cons_self),
      ih fun item' hmem => h item' (List.mem_cons_of_mem _ hmem), itemHoles_cons,
      List.mapM_append, bind_assoc, bind_assoc]
    apply mapM_bind_congr
    intro own hown
    rw [pure_bind, map_eq_pure_bind, bind_assoc, bind_assoc]
    congr
    funext others
    rw [pure_bind, pure_bind, plugItems_cons hown, List.map_append]

/-- A list comes to the list of what its elements contribute. -/
theorem made_listOf_eq {items : List Datum}
    (h : ∀ item ∈ items, InPasses eval limit level (nesting + 1) item) :
    (fillItems (dataOnly eval) limit level nesting items >>= fun vs => Eval.made (Datum.listOf vs)) =
      (itemHoles level items).mapM (Hole.evaluate eval) >>= fun parts =>
        pure (.datum (.list (plugItems level items parts))) := by
  rw [fillItems_eq_plugItems h, bind_assoc]
  congr
  funext parts
  rw [pure_bind, Datum.listOf_map_datum]
  rfl

theorem made_vectorOf_eq {items : List Datum}
    (h : ∀ item ∈ items, InPasses eval limit level (nesting + 1) item) :
    (fillItems (dataOnly eval) limit level nesting items >>= fun vs =>
        Eval.made (Datum.vectorOf vs)) =
      (itemHoles level items).mapM (Hole.evaluate eval) >>= fun parts =>
        pure (.datum (.vector (plugItems level items parts))) := by
  rw [fillItems_eq_plugItems h, bind_assoc]
  congr
  funext parts
  rw [pure_bind, Datum.vectorOf_map_datum]
  rfl

/-- A marked operand comes to the mark on what the operand comes to. -/
theorem marked_eq {mark : Mark} {operand : Datum}
    (h : InPasses eval limit level nesting operand) :
    (fill (dataOnly eval) limit level nesting operand >>= marked mark) =
      (holes level operand).mapM (Hole.evaluate eval) >>= fun parts =>
        pure (.datum (mark.on (plug level operand parts))) := by
  rw [h, bind_assoc]
  rfl

/-- The walk over a template that is not too deep for it comes to what its passes come to. The
induction is over the template; the level and the nesting change on the way in. -/
theorem inPasses {d : Datum} (h : nesting + d.height ≤ limit) :
    InPasses eval limit level nesting d := by
  induction level, d using Template.induction generalizing nesting with
  | atom level d hd =>
    unfold InPasses
    rw [fill_atom _ _ hd, if_neg (by omega), holes_atom hd, List.mapM_nil, pure_bind, plug_atom hd]
  | vector level items ih =>
    have hitems : ∀ item ∈ items, InPasses eval limit level (nesting + 1) item := by
      intro item hmem
      have hlt := Datum.height_lt_of_mem hmem
      rw [Datum.height] at h
      exact ih item hmem (by omega)
    unfold InPasses
    rw [fill, if_neg (by omega), holes, made_vectorOf_eq hitems]
    rfl
  | list level items hmark ih =>
    have hitems : ∀ item ∈ items, InPasses eval limit level (nesting + 1) item := by
      intro item hmem
      have hlt := Datum.height_lt_of_mem hmem
      rw [Datum.height] at h
      exact ih item hmem (by omega)
    unfold InPasses
    rw [fill_list _ _ hmark, if_neg (by omega), holes_list hmark, made_listOf_eq hitems]
    simp only [plug_list hmark]
  | evaluated operand =>
    unfold InPasses
    rw [fill_unquote, if_neg (by omega), holes_unquote, value_eq operand]
    simp only [plug_unquote]
  | stray operand =>
    unfold InPasses
    rw [fill_stray, if_neg (by omega), holes_stray]
    rfl
  | marked level level' mark operand hinner ih =>
    rw [Mark.height_on] at h
    unfold InPasses
    rw [fill_marked _ _ hinner, if_neg (by omega), holes_marked hinner, marked_eq (ih (by omega))]
    simp only [plug_marked hinner]

end

/-- Filling in a template is to collect its holes, to evaluate them from left to right, and to put
what they contribute into their places. That is so at every quasiquote level, for every evaluator
whose values are data, and for every template that is at most as high as the limit. -/
theorem filling_in_is_three_passes (eval : Datum → Eval Datum) (limit level : Int)
    (template : Datum) (h : (template.height : Int) ≤ limit) :
    fill (dataOnly eval) limit level 0 template = do
      let parts ← (holes level template).mapM (Hole.evaluate eval)
      return .datum (plug level template parts) := by
  apply inPasses
  omega

theorem filling_in_is_three_passes_nested :
    let eval : Datum → Eval Datum := fun e => do
      match ← Context.evalAt {} 200 1 e with
      | .datum d => return d
      | .foreign what => Eval.fail (.notADatum what)
    let set : Datum := .list [.symbol "set!", .symbol "x", .symbol "y"]
    let nested : Datum := Mark.quasiquote.on (Mark.unquote.on (.list [.symbol "b",
      Mark.unquote.on (.symbol "x"), Mark.unquoteSplicing.on (.symbol "xs")]))
    let template : Datum := .list [Mark.unquote.on (.symbol "x"), Mark.unquote.on set,
      .vector [Mark.unquoteSplicing.on (.symbol "xs"), .symbol "x"], nested]
    let two : Datum := .list [.char 'p', .char 'q']
    let s : Store := { chain := ⟨[("x", .datum (.integer 1)), ("y", .datum (.integer 2)),
      ("xs", .datum two)], []⟩ }
    (template.height : Int) ≤ 5 ∧
      holes 1 template = [.value (.symbol "x"), .value set, .splice (.symbol "xs"),
        .value (.symbol "x"), .splice (.symbol "xs")] ∧
      ((fill (dataOnly eval) 5 1 0 template).exec s).1 = .ok (.datum (.list [.integer 1, .integer 2,
        .vector [.char 'p', .char 'q', .symbol "x"], Mark.quasiquote.on (Mark.unquote.on (.list
          [.symbol "b", .integer 2, .char 'p', .char 'q']))])) := by
  intro eval set nested template two s
  have hheight : (template.height : Int) ≤ 5 := by decide
  refine ⟨hheight, by decide, ?_⟩
  rw [filling_in_is_three_passes eval 5 1 template hheight]
  rfl

end SchemeCore.Template
