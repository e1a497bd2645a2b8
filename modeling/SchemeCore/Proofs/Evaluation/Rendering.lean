import SchemeCore.Proofs.Datum
import SchemeCore.Evaluation.Handler
import SchemeCore.Proofs.Evaluation.Run
import SchemeCore.Proofs.Evaluation.Template

/-!
# Handlers render forms

The evaluator with handlers, which return their failures, is the evaluator with forms, which stop.

1. Steps render a computation if they return the failure that it stops at, and raise what else it
   stops at (`Steps.Renders`). To hand on a failure is to stop at it (`Renders.bind`), and a refusal
   that is caught on the spot is a fault (`exec_catching_refuse`).
2. With that each built-in handler renders its form (`Handlers.renderForms_builtin`), the
   evaluators render each other, and they come to the same outcomes (`Handlers.evaluate_eq`).
-/

namespace SchemeCore

namespace Steps

variable {α β : Type}

/-- The result of some steps from a store, and the store that they leave. -/
def exec (m : Steps α) (s : Store) : Except Raised α × Store := m.run.run s

theorem exec_bind (m : Steps α) (f : α → Steps β) (s : Store) :
    (m >>= f).exec s = match m.exec s with
      | (.ok a, t) => (f a).exec t
      | (.error e, t) => (.error e, t) := by
  unfold exec
  rw [ExceptT.run_bind, StateT.run_bind]
  rcases m.run.run s with ⟨_ | _, t⟩ <;> rfl

theorem exec_tryCatch (m : Steps α) (h : Raised → Steps α) (s : Store) :
    (tryCatch m h).exec s = match m.exec s with
      | (.ok a, t) => (.ok a, t)
      | (.error e, t) => (h e).exec t := by
  unfold exec ExceptT.run StateT.run
  simp only [tryCatch, tryCatchThe, MonadExceptOf.tryCatch, ExceptT.tryCatch, ExceptT.mk,
    Bind.bind, StateT.bind]
  cases m s with
  | mk result t => cases result <;> rfl

theorem exec_get_bind (f : Store → Steps α) (s : Store) : (get >>= f).exec s = (f s).exec s := rfl

theorem exec_lookup (levels : Nat) (name : String) (s : Store) : (lookup levels name).exec s =
    match s.chain.lookupItem (.datum (.symbol name)) with
    | .ok value => (.ok value, s)
    | .error e => (refuse levels e : Steps Item).exec s := by
  unfold lookup
  rw [exec_get_bind]
  cases s.chain.lookupItem (.datum (.symbol name)) <;> rfl

theorem exec_define (levels : Nat) (target : Datum) (value : Item) (s : Store) :
    (define levels target value).exec s =
      match s.chain.bindItem (.datum target) value with
      | .ok chain => (.ok (), s.wrote (.define target value) chain)
      | .error e => (refuse levels e : Steps Unit).exec s := by
  unfold define
  rw [exec_get_bind]
  cases s.chain.bindItem (.datum target) value <;> rfl

theorem exec_assign (levels : Nat) (name : String) (value : Item) (s : Store) :
    (assign levels name value).exec s =
      match s.chain.assignItem (.datum (.symbol name)) value with
      | .ok chain => (.ok (), s.wrote (.assign name value) chain)
      | .error e => (refuse levels e : Steps Unit).exec s := by
  unfold assign
  rw [exec_get_bind]
  cases s.chain.assignItem (.datum (.symbol name)) value <;> rfl

/-- Only an error of the class is caught, and only one that is raised by these steps. -/
theorem exec_catching (m : Steps α) (cls : ErrorClass) (s : Store) :
    (catching cls m).exec s = match m.exec s with
      | (.ok a, t) => (.ok (.value a), t)
      | (.error (.error e), t) =>
        if e.cls = cls then (.ok (.failure e.failure), t) else (.error (.error e), t)
      | (.error e, t) => (.error e, t) := by
  unfold catching
  rw [exec_tryCatch, map_eq_pure_bind, exec_bind]
  rcases m.exec s with ⟨(e | _ | _ | _) | _, t⟩
  · by_cases he : e.cls = cls
    · simp only [he, if_true]
      rfl
    · simp only [he, if_false]
      rfl
  all_goals rfl

end Steps

/-- What is seen of a fault: a returned failure, if it can be worded. -/
def Fault.shown {α : Type} (levels : Nat) (f : Fault) : Except Raised (Answer α) :=
  if f.wordingFits levels then
    match f.failure? with
    | some failure => .ok (.failure failure)
    | none => .error .oversized
  else .error Steps.outOfStack

/-- What is seen of the end of a computation. -/
def Eval.shown {α : Type} (levels : Nat) : Except Stop α → Except Raised (Answer α)
  | .ok a => .ok (.value a)
  | .error (.fault f) => f.shown levels
  | .error (.unmade e) => .error (.unmade e)
  | .error (.raised e) => .error (.error e)
  | .error (.stackEnded message) => .error (.stackEnded message)

namespace Steps

variable {α β : Type} {levels : Nat}

/-- The steps do what a computation does, and what is seen of its end is how they end. -/
def Renders (levels : Nat) (m : Steps (Answer α)) (c : Eval α) : Prop :=
  ∀ s, m.exec s = (Eval.shown levels (c.exec s).1, (c.exec s).2)

theorem renders_value (a : α) : Renders levels (return .value a) (pure a) := fun _ => rfl

theorem renders_failing (f : Fault) : Renders levels (failing levels f) (Eval.fail f : Eval α) := by
  intro s
  show (failing levels f).exec s = (f.shown levels, s)
  unfold failing Fault.shown
  cases f.wordingFits levels with
  | false => rfl
  | true => cases f.failure? <;> rfl

theorem renders_made (r : Except ConstructionError Datum) :
    Renders levels (made r) (Eval.made r) := by
  cases r <;> exact fun _ => rfl

/-- To hand on a failure is to stop at it: nothing else is done then. -/
theorem Renders.bind {m : Steps (Answer α)} {c : Eval α} {next : α → Steps (Answer β)}
    {f : α → Eval β} (hm : Renders levels m c) (hnext : ∀ a, Renders levels (next a) (f a)) :
    Renders levels (m >>= handOn next) (c >>= f) := by
  intro s
  rw [exec_bind, hm s, Eval.exec_bind]
  rcases c.exec s with ⟨stop | a, t⟩
  · rcases stop with fault | e | e | message
    · dsimp only [Eval.shown, Fault.shown]
      cases fault.wordingFits levels with
      | false => rfl
      | true => cases fault.failure? <;> rfl
    all_goals rfl
  · exact hnext a t

/-- A check before the rest. -/
theorem Renders.ite {p : Prop} [Decidable p] {m₁ m₂ : Steps (Answer α)} {c₁ c₂ : Eval α}
    (h₁ : Renders levels m₁ c₁) (h₂ : Renders levels m₂ c₂) :
    Renders levels (if p then m₁ else m₂) (if p then c₁ else c₂) := by
  by_cases hp : p
  · rwa [if_pos hp, if_pos hp]
  · rwa [if_neg hp, if_neg hp]

/-- A refusal that is caught on the spot is seen as the failure that it stands for. -/
theorem exec_catching_refuse {m : Steps α} {e : NameError} {s : Store}
    (hm : m.exec s = (refuse levels e : Steps α).exec s) :
    (catching e.cls m).exec s = ((Fault.name e).shown levels, s) := by
  have hfailure : (Fault.name e).failure? = e.message?.map (⟨e.cls.kind, ·⟩) := rfl
  rw [exec_catching, hm]
  unfold refuse Fault.shown
  cases (Fault.name e).wordingFits levels with
  | false => rfl
  | true =>
    rw [hfailure]
    cases e.message? with
    | none => rfl
    | some message => exact if_pos rfl

theorem renders_lookup (name : String) :
    Renders levels (catching .unboundSymbol (lookup levels name)) (Eval.lookup name) := by
  intro s
  rw [Eval.exec_lookup]
  cases hv : s.chain.lookup name with
  | some v =>
    have hlookup : s.chain.lookupItem (.datum (.symbol name)) = .ok v := by
      simp [Chain.lookupItem, Item.name?, hv]
    rw [exec_catching, exec_lookup, hlookup]
    rfl
  | none =>
    have hlookup : s.chain.lookupItem (.datum (.symbol name)) =
        .error (.unbound (.datum (.symbol name))) := by
      simp [Chain.lookupItem, Item.name?, hv]
    exact exec_catching_refuse (by rw [exec_lookup, hlookup])

theorem renders_define (target : Datum) (v : Item) :
    Renders levels (catching .invalidSymbol (Steps.define levels target v))
      (Eval.define target v) := by
  intro s
  rw [Eval.exec_define]
  cases hb : s.chain.bindItem (.datum target) v with
  | ok c =>
    rw [exec_catching, exec_define, hb]
    rfl
  | error e =>
    obtain rfl : e = .cannotBind (.datum target) := by
      unfold Chain.bindItem at hb
      split at hb <;> cases hb
      rfl
    exact exec_catching_refuse (by rw [exec_define, hb])

theorem renders_assign (name : String) (v : Item) :
    Renders levels (catching .unboundSymbol (assign levels name v)) (Eval.assign name v) := by
  intro s
  rw [Eval.exec_assign]
  cases hc : s.chain.assign name v with
  | some c =>
    have hassign : s.chain.assignItem (.datum (.symbol name)) v = .ok c := by
      simp [Chain.assignItem, Item.name?, hc]
    rw [exec_catching, exec_assign, hassign]
    rfl
  | none =>
    have hassign : s.chain.assignItem (.datum (.symbol name)) v =
        .error (.cannotAssign (.datum (.symbol name))) := by
      simp [Chain.assignItem, Item.name?, hc]
    exact exec_catching_refuse (by rw [exec_assign, hassign])

end Steps

/-! ## Handlers that render forms -/

namespace Handler

open Steps

section

variable (levels : Nat) (eval : Datum → Steps (Answer Item)) (limit : Int) {level nesting : Int}

theorem fill_atom {d : Datum} (h : d.items? = none) : fill levels eval limit level nesting d =
    if limit < nesting then failing levels (.templateTooDeep limit)
    else return .value (.datum d) := by
  cases d with
  | list items => cases h
  | vector items => cases h
  | symbol | integer | string | boolean | char =>
    rw [fill]
    all_goals simp

theorem fill_list {items : List Datum} (h : Template.Unmarked items) :
    fill levels eval limit level nesting (.list items) =
      if limit < nesting then failing levels (.templateTooDeep limit)
      else fillItems levels eval limit level nesting items >>=
        handOn fun vs => made (Datum.listOf vs) := by
  rcases h.cases with ⟨head, operand, rfl, hm | hm⟩ | hshape
  · rw [fill, hm]
  · rw [fill, hm]
  · rw [fill]
    exact hshape

theorem fill_unquote (operand : Datum) :
    fill levels eval limit 1 nesting (Mark.unquote.on operand) =
      if limit < nesting then failing levels (.templateTooDeep limit) else eval operand := by
  rw [Mark.on, fill, Mark.ofName?_name]
  rfl

theorem fill_stray (operand : Datum) :
    fill levels eval limit 1 nesting (Mark.unquoteSplicing.on operand) =
      if limit < nesting then failing levels (.templateTooDeep limit)
      else failing levels .spliceAlone := by
  rw [Mark.on, fill, Mark.ofName?_name]
  rfl

theorem fill_marked {mark : Mark} {level' : Int} (h : mark.inner? level = some level')
    (operand : Datum) : fill levels eval limit level nesting (mark.on operand) =
      if limit < nesting then failing levels (.templateTooDeep limit)
      else fill levels eval limit level' (nesting + 1) operand >>=
        handOn (marked mark) := by
  rw [Mark.on, fill, Mark.ofName?_name]
  rcases Mark.inner?_eq_some h with ⟨rfl, rfl⟩ | ⟨rfl | rfl, hl, rfl⟩
  · rfl
  · simp only [if_neg hl]
  · simp only [if_neg hl]

/-- What an element contributes to the list or vector that it stands in. -/
def contribution (level nesting : Int) (item : Datum) : Steps (Answer (List Item)) :=
  match if level = 1 then Template.splice? item else none with
  | some operand => eval operand >>= handOn (spliced levels)
  | none => fill levels eval limit level (nesting + 1) item >>= handOn fun v => return .value [v]

theorem fillItems_cons (item : Datum) (items : List Datum) :
    fillItems levels eval limit level nesting (item :: items) =
      contribution levels eval limit level nesting item >>= handOn
        fun first => fillItems levels eval limit level nesting items >>= handOn
          fun others => return .value (first ++ others) := by
  rw [fillItems]
  rfl

end

variable {levels : Nat} {eval₁ : Datum → Steps (Answer Item)}
  {eval₂ : Evaluator} {limit level nesting : Int}

theorem renders_spliced (v : Item) :
    Renders levels (spliced levels v) (Template.spliced v) := by
  rcases v with d | what
  · cases d with
    | list items => exact renders_value _
    | symbol | integer | string | boolean | char | vector =>
      simp only [spliced, Template.spliced]
      exact renders_failing _
  · exact renders_failing _

theorem renders_contribution {item : Datum} (heval : ∀ e, Renders levels (eval₁ e) (eval₂ e))
    (hitem : Renders levels (fill levels eval₁ limit level (nesting + 1) item)
      (Template.fill eval₂ limit level (nesting + 1) item)) :
    Renders levels (contribution levels eval₁ limit level nesting item)
      (Template.contribution eval₂ limit level nesting item) := by
  have hsingle := hitem.bind fun v => renders_value [v]
  unfold contribution Template.contribution
  simp only [map_eq_pure_bind]
  cases Template.splice? item with
  | none =>
    rw [ite_self]
    exact hsingle
  | some operand =>
    by_cases hl : level = 1
    · simp only [if_pos hl]
      exact (heval operand).bind renders_spliced
    · simp only [if_neg hl]
      exact hsingle

theorem renders_fillItems {items : List Datum} (heval : ∀ e, Renders levels (eval₁ e) (eval₂ e))
    (hitem : ∀ item ∈ items, Renders levels (fill levels eval₁ limit level (nesting + 1) item)
      (Template.fill eval₂ limit level (nesting + 1) item)) :
    Renders levels (fillItems levels eval₁ limit level nesting items)
      (Template.fillItems eval₂ limit level nesting items) := by
  induction items with
  | nil =>
    rw [fillItems, Template.fillItems]
    exact renders_value _
  | cons item items ih =>
    obtain ⟨hfirst, hothers⟩ := List.forall_mem_cons.1 hitem
    rw [fillItems_cons, Template.fillItems_cons]
    refine (renders_contribution heval hfirst).bind fun first => ?_
    rw [map_eq_pure_bind]
    exact (ih hothers).bind fun others => renders_value _

theorem renders_fill (heval : ∀ e, Renders levels (eval₁ e) (eval₂ e)) (d : Datum)
    (level nesting : Int) : Renders levels (fill levels eval₁ limit level nesting d)
      (Template.fill eval₂ limit level nesting d) := by
  induction level, d using Template.induction generalizing nesting with
  | atom level d hd =>
    rw [fill_atom _ _ _ hd, Template.fill_atom _ _ hd]
    exact (renders_failing _).ite (renders_value _)
  | vector level items ih =>
    rw [fill, Template.fill]
    exact (renders_failing _).ite ((renders_fillItems heval fun item hmem =>
      ih item hmem (nesting + 1)).bind fun vs => renders_made _)
  | list level items hmark ih =>
    rw [fill_list _ _ _ hmark, Template.fill_list _ _ hmark]
    exact (renders_failing _).ite ((renders_fillItems heval fun item hmem =>
      ih item hmem (nesting + 1)).bind fun vs => renders_made _)
  | evaluated operand =>
    rw [fill_unquote, Template.fill_unquote]
    exact (renders_failing _).ite (heval operand)
  | stray operand =>
    rw [fill_stray, Template.fill_stray]
    exact (renders_failing _).ite (renders_failing _)
  | marked level level' mark operand hinner ih =>
    rw [fill_marked _ _ _ hinner, Template.fill_marked _ _ hinner]
    exact (renders_failing _).ite ((ih (nesting + 1)).bind fun v => renders_made _)

/-! ### The built-in handlers -/

/-- The handler does what the form does, wherever the evaluators of their operands do the same. -/
def RendersForm (handler : Handler) (form : Form) : Prop :=
  ∀ settings eval₁ eval₂ operands, (∀ e, Renders settings.textLevels (eval₁ e) (eval₂ e)) →
    Renders settings.textLevels (handler settings operands eval₁) (form settings operands eval₂)

theorem rendersForm_quote : RendersForm quote Form.quote := by
  intro settings eval₁ eval₂ operands _
  unfold quote Form.quote
  rcases operands with _ | ⟨datum, _ | ⟨_, _⟩⟩
  · exact renders_failing _
  · exact renders_value _
  · exact renders_failing _

theorem rendersForm_quasiquote : RendersForm quasiquote Form.quasiquote := by
  intro settings eval₁ eval₂ operands heval
  unfold quasiquote Form.quasiquote
  rcases operands with _ | ⟨template, _ | ⟨_, _⟩⟩
  · exact renders_failing _
  · exact fun s => renders_fill heval template 1 0 { s with log := s.log ++ settings.records }
  · exact renders_failing _

theorem rendersForm_conditional : RendersForm conditional Form.conditional := by
  intro settings eval₁ eval₂ operands heval
  unfold conditional Form.conditional
  rcases operands with _ | ⟨test, _ | ⟨consequent, _ | ⟨alternative, _ | ⟨_, _⟩⟩⟩⟩
  · exact renders_failing _
  · exact renders_failing _
  · exact (heval test).bind fun v => (renders_value _).ite (heval consequent)
  · exact (heval test).bind fun v => (heval alternative).ite (heval consequent)
  · exact renders_failing _

theorem rendersForm_define : RendersForm define Form.define := by
  intro settings eval₁ eval₂ operands heval
  unfold define Form.define
  rcases operands with _ | ⟨target, _ | ⟨expr, _ | ⟨_, _⟩⟩⟩
  · exact renders_failing _
  · exact renders_failing _
  · exact (heval expr).bind fun v =>
      (renders_define target v).bind fun _ => renders_value _
  · exact renders_failing _

theorem rendersForm_assign : RendersForm assign Form.assign := by
  intro settings eval₁ eval₂ operands heval
  unfold assign Form.assign
  rcases operands with _ | ⟨target, _ | ⟨expr, _ | ⟨_, _⟩⟩⟩
  · exact renders_failing _
  · cases target <;> exact renders_failing _
  · cases target with
    | symbol name =>
      exact (heval expr).bind fun v =>
        (renders_assign name v).bind fun _ => renders_value v
    | integer | string | boolean | char | list | vector => exact renders_failing _
  · cases target <;> exact renders_failing _

theorem renders_inOrder (heval : ∀ e, Renders levels (eval₁ e) (eval₂ e)) (exprs : List Datum)
    (last : Item) : Renders levels (inOrder eval₁ last exprs)
      (exprs.foldlM (fun _ expr => eval₂ expr) last) := by
  induction exprs generalizing last with
  | nil => exact renders_value last
  | cons expr exprs ih =>
    rw [List.foldlM_cons]
    exact (heval expr).bind fun v => ih v

theorem rendersForm_begin : RendersForm begin Form.begin :=
  fun _ _ _ operands heval => renders_inOrder heval operands _

end Handler

namespace Handlers

open Steps

variable {settings : Settings} {handlers : Handlers} {forms : Forms}

/-- The tables know the same names, and under each of them the handler renders the form. -/
def RenderForms (handlers : Handlers) (forms : Forms) : Prop :=
  ∀ name, Option.Rel Handler.RendersForm (handlers name) (forms name)

theorem renderForms_builtin : builtin.RenderForms Forms.builtin := by
  intro name
  unfold builtin
  split
  · exact .some Handler.rendersForm_quote
  · exact .some Handler.rendersForm_quasiquote
  · exact .some fun _ _ _ _ _ => renders_failing _
  · exact .some fun _ _ _ _ _ => renders_failing _
  · exact .some Handler.rendersForm_conditional
  · exact .some Handler.rendersForm_define
  · exact .some Handler.rendersForm_assign
  · exact .some Handler.rendersForm_begin
  · have hnone : Forms.builtin name = none := by
      unfold Forms.builtin
      split <;> first | rfl | contradiction
    rw [hnone]
    exact .none

theorem exists_form_of_builtin {name : String} {handler : Handler}
    (h : builtin name = some handler) :
    ∃ form, Forms.builtin name = some form ∧ Handler.RendersForm handler form := by
  have hrel := renderForms_builtin name
  rw [h] at hrel
  generalize Forms.builtin name = form? at hrel
  cases hrel with
  | some hform => exact ⟨_, rfl, hform⟩

theorem renders_evalWithin (h : RenderForms handlers forms) (limit : Int) (levels : Nat)
    (expr : Datum) : Renders settings.textLevels (evalWithin settings handlers limit levels expr)
      (Context.evalWithin ⟨settings, forms⟩ limit levels expr) := by
  induction levels generalizing expr with
  | zero => exact renders_failing _
  | succ levels ih =>
    rcases expr with name | _ | _ | _ | _ | items | _
    · exact renders_lookup name
    · exact renders_value _
    · exact renders_value _
    · exact renders_value _
    · exact renders_value _
    · rcases items with _ | ⟨head, operands⟩
      · exact renders_value _
      · rcases head with head | _ | _ | _ | _ | _ | _
        · unfold evalWithin Context.evalWithin
          dsimp only
          have hrel := h head
          generalize handlers head = handler?, forms head = form? at hrel ⊢
          cases hrel with
          | none => exact renders_failing _
          | some hform => exact hform settings _ _ operands ih
        all_goals exact renders_failing _
    · exact renders_value _

theorem renders_evalItem (h : RenderForms handlers forms) (limit depth : Int) (expr : Item) :
    Renders settings.textLevels (evalItem settings handlers limit depth expr)
      (Context.evalItem ⟨settings, forms⟩ limit depth expr) := by
  cases expr with
  | datum expr => exact renders_evalWithin h limit _ expr
  | foreign what => exact renders_failing _

theorem outcome_shown (levels : Nat) (limit : Int) (r : Except Stop Item) :
    outcome limit (Eval.shown levels r) = Outcome.ofResult levels limit r := by
  rcases r with (f | e | e | message) | v
  · show outcome limit (f.shown levels) = f.outcome levels limit
    unfold Fault.shown Fault.outcome
    cases f.wordingFits levels with
    | false => rfl
    | true => cases f.failure? <;> rfl
  all_goals rfl

theorem run_evaluate (settings : Settings) (handlers : Handlers) (expr : Item) (s : Store) :
    (evaluate settings handlers expr).run s =
      let r := (evalItem settings handlers settings.maxDepth 0 expr).exec
        { s with log := s.log ++ settings.records }
      (outcome settings.maxDepth r.1, r.2.noted expr.kindName (outcome settings.maxDepth r.1)) :=
  run_logged settings.records (evalItem settings handlers settings.maxDepth 0 expr).run _ _ s

/-- The evaluator with handlers is the evaluator with the forms that they render. -/
theorem evaluate_eq (h : RenderForms handlers forms) (expr : Item) :
    evaluate settings handlers expr = Context.evaluate ⟨settings, forms⟩ expr := by
  funext s
  show (evaluate settings handlers expr).run s = (Context.evaluate ⟨settings, forms⟩ expr).run s
  rw [run_evaluate, Context.run_evaluate, renders_evalItem h settings.maxDepth 0 expr]
  dsimp only
  rw [outcome_shown]

end Handlers

end SchemeCore
