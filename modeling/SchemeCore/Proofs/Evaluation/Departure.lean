import SchemeCore.Proofs.Evaluation.Rendering
import SchemeCore.Proofs.Evaluation.Table

/-!
# Raising and returning a failure

A form that always fails may raise an error, or the end of the stack, or it may return a failure.
Wherever it stands, nothing else is done behind it, and the outermost call makes the same of both.
So tables that differ in this only cannot be told apart (`raising_is_returning`).
-/

namespace SchemeCore

/-- How a form ends that fails whatever its operands are. -/
inductive Departure where
  | raises (e : SchemeError)
  /-- The stack ends, with the text that says so. -/
  | endsStack (message : String)
  | returns (f : EvalFailure)

namespace Departure

/-- The failure that it is for the outermost call. -/
def failure (limit : Int) : Departure → EvalFailure
  | raises e => e.failure
  | endsStack _ => .tooDeep limit
  | returns f => f

/-- The handler that always ends in this way. -/
def handler : Departure → Handler
  | raises e => fun _ _ _ => throw (.error e)
  | endsStack message => fun _ _ _ => throw (.stackEnded message)
  | returns f => fun _ _ _ => return .failure f

/-- The stop of the form that the handler renders. -/
def stop : Departure → Stop
  | raises e => .raised e
  | endsStack message => .stackEnded message
  | returns f => .fault (.declared f)

theorem rendersForm (d : Departure) : Handler.RendersForm d.handler (.stopping d.stop) := by
  cases d <;> exact fun _ _ _ _ _ _ => rfl

theorem ofResult_stop {α : Type} (levels : Nat) (limit : Int) (d : Departure) :
    Outcome.ofResult levels limit (.error d.stop : Except Stop α) = .failure (d.failure limit) := by
  cases d <;> rfl

end Departure

/-- Two handlers are the same built-in one, or else they always end in the same failure, which one
of them may raise and the other return. -/
inductive Handler.SameFailures (limit : Int) : Handler → Handler → Prop where
  | builtin {name : String} {handler : Handler} (h : Handlers.builtin name = some handler) :
      SameFailures limit handler handler
  | departing {d₁ d₂ : Departure} (h : d₁.failure limit = d₂.failure limit) :
      SameFailures limit d₁.handler d₂.handler

/-- The built-in handlers, and handlers that always fail under some names, which they may have taken
over. -/
def Handlers.departingAt (departures : List (String × Departure)) : Handlers :=
  departures.foldl (fun table entry name =>
    if name = entry.1 then some entry.2.handler else table name) builtin

theorem Handlers.renderForms_departingAt (departures : List (String × Departure)) :
    (departingAt departures).RenderForms
      (.stoppingAt (departures.map fun entry => (entry.1, entry.2.stop))) := by
  apply rel_installAll renderForms_builtin
  rw [List.forall₂_map_right_iff]
  exact List.forall₂_same.2 fun entry _ => ⟨rfl, entry.2.rendersForm⟩

theorem Handlers.sameFailures_departingAt {limit : Int}
    {departures₁ departures₂ : List (String × Departure)}
    (h : List.Forall₂ (fun a b => a.1 = b.1 ∧ a.2.failure limit = b.2.failure limit) departures₁
      departures₂) (name : String) : Option.Rel (Handler.SameFailures limit)
        (departingAt departures₁ name) (departingAt departures₂ name) := by
  refine rel_installAll (fun name => ?_) (h.imp fun _ _ hab => ⟨hab.1, .departing hab.2⟩) name
  cases hbuiltin : builtin name with
  | none => exact .none
  | some handler => exact .some (.builtin hbuiltin)

/-- Runs from one store whose ends look the same to the outermost call. -/
def Coupling.seen (levels : Nat) (limit : Int) : Coupling where
  store := Eq
  item _ := True
  stop stop₁ stop₂ := Outcome.ofResult levels limit (.error stop₁ : Except Stop Item) =
    Outcome.ofResult levels limit (.error stop₂)
  excused _ _ := False
  item_symbol _ := True.intro
  item_items _ ds _ := item_items_true ds
  stop_fault _ _ _ := rfl
  stop_unmade _ _ _ _ := rfl

namespace Coupling

variable {levels : Nat} {limit : Int}

theorem seen_refl {α : Type} (m : Eval α) : (seen levels limit).Holds (fun _ => True) m m := by
  rintro s _ rfl
  rcases m.exec s with ⟨_ | _, t⟩
  · exact .stop rfl rfl
  · exact .value True.intro rfl

theorem seen_supports (a : Access) : (seen levels limit).Supports a := by
  cases a with
  | read name => exact seen_refl _
  | define target => exact fun _ _ _ => seen_refl _
  | assign name => exact fun _ _ => seen_refl _

theorem outcome_of_seen {r₁ r₂ : Except Stop Item × Store}
    (h : (seen levels limit).Ends (fun _ => True) r₁ r₂) :
    Outcome.ofResult levels limit r₁.1 = Outcome.ofResult levels limit r₂.1 ∧ r₁.2 = r₂.2 := by
  cases h with
  | value _ ht => exact ⟨rfl, ht⟩
  | stop he ht => exact ⟨he, ht⟩
  | excused he => exact False.elim he

end Coupling

/-- Evaluations under tables whose forms look the same are the same. -/
theorem Context.evaluate_eq_of_admits {settings : Settings} {forms₁ forms₂ : Forms}
    (h : (Coupling.seen settings.textLevels settings.maxDepth).Admits settings forms₁ forms₂)
    (expr : Item) :
    evaluate ⟨settings, forms₁⟩ expr = evaluate ⟨settings, forms₂⟩ expr := by
  have hitem : (Coupling.seen settings.textLevels settings.maxDepth).Holds (fun _ => True)
      (evalItem ⟨settings, forms₁⟩ settings.maxDepth 0 expr)
      (evalItem ⟨settings, forms₂⟩ settings.maxDepth 0 expr) := by
    cases expr with
    | datum e => exact h.evalWithin (fun _ => Coupling.seen_supports _) rfl _ True.intro
    | foreign what => exact Coupling.seen_refl _
  funext s
  obtain ⟨houtcome, hstore⟩ := Coupling.outcome_of_seen
    (hitem { s with log := s.log ++ settings.records } _ rfl)
  show (evaluate ⟨settings, forms₁⟩ expr).run s = (evaluate ⟨settings, forms₂⟩ expr).run s
  rw [run_evaluate, run_evaluate]
  dsimp only
  rw [houtcome, hstore]

/-- Two handlers with the same failures render two forms that look the same. -/
theorem Handler.SameFailures.exists_forms {settings : Settings} {handler₁ handler₂ : Handler}
    (h : SameFailures settings.maxDepth handler₁ handler₂) : ∃ form₁ form₂,
      RendersForm handler₁ form₁ ∧ RendersForm handler₂ form₂ ∧
        (Coupling.seen settings.textLevels settings.maxDepth).AdmitsForm settings form₁ form₂ := by
  cases h with
  | builtin h =>
    obtain ⟨form, hform, hrenders⟩ := Handlers.exists_form_of_builtin h
    exact ⟨form, form, hrenders, hrenders, Coupling.admitsForm_builtin hform
      Coupling.seen_supports (fun _ _ hs => by rw [hs]; rfl) fun _ => rfl⟩
  | @departing d₁ d₂ h =>
    refine ⟨_, _, d₁.rendersForm, d₂.rendersForm, Coupling.admitsForm_stopping ?_⟩
    show Outcome.ofResult settings.textLevels settings.maxDepth
      (.error d₁.stop : Except Stop Item) =
        Outcome.ofResult settings.textLevels settings.maxDepth (.error d₂.stop)
    rw [d₁.ofResult_stop, d₂.ofResult_stop, h]

/-- To raise a failure and to return it is the same for the caller of an evaluation. Two tables of
handlers that differ only in handlers which always fail, with the same failures under each name,
come to the same outcome and leave the same chain and the same log, for every expression, from every
store and under every limit. The evaluator with handlers is the evaluator with the forms that a
session has. -/
theorem raising_is_returning (settings : Settings) {handlers₁ handlers₂ : Handlers}
    (h : ∀ name, Option.Rel (Handler.SameFailures settings.maxDepth) (handlers₁ name)
      (handlers₂ name)) :
    (∀ (expr : Item) (s : Store), (Handlers.evaluate settings handlers₁ expr).run s =
      (Handlers.evaluate settings handlers₂ expr).run s) ∧
    ∀ (departures : List (String × Departure)) (expr : Item) (s : Store),
      (Handlers.evaluate settings (.departingAt departures) expr).run s =
        (Context.evaluate ⟨settings, .stoppingAt (departures.map fun entry =>
          (entry.1, entry.2.stop))⟩ expr).run s := by
  -- the tables of forms to compare, name by name
  have hforms : ∀ name, ∃ form₁ form₂, Option.Rel Handler.RendersForm (handlers₁ name) form₁ ∧
      Option.Rel Handler.RendersForm (handlers₂ name) form₂ ∧
        Option.Rel ((Coupling.seen settings.textLevels settings.maxDepth).AdmitsForm settings)
          form₁ form₂ := by
    intro name
    have hname := h name
    generalize handlers₁ name = handler₁?, handlers₂ name = handler₂? at hname ⊢
    cases hname with
    | none => exact ⟨none, none, .none, .none, .none⟩
    | some hsame =>
      obtain ⟨form₁, form₂, h₁, h₂, hadmits⟩ := hsame.exists_forms
      exact ⟨some form₁, some form₂, .some h₁, .some h₂, .some hadmits⟩
  choose forms₁ forms₂ h₁ h₂ hadmits using hforms
  refine ⟨fun expr s => ?_, fun departures expr s => ?_⟩
  · rw [Handlers.evaluate_eq h₁, Handlers.evaluate_eq h₂,
      Context.evaluate_eq_of_admits hadmits expr]
  · rw [Handlers.evaluate_eq (Handlers.renderForms_departingAt departures)]

theorem raising_is_returning_nested :
    let raising : Handlers := .departingAt [("explode", .raises ⟨.badForm, "explode always fails"⟩),
      ("overflow", .endsStack "maximum recursion depth exceeded")]
    let returning : Handlers := .departingAt
      [("explode", .returns ⟨"bad-form", "explode always fails"⟩),
        ("overflow", .returns ⟨"recursion-depth", "evaluation nested deeper than 200 levels"⟩)]
    let expr (head : String) : Item := .datum (.list [.symbol "begin",
      .list [.symbol "define", .symbol "x", .boolean true],
      .list [.symbol "quasiquote", .list [.list [.symbol "unquote-splicing",
        .list [.symbol head]]]], .list [.symbol "set!", .symbol "x", .boolean false]])
    let s : Store := { chain := ⟨[], []⟩ }
    let failed (f : EvalFailure) : Outcome Item × Store :=
      (.failure f, ⟨⟨[("x", .datum (.boolean true))], []⟩, [.evaluationFailed "List" f],
        [⟨⟨[], []⟩, .define (.symbol "x") (.datum (.boolean true))⟩]⟩)
    (Handlers.evaluate {} raising (expr "explode")).run s =
        failed ⟨"bad-form", "explode always fails"⟩ ∧
      (Handlers.evaluate {} returning (expr "explode")).run s =
        failed ⟨"bad-form", "explode always fails"⟩ ∧
      (Handlers.evaluate {} raising (expr "overflow")).run s =
        (Handlers.evaluate {} returning (expr "overflow")).run s := by
  intro raising returning expr s failed
  have hsame : ∀ name, Option.Rel (Handler.SameFailures (Settings.maxDepth {})) (raising name)
      (returning name) :=
    Handlers.sameFailures_departingAt (.cons ⟨rfl, rfl⟩ (.cons ⟨rfl, by decide⟩ .nil))
  obtain ⟨hevaluate, -⟩ := raising_is_returning {} hsame
  have hraising : (Handlers.evaluate {} raising (expr "explode")).run s =
      failed ⟨"bad-form", "explode always fails"⟩ := by rfl
  exact ⟨hraising, (hevaluate _ s).symm.trans hraising, hevaluate _ s⟩

end SchemeCore
