import SchemeCore.Evaluation.Program
import SchemeCore.Proofs.Reader.Recorded

/-!
# Runs of computations

`Eval.exec m s` is the run of `m` from the store `s`: its result and the store that it leaves. The
lemmas say what the run of each step is, so that statements about runs never open the monad.
-/

namespace SchemeCore

namespace Eval

variable {α β : Type}

/-- The result of a computation from a store, and the store that it leaves. -/
def exec (m : Eval α) (s : Store) : Except Stop α × Store := m.run.run s

theorem exec_pure (a : α) (s : Store) : (pure a : Eval α).exec s = (.ok a, s) := rfl

theorem exec_throw (e : Stop) (s : Store) : (throw e : Eval α).exec s = (.error e, s) := rfl

theorem exec_bind (m : Eval α) (f : α → Eval β) (s : Store) :
    (m >>= f).exec s = match m.exec s with
      | (.ok a, t) => (f a).exec t
      | (.error e, t) => (.error e, t) := by
  unfold exec
  rw [ExceptT.run_bind, StateT.run_bind]
  rcases m.run.run s with ⟨_ | _, t⟩ <;> rfl

theorem exec_get_bind (f : Store → Eval α) (s : Store) : (get >>= f).exec s = (f s).exec s := rfl

theorem exec_lookup (name : String) (s : Store) : (lookup name).exec s =
    match s.chain.lookup name with
    | some value => (.ok value, s)
    | none => (.error (.fault (.name (.unbound (.datum (.symbol name))))), s) := by
  unfold lookup
  rw [exec_get_bind]
  cases s.chain.lookup name <;> rfl

theorem exec_define (target : Datum) (value : Item) (s : Store) : (define target value).exec s =
    match s.chain.bindItem (.datum target) value with
    | .ok chain => (.ok (), s.wrote (.define target value) chain)
    | .error e => (.error (.fault (.name e)), s) := by
  unfold define
  rw [exec_get_bind]
  cases s.chain.bindItem (.datum target) value <;> rfl

theorem exec_assign (name : String) (value : Item) (s : Store) : (assign name value).exec s =
    match s.chain.assign name value with
    | some chain => (.ok (), s.wrote (.assign name value) chain)
    | none => (.error (.fault (.name (.cannotAssign (.datum (.symbol name))))), s) := by
  unfold assign
  rw [exec_get_bind]
  cases s.chain.assign name value <;> rfl

theorem exec_askDepth (settings : Settings) (s : Store) : (askDepth settings).exec s =
    (.ok settings.maxDepth, { s with log := s.log ++ settings.records }) := rfl

end Eval

/-- Adds what an evaluation came to, as its caller sees it, to the log. -/
def Store.noted (s : Store) (what : String) : Outcome Item → Store
  | .failure f => { s with log := s.log ++ [.evaluationFailed what f] }
  | .value _ | .unmade _ | .oversized => s

theorem Store.chain_noted (s : Store) (what : String) (outcome : Outcome Item) :
    (s.noted what outcome).chain = s.chain := by
  cases outcome <;> rfl

theorem Store.writes_noted (s : Store) (what : String) (outcome : Outcome Item) :
    (s.noted what outcome).writes = s.writes := by
  cases outcome <;> rfl

/-- A computation between two entries in the log: it runs behind the first, and the second is about
what its result is looked on as. -/
theorem run_logged {ρ : Type} (records : List Record) (m : StateM Store ρ) (look : ρ → Outcome Item)
    (what : String) (s : Store) :
    StateT.run (m := Id) (do
      Store.record records
      let outcome := look (← m)
      match outcome with
      | .failure f => Store.record [.evaluationFailed what f]
      | _ => pure ()
      return outcome) s =
      let r := m.run { s with log := s.log ++ records }
      (look r.1, r.2.noted what (look r.1)) := by
  rw [StateT.run_bind]
  show StateT.run (m >>= _) { s with log := s.log ++ records } = _
  rw [StateT.run_bind]
  rcases m.run { s with log := s.log ++ records } with ⟨result, t⟩
  show StateT.run (_ : StateM Store (Outcome Item)) t = _
  dsimp only
  cases look result <;> rfl

/-- The run of an evaluation for a caller is the run of the evaluator at depth 0, between two
entries in the log. -/
theorem Context.run_evaluate (ctx : Context) (expr : Item) (s : Store) :
    (ctx.evaluate expr).run s =
      let r := (ctx.evalItem ctx.settings.maxDepth 0 expr).exec
        { s with log := s.log ++ ctx.settings.records }
      let outcome := Outcome.ofResult ctx.settings.textLevels ctx.settings.maxDepth r.1
      (outcome, r.2.noted expr.kindName outcome) :=
  run_logged ctx.settings.records (ctx.evalItem ctx.settings.maxDepth 0 expr).run _ _ s

namespace Context

variable (ctx : Context)

theorem run_evaluateAll_nil (total done : Nat) (s : Store) :
    (ctx.evaluateAll total done []).run s = (.value [], s) := rfl

theorem run_evaluateAll_cons (total done : Nat) (expr : Datum) (exprs : List Datum) (s : Store) :
    (ctx.evaluateAll total done (expr :: exprs)).run s =
      match (ctx.evaluate (.datum expr)).run s with
      | (.failure f, t) => (.failure f, { t with log := t.log ++ [.stopped done total] })
      | (.unmade e, t) => (.unmade e, t)
      | (.oversized, t) => (.oversized, t)
      | (.value v, t) =>
        match (ctx.evaluateAll total (done + 1) exprs).run t with
        | (.value vs, t') => (.value (v :: vs), t')
        | r => r := by
  rw [evaluateAll, StateT.run_bind]
  rcases (ctx.evaluate (.datum expr)).run s with ⟨v | f | e | _, t⟩
  · show StateT.run (ctx.evaluateAll total (done + 1) exprs >>= _) t = _
    rw [StateT.run_bind]
    dsimp only
    rcases (ctx.evaluateAll total (done + 1) exprs).run t with ⟨_ | _ | _ | _, t'⟩ <;> rfl
  all_goals rfl

/-- The data of a list and those of another are evaluated one after the other. -/
theorem run_evaluateAll_append (total done : Nat) (xs ys : List Datum) (s : Store) :
    (ctx.evaluateAll total done (xs ++ ys)).run s =
      match (ctx.evaluateAll total done xs).run s with
      | (.value vs, t) =>
        match (ctx.evaluateAll total (done + xs.length) ys).run t with
        | (.value ws, t') => (.value (vs ++ ws), t')
        | r => r
      | r => r := by
  induction xs generalizing done s with
  | nil =>
    rw [run_evaluateAll_nil]
    show (ctx.evaluateAll total done ys).run s = _
    dsimp only
    rw [List.length_nil, Nat.add_zero]
    rcases (ctx.evaluateAll total done ys).run s with ⟨_ | _ | _ | _, t⟩ <;> rfl
  | cons x xs ih =>
    rw [List.cons_append, run_evaluateAll_cons, run_evaluateAll_cons]
    rcases (ctx.evaluate (.datum x)).run s with ⟨v | f | e | _, t⟩
    · dsimp only
      rw [ih, List.length_cons, Nat.add_assoc, Nat.add_comm 1]
      rcases (ctx.evaluateAll total (done + 1) xs).run t with ⟨vs | f | e | _, t₁⟩
      · dsimp only
        rcases (ctx.evaluateAll total (done + (xs.length + 1)) ys).run t₁ with
          ⟨_ | _ | _ | _, t₂⟩ <;> rfl
      all_goals rfl
    all_goals rfl

/-- Data come to values if the first one and then the others do. -/
theorem evaluateAll_cons_value {total done : Nat} {expr : Datum} {exprs : List Datum}
    {vs : List Item} {s t : Store}
    (h : (ctx.evaluateAll total done (expr :: exprs)).run s = (.value vs, t)) :
    ∃ v ws mid, vs = v :: ws ∧ (ctx.evaluate (.datum expr)).run s = (.value v, mid) ∧
      (ctx.evaluateAll total (done + 1) exprs).run mid = (.value ws, t) := by
  rw [run_evaluateAll_cons] at h
  rcases hfirst : (ctx.evaluate (.datum expr)).run s with ⟨v | f | e | _, mid⟩ <;> rw [hfirst] at h
  · dsimp only at h
    rcases hothers : (ctx.evaluateAll total (done + 1) exprs).run mid with ⟨ws | _ | _ | _, t'⟩ <;>
      rw [hothers] at h <;> cases h
    exact ⟨v, ws, mid, rfl, rfl, hothers⟩
  all_goals cases h

/-- Data fail if the first one does, which leaves an entry that counts those in front of it, or if
it comes to a value and the others fail. -/
theorem evaluateAll_cons_failure {total done : Nat} {expr : Datum} {exprs : List Datum}
    {f : EvalFailure} {s t : Store}
    (h : (ctx.evaluateAll total done (expr :: exprs)).run s = (.failure f, t)) :
    (∃ mid, (ctx.evaluate (.datum expr)).run s = (.failure f, mid) ∧
      t = { mid with log := mid.log ++ [.stopped done total] }) ∨
    ∃ v mid, (ctx.evaluate (.datum expr)).run s = (.value v, mid) ∧
      (ctx.evaluateAll total (done + 1) exprs).run mid = (.failure f, t) := by
  rw [run_evaluateAll_cons] at h
  rcases hfirst : (ctx.evaluate (.datum expr)).run s with ⟨v | f' | e | _, mid⟩ <;>
    rw [hfirst] at h
  · dsimp only at h
    rcases hothers : (ctx.evaluateAll total (done + 1) exprs).run mid with ⟨_ | g | _ | _, t'⟩ <;>
      rw [hothers] at h <;> cases h
    exact .inr ⟨v, mid, rfl, hothers⟩
  · cases h
    exact .inl ⟨mid, rfl, rfl⟩
  all_goals cases h

theorem evaluateAll_singleton_failure {total done : Nat} {expr : Datum} {f : EvalFailure}
    {s : Store} (h : ((ctx.evaluate (.datum expr)).run s).1 = .failure f) :
    ((ctx.evaluateAll total done [expr]).run s).1 = .failure f := by
  rw [run_evaluateAll_cons]
  rcases hfirst : (ctx.evaluate (.datum expr)).run s with ⟨first, t⟩
  rw [hfirst] at h
  cases h
  rfl

theorem length_of_evaluateAll {total done : Nat} {exprs : List Datum} {vs : List Item} {s : Store}
    (h : ((ctx.evaluateAll total done exprs).run s).1 = .value vs) : vs.length = exprs.length := by
  induction exprs generalizing done vs s with
  | nil =>
    cases h
    rfl
  | cons expr exprs ih =>
    obtain ⟨v, ws, mid, rfl, -, hothers⟩ := ctx.evaluateAll_cons_value (Prod.ext h rfl)
    exact congrArg Nat.succ (ih (congrArg Prod.fst hothers))

/-- The failure of a program is the failure of one of its expressions. -/
theorem failure_of_evaluateAll {total done : Nat} {exprs : List Datum} {s t : Store}
    {f : EvalFailure} (h : (ctx.evaluateAll total done exprs).run s = (.failure f, t)) :
    ∃ e ∈ exprs, ∃ s' t', (ctx.evaluate (.datum e)).run s' = (.failure f, t') := by
  induction exprs generalizing done s t with
  | nil =>
    rw [run_evaluateAll_nil] at h
    cases h
  | cons expr exprs ih =>
    obtain ⟨mid, hfirst, -⟩ | ⟨v, mid, -, hothers⟩ := ctx.evaluateAll_cons_failure h
    · exact ⟨expr, List.mem_cons_self, s, mid, hfirst⟩
    · obtain ⟨e, he, hrun⟩ := ih hothers
      exact ⟨e, List.mem_cons_of_mem _ he, hrun⟩

/-- A reading leaves the warnings about the settings and then what the reader puts on record. -/
theorem run_reading {α : Type} {record : Int → String → Except ParseFailure α × List Record}
    {read : Int → String → Except ParseFailure α}
    (h : ∀ limit text, record limit text = (read limit text, readRecords (read limit text)))
    (text : String) (s : Store) : (ctx.reading record text).run s =
      (read ctx.settings.maxDepth text, { s with log := s.log ++
        (ctx.settings.records ++ readRecords (read ctx.settings.maxDepth text)) }) := by
  have hrun : (ctx.reading record text).run s = ((record ctx.settings.maxDepth text).1,
      { s with log := s.log ++
        (ctx.settings.records ++ (record ctx.settings.maxDepth text).2) }) := rfl
  rw [hrun, h]

theorem run_run (text : String) (s : Store) : (ctx.run text).run s =
    let t := { s with log := s.log ++
      (ctx.settings.records ++ readRecords (readAll ctx.settings.maxDepth text)) }
    match readAll ctx.settings.maxDepth text with
    | .error f => (.error f, t)
    | .ok exprs =>
      let r := (ctx.evaluateAll exprs.length 0 exprs).run t
      (.ok r.1, r.2) := by
  rw [run, StateT.run_bind, ctx.run_reading readAllOnRecord_eq]
  cases readAll ctx.settings.maxDepth text <;> rfl

/-- A text that cannot be read is not evaluated, whatever stands in front of the failure. -/
theorem run_of_readAll_error {text : String} {f : ParseFailure}
    (h : readAll ctx.settings.maxDepth text = .error f) (s : Store) :
    ((ctx.run text).run s).1 = .error f ∧ ((ctx.run text).run s).2.chain = s.chain := by
  rw [run_run, h]
  exact ⟨rfl, rfl⟩

/-- A text that is read comes to what its data come to. -/
theorem run_of_readAll_ok {text : String} {exprs : List Datum}
    (h : readAll ctx.settings.maxDepth text = .ok exprs) (s : Store) :
    ∃ t, t.chain = s.chain ∧ (ctx.run text).run s =
      (.ok ((ctx.evaluateAll exprs.length 0 exprs).run t).1,
        ((ctx.evaluateAll exprs.length 0 exprs).run t).2) := by
  refine ⟨{ s with log := s.log ++ (ctx.settings.records ++ []) }, rfl, ?_⟩
  rw [run_run, h]
  rfl

theorem length_of_run {text : String} {vs : List Item} {s : Store}
    (h : ((ctx.run text).run s).1 = .ok (.value vs)) :
    ∃ exprs, readAll ctx.settings.maxDepth text = .ok exprs ∧ vs.length = exprs.length := by
  cases hread : readAll ctx.settings.maxDepth text with
  | error f =>
    rw [(ctx.run_of_readAll_error hread s).1] at h
    cases h
  | ok exprs =>
    obtain ⟨t, -, hrun⟩ := ctx.run_of_readAll_ok hread s
    rw [hrun] at h
    exact ⟨exprs, rfl, ctx.length_of_evaluateAll (Except.ok.inj h)⟩

end Context

end SchemeCore
