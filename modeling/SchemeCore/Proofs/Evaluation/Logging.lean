import SchemeCore.Proofs.Evaluation.Batch

/-!
# What stands in the log

Every failure is put on record once, and nothing else is, apart from warnings about the settings.

1. The readers leave the failure that they end in (`readAllOnRecord_eq`).
2. The evaluator asks for the limit, which may warn, and makes no other entry however deep it goes
   (`Coupling.warning`), so that an evaluation for a caller leaves its failure alone
   (`adds_evaluate`).
3. A text whose data are evaluated in order leaves the failure of the first datum that fails, and an
   entry that says which one it was (`adds_of_evaluateAll_failure`).
-/

namespace SchemeCore

/-- What the log says beside warnings about the settings: the logger and the wording of each
entry. -/
def logLines (entries : List Record) : List (String × String) :=
  (entries.filter (·.logger != "sable.config")).map fun r => (r.logger, r.message)

theorem logLines_append (xs ys : List Record) :
    logLines (xs ++ ys) = logLines xs ++ logLines ys := by
  rw [logLines, List.filter_append, List.map_append]
  rfl

theorem logLines_warnings (ws : List Settings.Warning) : logLines (ws.map .warning) = [] := by
  rw [logLines, List.map_eq_nil_iff, List.filter_eq_nil_iff, List.forall_mem_map]
  exact fun _ _ => by simp [Record.logger]

/-- The log has grown by entries that say `lines`, warnings about the settings aside. -/
def Store.Adds (s t : Store) (lines : List (String × String)) : Prop :=
  ∃ entries, t.log = s.log ++ entries ∧ logLines entries = lines

namespace Store.Adds

variable {s t u : Store} {xs ys : List (String × String)}

theorem refl (s : Store) : s.Adds s [] := ⟨[], (List.append_nil _).symm, rfl⟩

theorem trans (h₁ : s.Adds t xs) (h₂ : t.Adds u ys) : s.Adds u (xs ++ ys) := by
  obtain ⟨entries₁, hlog₁, rfl⟩ := h₁
  obtain ⟨entries₂, hlog₂, rfl⟩ := h₂
  refine ⟨entries₁ ++ entries₂, ?_, logLines_append entries₁ entries₂⟩
  rw [hlog₂, hlog₁, List.append_assoc]

/-- Warnings come to nothing. -/
theorem trans_nil (h₁ : s.Adds t []) (h₂ : t.Adds u ys) : s.Adds u ys := h₁.trans h₂

theorem entries (s : Store) (entries : List Record) :
    s.Adds { s with log := s.log ++ entries } (logLines entries) := ⟨entries, rfl, rfl⟩

theorem records (s : Store) (settings : Settings) :
    s.Adds { s with log := s.log ++ settings.records } [] :=
  ⟨settings.records, rfl, logLines_warnings settings.warnings⟩

end Store.Adds

/-! ## Evaluations -/

namespace Coupling

/-- A run beside itself, which has added nothing to the log of `s₀` but warnings. -/
def warning (s₀ : Store) : Coupling :=
  ofStores fun s₁ s₂ => s₁ = s₂ ∧ s₀.Adds s₁ []

theorem warning_supports (s₀ : Store) (a : Access) : (warning s₀).Supports a :=
  supports_of_chain (C := warning s₀) (fun _ => True.intro)
    (fun _ _ hs => congrArg Store.chain hs.1) (fun _ _ _ _ hs => ⟨by rw [hs.1], hs.2⟩)
    (fun _ => rfl) a

theorem warning_records (s₀ : Store) (settings : Settings) :
    (warning s₀).Records settings settings := by
  rintro s _ ⟨rfl, hs⟩
  exact ⟨rfl, hs.trans_nil (.records s settings)⟩

end Coupling

/-- What a caller finds in the log about an evaluation of an item of the kind `what`. -/
def Outcome.lines (what : String) : Outcome Item → List (String × String)
  | .failure f => [("sable.evaluation.evaluator",
      "evaluation of " ++ what ++ " failed: " ++ (f.kind ++ ": " ++ f.message))]
  | .value _ | .unmade _ | .oversized => []

theorem Store.adds_noted (s : Store) (what : String) (outcome : Outcome Item) :
    s.Adds (s.noted what outcome) (outcome.lines what) := by
  cases outcome with
  | failure f => exact .entries s [.evaluationFailed what f]
  | value | unmade | oversized => exact .refl s

namespace Context

variable {settings : Settings} {s t : Store}

theorem adds_evalItem (limit depth : Int) (expr : Item) (s : Store) :
    s.Adds ((evalItem ⟨settings, Forms.builtin⟩ limit depth expr).exec s).2 [] := by
  cases expr with
  | datum e =>
    have hruns : (Coupling.warning s).Holds (fun _ => True)
        (evalAt ⟨settings, Forms.builtin⟩ limit depth e)
        (evalAt ⟨settings, Forms.builtin⟩ limit depth e) :=
      Coupling.evalWithin_holds True.intro (fun a _ => Coupling.warning_supports s a)
        (Coupling.warning_records s settings) rfl rfl
    exact (Coupling.ends_ofStores (hruns s s ⟨rfl, .refl s⟩)).2.2
  | foreign what => exact .refl s

theorem adds_evaluate (expr : Item) (s : Store) :
    let r := (evaluate ⟨settings, Forms.builtin⟩ expr).run s
    s.Adds r.2 (r.1.lines expr.kindName) := by
  rw [run_evaluate]
  dsimp only
  exact (Store.Adds.records s settings).trans_nil
    ((adds_evalItem _ 0 expr _).trans_nil (Store.adds_noted _ _ _))

theorem adds_of_evaluate {expr : Item} {outcome : Outcome Item}
    (h : (evaluate ⟨settings, Forms.builtin⟩ expr).run s = (outcome, t)) :
    s.Adds t (outcome.lines expr.kindName) := by
  have hadds := @adds_evaluate settings expr s
  rwa [h] at hadds

theorem adds_of_evaluateAll_value {total done : Nat} {exprs : List Datum} {vs : List Item}
    (h : (evaluateAll ⟨settings, Forms.builtin⟩ total done exprs).run s = (.value vs, t)) :
    s.Adds t [] := by
  induction exprs generalizing done vs s with
  | nil =>
    cases h
    exact .refl _
  | cons expr exprs ih =>
    obtain ⟨v, ws, mid, -, hfirst, hothers⟩ := evaluateAll_cons_value _ h
    exact (adds_of_evaluate hfirst).trans_nil (ih hothers)

/-- The data in front of the one that fails come to values, and those behind it are left alone. -/
theorem adds_of_evaluateAll_failure {total done : Nat} {exprs : List Datum} {f : EvalFailure}
    (h : (evaluateAll ⟨settings, Forms.builtin⟩ total done exprs).run s = (.failure f, t)) :
    ∃ before expr after, exprs = before ++ expr :: after ∧
      (∃ vs mid,
        (evaluateAll ⟨settings, Forms.builtin⟩ total done before).run s = (.value vs, mid) ∧
        ((evaluate ⟨settings, Forms.builtin⟩ (.datum expr)).run mid).1 = .failure f) ∧
      s.Adds t ((Outcome.failure f).lines expr.kind.name ++
        logLines [.stopped (done + before.length) total]) := by
  induction exprs generalizing done s with
  | nil => cases h
  | cons expr exprs ih =>
    obtain ⟨mid, hfirst, rfl⟩ | ⟨v, mid, hfirst, hothers⟩ := evaluateAll_cons_failure _ h
    · refine ⟨[], expr, exprs, rfl, ⟨[], s, rfl, by rw [hfirst]⟩, ?_⟩
      exact (adds_of_evaluate hfirst).trans (.entries _ _)
    · obtain ⟨before, e, after, rfl, ⟨vs, last, hbefore, he⟩, hadds⟩ := ih hothers
      refine ⟨expr :: before, e, after, rfl, ⟨v :: vs, last, ?_, he⟩, ?_⟩
      · rw [run_evaluateAll_cons, hfirst]
        dsimp only
        rw [hbefore]
      · rw [List.length_cons, Nat.add_comm before.length, ← Nat.add_assoc]
        exact (adds_of_evaluate hfirst).trans_nil hadds

end Context

/-! ## Texts -/

/-- What a caller finds in the log about a reading. -/
def readLines {α : Type} : Except ParseFailure α → List (String × String)
  | .ok _ => []
  | .error f =>
    [("sable.reader.parser", "read failed at " ++ toString f.position ++ ": " ++ f.message)]

theorem logLines_readRecords {α : Type} (result : Except ParseFailure α) :
    logLines (readRecords result) = readLines result := by
  cases result <;> rfl

theorem adds_read {α : Type} (settings : Settings) (result : Except ParseFailure α) (s : Store) :
    s.Adds { s with log := s.log ++ (settings.records ++ readRecords result) }
      (readLines result) := by
  refine ⟨_, rfl, ?_⟩
  rw [logLines_append, Settings.records, logLines_warnings, logLines_readRecords]
  rfl

/-- Each failure is put on record once, under the built-in forms and whatever the settings. A text
that cannot be read leaves the failure of the reader, with its position and message, and a text
with a datum that fails leaves the failure of this datum and an entry that counts the data in front
of it, which have come to values. A text whose data all come to values leaves nothing, and neither
does a reading that succeeds. Warnings about the settings stand aside. -/
theorem failures_logged_once (settings : Settings) (text : String) (s : Store) :
    let ctx : Context := ⟨settings, Forms.builtin⟩
    let r := (ctx.run text).run s
    (∀ f, r.1 = .error f → s.Adds r.2
      [("sable.reader.parser", "read failed at " ++ toString f.position ++ ": " ++ f.message)]) ∧
    (∀ f, r.1 = .ok (.failure f) → ∃ before expr after,
      readAll settings.maxDepth text = .ok (before ++ expr :: after) ∧
      (∃ start vs mid, start.chain = s.chain ∧
        (ctx.evaluateAll (before ++ expr :: after).length 0 before).run start = (.value vs, mid) ∧
        ((ctx.evaluate (.datum expr)).run mid).1 = .failure f) ∧
      s.Adds r.2
        [("sable.evaluation.evaluator", "evaluation of " ++ expr.kind.name ++ " failed: " ++
          (f.kind ++ ": " ++ f.message)),
        ("sable.interpreter", "stopping after " ++ toString before.length ++ " of " ++
          toString (before ++ expr :: after).length ++ " forms")]) ∧
    (∀ vs, r.1 = .ok (.value vs) → s.Adds r.2 []) ∧
    (let reading := (ctx.reading readOnRecord text).run s
     s.Adds reading.2 (readLines reading.1)) ∧
    (let reading := (ctx.reading readAllOnRecord text).run s
     s.Adds reading.2 (readLines reading.1)) := by
  intro ctx r
  have hrun : r = _ := ctx.run_run text s
  have hreading : s.Adds _ (readLines (readAll settings.maxDepth text)) := adds_read settings _ s
  have hread : s.Adds _ (readLines (read settings.maxDepth text)) := adds_read settings _ s
  rw [ctx.run_reading readOnRecord_eq, ctx.run_reading readAllOnRecord_eq]
  dsimp only [ctx] at hrun ⊢
  generalize hresult : readAll settings.maxDepth text = result at hrun hreading ⊢
  cases result with
  | error g =>
    dsimp only at hrun
    rw [hrun]
    refine ⟨fun f hf => ?_, nofun, nofun, hread, hreading⟩
    cases hf
    exact hreading
  | ok exprs =>
    dsimp only at hrun
    rw [hrun]
    refine ⟨nofun, fun f hf => ?_, fun vs hvs => ?_, hread, hreading⟩
    · obtain ⟨before, expr, after, rfl, ⟨vs, mid, hbefore, hexpr⟩, hadds⟩ :=
        Context.adds_of_evaluateAll_failure (Prod.ext (Except.ok.inj hf) rfl)
      refine ⟨before, expr, after, rfl, ⟨_, vs, mid, ?_, hbefore, hexpr⟩, ?_⟩
      · rfl
      · rw [Nat.zero_add] at hadds
        exact hreading.trans_nil hadds
    · exact hreading.trans_nil
        (Context.adds_of_evaluateAll_value (Prod.ext (Except.ok.inj hvs) rfl))

/-- A text that cannot be read, one whose second datum fails, and one that comes to a value. -/
theorem failures_logged_once_second :
    let ctx : Context := ⟨{}, Forms.builtin⟩
    let s : Store := { chain := ⟨[], []⟩ }
    s.Adds ((ctx.run ")").run s).2 [("sable.reader.parser", "read failed at 0: unexpected ')'")] ∧
      (∃ before expr after,
        readAll ctx.settings.maxDepth "#t (quote)" = .ok (before ++ expr :: after) ∧
        s.Adds ((ctx.run "#t (quote)").run s).2
          [("sable.evaluation.evaluator", "evaluation of " ++ expr.kind.name ++ " failed: " ++
            ("arity" ++ ": " ++ "quote expects exactly 1 argument")),
          ("sable.interpreter", "stopping after " ++ toString before.length ++ " of " ++
            toString (before ++ expr :: after).length ++ " forms")]) ∧
      s.Adds ((ctx.run "#t").run s).2 [] := by
  intro ctx s
  have hclose : readAll ctx.settings.maxDepth ")" = .error ⟨0, "unexpected ')'", ")"⟩ := by
    refine Reader.readAll_eq_error.2 ⟨⟨0, .unexpectedClose⟩, ?_, by decide⟩
    rw [Reader.readEvery, Reader.readRest_eq]
    rfl
  have hone : readAll ctx.settings.maxDepth (String.ofList (Datum.writtenItems
      [.boolean true])) = .ok [.boolean true] := by
    apply Reader.readAll_writtenItems
    rw [List.forall_mem_singleton]
    exact ⟨True.intro, by decide⟩
  have htwo : readAll ctx.settings.maxDepth (String.ofList (Datum.writtenItems
      [.boolean true, .list [.symbol "quote"]])) =
        .ok [.boolean true, .list [.symbol "quote"]] := by
    apply Reader.readAll_writtenItems
    rw [List.forall_mem_cons, List.forall_mem_singleton]
    have hname : Reader.IsName "quote".toList :=
      Reader.isName_of_all (by decide) (by decide) (by decide) (by decide)
    exact ⟨⟨True.intro, by decide⟩, ⟨hname, True.intro⟩, by decide⟩
  rw [show String.ofList (Datum.writtenItems _) = "#t" by decide] at hone
  rw [show String.ofList (Datum.writtenItems _) = "#t (quote)" by decide] at htwo
  have herror : ((ctx.run ")").run s).1 = .error ⟨0, "unexpected ')'", ")"⟩ := by
    rw [Context.run_run, hclose]
  have hvalue : ((ctx.run "#t").run s).1 = .ok (.value [.datum (.boolean true)]) := by
    rw [Context.run_run, hone]
    rfl
  have hfailure : ((ctx.run "#t (quote)").run s).1 =
      .ok (.failure ⟨"arity", "quote expects exactly 1 argument"⟩) := by
    rw [Context.run_run, htwo]
    rfl
  refine ⟨?_, ?_, (failures_logged_once {} "#t" s).2.2.1 _ hvalue⟩
  · exact (failures_logged_once {} ")" s).1 _ herror
  · obtain ⟨before, expr, after, hread, -, hadds⟩ :=
      (failures_logged_once {} "#t (quote)" s).2.1 _ hfailure
    exact ⟨before, expr, after, hread, hadds⟩

end SchemeCore
