import SchemeCore.Proofs.Evaluation.Batch

/-!
# Evaluations change a chain by writes

Whatever a caller has evaluated in a chain, the chain changes by writes only (`Context.Writing`).
This is so for the steps of the monad, for an evaluation under the built-in forms and forms that
stop, and with these for templates and programs.
-/

namespace SchemeCore

namespace Chain

variable {A : Set Access} {c c₁ c₂ : Chain}

theorem written_bindItem {name value : Item} (h : c.bindItem name value = .ok c₁) :
    c.Written Set.univ c₁ := by
  cases name with
  | datum target =>
    have hwrite : c.write? (.define target value) = some c₁ := by
      rw [write?, h]
      rfl
    exact .single (Set.mem_univ _) hwrite
  | foreign what => cases h

theorem written_assignItem {name value : Item} (h : c.assignItem name value = .ok c₁) :
    c.Written Set.univ c₁ := by
  unfold assignItem at h
  split at h
  · rename_i c' hassign
    cases h
    obtain ⟨n, -, hc'⟩ := Option.bind_eq_some_iff.1 hassign
    exact .single (w := .assign n value) (Set.mem_univ _) hc'
  · cases h

theorem written_bindPairs (c : Chain) (pairs : List (Item × Item)) :
    c.Written Set.univ (c.bindPairs pairs).1 := by
  induction pairs generalizing c with
  | nil => exact .refl _ c
  | cons pair pairs ih =>
    rw [bindPairs]
    split
    · rename_i c' hbind
      exact (written_bindItem hbind).trans (ih c')
    · exact .refl _ c

end Chain

namespace Context

variable {ctx : Context} {stops : List (String × Stop)}

/-- The computation changes the chain by writes only. -/
def Writing {α : Type} (m : StateM Store α) : Prop :=
  ∀ s : Store, s.chain.Written Set.univ (m.run s).2.chain

theorem writing_of_holds {α : Type} {m : Eval α}
    (h : ∀ s₀, (Coupling.writing Set.univ s₀).Holds (fun _ => True) m m) : Writing m.run :=
  fun s => (Coupling.ends_ofStores (h s s s ⟨rfl, .refl _ _⟩)).2.2.written

theorem Writing.pure {α : Type} (a : α) : Writing (pure a) := fun s => .refl _ s.chain

theorem Writing.record (entries : List Record) : Writing (Store.record entries) :=
  fun s => .refl _ s.chain

theorem Writing.bind {α β : Type} {m : StateM Store α} {f : α → StateM Store β} (hm : Writing m)
    (hf : ∀ a, Writing (f a)) : Writing (m >>= f) := by
  intro s
  rw [StateT.run_bind]
  exact (hm s).trans (hf _ _)

theorem evalItem_writing (h : ctx.forms = .stoppingAt stops) (limit depth : Int) (expr : Item) :
    Writing (ctx.evalItem limit depth expr).run := by
  obtain ⟨settings, forms⟩ := ctx
  cases h
  cases expr with
  | datum e => exact writing_of_holds fun s₀ => evalAt_writing settings stops s₀ limit depth e
  | foreign what => exact .pure _

theorem evaluate_writing (h : ctx.forms = .stoppingAt stops) (expr : Item) :
    Writing (ctx.evaluate expr) := by
  refine (Writing.record _).bind fun _ => (evalItem_writing h _ 0 expr).bind fun result => ?_
  cases Outcome.ofResult ctx.settings.textLevels ctx.settings.maxDepth result with
  | failure f => exact (Writing.record _).bind fun _ => .pure _
  | value | unmade | oversized => exact .pure _

/-- Fills in a template for a caller under a given limit. -/
def fillWithin (ctx : Context) (template : Item) (level nesting limit : Int) : Eval Item :=
  match template with
  | .datum d => Template.fill (ctx.evalAt ctx.settings.maxDepth 1) limit level nesting d
  | .foreign _ => if limit < nesting then Eval.fail (.templateTooDeep limit) else return template

theorem fillTemplate_writing (h : ctx.forms = .stoppingAt stops) (template : Item)
    (level nesting : Int) (limit? : Option Int) :
    Writing (ctx.fillTemplate template level nesting limit?).run := by
  obtain ⟨settings, forms⟩ := ctx
  cases h
  apply writing_of_holds
  intro s₀
  have hfill (limit : Int) : (Coupling.writing Set.univ s₀).Holds (fun _ => True)
      (fillWithin ⟨settings, .stoppingAt stops⟩ template level nesting limit)
      (fillWithin ⟨settings, .stoppingAt stops⟩ template level nesting limit) := by
    cases template with
    | datum d =>
      exact Coupling.fill_holds True.intro (fun _ _ => Coupling.writing_supports (Set.mem_univ _))
        (fun _ _ => Coupling.fits_self rfl) fun e _ _ _ => evalAt_writing settings stops s₀ _ 1 e
    | foreign what =>
      exact Coupling.holds_check (Coupling.fits_self rfl) (Coupling.holds_pure True.intro)
  cases limit? with
  | some limit => exact hfill limit
  | none => exact Coupling.holds_askDepth (fun _ _ hs => hs) (hfill settings.maxDepth)

theorem evaluateAll_writing (h : ctx.forms = .stoppingAt stops) (total done : Nat)
    (exprs : List Datum) : Writing (ctx.evaluateAll total done exprs) := by
  induction exprs generalizing done with
  | nil => exact .pure _
  | cons expr exprs ih =>
    rw [evaluateAll]
    refine (evaluate_writing h _).bind fun first => ?_
    cases first with
    | value v =>
      refine (ih (done + 1)).bind fun others => ?_
      cases others <;> exact .pure _
    | failure f => exact (Writing.record _).bind fun _ => .pure _
    | unmade | oversized => exact .pure _

theorem reading_writing {α : Type} (read : Int → String → Except ParseFailure α × List Record)
    (text : String) : Writing (ctx.reading read text) := (Writing.record _).bind fun _ => .pure _

theorem run_writing (h : ctx.forms = .stoppingAt stops) (text : String) :
    Writing (ctx.run text) := by
  refine (reading_writing readAllOnRecord text).bind fun result => ?_
  cases result with
  | error f => exact .pure _
  | ok exprs => exact (evaluateAll_writing h _ 0 exprs).bind fun _ => .pure _

theorem runFirst_writing (h : ctx.forms = .stoppingAt stops) (text : String) :
    Writing (ctx.runFirst text) := by
  refine (reading_writing readOnRecord text).bind fun result => ?_
  cases result <;> exact evaluate_writing h _

end Context

end SchemeCore
