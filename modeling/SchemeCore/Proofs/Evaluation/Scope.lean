import SchemeCore.Proofs.Environment
import SchemeCore.Proofs.Evaluation.Coupling

/-!
# What evaluation sees of a chain

An evaluation sees a chain through the lookups of the expression's free names and through nothing
else: not how many frames there are, which of them holds a name, or what else is bound. Two chains
that agree on the free names are coupled by their agreement, which every step restores: `define`
makes both agree on one name more, and `set!` succeeds in both or in neither.
-/

namespace SchemeCore

/-- The names whose bindings an evaluation may ask for: variables and targets of `set!` at evaluated
positions. -/
def Datum.freeNames (d : Datum) : List String := d.accesses.filterMap Access.needs?

namespace Coupling

/-- Two runs that differ in their chains, which agree on `S`. -/
def agreeing (S : Set String) : Coupling := ofStores fun s₁ s₂ => s₁.chain.AgreeOn S s₂.chain

variable {S : Set String}

theorem agreeing_supports {a : Access} (ha : ∀ x ∈ a.needs?, x ∈ S) :
    (agreeing S).Supports a := by
  cases a with
  | read name =>
    intro s₁ s₂ hs
    have hname := hs name (ha name rfl)
    rw [Eval.exec_lookup, Eval.exec_lookup, ← hname]
    cases s₁.chain.lookup name with
    | some v => exact .value True.intro hs
    | none => exact .stop rfl hs
  | define target =>
    intro _ v _ s₁ s₂ hs
    rw [Eval.exec_define, Eval.exec_define]
    unfold Chain.bindItem
    cases hn : Item.name? (.datum target) with
    | some name => exact .value True.intro (hs.bind name v)
    | none => exact .stop rfl hs
  | assign name =>
    intro v _ s₁ s₂ hs
    have hname := hs name (ha name rfl)
    rw [Eval.exec_assign, Eval.exec_assign]
    cases h₁ : s₁.chain.assign name v with
    | none =>
      rw [Chain.assign_eq_none, hname, ← @Chain.assign_eq_none _ _ v] at h₁
      rw [h₁]
      exact .stop rfl hs
    | some c₁ =>
      cases h₂ : s₂.chain.assign name v with
      | none =>
        -- then the name is bound in neither chain
        rw [Chain.assign_eq_none, ← hname, ← @Chain.assign_eq_none _ _ v, h₁] at h₂
        cases h₂
      | some c₂ => exact .value True.intro (hs.assign h₁ h₂)

end Coupling

namespace Chain.AgreeOn

variable {S : Set String} {s₁ s₂ : Store}

theorem evalAt {settings : Settings} {e : Datum} (hS : ∀ x ∈ e.freeNames, x ∈ S)
    (h : s₁.chain.AgreeOn S s₂.chain) (limit depth : Int) :
    let m := Context.evalAt ⟨settings, Forms.builtin⟩ limit depth e
    (m.exec s₁).1 = (m.exec s₂).1 ∧ (m.exec s₁).2.chain.AgreeOn S (m.exec s₂).2.chain := by
  have hsupports : ∀ a ∈ e.accesses, (Coupling.agreeing S).Supports a := fun a ha =>
    Coupling.agreeing_supports fun x hx => hS x (List.mem_filterMap.2 ⟨a, ha, hx⟩)
  exact Coupling.ends_ofStores
    (Coupling.evalWithin_holds True.intro hsupports (fun _ _ hs => hs) rfl rfl s₁ s₂ h)

theorem evaluate {settings : Settings} {e : Datum} (hS : ∀ x ∈ e.freeNames, x ∈ S)
    (h : s₁.chain.AgreeOn S s₂.chain) :
    let m := Context.evaluate ⟨settings, Forms.builtin⟩ (.datum e)
    (m.run s₁).1 = (m.run s₂).1 ∧ (m.run s₁).2.chain.AgreeOn S (m.run s₂).2.chain := by
  have hlog : AgreeOn S { s₁ with log := s₁.log ++ settings.records }.chain
      { s₂ with log := s₂.log ++ settings.records }.chain := h
  obtain ⟨hresult, hchain⟩ := hlog.evalAt hS settings.maxDepth 0
  dsimp only
  rw [Context.run_evaluate, Context.run_evaluate]
  exact ⟨congrArg (Outcome.ofResult settings.textLevels settings.maxDepth) hresult, by
    rw [Store.chain_noted, Store.chain_noted]
    exact hchain⟩

end Chain.AgreeOn

/-- Evaluation observes a chain only through the lookups of free names. In two chains that agree on
them an expression has the same outcome, for its caller and at every depth under every limit, and
the chains agree afterwards. So does one frame that binds the free names as the chain does. -/
theorem evaluation_observes_free_names (settings : Settings) (e : Datum) (S : Set String)
    (hS : ∀ x ∈ e.freeNames, x ∈ S) (s₁ s₂ : Store) (h : s₁.chain.AgreeOn S s₂.chain) :
    let ctx : Context := ⟨settings, Forms.builtin⟩
    (((ctx.evaluate (.datum e)).run s₁).1 = ((ctx.evaluate (.datum e)).run s₂).1 ∧
      ((ctx.evaluate (.datum e)).run s₁).2.chain.AgreeOn S
        ((ctx.evaluate (.datum e)).run s₂).2.chain) ∧
    (∀ limit depth : Int,
      ((ctx.evalAt limit depth e).exec s₁).1 = ((ctx.evalAt limit depth e).exec s₂).1 ∧
      ((ctx.evalAt limit depth e).exec s₁).2.chain.AgreeOn S
        ((ctx.evalAt limit depth e).exec s₂).2.chain) ∧
    ((ctx.evaluate (.datum e)).run s₁).1 =
      ((ctx.evaluate (.datum e)).run { s₁ with chain := s₁.chain.flat e.freeNames }).1 := by
  have hflat : s₁.chain.AgreeOn { x | x ∈ e.freeNames } (s₁.chain.flat e.freeNames) :=
    s₁.chain.agreeOn_flat e.freeNames
  exact ⟨h.evaluate hS, fun limit depth => h.evalAt hS limit depth,
    (@Chain.AgreeOn.evaluate _ s₁ { s₁ with chain := _ } settings e (fun _ hx => hx) hflat).1⟩

theorem evaluation_observes_free_names_nested :
    let ctx : Context := ⟨{}, Forms.builtin⟩
    let expr : Datum := .list [.symbol "begin", .list [.symbol "set!", .symbol "x", .symbol "y"],
      .list [.symbol "define", .symbol "z", .string "local"],
      Mark.quasiquote.on (.list [.symbol "a", Mark.unquote.on (.symbol "x")])]
    let inner : Store := { chain := ⟨[("y", .datum (.integer 7))],
      [[("x", .datum (.char 'c'))], [("y", .datum .nil)]]⟩ }
    let flat : Store := { chain := ⟨[("if", .datum .nil), ("x", .datum (.char 'c')),
      ("y", .datum (.integer 7))], []⟩ }
    expr.freeNames = ["x", "y", "x"] ∧
      ((ctx.evaluate (.datum expr)).run inner).1 =
        .value (.datum (.list [.symbol "a", .integer 7])) ∧
      ((ctx.evaluate (.datum expr)).run flat).1 =
        .value (.datum (.list [.symbol "a", .integer 7])) ∧
      ((ctx.evaluate (.datum expr)).run inner).2.chain.AgreeOn { x | x ∈ ["x", "y"] }
        ((ctx.evaluate (.datum expr)).run flat).2.chain := by
  intro ctx expr inner flat
  have hnames : expr.freeNames = ["x", "y", "x"] := by decide
  have hagree : inner.chain.AgreeOn { x | x ∈ ["x", "y"] } flat.chain := by
    intro x hx
    have hx : x ∈ ["x", "y"] := hx
    simp only [List.mem_cons, List.not_mem_nil, or_false] at hx
    rcases hx with rfl | rfl <;> decide
  have hfree : ∀ x ∈ expr.freeNames, x ∈ { x | x ∈ ["x", "y"] } := by
    rw [hnames]
    show ∀ x ∈ ["x", "y", "x"], x ∈ ["x", "y"]
    decide
  have hall := evaluation_observes_free_names {} expr _ hfree inner flat hagree
  have hvalue : ((ctx.evaluate (.datum expr)).run inner).1 =
      .value (.datum (.list [.symbol "a", .integer 7])) := by decide
  exact ⟨hnames, hvalue, hall.1.1.symm.trans hvalue, hall.1.2⟩

end SchemeCore
