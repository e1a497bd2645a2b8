import SchemeCore.Proofs.Evaluation.Coupling
import SchemeCore.Proofs.Evaluation.Wording
import SchemeCore.Proofs.Evaluation.Write
import Mathlib.Algebra.Group.Int.Defs
import Mathlib.Algebra.Group.Nat.Defs

/-!
# When an evaluation raises

An evaluation answers with a value or a failure, except that a failure which shows an integer of
more than 4300 digits cannot be worded, and what is raised then is not caught.

1. A datum has a text if and only if its integers are short enough (`Datum.isSome_display?`).
2. Where a chain holds data only, evaluation makes no integers: those of its values, and of the
   items that its faults show, stand in the expression or in the chain (`Coupling.drawn`). It never
   comes to a foreign value, so that whatever has to be made of its values is made.
3. So if an evaluation raises, one of these integers is too long.
-/

namespace SchemeCore

/-! ## Integers of data -/

namespace Datum

mutual

/-- The integers in a datum, from left to right. -/
def integers : Datum → List Int
  | integer value => [value]
  | list items | vector items => allIntegers items
  | symbol _ | string _ | boolean _ | char _ => []

/-- The integers in some data, from left to right. -/
def allIntegers : List Datum → List Int
  | [] => []
  | item :: items => integers item ++ allIntegers items

end

theorem mem_allIntegers {n : Int} {ds : List Datum} :
    n ∈ allIntegers ds ↔ ∃ d ∈ ds, n ∈ d.integers := by
  induction ds with
  | nil => simp [allIntegers]
  | cons d ds ih => simp [allIntegers, ih]

theorem integers_eq_of_items? {d : Datum} {ds : List Datum} (h : d.items? = some ds) :
    d.integers = allIntegers ds := by
  cases d <;> cases h <;> rw [integers]

end Datum

/-- An integer that has a decimal text. -/
def Text.IsShort (n : Int) : Prop := n.natAbs < 10 ^ Text.maxDigits

theorem Text.isSome_decimal? (n : Int) : (Text.decimal? n).isSome = true ↔ Text.IsShort n := by
  have hlength : (Nat.toDigits 10 n.natAbs).length ≤ Text.maxDigits ↔ Text.IsShort n :=
    Nat.length_toDigits_le_iff (by decide) (by decide)
  rw [← hlength, Text.decimal?]
  split <;> rename_i h <;> simp [h]

namespace Datum

theorem isSome_displayWith (printable : Char → Bool) (d : Datum) :
    (displayWith printable d).isSome = true ↔ ∀ n ∈ d.integers, Text.IsShort n := by
  induction d using Datum.induction with
  | atom d hatom =>
    cases d with
    | list | vector => cases hatom
    | integer value => simp [displayWith, integers, Text.isSome_decimal?]
    | symbol | string | boolean | char => simp [displayWith, integers]
  | list items ih | vector items ih =>
    rw [displayWith, Option.isSome_map, isSome_displayItemsWith, integers]
    simp only [mem_allIntegers]
    constructor
    · rintro h n ⟨item, hmem, hn⟩
      exact (ih item hmem).1 (h item hmem) n hn
    · exact fun h item hmem => (ih item hmem).2 fun n hn => h n ⟨item, hmem, hn⟩

theorem isSome_display? (d : Datum) :
    d.display?.isSome = true ↔ ∀ n ∈ d.integers, Text.IsShort n :=
  isSome_displayWith Text.isPrintable d

end Datum

theorem Datum.display?_eq_none {d : Datum} {n : Int} (hn : n ∈ d.integers)
    (hlong : ¬ Text.IsShort n) : d.display? = none := by
  rw [← Option.not_isSome_iff_eq_none, isSome_display?]
  exact fun h => hlong (h n hn)

theorem Text.not_isShort_power : ¬ IsShort (10 ^ maxDigits) := by
  have hten : Int.natAbs 10 = 10 := rfl
  rw [IsShort, Int.natAbs_pow, hten]
  exact Nat.lt_irrefl _

/-- Data all of whose integers are among those that `Q` holds of. -/
def Item.Drawn (Q : Int → Prop) (v : Item) : Prop := ∃ d, v = .datum d ∧ ∀ n ∈ d.integers, Q n

theorem Item.Drawn.exists_map {Q : Int → Prop} {vs : List Item} (h : ∀ v ∈ vs, v.Drawn Q) :
    ∃ ds : List Datum, vs = ds.map .datum := by
  induction vs with
  | nil => exact ⟨[], rfl⟩
  | cons v vs ih =>
    obtain ⟨⟨d, rfl, -⟩, hvs⟩ := List.forall_mem_cons.1 h
    obtain ⟨ds, rfl⟩ := ih hvs
    exact ⟨d :: ds, rfl⟩

/-! ## Chains of data -/

/-- The value that a write gives to its name. -/
def Write.value : Write → Item
  | define _ value | assign _ value => value

theorem Frame.mem_of_find? {f : Frame} {name : String} {value : Item}
    (h : f.find? name = some value) : (name, value) ∈ f := by
  induction f with
  | nil => cases h
  | cons first rest ih =>
    obtain ⟨n, v⟩ := first
    rw [find?_cons] at h
    split at h
    · rename_i hn
      cases h
      exact hn ▸ List.mem_cons_self
    · exact List.mem_cons_of_mem _ (ih h)

theorem Frame.mem_bind {f : Frame} {name : String} {value : Item}
    {entry : String × Item} (h : entry ∈ f.bind name value) : entry ∈ f ∨ entry.2 = value := by
  induction f with
  | nil =>
    rw [Frame.bind, List.mem_singleton] at h
    exact .inr (h ▸ rfl)
  | cons first rest ih =>
    obtain ⟨n, v⟩ := first
    rw [Frame.bind] at h
    split at h
    · rcases List.mem_cons.1 h with rfl | h
      · exact .inr rfl
      · exact .inl (List.mem_cons_of_mem _ h)
    · rcases List.mem_cons.1 h with rfl | h
      · exact .inl List.mem_cons_self
      · exact (ih h).imp_left (List.mem_cons_of_mem _)

namespace Chain

variable {Q : Int → Prop} {c c' : Chain}

/-- All bindings of the chain are drawn from the integers that `Q` holds of. -/
def Drawn (Q : Int → Prop) (c : Chain) : Prop :=
  ∀ frame ∈ c.frames, ∀ entry ∈ frame, entry.2.Drawn Q

theorem Drawn.lookup (h : c.Drawn Q) {name : String} {v : Item} (hv : c.lookup name = some v) :
    v.Drawn Q := by
  obtain ⟨frame, hframe, hfind⟩ := List.exists_of_findSome?_eq_some hv
  exact h frame hframe (name, v) (Frame.mem_of_find? hfind)

theorem Drawn.write (h : c.Drawn Q) {w : Write} (hw : c.write? w = some c')
    (hvalue : w.value.Drawn Q) : c'.Drawn Q := by
  obtain ⟨i, f, name, value, hf, hframes, hcases⟩ := frames_write hw
  have hnew : value.Drawn Q := by
    rcases hcases with ⟨rfl, -⟩ | ⟨rfl, -, -⟩ <;> exact hvalue
  intro frame hframe entry hentry
  rw [hframes] at hframe
  rcases List.mem_or_eq_of_mem_set hframe with hframe | rfl
  · exact h frame hframe entry hentry
  · rcases Frame.mem_bind hentry with hentry | heq
    · exact h f (List.mem_of_getElem? hf) entry hentry
    · exact heq ▸ hnew

end Chain

namespace Coupling

variable {Q : Int → Prop}

/-- A run in a chain of data, beside itself: its values, the items that its faults show and the
chain that it leaves are drawn from the integers that `Q` holds of. -/
def drawn (Q : Int → Prop) : Coupling where
  store s₁ s₂ := s₁ = s₂ ∧ s₁.chain.Drawn Q
  item := Item.Drawn Q
  stop stop₁ stop₂ := stop₁ = stop₂ ∧ ∃ f, stop₁ = .fault f ∧ ∀ v ∈ f.subject?, v.Drawn Q
  excused _ _ := False
  item_symbol name := ⟨_, rfl, by simp [Datum.integers]⟩
  item_items d ds h := by
    simp only [Item.Drawn, Item.datum.injEq, exists_eq_left', Datum.integers_eq_of_items? h,
      Datum.mem_allIntegers]
    exact ⟨fun h x hx n hn => h n ⟨x, hx, hn⟩, fun h n ⟨x, hx, hn⟩ => h x hx n hn⟩
  stop_fault f _ hv := ⟨rfl, f, rfl, hv⟩
  stop_unmade _ v hv hne := (hne _ hv.choose_spec.1).elim

theorem drawn_supports (a : Access) : (drawn Q).Supports a := by
  cases a with
  | read name =>
    rintro s _ ⟨rfl, hs⟩
    rw [Eval.exec_lookup]
    cases hv : s.chain.lookup name with
    | some v => exact .value (hs.lookup hv) ⟨rfl, hs⟩
    | none =>
      refine .stop ⟨rfl, _, rfl, ?_⟩ ⟨rfl, hs⟩
      rintro _ ⟨⟩
      exact (drawn Q).item_symbol name
  | define target =>
    rintro htarget v hv s _ ⟨rfl, hs⟩
    rw [Eval.exec_define]
    cases target with
    | symbol name =>
      have hc : (s.chain.bind name v).Drawn Q := hs.write (w := .define (.symbol name) v) rfl hv
      exact .value True.intro ⟨rfl, hc⟩
    | integer | string | boolean | char | list | vector =>
      refine .stop ⟨rfl, _, rfl, ?_⟩ ⟨rfl, hs⟩
      rintro _ ⟨⟩
      exact htarget
  | assign name =>
    rintro v hv s _ ⟨rfl, hs⟩
    rw [Eval.exec_assign]
    cases hassign : s.chain.assign name v with
    | some c =>
      have hc : c.Drawn Q := hs.write (w := .assign name v) hassign hv
      exact .value True.intro ⟨rfl, hc⟩
    | none =>
      refine .stop ⟨rfl, _, rfl, ?_⟩ ⟨rfl, hs⟩
      rintro _ ⟨⟩
      exact (drawn Q).item_symbol name

end Coupling

/-! ## Wordings -/

theorem Item.isSome_bare? {v : Item} (h : v.display?.isSome = true) : v.bare?.isSome = true := by
  rcases v with (_ | _ | _ | _ | _ | _ | _) | (_ | _ | _ | _ | _ | _)
  all_goals exact h

/-- A fault can be worded if the item that it shows has a text. -/
theorem Fault.isSome_failure? {f : Fault} (h : ∀ v ∈ f.subject?, v.display?.isSome = true) :
    f.failure?.isSome = true := by
  unfold failure?
  rw [Option.isSome_map]
  rcases f with (what | what | what) | _ | _ | target | _ | v | e | what | _ | _ | _
  case name.unbound | name.cannotAssign =>
    exact (Option.isSome_map ..).trans (Item.isSome_bare? (h what rfl))
  case name.cannotBind => exact (Option.isSome_map ..).trans (h what rfl)
  case assignTarget => exact (Option.isSome_map ..).trans (h (.datum target) rfl)
  case spliceNotList => exact (Option.isSome_map ..).trans (h v rfl)
  case notAForm => exact (Option.isSome_map ..).trans (h (.datum e) rfl)
  case notADatum => exact (Option.isSome_map ..).trans (h (.foreign what) rfl)
  all_goals rfl

theorem Fault.outcome_of_no_message {α : Type} {f : Fault} {levels : Nat} {limit : Int}
    (hfits : f.wordingFits levels = true) (hmessage : f.message? = none) :
    (f.outcome levels limit : Outcome α) = .oversized := by
  rw [outcome_of_fits hfits, failure?, hmessage]
  rfl

/-! ## Ends of evaluations -/

/-- An evaluation that draws on integers that `Q` holds of ends in a value or in a failure, and
raises only for one of these integers that is too long. -/
inductive Outcome.Drawn {α : Type} (Q : Int → Prop) (P : α → Prop) : Outcome α → Prop where
  | value {a : α} (ha : P a) : Drawn Q P (.value a)
  | failure (f : EvalFailure) : Drawn Q P (.failure f)
  | oversized {n : Int} (hn : Q n) (hlong : ¬ Text.IsShort n) : Drawn Q P .oversized

namespace Context

variable {Q : Int → Prop} {settings : Settings} {s : Store}

theorem outcome_drawn {α : Type} {P : α → Prop} {f : Fault} (hf : ∀ v ∈ f.subject?, v.Drawn Q)
    (levels : Nat) (limit : Int) : (f.outcome levels limit : Outcome α).Drawn Q P := by
  cases hfits : f.wordingFits levels with
  | false =>
    rw [Fault.outcome_of_not_fits hfits]
    exact .failure _
  | true =>
    rw [Fault.outcome_of_fits hfits]
    -- a fault has a wording unless an integer that it may show is too long
    by_cases hshort : ∀ n, Q n → Text.IsShort n
    · have hsome : f.failure?.isSome = true := by
        apply Fault.isSome_failure?
        intro v hv
        obtain ⟨d, rfl, hd⟩ := hf v hv
        exact d.isSome_display?.2 fun n hn => hshort n (hd n hn)
      obtain ⟨failure, hfailure⟩ := Option.isSome_iff_exists.1 hsome
      rw [hfailure]
      exact .failure failure
    · obtain ⟨n, hn, hlong⟩ : ∃ n, Q n ∧ ¬ Text.IsShort n := by simpa using hshort
      cases f.failure? with
      | some failure => exact .failure failure
      | none => exact .oversized hn hlong

theorem evaluate_drawn (hs : s.chain.Drawn Q) {e : Datum} (he : ∀ n ∈ e.integers, Q n) :
    ((evaluate ⟨settings, Forms.builtin⟩ (.datum e)).run s).1.Drawn Q (Item.Drawn Q) ∧
      ((evaluate ⟨settings, Forms.builtin⟩ (.datum e)).run s).2.chain.Drawn Q := by
  have hplain (f : Fault) (hf : f.subject? = none) :
      (Coupling.drawn Q).stop (.fault f) (.fault f) := ⟨rfl, f, rfl, by simp [hf]⟩
  have hruns : (Coupling.drawn Q).Holds (Item.Drawn Q)
      (evalItem ⟨settings, Forms.builtin⟩ settings.maxDepth 0 (.datum e))
      (evalItem ⟨settings, Forms.builtin⟩ settings.maxDepth 0 (.datum e)) :=
    Coupling.evalWithin_holds ⟨e, rfl, he⟩ (fun a _ => Coupling.drawn_supports a)
      (fun s _ h => ⟨by rw [h.1], h.2⟩) (hplain _ rfl) (hplain _ rfl)
  have hends := hruns { s with log := s.log ++ settings.records } _ ⟨rfl, hs⟩
  rw [run_evaluate]
  dsimp only
  rw [Store.chain_noted]
  generalize (evalItem ⟨settings, Forms.builtin⟩ settings.maxDepth 0 (.datum e)).exec
    { s with log := s.log ++ settings.records } = r at hends ⊢
  cases hends with
  | value ha ht => exact ⟨.value ha, ht.2⟩
  | stop he ht =>
    obtain ⟨-, f, rfl, hf⟩ := he
    exact ⟨outcome_drawn hf _ _, ht.2⟩
  | excused he => exact he.elim

theorem evaluateAll_drawn {exprs : List Datum} (hs : s.chain.Drawn Q)
    (he : ∀ n ∈ Datum.allIntegers exprs, Q n) (total done : Nat) :
    ((evaluateAll ⟨settings, Forms.builtin⟩ total done exprs).run s).1.Drawn Q
        (fun vs => ∀ v ∈ vs, v.Drawn Q) ∧
      ((evaluateAll ⟨settings, Forms.builtin⟩ total done exprs).run s).2.chain.Drawn Q := by
  induction exprs generalizing s done with
  | nil => exact ⟨.value (by simp), hs⟩
  | cons e exprs ih =>
    rw [Datum.allIntegers, List.forall_mem_append] at he
    obtain ⟨hfirst, ht⟩ := @evaluate_drawn Q settings s hs e he.1
    rw [run_evaluateAll_cons]
    generalize (evaluate ⟨settings, Forms.builtin⟩ (.datum e)).run s = r at hfirst ht ⊢
    obtain ⟨first, t⟩ := r
    cases hfirst with
    | failure f => exact ⟨.failure f, ht⟩
    | oversized hn hlong => exact ⟨.oversized hn hlong, ht⟩
    | value hv =>
      obtain ⟨hothers, ht'⟩ := ih ht he.2 (done + 1)
      dsimp only
      generalize (evaluateAll ⟨settings, Forms.builtin⟩ total (done + 1) exprs).run t = r
        at hothers ht' ⊢
      obtain ⟨others, t'⟩ := r
      cases hothers with
      | value hvs => exact ⟨.value (List.forall_mem_cons.2 ⟨hv, hvs⟩), ht'⟩
      | failure f => exact ⟨.failure f, ht'⟩
      | oversized hn hlong => exact ⟨.oversized hn hlong, ht'⟩

end Context

/-! ## The integers of a chain -/

/-- The integers in an item. -/
def Item.integers : Item → List Int
  | datum d => d.integers
  | foreign _ => []

namespace Chain

variable {c : Chain}

/-- The integers in the bindings of a chain. -/
def integers (c : Chain) : List Int :=
  c.frames.flatMap fun frame => frame.flatMap fun entry => entry.2.integers

/-- Every name stands for a datum. -/
def HoldsData (c : Chain) : Prop :=
  ∀ frame ∈ c.frames, ∀ entry ∈ frame, ∃ d, entry.2 = .datum d

theorem HoldsData.drawn {Q : Int → Prop} (h : c.HoldsData) (hQ : ∀ n ∈ c.integers, Q n) :
    c.Drawn Q := by
  intro frame hframe entry hentry
  obtain ⟨d, hd⟩ := h frame hframe entry hentry
  refine ⟨d, hd, fun n hn => hQ n ?_⟩
  unfold integers
  rw [List.mem_flatMap]
  refine ⟨frame, hframe, List.mem_flatMap.2 ⟨entry, hentry, ?_⟩⟩
  rw [hd]
  exact hn

theorem Drawn.holdsData {Q : Int → Prop} (h : c.Drawn Q) : c.HoldsData :=
  fun frame hframe entry hentry => (h frame hframe entry hentry).imp fun _ hd => hd.1

end Chain

/-- In a chain of data an evaluation ends in a datum or in a failure, and a program in data, in a
failure of the reader or in one of an evaluation, unless an integer of more than 4300 digits stands
in an expression or in the chain; nothing else is ever raised. The chain holds data afterwards. -/
theorem evaluation_raises_for_long_integers_only (settings : Settings) {s : Store}
    (hs : s.chain.HoldsData) :
    let ctx : Context := ⟨settings, Forms.builtin⟩
    (∀ e : Datum, let r := (ctx.evaluate (.datum e)).run s
      r.2.chain.HoldsData ∧
        ((∃ d, r.1 = .value (.datum d)) ∨ (∃ f, r.1 = .failure f) ∨
          r.1 = .oversized ∧ ∃ n ∈ e.integers ++ s.chain.integers,
            10 ^ Text.maxDigits ≤ n.natAbs)) ∧
    ∀ text, let r := (ctx.run text).run s
      r.2.chain.HoldsData ∧
        ((∃ f, r.1 = .error f) ∨ (∃ ds : List Datum, r.1 = .ok (.value (ds.map .datum))) ∨
          (∃ f, r.1 = .ok (.failure f)) ∨
          r.1 = .ok .oversized ∧ ∃ exprs, readAll settings.maxDepth text = .ok exprs ∧
            ∃ n ∈ Datum.allIntegers exprs ++ s.chain.integers, 10 ^ Text.maxDigits ≤ n.natAbs) := by
  intro ctx
  refine ⟨fun e => ?_, fun text => ?_⟩
  · intro r
    have hdrawn : s.chain.Drawn (· ∈ e.integers ++ s.chain.integers) :=
      hs.drawn fun n hn => List.mem_append_right _ hn
    obtain ⟨hr, hchain⟩ := @Context.evaluate_drawn _ settings s hdrawn e fun n hn =>
      List.mem_append_left _ hn
    refine ⟨hchain.holdsData, ?_⟩
    change r.1.Drawn _ _ at hr
    generalize r.1 = outcome at hr ⊢
    cases hr with
    | value hv => exact .inl (hv.imp fun d hd => congrArg Outcome.value hd.1)
    | failure f => exact .inr (.inl ⟨f, rfl⟩)
    | oversized hn hlong => exact .inr (.inr ⟨rfl, _, hn, Nat.not_lt.1 hlong⟩)
  · rw [Context.run_run]
    cases hread : readAll settings.maxDepth text with
    | error f => exact ⟨hs, .inl ⟨f, rfl⟩⟩
    | ok exprs =>
      dsimp only
      have hdrawn : s.chain.Drawn (· ∈ Datum.allIntegers exprs ++ s.chain.integers) :=
        hs.drawn fun n hn => List.mem_append_right _ hn
      generalize ht : { s with log := _ } = t
      have hdrawn' : t.chain.Drawn (· ∈ Datum.allIntegers exprs ++ s.chain.integers) := ht ▸ hdrawn
      obtain ⟨hr, hchain⟩ := @Context.evaluateAll_drawn _ settings t exprs hdrawn'
        (fun n hn => List.mem_append_left _ hn) exprs.length 0
      refine ⟨hchain.holdsData, .inr ?_⟩
      generalize ((Context.evaluateAll ⟨settings, Forms.builtin⟩ exprs.length 0 exprs).run t).1 =
        outcome at hr ⊢
      cases hr with
      | value hvs =>
        obtain ⟨ds, rfl⟩ := Item.Drawn.exists_map hvs
        exact .inl ⟨ds, rfl⟩
      | failure f => exact .inr (.inl ⟨f, rfl⟩)
      | oversized hn hlong =>
        exact .inr (.inr ⟨rfl, exprs, rfl, _, hn, Nat.not_lt.1 hlong⟩)

theorem evaluation_raises_for_long_integers_only_short :
    let splicing : Datum := .list [.symbol "begin", .list [.symbol "define", .symbol "y",
      Mark.quasiquote.on (.list [Mark.unquote.on (.symbol "x")])],
        Mark.quasiquote.on (.list [.symbol "a", Mark.unquoteSplicing.on (.symbol "x")])]
    let s (n : Int) : Store := { chain := ⟨[("x", .datum (.integer n))], []⟩ }
    let long : Int := 10 ^ Text.maxDigits
    (∀ n, (s n).chain.HoldsData ∧
      ((Context.evaluate {} (.datum splicing)).run (s n)).2.chain.HoldsData) ∧
      ((Context.evaluate {} (.datum splicing)).run (s 7)).1 =
        .failure ⟨"bad-form", "unquote-splicing must produce a list, got Integer(7)"⟩ ∧
      ((Context.evaluate {} (.datum splicing)).run (s long)).1 = .oversized ∧
      ∃ n ∈ splicing.integers ++ (s long).chain.integers, 10 ^ Text.maxDigits ≤ n.natAbs := by
  intro splicing s long
  have hs (n : Int) : (s n).chain.HoldsData := by
    intro frame hframe entry hentry
    obtain rfl := List.mem_singleton.1 hframe
    obtain rfl := List.mem_singleton.1 hentry
    exact ⟨_, rfl⟩
  have hrun (n : Int) : ((Context.evaluate {} (.datum splicing)).run (s n)).1 =
      Fault.outcome (Settings.textLevels {}) (Settings.maxDepth {})
        (.spliceNotList (.datum (.integer n))) := by
    rw [Context.run_evaluate]
    rfl
  have hoversized : ((Context.evaluate {} (.datum splicing)).run (s long)).1 = .oversized := by
    have hdisplay : (Datum.integer long).display? = none :=
      Datum.display?_eq_none List.mem_cons_self Text.not_isShort_power
    rw [hrun]
    apply Fault.outcome_of_no_message rfl
    rw [Fault.message?, Item.display?, hdisplay]
    rfl
  have hraises (n : Int) := (evaluation_raises_for_long_integers_only {} (hs n)).1 splicing
  refine ⟨fun n => ⟨hs n, (hraises n).1⟩, by rw [hrun]; decide, hoversized, ?_⟩
  rcases (hraises long).2 with ⟨d, hd⟩ | ⟨f, hf⟩ | ⟨-, hlong⟩
  · cases hoversized.symm.trans hd
  · cases hoversized.symm.trans hf
  · exact hlong

/-- A list that has an integer at its head is refused with a failure that shows the integer. If that
has 4301 digits, the refusal is raised. -/
theorem refusal_of_long_integer_raises :
    ((Context.evaluate {} (.datum (.list [.integer (10 ^ Text.maxDigits)]))).run
      { chain := ⟨[], []⟩ }).1 = .oversized := by
  have hraises (n : Int) (hn : ¬ Text.IsShort n) : ((Context.evaluate {}
      (.datum (.list [.integer n]))).run { chain := ⟨[], []⟩ }).1 = .oversized := by
    have hdisplay : (Datum.list [.integer n]).display? = none :=
      Datum.display?_eq_none (by simp [Datum.integers, Datum.allIntegers]) hn
    have hheight : (Datum.list [.integer n]).height ≤ 1 := Nat.le_refl 1
    rw [Context.run_evaluate]
    show Fault.outcome (Settings.textLevels {}) (Settings.maxDepth {})
      (.notAForm (.list [.integer n])) = .oversized
    apply Fault.outcome_of_no_message
    · exact Datum.textFits_of_height_le (Nat.le_trans hheight (by decide))
    · rw [Fault.message?, hdisplay]
      rfl
  exact hraises _ Text.not_isShort_power

end SchemeCore
