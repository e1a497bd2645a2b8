import SchemeCore.Evaluation.Evaluator
import SchemeCore.Proofs.Datum
import SchemeCore.Proofs.Evaluation.Access
import SchemeCore.Proofs.Evaluation.Run

/-!
# Coupled runs

Many statements about the evaluator compare two runs: in two chains, under two limits, or a run with
itself. What the runs have in common is a `Coupling`, and `C.Holds P m₁ m₂` says that two
computations keep it: from coupled stores both end with the same value, of which `P` holds, or both
stop, and leave coupled stores.

1. A coupling passes through the steps of the monad (`holds_pure`, `holds_throw`, `holds_bind`).
2. What an expression does to the chain is left to the coupling: `C.Supports` for each of its
   accesses. So is the limit on templates, by `C.Fits`, and what the data are made of, by `C.item`:
   it goes down to the elements of a datum and up again from all of them.
3. With that, templates (`fill_holds`), the built-in forms and one step of the evaluator
   (`evalWithin_succ_holds`) keep the coupling wherever the evaluator one level further in keeps it.
   `evalWithin_holds` is the induction on the levels for two runs under one limit.
-/

namespace SchemeCore

/-- A fault that an expression runs into by its own shape or by the values of its operands. -/
def Fault.OfShape : Fault → Prop
  | operands _ _ | outsideTemplate _ | assignTarget _ | spliceAlone | spliceNotList _
  | notAForm _ => True
  | name _ | notADatum _ | tooDeep _ | templateTooDeep _ | declared _ => False

/-- What two runs have in common. A stop of the first run that is excused in the store that it
leaves takes all obligations from the second. -/
structure Coupling where
  store : Store → Store → Prop
  item : Item → Prop
  stop : Stop → Stop → Prop
  excused : Stop → Store → Prop
  item_symbol : ∀ name, item (.datum (.symbol name))
  item_items : ∀ d ds, d.items? = some ds → (item (.datum d) ↔ ∀ x ∈ ds, item (.datum x))
  stop_fault : ∀ f, f.OfShape → (∀ v ∈ f.subject?, item v) → stop (.fault f) (.fault f)
  stop_unmade : ∀ kind v, item v → (∀ d, v ≠ .datum d) →
    stop (.unmade (.content kind v)) (.unmade (.content kind v))

namespace Coupling

variable {α β : Type} (C : Coupling)

/-- The ends of two coupled runs. -/
inductive Ends (P : α → Prop) : Except Stop α × Store → Except Stop α × Store → Prop where
  | value {a : α} {t₁ t₂ : Store} (ha : P a) (ht : C.store t₁ t₂) : Ends P (.ok a, t₁) (.ok a, t₂)
  | stop {e₁ e₂ : Stop} {t₁ t₂ : Store} (he : C.stop e₁ e₂) (ht : C.store t₁ t₂) :
      Ends P (.error e₁, t₁) (.error e₂, t₂)
  | excused {e : Stop} {t : Store} {r : Except Stop α × Store} (he : C.excused e t) :
      Ends P (.error e, t) r

/-- Two computations keep the coupling. -/
def Holds (P : α → Prop) (m₁ m₂ : Eval α) : Prop :=
  ∀ s₁ s₂, C.store s₁ s₂ → C.Ends P (m₁.exec s₁) (m₂.exec s₂)

/-- The coupling withstands an access to the chain. -/
def Supports : Access → Prop
  | .read name => C.Holds C.item (Eval.lookup name) (Eval.lookup name)
  | .define target => C.item (.datum target) → ∀ v, C.item v →
      C.Holds (fun _ => True) (Eval.define target v) (Eval.define target v)
  | .assign name => ∀ v, C.item v →
      C.Holds (fun _ => True) (Eval.assign name v) (Eval.assign name v)

/-- The coupling withstands that each run asks for its limit, which may put warnings on record. -/
def Records (settings₁ settings₂ : Settings) : Prop :=
  ∀ s₁ s₂, C.store s₁ s₂ → C.store { s₁ with log := s₁.log ++ settings₁.records }
    { s₂ with log := s₂.log ++ settings₂.records }

/-- The coupling withstands the check of a template's nesting `n` against the two limits. -/
structure Fits (limit₁ limit₂ n : Int) : Prop where
  beyond : limit₁ < n → (∀ t, C.excused (.fault (.templateTooDeep limit₁)) t) ∨
    limit₂ < n ∧ C.stop (.fault (.templateTooDeep limit₁)) (.fault (.templateTooDeep limit₂))
  within : n ≤ limit₁ → n ≤ limit₂

/-- What all items have in common passes to the elements of a datum and back. -/
theorem item_items_true (ds : List Datum) : True ↔ ∀ x ∈ ds, True :=
  ⟨fun _ _ _ => True.intro, fun _ => True.intro⟩

/-- Runs that leave related stores and otherwise come to the same. -/
def ofStores (R : Store → Store → Prop) : Coupling where
  store := R
  item _ := True
  stop := Eq
  excused _ _ := False
  item_symbol _ := True.intro
  item_items _ ds _ := item_items_true ds
  stop_fault _ _ _ := rfl
  stop_unmade _ _ _ _ := rfl

theorem ends_ofStores {R : Store → Store → Prop} {P : α → Prop} {r₁ r₂ : Except Stop α × Store}
    (h : (ofStores R).Ends P r₁ r₂) : r₁.1 = r₂.1 ∧ R r₁.2 r₂.2 := by
  cases h with
  | value _ ht => exact ⟨rfl, ht⟩
  | stop he ht => exact ⟨congrArg Except.error he, ht⟩
  | excused he => exact False.elim he

variable {C}

theorem item_list {ds : List Datum} : C.item (.datum (.list ds)) ↔ ∀ d ∈ ds, C.item (.datum d) :=
  C.item_items _ ds rfl

theorem item_vector {ds : List Datum} :
    C.item (.datum (.vector ds)) ↔ ∀ d ∈ ds, C.item (.datum d) :=
  C.item_items _ ds rfl

theorem item_nil : C.item (.datum .nil) := item_list.2 (by simp)

theorem fits_self {limit n : Int}
    (h : C.stop (.fault (.templateTooDeep limit)) (.fault (.templateTooDeep limit))) :
    C.Fits limit limit n :=
  ⟨fun hn => .inr ⟨hn, h⟩, id⟩

/-- Runs in equal chains, which stay equal when both are changed in the same way, keep together at
each access. -/
theorem supports_of_chain (hitem : ∀ v, C.item v)
    (hchain : ∀ s₁ s₂, C.store s₁ s₂ → s₁.chain = s₂.chain)
    (hwrite : ∀ s₁ s₂ w c, C.store s₁ s₂ → C.store (s₁.wrote w c) (s₂.wrote w c))
    (hstop : ∀ e, C.stop (.fault (.name e)) (.fault (.name e))) (a : Access) : C.Supports a := by
  cases a with
  | read name =>
    intro s₁ s₂ hs
    rw [Eval.exec_lookup, Eval.exec_lookup, ← hchain s₁ s₂ hs]
    cases s₁.chain.lookup name with
    | some v => exact .value (hitem v) hs
    | none => exact .stop (hstop _) hs
  | define target =>
    intro _ v _ s₁ s₂ hs
    rw [Eval.exec_define, Eval.exec_define, ← hchain s₁ s₂ hs]
    cases s₁.chain.bindItem (.datum target) v with
    | ok c => exact .value True.intro (hwrite s₁ s₂ _ c hs)
    | error e => exact .stop (hstop e) hs
  | assign name =>
    intro v _ s₁ s₂ hs
    rw [Eval.exec_assign, Eval.exec_assign, ← hchain s₁ s₂ hs]
    cases s₁.chain.assign name v with
    | some c => exact .value True.intro (hwrite s₁ s₂ _ c hs)
    | none => exact .stop (hstop _) hs

/-! ## Steps of the monad -/

section Monad

variable {P : α → Prop} {Q : β → Prop} {m₁ m₂ : Eval α}

theorem holds_pure {a : α} (ha : P a) : C.Holds P (pure a) (pure a) := by
  intro s₁ s₂ hs
  rw [Eval.exec_pure, Eval.exec_pure]
  exact .value ha hs

theorem holds_throw {e₁ e₂ : Stop} (he : C.stop e₁ e₂) :
    C.Holds P (throw e₁ : Eval α) (throw e₂) := by
  intro s₁ s₂ hs
  rw [Eval.exec_throw, Eval.exec_throw]
  exact .stop he hs

theorem holds_excused {e : Stop} (he : ∀ t, C.excused e t) :
    C.Holds P (throw e : Eval α) m₂ := by
  intro s₁ s₂ _
  rw [Eval.exec_throw]
  exact .excused (he s₁)

theorem holds_fail {f : Fault} (hf : f.OfShape) (hv : ∀ v ∈ f.subject?, C.item v) :
    C.Holds P (Eval.fail f : Eval α) (Eval.fail f) :=
  holds_throw (C.stop_fault f hf hv)

/-- The wording of the fault shows no item. -/
theorem holds_fail_plain {f : Fault} (hf : f.OfShape) (hv : f.subject? = none) :
    C.Holds P (Eval.fail f : Eval α) (Eval.fail f) :=
  holds_fail hf (by simp [hv])

theorem holds_bind {f₁ f₂ : α → Eval β} (hm : C.Holds P m₁ m₂)
    (hf : ∀ a, P a → C.Holds Q (f₁ a) (f₂ a)) : C.Holds Q (m₁ >>= f₁) (m₂ >>= f₂) := by
  intro s₁ s₂ hs
  rw [Eval.exec_bind, Eval.exec_bind]
  have h := hm s₁ s₂ hs
  generalize m₁.exec s₁ = r₁, m₂.exec s₂ = r₂ at h ⊢
  cases h with
  | value ha ht => exact hf _ ha _ _ ht
  | stop he ht => exact .stop he ht
  | excused he => exact .excused he

theorem holds_map {f : α → β} (hm : C.Holds P m₁ m₂) (hf : ∀ a, P a → Q (f a)) :
    C.Holds Q (f <$> m₁) (f <$> m₂) := by
  rw [map_eq_pure_bind, map_eq_pure_bind]
  exact holds_bind hm fun a ha => holds_pure (hf a ha)

/-- A list of computations in order, each of which may look at the value before. -/
theorem holds_foldlM {f₁ f₂ : α → β → Eval α} {bs : List β} {a : α} (ha : P a)
    (hf : ∀ b ∈ bs, ∀ a, P a → C.Holds P (f₁ a b) (f₂ a b)) :
    C.Holds P (bs.foldlM f₁ a) (bs.foldlM f₂ a) := by
  induction bs generalizing a with
  | nil => exact holds_pure ha
  | cons b bs ih =>
    rw [List.foldlM_cons, List.foldlM_cons]
    apply holds_bind (hf b List.mem_cons_self a ha)
    intro a' ha'
    exact ih ha' fun b' hb' => hf b' (List.mem_cons_of_mem b hb')

theorem holds_askDepth {settings₁ settings₂ : Settings} {f₁ f₂ : Int → Eval β}
    (hlog : C.Records settings₁ settings₂)
    (hf : C.Holds Q (f₁ settings₁.maxDepth) (f₂ settings₂.maxDepth)) :
    C.Holds Q (Eval.askDepth settings₁ >>= f₁) (Eval.askDepth settings₂ >>= f₂) := by
  intro s₁ s₂ hs
  rw [Eval.exec_bind, Eval.exec_bind, Eval.exec_askDepth, Eval.exec_askDepth]
  exact hf _ _ (hlog s₁ s₂ hs)

theorem holds_check {limit₁ limit₂ n : Int} (hn : C.Fits limit₁ limit₂ n) (hm : C.Holds P m₁ m₂) :
    C.Holds P (if limit₁ < n then Eval.fail (.templateTooDeep limit₁) else m₁)
      (if limit₂ < n then Eval.fail (.templateTooDeep limit₂) else m₂) := by
  by_cases h₁ : limit₁ < n
  · rw [if_pos h₁]
    rcases hn.beyond h₁ with he | ⟨h₂, he⟩
    · exact holds_excused he
    · rw [if_pos h₂]
      exact holds_throw he
  · have h₂ := hn.within (Int.not_lt.1 h₁)
    rw [if_neg h₁, if_neg (Int.not_lt.2 h₂)]
    exact hm

end Monad

/-! ## Templates -/

section Templates

variable {eval₁ eval₂ : Evaluator} {limit₁ limit₂ : Int}

theorem holds_made {kind : Kind} {make : List Datum → Datum} {vs : List Item}
    (hmake : ∀ ds, (make ds).items? = some ds) (hv : ∀ v ∈ vs, C.item v) :
    C.Holds C.item (Eval.made (((Datum.ofItems vs).map make).mapError (.content kind)))
      (Eval.made (((Datum.ofItems vs).map make).mapError (.content kind))) := by
  cases hd : Datum.ofItems vs with
  | ok ds =>
    rw [Datum.eq_map_of_ofItems hd, List.forall_mem_map] at hv
    exact holds_pure ((C.item_items _ ds (hmake ds)).2 hv)
  | error v =>
    obtain ⟨hmem, hne⟩ := Datum.of_ofItems_error hd
    exact holds_throw (C.stop_unmade kind v (hv v hmem) hne)

theorem holds_marked {mark : Mark} {m₁ m₂ : Eval Item} (hm : C.Holds C.item m₁ m₂) :
    C.Holds C.item (m₁ >>= Template.marked mark) (m₂ >>= Template.marked mark) := by
  apply holds_bind hm
  intro v hv
  apply holds_made fun _ => rfl
  simp [hv, C.item_symbol]

theorem holds_spliced {v : Item} (hv : C.item v) :
    C.Holds (fun vs => ∀ v ∈ vs, C.item v) (Template.spliced v) (Template.spliced v) := by
  unfold Template.spliced
  split
  · apply holds_pure
    rw [List.forall_mem_map]
    exact item_list.1 hv
  · exact holds_fail True.intro (by simpa [Fault.subject?] using hv)

theorem contribution_holds {item : Datum} {level nesting : Int} (hd : C.item (.datum item))
    (hitem : (∀ a ∈ Datum.templateAccesses level item, C.Supports a) →
      C.Holds C.item (Template.fill eval₁ limit₁ level (nesting + 1) item)
        (Template.fill eval₂ limit₂ level (nesting + 1) item))
    (ha : ∀ a ∈ Datum.itemAccesses level [item], C.Supports a)
    (heval : ∀ e, e.height < item.height → C.item (.datum e) → (∀ a ∈ e.accesses, C.Supports a) →
      C.Holds C.item (eval₁ e) (eval₂ e)) :
    C.Holds (fun vs => ∀ v ∈ vs, C.item v) (Template.contribution eval₁ limit₁ level nesting item)
      (Template.contribution eval₂ limit₂ level nesting item) := by
  have hsingle : (∀ a ∈ Datum.templateAccesses level item, C.Supports a) →
      C.Holds (fun vs => ∀ v ∈ vs, C.item v)
        ((fun v => [v]) <$> Template.fill eval₁ limit₁ level (nesting + 1) item)
        ((fun v => [v]) <$> Template.fill eval₂ limit₂ level (nesting + 1) item) := by
    intro ha
    apply holds_map (hitem ha)
    simp
  rw [Datum.itemAccesses_cons, Datum.itemAccesses, List.append_nil] at ha
  unfold Template.contribution
  cases hs : Template.splice? item with
  | none =>
    rw [hs] at ha
    exact hsingle ha
  | some operand =>
    rw [hs] at ha
    dsimp only at ha ⊢
    by_cases hl : level = 1
    · rw [if_pos hl] at ha
      rw [if_pos hl, if_pos hl]
      obtain ⟨head, rfl, -⟩ := Template.eq_of_splice? hs
      have hoperand : operand ∈ [.symbol head, operand] := by simp
      exact holds_bind (heval operand (Datum.height_lt_of_mem hoperand)
        (item_list.1 hd operand hoperand) ha) fun v hv => holds_spliced hv
    · rw [if_neg hl] at ha
      rw [if_neg hl, if_neg hl]
      exact hsingle ha

theorem fillItems_holds {items : List Datum} {level nesting : Int}
    (hd : ∀ item ∈ items, C.item (.datum item))
    (hitem : ∀ item ∈ items, (∀ a ∈ Datum.templateAccesses level item, C.Supports a) →
      C.Holds C.item (Template.fill eval₁ limit₁ level (nesting + 1) item)
        (Template.fill eval₂ limit₂ level (nesting + 1) item))
    (ha : ∀ a ∈ Datum.itemAccesses level items, C.Supports a)
    (heval : ∀ e, e.height < Datum.heightItems items → C.item (.datum e) →
      (∀ a ∈ e.accesses, C.Supports a) → C.Holds C.item (eval₁ e) (eval₂ e)) :
    C.Holds (fun vs => ∀ v ∈ vs, C.item v) (Template.fillItems eval₁ limit₁ level nesting items)
      (Template.fillItems eval₂ limit₂ level nesting items) := by
  induction items with
  | nil =>
    rw [Template.fillItems, Template.fillItems]
    exact holds_pure (by simp)
  | cons item items ih =>
    rw [Datum.itemAccesses_cons] at ha
    rw [Template.fillItems_cons, Template.fillItems_cons]
    have hheight : item.height < Datum.heightItems (item :: items) :=
      Datum.height_lt_of_mem List.mem_cons_self
    have hfirst : ∀ a ∈ Datum.itemAccesses level [item], C.Supports a := by
      rw [Datum.itemAccesses_cons, Datum.itemAccesses, List.append_nil]
      exact fun a hmem => ha a (List.mem_append_left _ hmem)
    obtain ⟨hhead, htail⟩ := List.forall_mem_cons.1 hd
    apply holds_bind (contribution_holds hhead (hitem item List.mem_cons_self) hfirst
      fun e he => heval e (Nat.lt_trans he hheight))
    intro first hfirst
    have hothers := ih htail (fun item' hmem => hitem item' (List.mem_cons_of_mem _ hmem))
      (fun a hmem => ha a (List.mem_append_right _ hmem)) fun e he =>
        heval e (Nat.lt_of_lt_of_le he (Nat.le_max_right _ _))
    apply holds_map hothers
    intro others hothers v hv
    rcases List.mem_append.1 hv with hv | hv
    · exact hfirst v hv
    · exact hothers v hv

theorem fits_here {height : Nat} {nesting : Int}
    (hf : ∀ n : Nat, n ≤ height → C.Fits limit₁ limit₂ (nesting + n)) :
    C.Fits limit₁ limit₂ nesting := by
  have h := hf 0 (Nat.zero_le _)
  rwa [show nesting + (0 : Nat) = nesting by omega] at h

theorem fits_inside {item : Datum} {items : List Datum} {nesting : Int} (hmem : item ∈ items)
    (hf : ∀ n : Nat, n ≤ Datum.heightItems items → C.Fits limit₁ limit₂ (nesting + n)) :
    ∀ n : Nat, n ≤ item.height → C.Fits limit₁ limit₂ (nesting + 1 + n) := by
  intro n hn
  have hlt := Datum.height_lt_of_mem hmem
  have h := hf (n + 1) (by omega)
  rwa [show nesting + (n + 1 : Nat) = nesting + 1 + n by omega] at h

/-- Templates keep a coupling that the evaluator keeps at their evaluated positions. The induction
is over the template; the level and the nesting change on the way in. -/
theorem fill_holds {d : Datum} {level nesting : Int} (hd : C.item (.datum d))
    (ha : ∀ a ∈ Datum.templateAccesses level d, C.Supports a)
    (hf : ∀ n : Nat, n ≤ d.height → C.Fits limit₁ limit₂ (nesting + n))
    (heval : ∀ e, e.height < d.height → C.item (.datum e) → (∀ a ∈ e.accesses, C.Supports a) →
      C.Holds C.item (eval₁ e) (eval₂ e)) :
    C.Holds C.item (Template.fill eval₁ limit₁ level nesting d)
      (Template.fill eval₂ limit₂ level nesting d) := by
  induction level, d using Template.induction generalizing nesting with
  | atom level d hatom =>
    rw [Template.fill_atom _ _ hatom, Template.fill_atom _ _ hatom]
    exact holds_check (fits_here hf) (holds_pure hd)
  | vector level items ih =>
    have hitems := item_vector.1 hd
    rw [Datum.templateAccesses] at ha
    rw [Template.fill, Template.fill]
    exact holds_check (fits_here hf)
      (holds_bind (fillItems_holds hitems (fun item hmem ha' =>
        ih item hmem (hitems item hmem) ha' (fits_inside hmem hf) fun e he =>
          heval e (Nat.lt_trans he (Datum.height_lt_of_mem hmem))) ha heval) fun vs hvs =>
        holds_made (fun _ => rfl) hvs)
  | list level items hmark ih =>
    have hitems := item_list.1 hd
    rw [Datum.templateAccesses_list hmark] at ha
    rw [Template.fill_list _ _ hmark, Template.fill_list _ _ hmark]
    exact holds_check (fits_here hf)
      (holds_bind (fillItems_holds hitems (fun item hmem ha' =>
        ih item hmem (hitems item hmem) ha' (fits_inside hmem hf) fun e he =>
          heval e (Nat.lt_trans he (Datum.height_lt_of_mem hmem))) ha heval) fun vs hvs =>
        holds_made (fun _ => rfl) hvs)
  | evaluated operand =>
    have hmem : operand ∈ [.symbol Mark.unquote.name, operand] := by simp
    rw [Datum.templateAccesses_unquote] at ha
    rw [Template.fill_unquote, Template.fill_unquote]
    exact holds_check (fits_here hf)
      (heval operand (Datum.height_lt_of_mem hmem) (item_list.1 hd operand hmem) ha)
  | stray operand =>
    rw [Template.fill_stray, Template.fill_stray]
    exact holds_check (fits_here hf) (holds_fail_plain True.intro rfl)
  | marked level level' mark operand hinner ih =>
    have hmem : operand ∈ [.symbol mark.name, operand] := by simp
    rw [Datum.templateAccesses_marked hinner] at ha
    rw [Template.fill_marked _ _ hinner, Template.fill_marked _ _ hinner]
    exact holds_check (fits_here hf)
      (holds_marked (ih (item_list.1 hd operand hmem) ha (fits_inside hmem hf) fun e he =>
        heval e (Nat.lt_trans he (Datum.height_lt_of_mem hmem))))

end Templates

/-! ## Forms -/

section Forms

variable {settings₁ settings₂ : Settings} {eval₁ eval₂ : Evaluator} {operands : List Datum}

theorem conditional_holds (h : ∀ e ∈ operands, C.Holds C.item (eval₁ e) (eval₂ e)) :
    C.Holds C.item (Form.conditional settings₁ operands eval₁)
      (Form.conditional settings₂ operands eval₂) := by
  unfold Form.conditional
  rcases operands with _ | ⟨test, _ | ⟨consequent, _ | ⟨alternative, _ | ⟨_, _⟩⟩⟩⟩
  · exact holds_fail_plain True.intro rfl
  · exact holds_fail_plain True.intro rfl
  · refine holds_bind (h test (by simp)) fun v _ => ?_
    by_cases hv : v = .datum (.boolean false)
    · rw [if_pos hv, if_pos hv]
      exact holds_pure item_nil
    · rw [if_neg hv, if_neg hv]
      exact h consequent (by simp)
  · refine holds_bind (h test (by simp)) fun v _ => ?_
    by_cases hv : v = .datum (.boolean false)
    · rw [if_pos hv, if_pos hv]
      exact h alternative (by simp)
    · rw [if_neg hv, if_neg hv]
      exact h consequent (by simp)
  · exact holds_fail_plain True.intro rfl

theorem begin_holds (h : ∀ e ∈ operands, C.Holds C.item (eval₁ e) (eval₂ e)) :
    C.Holds C.item (Form.begin settings₁ operands eval₁) (Form.begin settings₂ operands eval₂) :=
  holds_foldlM item_nil fun e he _ _ => h e he

theorem define_holds (hd : ∀ e ∈ operands, C.item (.datum e))
    (h : ∀ target expr, operands = [target, expr] →
      C.Supports (.define target) ∧ C.Holds C.item (eval₁ expr) (eval₂ expr)) :
    C.Holds C.item (Form.define settings₁ operands eval₁)
      (Form.define settings₂ operands eval₂) := by
  unfold Form.define
  rcases operands with _ | ⟨target, _ | ⟨expr, _ | ⟨_, _⟩⟩⟩
  · exact holds_fail_plain True.intro rfl
  · exact holds_fail_plain True.intro rfl
  · obtain ⟨htarget, hexpr⟩ := h target expr rfl
    have hitem := hd target (by simp)
    refine holds_bind hexpr fun v hv => holds_bind (htarget hitem v hv) fun _ _ => ?_
    exact holds_pure hitem
  · exact holds_fail_plain True.intro rfl

theorem assign_holds (hd : ∀ e ∈ operands, C.item (.datum e))
    (h : ∀ name expr, operands = [.symbol name, expr] →
      C.Supports (.assign name) ∧ C.Holds C.item (eval₁ expr) (eval₂ expr)) :
    C.Holds C.item (Form.assign settings₁ operands eval₁)
      (Form.assign settings₂ operands eval₂) := by
  unfold Form.assign
  rcases operands with _ | ⟨target, _ | ⟨expr, _ | ⟨_, _⟩⟩⟩
  · exact holds_fail_plain True.intro rfl
  · cases target <;> exact holds_fail_plain True.intro rfl
  · cases target with
    | symbol name =>
      obtain ⟨hname, hexpr⟩ := h name expr rfl
      exact holds_bind hexpr fun v hv => holds_bind (hname v hv) fun _ _ => holds_pure hv
    | integer | string | boolean | char | list | vector =>
      exact holds_fail True.intro (by simpa [Fault.subject?] using hd _ List.mem_cons_self)
  · cases target <;> exact holds_fail_plain True.intro rfl

theorem quote_holds (hd : ∀ e ∈ operands, C.item (.datum e)) :
    C.Holds C.item (Form.quote settings₁ operands eval₁) (Form.quote settings₂ operands eval₂) := by
  unfold Form.quote
  rcases operands with _ | ⟨datum, _ | ⟨_, _⟩⟩
  · exact holds_fail_plain True.intro rfl
  · exact holds_pure (hd datum (by simp))
  · exact holds_fail_plain True.intro rfl

theorem quasiquote_holds (hd : ∀ e ∈ operands, C.item (.datum e))
    (hlog : C.Records settings₁ settings₂)
    (h : ∀ template, operands = [template] →
      (∀ a ∈ Datum.templateAccesses 1 template, C.Supports a) ∧
      (∀ n : Nat, n ≤ template.height → C.Fits settings₁.maxDepth settings₂.maxDepth n) ∧
      ∀ e, e.height < template.height → C.item (.datum e) → (∀ a ∈ e.accesses, C.Supports a) →
        C.Holds C.item (eval₁ e) (eval₂ e)) :
    C.Holds C.item (Form.quasiquote settings₁ operands eval₁)
      (Form.quasiquote settings₂ operands eval₂) := by
  unfold Form.quasiquote
  rcases operands with _ | ⟨template, _ | ⟨_, _⟩⟩
  · exact holds_fail_plain True.intro rfl
  · obtain ⟨ha, hf, heval⟩ := h template rfl
    refine holds_askDepth hlog (fill_holds (hd template (by simp)) ha (fun n hn => ?_) heval)
    rw [Int.zero_add]
    exact hf n hn
  · exact holds_fail_plain True.intro rfl

/-- The built-in forms keep a coupling that the evaluator keeps at the evaluated operands. -/
theorem builtin_holds {head : String} {form : Form} (hform : Forms.builtin head = some form)
    (hd : ∀ e ∈ operands, C.item (.datum e))
    (ha : ∀ a ∈ Datum.accesses (.list (.symbol head :: operands)), C.Supports a)
    (hlog : C.Records settings₁ settings₂)
    (hf : ∀ n : Nat, n < Datum.height (.list (.symbol head :: operands)) →
      C.Fits settings₁.maxDepth settings₂.maxDepth n)
    (heval : ∀ e, e.height < Datum.height (.list (.symbol head :: operands)) →
      C.item (.datum e) → (∀ a ∈ e.accesses, C.Supports a) →
        C.Holds C.item (eval₁ e) (eval₂ e)) :
    C.Holds C.item (form settings₁ operands eval₁) (form settings₂ operands eval₂) := by
  have hlt : ∀ e ∈ operands, e.height < Datum.height (.list (.symbol head :: operands)) :=
    fun e he => Datum.height_lt_of_mem (List.mem_cons_of_mem _ he)
  unfold Forms.builtin at hform
  split at hform
  · cases hform
    exact quote_holds hd
  · cases hform
    refine quasiquote_holds hd hlog ?_
    rintro template rfl
    have hheight := hlt template (by simp)
    rw [Datum.accesses_quasiquote] at ha
    exact ⟨ha, fun n hn => hf n (by omega), fun e he => heval e (by omega)⟩
  · cases hform
    exact holds_fail_plain True.intro rfl
  · cases hform
    exact holds_fail_plain True.intro rfl
  · cases hform
    rw [Datum.accesses_if] at ha
    exact conditional_holds fun e he => heval e (hlt e he) (hd e he) fun a hmem =>
      ha a (Datum.mem_allAccesses_of_mem he hmem)
  · cases hform
    refine define_holds hd ?_
    rintro target expr rfl
    rw [Datum.accesses_define, List.forall_mem_cons] at ha
    exact ⟨ha.1, heval expr (hlt expr (by simp)) (hd expr (by simp)) ha.2⟩
  · cases hform
    refine assign_holds hd ?_
    rintro name expr rfl
    rw [Datum.accesses_assign, List.forall_mem_cons] at ha
    exact ⟨ha.1, heval expr (hlt expr (by simp)) (hd expr (by simp)) ha.2⟩
  · cases hform
    rw [Datum.accesses_begin] at ha
    exact begin_holds fun e he => heval e (hlt e he) (hd e he) fun a hmem =>
      ha a (Datum.mem_allAccesses_of_mem he hmem)
  · cases hform

/-- One step of the evaluator keeps a coupling that the forms at the head keep. The two runs may
have different tables, which know the same names. -/
theorem evalWithin_step_holds {forms₁ forms₂ : Forms} {limit₁ limit₂ : Int} {levels₁ levels₂ : Nat}
    {expr : Datum} (hd : C.item (.datum expr))
    (hread : ∀ name, expr = .symbol name → C.Supports (.read name))
    (hform : ∀ head operands, expr = .list (.symbol head :: operands) →
      Option.Rel (fun form₁ form₂ => C.Holds C.item
        (form₁ settings₁ operands (Context.evalWithin ⟨settings₁, forms₁⟩ limit₁ levels₁))
        (form₂ settings₂ operands (Context.evalWithin ⟨settings₂, forms₂⟩ limit₂ levels₂)))
        (forms₁ head) (forms₂ head)) :
    C.Holds C.item (Context.evalWithin ⟨settings₁, forms₁⟩ limit₁ (levels₁ + 1) expr)
      (Context.evalWithin ⟨settings₂, forms₂⟩ limit₂ (levels₂ + 1) expr) := by
  have hnone : C.Holds C.item (Eval.fail (.notAForm expr) : Eval Item)
      (Eval.fail (.notAForm expr)) :=
    holds_fail True.intro (by simpa [Fault.subject?] using hd)
  rcases expr with name | value | text | value | value | items | items
  · exact hread name rfl
  · exact holds_pure hd
  · exact holds_pure hd
  · exact holds_pure hd
  · exact holds_pure hd
  · rcases items with _ | ⟨head, operands⟩
    · exact holds_pure hd
    · rcases head with head | _ | _ | _ | _ | _ | _
      · unfold Context.evalWithin
        dsimp only
        have hrel := hform head operands rfl
        generalize forms₁ head = form₁?, forms₂ head = form₂? at hrel ⊢
        cases hrel with
        | none => exact hnone
        | some hholds => exact hholds
      all_goals exact hnone
  · exact holds_pure hd

/-- One step of the evaluator keeps a coupling that the steps further in keep. -/
theorem evalWithin_succ_holds {limit₁ limit₂ : Int} {levels₁ levels₂ : Nat} {expr : Datum}
    (hd : C.item (.datum expr))
    (ha : ∀ a ∈ expr.accesses, C.Supports a)
    (hlog : C.Records settings₁ settings₂)
    (hf : ∀ n : Nat, n < expr.height → C.Fits settings₁.maxDepth settings₂.maxDepth n)
    (heval : ∀ e, e.height < expr.height → C.item (.datum e) → (∀ a ∈ e.accesses, C.Supports a) →
      C.Holds C.item (Context.evalWithin ⟨settings₁, Forms.builtin⟩ limit₁ levels₁ e)
        (Context.evalWithin ⟨settings₂, Forms.builtin⟩ limit₂ levels₂ e)) :
    C.Holds C.item (Context.evalWithin ⟨settings₁, Forms.builtin⟩ limit₁ (levels₁ + 1) expr)
      (Context.evalWithin ⟨settings₂, Forms.builtin⟩ limit₂ (levels₂ + 1) expr) := by
  apply evalWithin_step_holds hd
  · rintro name rfl
    exact ha (.read name) (by simp [Datum.accesses])
  · rintro head operands rfl
    cases hform : Forms.builtin head with
    | none => exact .none
    | some form =>
      have hoperands : ∀ e ∈ operands, C.item (.datum e) :=
        (List.forall_mem_cons.1 (item_list.1 hd)).2
      exact .some (builtin_holds hform hoperands ha hlog hf heval)

/-- A run under one limit keeps a coupling that withstands the accesses of the expression, wherever
the levels end. -/
theorem evalWithin_holds {settings : Settings} {limit : Int} {levels : Nat} {expr : Datum}
    (hd : C.item (.datum expr))
    (ha : ∀ a ∈ expr.accesses, C.Supports a) (hlog : C.Records settings settings)
    (hdeep : C.stop (.fault (.tooDeep limit)) (.fault (.tooDeep limit)))
    (htemplate : C.stop (.fault (.templateTooDeep settings.maxDepth))
      (.fault (.templateTooDeep settings.maxDepth))) :
    C.Holds C.item (Context.evalWithin ⟨settings, Forms.builtin⟩ limit levels expr)
      (Context.evalWithin ⟨settings, Forms.builtin⟩ limit levels expr) := by
  induction levels generalizing expr with
  | zero =>
    unfold Context.evalWithin
    exact holds_throw hdeep
  | succ levels ih =>
    exact evalWithin_succ_holds hd ha hlog (fun n _ => fits_self htemplate) fun _ _ hd' ha' =>
      ih hd' ha'

end Forms

end Coupling

end SchemeCore
