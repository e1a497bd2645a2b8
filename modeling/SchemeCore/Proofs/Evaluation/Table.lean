import SchemeCore.Proofs.Evaluation.Coupling
import Mathlib.Data.List.Forall2

/-!
# Tables of forms

Two runs may look their forms up in different tables. They keep a coupling wherever the tables admit
it: both know the same names, and the forms under one name keep the coupling if the evaluators of
their operands do (`C.Admits`). The built-in forms admit every coupling that withstands all
accesses. Forms that stop admit it where it couples their stops, and these may stand under any
names.
-/

namespace SchemeCore

/-- The built-in forms, and forms that stop under some names, which they may have taken over. -/
def Forms.stoppingAt (stops : List (String × Stop)) : Forms :=
  stops.foldl (fun forms entry => forms.install entry.1 (.stopping entry.2)) builtin

/-- Entries under the same names that are related, put into related tables. -/
theorem rel_installAll {α β γ δ : Type} {R : α → β → Prop} {table₁ : String → Option α}
    {table₂ : String → Option β} {make₁ : γ → α} {make₂ : δ → β} {entries₁ : List (String × γ)}
    {entries₂ : List (String × δ)} (h : ∀ name, Option.Rel R (table₁ name) (table₂ name))
    (hentries : List.Forall₂ (fun a b => a.1 = b.1 ∧ R (make₁ a.2) (make₂ b.2)) entries₁ entries₂)
    (name : String) : Option.Rel R
      (entries₁.foldl (fun table e n => if n = e.1 then some (make₁ e.2) else table n) table₁ name)
      (entries₂.foldl (fun table e n => if n = e.1 then some (make₂ e.2) else table n) table₂
        name) := by
  induction hentries generalizing table₁ table₂ with
  | nil => exact h name
  | @cons a b _ _ hab _ ih =>
    obtain ⟨hname, hmake⟩ := hab
    apply ih
    intro n
    dsimp only
    rw [hname]
    by_cases hn : n = b.1
    · rw [if_pos hn, if_pos hn]
      exact .some hmake
    · rw [if_neg hn, if_neg hn]
      exact h n

namespace Coupling

variable {C : Coupling} {settings : Settings} {forms₁ forms₂ : Forms}

/-- Two forms keep a coupling that the evaluators of their operands keep. -/
def AdmitsForm (C : Coupling) (settings : Settings) (form₁ form₂ : Form) : Prop :=
  ∀ operands eval₁ eval₂, (∀ e ∈ operands, C.item (.datum e)) →
    (∀ e, C.item (.datum e) → C.Holds C.item (eval₁ e) (eval₂ e)) →
      C.Holds C.item (form₁ settings operands eval₁) (form₂ settings operands eval₂)

/-- Two tables know the same names, and their forms under each of them keep the coupling. -/
def Admits (C : Coupling) (settings : Settings) (forms₁ forms₂ : Forms) : Prop :=
  ∀ name, Option.Rel (C.AdmitsForm settings) (forms₁ name) (forms₂ name)

theorem admitsForm_builtin {name : String} {form : Form} (hform : Forms.builtin name = some form)
    (ha : ∀ a, C.Supports a) (hlog : C.Records settings settings)
    (hdeep : ∀ limit, C.stop (.fault (.templateTooDeep limit)) (.fault (.templateTooDeep limit))) :
    C.AdmitsForm settings form form := fun _ _ _ hd heval =>
  builtin_holds hform hd (fun a _ => ha a) hlog (fun _ _ => fits_self (hdeep _))
    fun e _ hd _ => heval e hd

theorem admitsForm_stopping {stop₁ stop₂ : Stop} (hstop : C.stop stop₁ stop₂) :
    C.AdmitsForm settings (.stopping stop₁) (.stopping stop₂) := fun _ _ _ _ _ => holds_throw hstop

theorem admits_builtin (ha : ∀ a, C.Supports a) (hlog : C.Records settings settings)
    (hdeep : ∀ limit, C.stop (.fault (.templateTooDeep limit)) (.fault (.templateTooDeep limit))) :
    C.Admits settings Forms.builtin Forms.builtin := by
  intro name
  cases hform : Forms.builtin name with
  | none => exact .none
  | some form => exact .some (admitsForm_builtin hform ha hlog hdeep)

theorem Admits.stoppingAt (h : C.Admits settings Forms.builtin Forms.builtin)
    {stops₁ stops₂ : List (String × Stop)}
    (hstops : List.Forall₂ (fun a b => a.1 = b.1 ∧ C.stop a.2 b.2) stops₁ stops₂) :
    C.Admits settings (Forms.stoppingAt stops₁) (Forms.stoppingAt stops₂) :=
  rel_installAll h (hstops.imp fun _ _ hab => ⟨hab.1, admitsForm_stopping hab.2⟩)

/-- The evaluator keeps what its tables admit, wherever the levels end. -/
theorem Admits.evalWithin (h : C.Admits settings forms₁ forms₂)
    (hread : ∀ name, C.Supports (.read name)) {limit : Int}
    (hdeep : C.stop (.fault (.tooDeep limit)) (.fault (.tooDeep limit))) (levels : Nat) {e : Datum}
    (hd : C.item (.datum e)) : C.Holds C.item (Context.evalWithin ⟨settings, forms₁⟩ limit levels e)
      (Context.evalWithin ⟨settings, forms₂⟩ limit levels e) := by
  induction levels generalizing e with
  | zero =>
    unfold Context.evalWithin
    exact holds_throw hdeep
  | succ levels ih =>
    apply evalWithin_step_holds hd fun name _ => hread name
    rintro head operands rfl
    have hoperands : ∀ e ∈ operands, C.item (.datum e) :=
      (List.forall_mem_cons.1 (item_list.1 hd)).2
    have hrel := h head
    generalize forms₁ head = form₁?, forms₂ head = form₂? at hrel ⊢
    cases hrel with
    | none => exact .none
    | some hform => exact .some (hform operands _ _ hoperands fun e hd => ih hd)

end Coupling

end SchemeCore
