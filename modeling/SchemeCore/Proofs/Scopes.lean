import SchemeCore.Proofs.Forest
import SchemeCore.Proofs.Evaluation.Write
import Mathlib.Data.List.Find
import Mathlib.Logic.Relation

/-!
# Names across scopes

Many scopes may share a frame, and a name means its binding in the nearest frame on the path that
has one. A write in one scope replaces one frame: `bind` that of the scope itself (`putChain_bind`),
`assign` the nearest one that binds the name (`putChain_assign`). What another scope sees of it
depends on its own path only (`valueOf_putFrame`).
-/

namespace SchemeCore

theorem Frame.binds_bind_of_binds {frame : Frame} {name : String} (h : frame.binds name = true)
    (value : Item) (x : String) : (frame.bind name value).binds x = frame.binds x := by
  unfold binds at h ⊢
  by_cases hx : x = name
  · subst hx
    rw [find?_bind_self, h]
    rfl
  · rw [find?_bind_of_ne frame value hx]

theorem Frame.binds_iff_mem_names {frame : Frame} {name : String} :
    frame.binds name = true ↔ name ∈ frame.names := by
  induction frame with
  | nil => simp [binds, find?, names]
  | cons entry rest ih =>
    obtain ⟨n, v⟩ := entry
    rw [binds_cons, Bool.or_eq_true, decide_eq_true_iff, ih]
    exact List.mem_cons.symm

theorem Frame.nodup_bind {frame : Frame} (h : frame.names.Nodup) (name : String) (value : Item) :
    (frame.bind name value).names.Nodup := by
  rw [names_bind]
  split
  · exact h
  · rename_i hb
    have hname : name ∉ frame.names := by rwa [← binds_iff_mem_names]
    rw [List.nodup_append_comm]
    exact List.nodup_cons.2 ⟨hname, h⟩

theorem Chain.Written.nodup {A : Set Access} {c c' : Chain} (h : c.Written A c')
    (hc : ∀ frame ∈ c.frames, frame.names.Nodup) : ∀ frame ∈ c'.frames, frame.names.Nodup := by
  obtain ⟨ms, -, hleads⟩ := h
  induction ms generalizing c with
  | nil =>
    cases hleads
    exact hc
  | cons m ms ih =>
    obtain ⟨-, c₁, hw, hms⟩ := hleads
    refine ih (fun frame hframe => ?_) hms
    obtain ⟨i, g, name, value, hg, hframes, -⟩ := frames_write hw
    rw [hframes] at hframe
    rcases List.mem_or_eq_of_mem_set hframe with hframe | rfl
    · exact hc frame hframe
    · exact Frame.nodup_bind (hc g (List.mem_of_getElem? hg)) name value

namespace Forest

variable {f : Forest} {scope n : Nat} {name : String} {value : Item}

/-- The number of the scope around a scope. -/
def parent? (f : Forest) (scope : Nat) : Option Nat := f.scopes[scope]?.bind Scope.parent

/-- The first scope on the path whose bindings hold the name. -/
def holder? (f : Forest) (scope : Nat) (name : String) : Option Nat :=
  (f.path scope).find? fun n => (f.frame n).binds name

/-- The value of a name as a scope sees it. -/
def valueOf (f : Forest) (scope : Nat) (name : String) : Option Item :=
  (f.holder? scope name).bind fun n => (f.frame n).find? name

/-- The path leads to `n`, and no scope on the way there binds the name. -/
def Reaches (f : Forest) (scope : Nat) (name : String) (n : Nat) : Prop :=
  ∃ before after, f.path scope = before ++ n :: after ∧
    ∀ m ∈ before, (f.frame m).binds name = false

/-! ## The nearest binding -/

theorem frame_of_length_le (h : f.scopes.length ≤ n) : f.frame n = [] := by
  rw [frame, List.getElem?_eq_none h]
  rfl

theorem find?_symbol (f : Forest) (scope : Nat) (name : String) :
    f.find? scope (.datum (.symbol name)) = f.holder? scope name := by
  show ((f.chain scope).distance? name).bind (fun i => (f.path scope)[i]?) = _
  rcases Nat.lt_or_ge scope f.scopes.length with h | h
  · rw [holder?, List.find?_eq_bind_findIdx?_getElem?, Chain.distance?, frames_chain h,
      List.findIdx?_map]
    rfl
  · rw [holder?, path_eq_nil h]
    simp

theorem lookup_chain (f : Forest) (scope : Nat) (name : String) :
    (f.chain scope).lookup name = f.valueOf scope name := by
  rcases Nat.lt_or_ge scope f.scopes.length with h | h
  · rw [Chain.lookup, frames_chain h, valueOf, holder?]
    induction f.path scope with
    | nil => rfl
    | cons n ns ih =>
      rw [List.map_cons, Chain.lookupIn_cons, ih, List.find?_cons]
      unfold Frame.binds
      cases hn : (f.frame n).find? name with
      | none => rfl
      | some v => exact hn.symm
  · rw [valueOf, holder?, Chain.lookup, Chain.frames, chain, path_eq_nil h, frame_of_length_le h]
    rfl

theorem holder?_eq_some_iff : f.holder? scope name = some n ↔
    f.Reaches scope name n ∧ (f.frame n).binds name = true := by
  rw [holder?, List.find?_eq_some_iff_append, and_comm]
  simp [Reaches]

theorem isSome_valueOf : (f.valueOf scope name).isSome = (f.holder? scope name).isSome := by
  cases h : f.holder? scope name with
  | none => rw [valueOf, h]; rfl
  | some n =>
    have hb := (holder?_eq_some_iff.1 h).2
    rw [valueOf, h]
    exact hb

theorem valueOf_eq (f : Forest) (scope : Nat) (name : String) :
    f.valueOf scope name = (f.path scope).findSome? fun n => (f.frame n).find? name := by
  rw [valueOf, holder?]
  induction f.path scope with
  | nil => rfl
  | cons n ns ih =>
    rw [List.find?_cons, List.findSome?_cons, ← ih]
    unfold Frame.binds
    cases hn : (f.frame n).find? name with
    | none => rfl
    | some v => exact hn

/-! ## Parents -/

/-- Every scope lies in an older one, if in any. -/
def Descends (f : Forest) : Prop := ∀ n p, f.parent? n = some p → p < n

/-- The path of a scope goes on with that of its parent. -/
theorem path_eq_parent (hf : f.Descends) (h : scope < f.scopes.length) :
    f.path scope = scope :: ((f.parent? scope).map f.path).getD [] := by
  have hparent : f.parent? scope = f.scopes[scope].parent := by
    rw [parent?, List.getElem?_eq_getElem h]
    rfl
  rw [path, List.getElem?_eq_getElem h, hparent]
  dsimp only
  cases hp : f.scopes[scope].parent with
  | none => rfl
  | some p =>
    have hlt : p < scope := hf scope p (hparent.trans hp)
    dsimp only
    rw [if_pos hlt]
    rfl

/-- No scope lies in itself, however far in. -/
theorem Descends.acyclic (hf : f.Descends) (n : Nat) :
    ¬ Relation.TransGen (fun n p => f.parent? n = some p) n n := by
  have hlt {m : Nat} (h : Relation.TransGen (fun n p => f.parent? n = some p) n m) : m < n := by
    induction h with
    | single h => exact hf _ _ h
    | tail _ h ih => exact Nat.lt_trans (hf _ _ h) ih
  exact fun h => Nat.lt_irrefl n (hlt h)

theorem parent?_putChain (f : Forest) (scope : Nat) (c : Chain) :
    (f.putChain scope c).parent? = f.parent? := by
  rw [putChain_eq]
  apply putFrames_induction (P := fun g => g.parent? = f.parent?) rfl
  intro g hg n _ frame _
  rw [← hg]
  funext m
  rw [parent?, parent?, scopes_putFrame]
  split
  · cases g.scopes[m]? <;> rfl
  · rfl

theorem parent?_addScope (h : n < f.scopes.length) (parent : Option Nat) :
    (f.addScope parent).1.parent? n = f.parent? n := by
  show (f.scopes ++ [⟨[], parent⟩])[n]?.bind Scope.parent = _
  rw [List.getElem?_append_left h]
  rfl

theorem Descends.addScope (hf : f.Descends) {parent : Option Nat}
    (hparent : ∀ p ∈ parent, p < f.scopes.length) : (f.addScope parent).1.Descends := by
  intro n p h
  rcases Nat.lt_trichotomy n f.scopes.length with hn | rfl | hn
  · rw [parent?_addScope hn] at h
    exact hf n p h
  · change (f.scopes ++ [⟨[], parent⟩])[f.scopes.length]?.bind Scope.parent = some p at h
    rw [List.getElem?_concat_length] at h
    exact hparent p h
  · change (f.scopes ++ [⟨[], parent⟩])[n]?.bind Scope.parent = some p at h
    rw [List.getElem?_eq_none (by rw [List.length_append]; exact hn)] at h
    cases h

/-- A new scope has no bindings. -/
theorem frame_addScope (f : Forest) (parent : Option Nat) (n : Nat) :
    (f.addScope parent).1.frame n = f.frame n := by
  show ((f.scopes ++ [⟨[], parent⟩])[n]?.map Scope.frame).getD [] = _
  rcases Nat.lt_or_ge n f.scopes.length with hn | hn
  · rw [List.getElem?_append_left hn]
    rfl
  · rw [frame_of_length_le hn, List.getElem?_append_right hn]
    cases n - f.scopes.length <;> rfl

/-! ## Replacing one frame -/

theorem putFrame_of_length_le (h : f.scopes.length ≤ n) (frame : Frame) :
    f.putFrame n frame = f := by
  unfold putFrame
  rw [List.modify_eq_self h]

theorem frame_putFrame_of_ne {m : Nat} (h : m ≠ n) (frame : Frame) :
    (f.putFrame n frame).frame m = f.frame m := by
  rw [Forest.frame, scopes_putFrame, if_neg h.symm]
  rfl

/-- No frame repeats a name. -/
def Nodup (f : Forest) : Prop := ∀ n, (f.frame n).names.Nodup

theorem Nodup.putFrame (hf : f.Nodup) {frame : Frame} (hframe : frame.names.Nodup) :
    (f.putFrame n frame).Nodup := by
  intro m
  by_cases hmn : m = n
  · subst hmn
    rcases Nat.lt_or_ge m f.scopes.length with hm | hm
    · rw [frame_putFrame hm]
      exact hframe
    · rw [putFrame_of_length_le hm]
      exact hf m
  · rw [frame_putFrame_of_ne hmn]
    exact hf m

/-- Writes repeat no name. -/
theorem Nodup.putChain (hf : f.Nodup) {A : Set Access} {c : Chain}
    (hc : (f.chain scope).Written A c) : (f.putChain scope c).Nodup := by
  have hframes : ∀ frame ∈ c.frames, frame.names.Nodup := by
    apply hc.nodup
    rw [Chain.frames, List.forall_mem_cons, Forest.chain, List.forall_mem_map]
    exact ⟨hf scope, fun m _ => hf m⟩
  rw [putChain_eq]
  apply putFrames_induction (P := Nodup) hf
  intro g hg n _ frame hframe
  exact hg.putFrame (hframes frame hframe)

/-- One frame among those of a path is all that is replaced, if the others are as they were. -/
theorem putFrames_set {ns : List Nat} {i : Nat} (hns : ns.Nodup) (hi : ns[i]? = some n)
    (frame : Frame) : f.putFrames ns ((ns.map f.frame).set i frame) = f.putFrame n frame := by
  induction ns generalizing f i with
  | nil => cases hi
  | cons m ns ih =>
    obtain ⟨hm, hns⟩ := List.nodup_cons.1 hns
    cases i with
    | zero =>
      cases hi
      have hframes : ns.map f.frame = ns.map (f.putFrame n frame).frame := by
        apply List.map_congr_left
        intro k hk
        have hne : k ≠ n := fun hkn => hm (hkn ▸ hk)
        exact (frame_putFrame_of_ne hne frame).symm
      rw [List.map_cons, List.set_cons_zero, putFrames_cons, hframes, putFrames_frames]
    | succ i =>
      rw [List.map_cons, List.set_cons_succ, putFrames_cons, putFrame_frame]
      exact ih hns hi

/-- A change of its own bindings replaces one frame. -/
theorem putChain_current (f : Forest) (scope : Nat) (frame : Frame) :
    f.putChain scope { f.chain scope with current := frame } = f.putFrame scope frame := by
  rcases Nat.lt_or_ge scope f.scopes.length with h | h
  · obtain ⟨outer, houter⟩ := path_eq_cons h
    have hframes : ({ f.chain scope with current := frame } : Chain).frames =
        ((f.path scope).map f.frame).set 0 frame := by
      rw [← frames_chain h]
      rfl
    rw [putChain_eq, hframes, putFrames_set (nodup_path f scope)]
    rw [houter]
    rfl
  · rw [putChain_of_length_le h, putFrame_of_length_le h]

/-- Binding a name in a scope replaces the bindings of this scope. -/
theorem putChain_bind (f : Forest) (scope : Nat) (name : String) (value : Item) :
    f.putChain scope ((f.chain scope).bind name value) =
      f.putFrame scope ((f.frame scope).bind name value) :=
  putChain_current f scope _

/-- Assigning a name in a scope replaces the bindings that hold it. -/
theorem putChain_assign {c : Chain} (h : (f.chain scope).assign name value = some c) :
    ∃ n, f.holder? scope name = some n ∧
      f.putChain scope c = f.putFrame n ((f.frame n).bind name value) := by
  obtain ⟨i, frame, hdistance, hframe, -, hframes⟩ := Chain.frames_assign h
  rcases Nat.lt_or_ge scope f.scopes.length with hscope | hscope
  · rw [frames_chain hscope, List.getElem?_map, Option.map_eq_some_iff] at hframe
    obtain ⟨n, hn, rfl⟩ := hframe
    refine ⟨n, ?_, ?_⟩
    · rw [← find?_symbol]
      show ((f.chain scope).distance? name).bind (fun i => (f.path scope)[i]?) = some n
      rw [hdistance]
      exact hn
    · rw [putChain_eq, hframes, frames_chain hscope, putFrames_set (nodup_path f scope) hn]
  · -- a scope that is not there has no bindings
    rw [Chain.distance?, Chain.frames, chain, path_eq_nil hscope, frame_of_length_le hscope]
      at hdistance
    cases hdistance

theorem assign_chain_eq_none :
    (f.chain scope).assign name value = none ↔ f.holder? scope name = none := by
  rw [Chain.assign_eq_none, lookup_chain, ← Option.isNone_iff_eq_none, ← Option.isNone_iff_eq_none,
    ← Option.not_isSome, ← Option.not_isSome, isSome_valueOf]

/-! ## What other scopes see of it -/

/-- No scope comes twice on a path. -/
theorem not_mem_before {before after : List Nat} (hpath : f.path scope = before ++ n :: after) :
    n ∉ before := by
  have hnodup := nodup_path f scope
  rw [hpath, List.nodup_append] at hnodup
  exact fun hmem => hnodup.2.2 n hmem n List.mem_cons_self rfl

/-- A scope whose path leads to the name's new binding sees it. -/
theorem valueOf_putFrame (h : f.Reaches scope name n) (value : Item) :
    (f.putFrame n ((f.frame n).bind name value)).valueOf scope name = some value := by
  obtain ⟨before, after, hpath, hbefore⟩ := h
  have hn : n < f.scopes.length := @lt_length_of_mem_path f scope n (by simp [hpath])
  have hnone : (before.findSome? fun m =>
      ((f.putFrame n ((f.frame n).bind name value)).frame m).find? name) = none := by
    rw [List.findSome?_eq_none_iff]
    intro m hm
    have hne : m ≠ n := fun hmn => not_mem_before hpath (hmn ▸ hm)
    rw [frame_putFrame_of_ne hne]
    simpa [Frame.binds] using hbefore m hm
  rw [valueOf_eq, path_putFrame, hpath, List.findSome?_append, hnone, List.findSome?_cons,
    frame_putFrame hn, Frame.find?_bind_self]
  rfl

theorem findSome?_congr {α β : Type} {l : List α} {g₁ g₂ : α → Option β}
    (h : ∀ a ∈ l, g₁ a = g₂ a) : l.findSome? g₁ = l.findSome? g₂ := by
  induction l with
  | nil => rfl
  | cons a l ih =>
    rw [List.findSome?_cons, List.findSome?_cons, h a List.mem_cons_self,
      ih fun b hb => h b (List.mem_cons_of_mem _ hb)]

/-- Behind a binding of the name nothing matters to its value. -/
theorem valueOf_of_front {before after : List Nat} {m : Nat}
    (hpath : f.path scope = before ++ after) (hm : m ∈ before)
    (hb : (f.frame m).binds name = true) :
    f.valueOf scope name = before.findSome? fun k => (f.frame k).find? name := by
  have hsome : (before.findSome? fun k => (f.frame k).find? name).isSome = true :=
    List.findSome?_isSome_iff.2 ⟨m, hm, hb⟩
  rw [valueOf_eq, hpath, List.findSome?_append, Option.or_of_isSome hsome]

/-- The new binding is one of this name in this scope. -/
theorem find?_putFrame_of_ne {m : Nat} {x : String} (h : m ≠ n ∨ x ≠ name) (value : Item) :
    ((f.putFrame n ((f.frame n).bind name value)).frame m).find? x = (f.frame m).find? x := by
  by_cases hmn : m = n
  · subst hmn
    rcases Nat.lt_or_ge m f.scopes.length with hm | hm
    · rw [frame_putFrame hm]
      exact Frame.find?_bind_of_ne _ _ (h.resolve_left (not_not_intro rfl))
    · rw [putFrame_of_length_le hm]
  · rw [frame_putFrame_of_ne hmn]

/-- A scope that finds a binding of the name before it comes to the new one does not see it. -/
theorem valueOf_putFrame_of_front {before after : List Nat} {m : Nat}
    (hpath : f.path scope = before ++ n :: after) (hm : m ∈ before)
    (hb : (f.frame m).binds name = true) (value : Item) :
    (f.putFrame n ((f.frame n).bind name value)).valueOf scope name = f.valueOf scope name := by
  have hbefore : ∀ k ∈ before, ((f.putFrame n ((f.frame n).bind name value)).frame k).find? name =
      (f.frame k).find? name := by
    intro k hk
    have hne : k ≠ n := fun hkn => not_mem_before hpath (hkn ▸ hk)
    exact find?_putFrame_of_ne (.inl hne) value
  have hb' : ((f.putFrame n ((f.frame n).bind name value)).frame m).binds name = true := by
    unfold Frame.binds
    rw [hbefore m hm]
    exact hb
  rw [valueOf_of_front hpath hm hb, ← findSome?_congr hbefore]
  exact valueOf_of_front (by rw [path_putFrame, hpath]) hm hb'

/-- Every other scope, and every other name, keeps its value. -/
theorem valueOf_putFrame_of_not {x : String} (h : ¬ (x = name ∧ f.Reaches scope name n))
    (value : Item) : (f.putFrame n ((f.frame n).bind name value)).valueOf scope x =
      f.valueOf scope x := by
  have hcongr (hkept : ∀ m ∈ f.path scope, m ≠ n ∨ x ≠ name) :
      (f.putFrame n ((f.frame n).bind name value)).valueOf scope x = f.valueOf scope x := by
    rw [valueOf_eq, valueOf_eq, path_putFrame]
    exact findSome?_congr fun m hm => find?_putFrame_of_ne (hkept m hm) value
  by_cases hx : x = name
  · subst hx
    by_cases hmem : n ∈ f.path scope
    · obtain ⟨before, after, hpath⟩ := List.append_of_mem hmem
      -- the path leads to `n`, so the name must be bound on the way there
      have hbound : ∃ m ∈ before, (f.frame m).binds x = true := by
        by_contra hnone
        refine h ⟨rfl, before, after, hpath, fun m hm => ?_⟩
        exact Bool.eq_false_iff.2 fun hb => hnone ⟨m, hm, hb⟩
      obtain ⟨m, hm, hb⟩ := hbound
      exact valueOf_putFrame_of_front hpath hm hb value
    · exact hcongr fun m hm => .inl fun hmn => hmem (hmn ▸ hm)
  · exact hcongr fun m _ => .inr hx

/-- Where a bound name gets a new value, every name keeps its holder. -/
theorem holder?_putFrame (hb : (f.frame n).binds name = true) (value : Item) (x : String) :
    (f.putFrame n ((f.frame n).bind name value)).holder? scope x = f.holder? scope x := by
  rw [holder?, holder?, path_putFrame]
  apply List.find?_congr
  intro m hm
  by_cases hmn : m = n
  · subst hmn
    rw [frame_putFrame (lt_length_of_mem_path hm)]
    exact Frame.binds_bind_of_binds hb value x
  · rw [frame_putFrame_of_ne hmn]

end Forest

end SchemeCore
