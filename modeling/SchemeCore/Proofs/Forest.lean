import SchemeCore.Environment.Forest
import Mathlib.Data.List.Nodup

/-!
# Scopes and their chains

A scope is shown as the chain of the frames on its path, and changes to the chain are put back into
these frames. The numbers on a path descend, so that no frame is put back twice; paths depend on the
parents only, so that they stay as they are.
-/

namespace SchemeCore.Forest

variable {f g : Forest} {scope : Nat}

/-! ## Paths -/

theorem path_eq_nil (h : f.scopes.length ≤ scope) : f.path scope = [] := by
  rw [path, List.getElem?_eq_none h]

theorem path_eq_cons (h : scope < f.scopes.length) : ∃ outer, f.path scope = scope :: outer := by
  rw [path, List.getElem?_eq_getElem h]
  dsimp only
  split
  · exact ⟨[], rfl⟩
  · split
    · exact ⟨_, rfl⟩
    · exact ⟨[], rfl⟩

/-- Paths go through the parents, and nothing else of a scope matters to them. -/
theorem path_congr (h : ∀ n : Nat, f.scopes[n]?.map Scope.parent = g.scopes[n]?.map Scope.parent)
    (scope : Nat) : f.path scope = g.path scope := by
  induction scope using Nat.strongRecOn with
  | ind scope ih =>
    have hscope := h scope
    rw [path, path]
    cases hf : f.scopes[scope]? with
    | none =>
      rw [hf, Option.map_none, eq_comm, Option.map_eq_none_iff] at hscope
      rw [hscope]
    | some s =>
      rw [hf, Option.map_some, eq_comm, Option.map_eq_some_iff] at hscope
      obtain ⟨s', hg, hparent⟩ := hscope
      rw [hg]
      dsimp only
      rw [hparent]
      cases s.parent with
      | none => rfl
      | some parent =>
        by_cases hlt : parent < scope
        · dsimp only
          rw [if_pos hlt, if_pos hlt, ih parent hlt]
        · dsimp only
          rw [if_neg hlt, if_neg hlt]

theorem le_of_mem_path {n : Nat} (h : n ∈ f.path scope) : n ≤ scope := by
  fun_induction f.path scope with
  | case1 | case2 | case4 => simp_all
  | case3 scope s hs parent hparent hlt ih =>
    rcases List.mem_cons.1 h with rfl | h
    · exact Nat.le_refl _
    · exact Nat.le_trans (ih h) (Nat.le_of_lt hlt)

theorem lt_length_of_mem_path {n : Nat} (h : n ∈ f.path scope) : n < f.scopes.length := by
  fun_induction f.path scope with
  | case1 => cases h
  | case2 scope s hs | case4 scope s hs =>
    rw [List.mem_singleton.1 h]
    exact (List.getElem?_eq_some_iff.1 hs).1
  | case3 scope s hs parent hparent hlt ih =>
    rcases List.mem_cons.1 h with rfl | h
    · exact (List.getElem?_eq_some_iff.1 hs).1
    · exact ih h

theorem nodup_path (f : Forest) (scope : Nat) : (f.path scope).Nodup := by
  fun_induction f.path scope with
  | case1 => exact List.nodup_nil
  | case2 | case4 => exact List.nodup_singleton _
  | case3 scope s hs parent hparent hlt ih =>
    exact List.nodup_cons.2 ⟨fun h => Nat.not_le.2 hlt (le_of_mem_path h), ih⟩

theorem frames_chain (h : scope < f.scopes.length) :
    (f.chain scope).frames = (f.path scope).map f.frame := by
  obtain ⟨outer, houter⟩ := path_eq_cons h
  unfold chain Chain.frames
  rw [houter]
  rfl

/-! ## Putting frames back -/

theorem scopes_putFrame (f : Forest) (n : Nat) (frame : Frame) (m : Nat) :
    (f.putFrame n frame).scopes[m]? =
      if n = m then f.scopes[m]?.map fun s => { s with frame } else f.scopes[m]? := by
  unfold putFrame
  rw [List.getElem?_modify]
  split <;> simp

theorem length_putFrame (f : Forest) (n : Nat) (frame : Frame) :
    (f.putFrame n frame).scopes.length = f.scopes.length := List.length_modify ..

theorem frame_putFrame {n : Nat} (h : n < f.scopes.length) (frame : Frame) :
    (f.putFrame n frame).frame n = frame := by
  rw [Forest.frame, scopes_putFrame, if_pos rfl, List.getElem?_eq_getElem h]
  rfl

theorem path_putFrame (f : Forest) (n : Nat) (frame : Frame) :
    (f.putFrame n frame).path = f.path := by
  funext scope
  apply path_congr
  intro m
  rw [scopes_putFrame]
  split
  · rw [Option.map_map]
    rfl
  · rfl

theorem putFrame_frame (f : Forest) (n : Nat) : f.putFrame n (f.frame n) = f := by
  have hscopes : (f.putFrame n (f.frame n)).scopes = f.scopes := by
    apply List.ext_getElem?
    intro m
    rw [scopes_putFrame]
    split
    · rename_i hm
      subst hm
      unfold Forest.frame
      cases f.scopes[n]? <;> rfl
    · rfl
  exact congrArg Forest.mk hscopes

theorem putFrame_putFrame (f : Forest) (n : Nat) (frame frame' : Frame) :
    (f.putFrame n frame).putFrame n frame' = f.putFrame n frame' := by
  have hscopes :
      ((f.putFrame n frame).putFrame n frame').scopes = (f.putFrame n frame').scopes := by
    apply List.ext_getElem?
    intro m
    rw [scopes_putFrame, scopes_putFrame, scopes_putFrame]
    split
    · rw [Option.map_map]
      rfl
    · rfl
  exact congrArg Forest.mk hscopes

/-- Puts frames back in order. -/
def putFrames (f : Forest) (ns : List Nat) (frames : List Frame) : Forest :=
  (ns.zip frames).foldl (fun f (n, frame) => f.putFrame n frame) f

theorem putFrames_cons (f : Forest) (n : Nat) (ns : List Nat) (frame : Frame)
    (frames : List Frame) :
    f.putFrames (n :: ns) (frame :: frames) = (f.putFrame n frame).putFrames ns frames := rfl

/-- What each of the replacements keeps, all of them keep. -/
theorem putFrames_induction {P : Forest → Prop} {ns : List Nat} {frames : List Frame} (hf : P f)
    (hstep : ∀ g, P g → ∀ n ∈ ns, ∀ frame ∈ frames, P (g.putFrame n frame)) :
    P (f.putFrames ns frames) := by
  induction ns generalizing f frames with
  | nil => exact hf
  | cons n ns ih =>
    cases frames with
    | nil => exact hf
    | cons frame frames =>
      rw [putFrames_cons]
      exact ih (hstep f hf n List.mem_cons_self frame List.mem_cons_self)
        fun g hg m hm frame' hf' =>
          hstep g hg m (List.mem_cons_of_mem _ hm) frame' (List.mem_cons_of_mem _ hf')

theorem length_putFrames (f : Forest) (ns : List Nat) (frames : List Frame) :
    (f.putFrames ns frames).scopes.length = f.scopes.length := by
  apply putFrames_induction (P := fun g => g.scopes.length = f.scopes.length) rfl
  intro g hg n _ frame _
  rw [length_putFrame, hg]

theorem path_putFrames (f : Forest) (ns : List Nat) (frames : List Frame) :
    (f.putFrames ns frames).path = f.path := by
  apply putFrames_induction (P := fun g => g.path = f.path) rfl
  intro g hg n _ frame _
  rw [path_putFrame, hg]

theorem scopes_putFrames {m : Nat} {ns : List Nat} (h : m ∉ ns) (f : Forest)
    (frames : List Frame) : (f.putFrames ns frames).scopes[m]? = f.scopes[m]? := by
  apply putFrames_induction (P := fun g => g.scopes[m]? = f.scopes[m]?) rfl
  intro g hg n hn frame _
  have hne : n ≠ m := fun hnm => h (hnm ▸ hn)
  rw [scopes_putFrame, if_neg hne, hg]

theorem map_frame_putFrames {ns : List Nat} {frames : List Frame} (hns : ns.Nodup)
    (hin : ∀ n ∈ ns, n < f.scopes.length) (hlength : frames.length = ns.length) :
    ns.map (f.putFrames ns frames).frame = frames := by
  induction ns generalizing f frames with
  | nil => exact (List.length_eq_zero_iff.1 hlength).symm
  | cons n ns ih =>
    cases frames with
    | nil => cases hlength
    | cons frame frames =>
      obtain ⟨hn, hns⟩ := List.nodup_cons.1 hns
      obtain ⟨hhead, htail⟩ := List.forall_mem_cons.1 hin
      -- the number does not come up again, so this frame is not replaced a second time
      have hfirst : ((f.putFrame n frame).putFrames ns frames).frame n = frame := by
        rw [Forest.frame, scopes_putFrames hn]
        exact frame_putFrame hhead frame
      rw [putFrames_cons, List.map_cons, hfirst, ih hns _ (Nat.succ.inj hlength)]
      rw [length_putFrame]
      exact htail

theorem putFrames_frames (f : Forest) (ns : List Nat) : f.putFrames ns (ns.map f.frame) = f := by
  induction ns with
  | nil => rfl
  | cons n ns ih => rw [List.map_cons, putFrames_cons, putFrame_frame, ih]

/-! ## Putting a chain back -/

theorem putChain_eq (f : Forest) (scope : Nat) (c : Chain) :
    f.putChain scope c = f.putFrames (f.path scope) c.frames := rfl

theorem path_putChain (f : Forest) (scope : Nat) (c : Chain) : (f.putChain scope c).path = f.path :=
  path_putFrames f _ _

/-- Frames off the path stay as they are. -/
theorem scopes_putChain {m : Nat} (h : m ∉ f.path scope) (c : Chain) :
    (f.putChain scope c).scopes[m]? = f.scopes[m]? :=
  scopes_putFrames h f _

theorem length_putChain (f : Forest) (scope : Nat) (c : Chain) :
    (f.putChain scope c).scopes.length = f.scopes.length :=
  length_putFrames f _ _

/-- A chain with a frame for each scope on the path is what the scope shows afterwards. -/
theorem chain_putChain {c : Chain} (h : scope < f.scopes.length)
    (hc : c.frames.length = (f.chain scope).frames.length) :
    (f.putChain scope c).chain scope = c := by
  have hlength : c.frames.length = (f.path scope).length := by
    rw [hc, frames_chain h, List.length_map]
  have hframes : ((f.putChain scope c).chain scope).frames = c.frames := by
    rw [frames_chain (by rwa [length_putChain]), path_putChain, putChain_eq]
    exact map_frame_putFrames (nodup_path f scope) (fun n => lt_length_of_mem_path) hlength
  obtain ⟨hcurrent, houter⟩ := List.cons.inj hframes
  exact congrArg₂ Chain.mk hcurrent houter

theorem putChain_of_length_le (h : f.scopes.length ≤ scope) (c : Chain) :
    f.putChain scope c = f := by
  rw [putChain_eq, path_eq_nil h]
  rfl

/-- Putting back what a scope shows changes nothing. -/
theorem putChain_chain (f : Forest) (scope : Nat) : f.putChain scope (f.chain scope) = f := by
  rcases Nat.lt_or_ge scope f.scopes.length with h | h
  · rw [putChain_eq, frames_chain h, putFrames_frames]
  · exact putChain_of_length_le h _

end SchemeCore.Forest
