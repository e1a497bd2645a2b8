import SchemeCore.Environment.NameError
import Mathlib.Data.List.Dedup
import Mathlib.Data.Set.Defs
import Mathlib.Tactic.SplitIfs

/-!
# Lookups in chains

All that a chain is good for is told by its lookups, and this is what the operations on chains do to
them: binding and assigning change the lookup of one name, in whatever frame the name is held.
-/

namespace SchemeCore

namespace Chain

variable {c c' : Chain} {name : String} {value : Item}

theorem lookupIn_cons (f : Frame) (fs : List Frame) (x : String) :
    lookupIn (f :: fs) x = (f.find? x).or (lookupIn fs x) := by
  unfold lookupIn
  rw [List.findSome?_cons]
  cases f.find? x <;> rfl

theorem find?_bind (f : Frame) (name : String) (value : Item) (x : String) :
    (f.bind name value).find? x = if x = name then some value else f.find? x := by
  by_cases h : x = name
  · rw [if_pos h, h, Frame.find?_bind_self]
  · rw [if_neg h, Frame.find?_bind_of_ne f value h]

theorem lookup_bind (c : Chain) (name : String) (value : Item) (x : String) :
    (c.bind name value).lookup x = if x = name then some value else c.lookup x := by
  show lookupIn (c.current.bind name value :: c.outer) x = if _ then _ else lookupIn c.frames x
  rw [frames, lookupIn_cons, lookupIn_cons, find?_bind]
  split_ifs <;> rfl

theorem lookupIn_assignIn {frames frames' : List Frame}
    (h : assignIn frames name value = some frames') (x : String) :
    lookupIn frames' x = if x = name then some value else lookupIn frames x := by
  induction frames generalizing frames' with
  | nil => cases h
  | cons f fs ih =>
    rw [assignIn] at h
    by_cases hb : f.binds name = true
    · rw [if_pos hb] at h
      cases h
      rw [lookupIn_cons, lookupIn_cons, find?_bind]
      split_ifs <;> rfl
    · rw [if_neg hb, Option.map_eq_some_iff] at h
      obtain ⟨fs', hfs, rfl⟩ := h
      rw [lookupIn_cons, lookupIn_cons, ih hfs]
      by_cases hx : x = name
      · -- the name is not bound here, so its lookup goes on to the frames behind
        have hnone : f.find? x = none := by
          rw [hx]
          simpa [Frame.binds] using hb
        rw [hnone, if_pos hx, if_pos hx]
        rfl
      · rw [if_neg hx, if_neg hx]

theorem assignIn_eq_none {frames : List Frame} :
    assignIn frames name value = none ↔ lookupIn frames name = none := by
  induction frames with
  | nil => simp [assignIn, lookupIn]
  | cons f fs ih =>
    rw [assignIn, lookupIn_cons]
    by_cases hb : f.binds name = true
    · obtain ⟨v, hv⟩ := Option.isSome_iff_exists.1 hb
      simp [hb, hv]
    · have hnone : f.find? name = none := by simpa [Frame.binds] using hb
      rw [if_neg hb, Option.map_eq_none_iff, ih, hnone]
      rfl

/-- Assigning in a chain is assigning in the list of all its frames. -/
theorem assign_eq (c : Chain) (name : String) (value : Item) :
    (c.assign name value).map frames = assignIn c.frames name value := by
  unfold assign frames
  rw [assignIn]
  by_cases hb : c.current.binds name = true
  · rw [if_pos hb, if_pos hb]
    rfl
  · rw [if_neg hb, if_neg hb, Option.map_map]
    rfl

theorem lookup_assign (h : c.assign name value = some c') (x : String) :
    c'.lookup x = if x = name then some value else c.lookup x := by
  apply lookupIn_assignIn
  rw [← assign_eq, h]
  rfl

theorem assign_eq_none : c.assign name value = none ↔ c.lookup name = none := by
  rw [lookup, ← assignIn_eq_none, ← assign_eq, Option.map_eq_none_iff]

/-! ## Agreement -/

/-- Each name of the set has the same value in both chains, or none in either. -/
def AgreeOn (S : Set String) (c₁ c₂ : Chain) : Prop := ∀ x ∈ S, c₁.lookup x = c₂.lookup x

theorem AgreeOn.bind {S : Set String} {c₁ c₂ : Chain} (h : AgreeOn S c₁ c₂) (name : String)
    (value : Item) : AgreeOn S (c₁.bind name value) (c₂.bind name value) := by
  intro x hx
  rw [lookup_bind, lookup_bind, h x hx]

theorem AgreeOn.assign {S : Set String} {c₁ c₂ c₁' c₂' : Chain} (h : AgreeOn S c₁ c₂)
    (h₁ : c₁.assign name value = some c₁') (h₂ : c₂.assign name value = some c₂') :
    AgreeOn S c₁' c₂' := by
  intro x hx
  rw [lookup_assign h₁, lookup_assign h₂, h x hx]

/-- A chain of one frame, which binds those of the names that `c` binds, to the same values. -/
def flat (c : Chain) (names : List String) : Chain :=
  ⟨names.dedup.filterMap fun x => (c.lookup x).map (x, ·), []⟩

theorem find?_filterMap (c : Chain) (names : List String) (x : String) :
    Frame.find? (names.filterMap fun y => (c.lookup y).map (y, ·)) x =
      if x ∈ names then c.lookup x else none := by
  induction names with
  | nil => rfl
  | cons y names ih =>
    by_cases hxy : x = y
    · subst hxy
      cases hv : c.lookup x with
      | some v => simp [hv, Frame.find?_cons]
      | none => simp [hv, ih]
    · cases hv : c.lookup y with
      | some v => simp [hv, Frame.find?_cons, hxy, ih]
      | none => simp [hv, hxy, ih]

theorem lookup_flat (c : Chain) {names : List String} {x : String} (hx : x ∈ names) :
    (c.flat names).lookup x = c.lookup x := by
  show lookupIn [names.dedup.filterMap fun y => (c.lookup y).map (y, ·)] x = c.lookup x
  rw [lookupIn_cons, find?_filterMap, if_pos (List.mem_dedup.2 hx)]
  exact Option.or_none

theorem agreeOn_flat (c : Chain) (names : List String) :
    AgreeOn { x | x ∈ names } c (c.flat names) := fun _ hx => (c.lookup_flat hx).symm

end Chain

end SchemeCore
