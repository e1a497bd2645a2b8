import SchemeCore.Proofs.Environment
import SchemeCore.Proofs.Evaluation.Access

/-!
# Writes to a chain

All that an evaluation changes in a chain it changes by writes: a `define` binds a name in the
current frame, a `set!` gives a name a new value in the nearest frame that binds it. The store keeps
each write together with the chain that it met.

1. One write keeps the names of the outer frames, appends at most its own name to those of the
   current one, and changes no value but that of its name in one frame (`valueAt_write`).
2. The moments of a run lead from one chain to another if each write met the chain that those before
   it have left (`Chain.Leads`). Such a run is confined by its writes (`Chain.Confined`): each
   change in a frame is due to one of them, and for a `set!` to one that found the nearest binding
   of its name in this frame at its own moment.
3. `Store.Wrote` says of a run that it has put its writes on record, and that they lead from the
   chain in front of it to the one behind it.
-/

namespace SchemeCore

/-- The access that a write is an instance of. -/
def Write.access : Write → Access
  | define target _ => .define target
  | assign name _ => .assign name

namespace Frame

variable {f : Frame} {name : String}

theorem binds_cons (n : String) (v : Item) (rest : Frame) (name : String) :
    binds ((n, v) :: rest) name = (decide (name = n) || binds rest name) := by
  unfold binds
  rw [find?_cons]
  by_cases h : name = n <;> simp [h]

theorem names_bind (f : Frame) (name : String) (value : Item) :
    (f.bind name value).names = if f.binds name then f.names else f.names ++ [name] := by
  induction f with
  | nil => rfl
  | cons entry rest ih =>
    obtain ⟨n, v⟩ := entry
    rw [binds_cons]
    by_cases h : n = name
    · simp [bind, names, h]
    · have hne : name ≠ n := fun he => h he.symm
      have hrest : names ((n, v) :: bind rest name value) = n :: names (bind rest name value) := rfl
      rw [bind, if_neg h, hrest, ih]
      by_cases hb : binds rest name = true <;> simp [hb, hne, names]

end Frame

namespace Chain

variable {c c' : Chain} {w : Write} {ms ms' : List Moment}

/-- The value of a name in the frame that is `i` frames away. -/
def valueAt (c : Chain) (i : Nat) (name : String) : Option Item :=
  c.frames[i]?.bind (·.find? name)

/-- The chain after a write. Only a symbol can be defined, and only a bound name assigned. -/
def write? (c : Chain) : Write → Option Chain
  | .define target value => (c.bindItem (.datum target) value).toOption
  | .assign name value => c.assign name value

theorem write?_define {target : Datum} {value : Item}
    (h : c.write? (.define target value) = some c') :
    ∃ name, target = .symbol name ∧ c' = c.bind name value := by
  cases target with
  | symbol name =>
    cases h
    exact ⟨name, rfl, rfl⟩
  | integer | string | boolean | char | list | vector => cases h

/-- The moments lead from one chain to another: each write met the chain that those before it have
left. -/
def Leads : Chain → List Moment → Chain → Prop
  | c, [], c' => c' = c
  | c, m :: ms, c' => m.chain = c ∧ ∃ c₁, c.write? m.write = some c₁ ∧ c₁.Leads ms c'

theorem Leads.append {c₁ : Chain} (h : c.Leads ms c₁) (h' : c₁.Leads ms' c') :
    c.Leads (ms ++ ms') c' := by
  induction ms generalizing c with
  | nil =>
    cases h
    exact h'
  | cons m ms ih =>
    obtain ⟨hm, c₂, hw, hms⟩ := h
    exact ⟨hm, c₂, hw, ih hms⟩

theorem leads_single (hw : c.write? w = some c') : c.Leads [⟨c, w⟩] c' := ⟨rfl, c', hw, rfl⟩

/-! ## One write -/

theorem assignIn_eq_some {frames frames' : List Frame} {name : String} {value : Item}
    (h : assignIn frames name value = some frames') :
    ∃ i f, frames.findIdx? (·.binds name) = some i ∧ frames[i]? = some f ∧ f.binds name ∧
      frames' = frames.set i (f.bind name value) := by
  induction frames generalizing frames' with
  | nil => cases h
  | cons f fs ih =>
    rw [assignIn] at h
    by_cases hb : f.binds name = true
    · rw [if_pos hb] at h
      cases h
      exact ⟨0, f, by simp [List.findIdx?_cons, hb], rfl, hb, rfl⟩
    · rw [if_neg hb, Option.map_eq_some_iff] at h
      obtain ⟨fs', hfs, rfl⟩ := h
      obtain ⟨i, g, hi, hg, hbinds, rfl⟩ := ih hfs
      exact ⟨i + 1, g, by simp [List.findIdx?_cons, hb, hi], hg, hbinds, rfl⟩

/-- An assignment binds anew in the nearest frame that binds the name. -/
theorem frames_assign {name : String} {value : Item} (h : c.assign name value = some c') :
    ∃ i f, c.distance? name = some i ∧ c.frames[i]? = some f ∧ f.binds name ∧
      c'.frames = c.frames.set i (f.bind name value) := by
  apply assignIn_eq_some
  rw [← assign_eq, h]
  rfl

/-- A write binds anew in one frame, and what is not bound there yet is so only by a definition. -/
theorem frames_write (h : c.write? w = some c') : ∃ i f name value,
    c.frames[i]? = some f ∧ c'.frames = c.frames.set i (f.bind name value) ∧
      (w = .define (.symbol name) value ∧ i = 0 ∨
        w = .assign name value ∧ c.distance? name = some i ∧ f.binds name) := by
  cases w with
  | define target value =>
    obtain ⟨name, rfl, rfl⟩ := write?_define h
    exact ⟨0, c.current, name, value, rfl, rfl, .inl ⟨rfl, rfl⟩⟩
  | assign name value =>
    obtain ⟨i, f, hdistance, hf, hb, hframes⟩ := frames_assign h
    exact ⟨i, f, name, value, hf, hframes, .inr ⟨rfl, hdistance, hb⟩⟩

theorem valueAt_write (h : c.write? w = some c') (i : Nat) (x : String) :
    c'.valueAt i x = c.valueAt i x ∨ (i = 0 ∧ ∃ v, w = .define (.symbol x) v) ∨
      (c.distance? x = some i ∧ ∃ v, w = .assign x v) := by
  obtain ⟨j, f, name, value, hf, hframes, hw⟩ := frames_write h
  by_cases hij : i = j ∧ x = name
  · obtain ⟨rfl, rfl⟩ := hij
    rcases hw with ⟨rfl, rfl⟩ | ⟨rfl, hdistance, -⟩
    · exact .inr (.inl ⟨rfl, value, rfl⟩)
    · exact .inr (.inr ⟨hdistance, value, rfl⟩)
  · left
    unfold valueAt
    rw [hframes, List.getElem?_set]
    by_cases hj : j = i
    · subst hj
      have hx : x ≠ name := fun hx => hij ⟨rfl, hx⟩
      have hlt : j < c.frames.length := (List.getElem?_eq_some_iff.1 hf).1
      rw [if_pos rfl, if_pos hlt, hf]
      exact Frame.find?_bind_of_ne f value hx
    · rw [if_neg hj]

/-- The names of the frames after a write: those from before, and perhaps the name of a
definition behind those of the current frame. -/
theorem names_write (h : c.write? w = some c') :
    c'.outer.map Frame.names = c.outer.map Frame.names ∧
      (c'.current.names = c.current.names ∨
        ∃ x v, w = .define (.symbol x) v ∧ c'.current.names = c.current.names ++ [x]) := by
  obtain ⟨i, f, name, value, hf, hframes, hw⟩ := frames_write h
  rcases hw with ⟨rfl, rfl⟩ | ⟨rfl, -, hb⟩
  · cases h
    refine ⟨rfl, ?_⟩
    have hnames := c.current.names_bind name value
    by_cases hb : c.current.binds name = true
    · rw [if_pos hb] at hnames
      exact .inl hnames
    · rw [if_neg hb] at hnames
      exact .inr ⟨name, value, rfl, hnames⟩
  · obtain ⟨hi, hget⟩ := List.getElem?_eq_some_iff.1 hf
    have hnames : c'.frames.map Frame.names = c.frames.map Frame.names := by
      rw [hframes, List.map_set, Frame.names_bind, if_pos hb, ← hget, ← List.map_set,
        List.set_getElem_self]
    exact ⟨(List.cons.inj hnames).2, .inl (List.cons.inj hnames).1⟩

/-- A write takes no binding away. -/
theorem lookup_of_write {x : String} (h : c.write? w = some c') (hx : c'.lookup x = none) :
    c.lookup x = none := by
  cases w with
  | define target value =>
    obtain ⟨name, -, rfl⟩ := write?_define h
    rw [lookup_bind] at hx
    split at hx
    · cases hx
    · exact hx
  | assign name value =>
    rw [lookup_assign h] at hx
    split at hx
    · cases hx
    · exact hx

/-! ## The writes of a run -/

/-- What the moments that lead from one chain to another did on the way. -/
structure Confined (c : Chain) (ms : List Moment) (c' : Chain) : Prop where
  leads : c.Leads ms c'
  outer_names : c'.outer.map Frame.names = c.outer.map Frame.names
  /-- Names are appended to those of the current frame, all of them defined by the writes. -/
  current_names : ∃ added, c'.current.names = c.current.names ++ added ∧
    ∀ x ∈ added, ∃ m ∈ ms, ∃ v, m.write = .define (.symbol x) v
  /-- A value that differs was defined in the current frame, or assigned at a moment when its frame
  was the nearest that bound the name. -/
  changed : ∀ i x, c'.valueAt i x ≠ c.valueAt i x → ∃ m ∈ ms, ∃ v,
    (i = 0 ∧ m.write = .define (.symbol x) v) ∨
      (m.chain.distance? x = some i ∧ m.write = .assign x v)

theorem Confined.nil (c : Chain) : c.Confined [] c where
  leads := rfl
  outer_names := rfl
  current_names := ⟨[], (List.append_nil _).symm, by simp⟩
  changed _ _ hne := absurd rfl hne

theorem Confined.cons {c₁ : Chain} (hw : c.write? w = some c₁) (h : c₁.Confined ms c') :
    c.Confined (⟨c, w⟩ :: ms) c' := by
  obtain ⟨houter, hcurrent⟩ := names_write hw
  constructor
  · exact ⟨rfl, c₁, hw, h.leads⟩
  · exact h.outer_names.trans houter
  · obtain ⟨added, hadded, hdefined⟩ := h.current_names
    have hlater : ∀ x ∈ added, ∃ m ∈ (⟨c, w⟩ : Moment) :: ms, ∃ v,
        m.write = .define (.symbol x) v := by
      intro x hx
      obtain ⟨m, hm, hv⟩ := hdefined x hx
      exact ⟨m, List.mem_cons_of_mem _ hm, hv⟩
    rcases hcurrent with heq | ⟨x, v, rfl, heq⟩
    · exact ⟨added, by rw [hadded, heq], hlater⟩
    · refine ⟨x :: added, by rw [hadded, heq, List.append_assoc]; rfl, ?_⟩
      rw [List.forall_mem_cons]
      exact ⟨⟨_, List.mem_cons_self, v, rfl⟩, hlater⟩
  · -- a value that differs in the end was changed by a later write, or else by the first one
    intro i x hne
    by_cases hlater : c'.valueAt i x = c₁.valueAt i x
    · rw [hlater] at hne
      refine ⟨⟨c, w⟩, List.mem_cons_self, ?_⟩
      rcases valueAt_write hw i x with heq | ⟨hi, v, hv⟩ | ⟨hdistance, v, hv⟩
      · exact absurd heq hne
      · exact ⟨v, .inl ⟨hi, hv⟩⟩
      · exact ⟨v, .inr ⟨hdistance, hv⟩⟩
    · obtain ⟨m, hm, hv⟩ := h.changed i x hlater
      exact ⟨m, List.mem_cons_of_mem _ hm, hv⟩

/-- Writes do no more than they say, however many there are. -/
theorem Leads.confined (h : c.Leads ms c') : c.Confined ms c' := by
  induction ms generalizing c with
  | nil =>
    cases h
    exact .nil _
  | cons m ms ih =>
    obtain ⟨rfl, c₁, hw, hms⟩ := h
    exact (ih hms).cons hw

theorem Confined.length_frames (h : c.Confined ms c') : c'.frames.length = c.frames.length := by
  have hlength := congrArg List.length h.outer_names
  rw [List.length_map, List.length_map] at hlength
  exact congrArg Nat.succ hlength

/-- The chain `c` has come about from `c₀` by writes that are instances of the accesses. -/
def Written (A : Set Access) (c₀ c : Chain) : Prop :=
  ∃ ms : List Moment, (∀ m ∈ ms, m.write.access ∈ A) ∧ c₀.Leads ms c

namespace Written

variable {A : Set Access} {c₀ : Chain}

theorem refl (A : Set Access) (c : Chain) : c.Written A c := ⟨[], by simp, rfl⟩

theorem trans {c₁ : Chain} (h : c₀.Written A c₁) (h' : c₁.Written A c) : c₀.Written A c := by
  obtain ⟨ms, hms, hleads⟩ := h
  obtain ⟨ms', hms', hleads'⟩ := h'
  exact ⟨ms ++ ms', List.forall_mem_append.2 ⟨hms, hms'⟩, hleads.append hleads'⟩

theorem single (ha : w.access ∈ A) (hw : c.write? w = some c') : c.Written A c' :=
  ⟨[⟨c, w⟩], List.forall_mem_singleton.2 ha, leads_single hw⟩

/-- What is not bound in the end was not bound before. -/
theorem lookup_eq_none {x : String} (h : c₀.Written A c) (hx : c.lookup x = none) :
    c₀.lookup x = none := by
  obtain ⟨ms, -, hleads⟩ := h
  induction ms generalizing c₀ with
  | nil =>
    cases hleads
    exact hx
  | cons m ms ih =>
    obtain ⟨-, c₁, hw, hms⟩ := hleads
    exact lookup_of_write hw (ih hms)

end Written

end Chain

/-! ## The record of a run -/

/-- The run from the store `s` to the store `t` changed the chain by writes that are instances of
the accesses, and has put them on record. -/
def Store.Wrote (A : Set Access) (s t : Store) : Prop :=
  ∃ ms, t.writes = s.writes ++ ms ∧ (∀ m ∈ ms, m.write.access ∈ A) ∧ s.chain.Leads ms t.chain

namespace Store.Wrote

variable {A : Set Access} {s t : Store}

theorem refl (A : Set Access) (s : Store) : s.Wrote A s :=
  ⟨[], (List.append_nil _).symm, by simp, rfl⟩

/-- One more write is put on record behind the others. -/
theorem wrote {w : Write} {c : Chain} (h : s.Wrote A t) (ha : w.access ∈ A)
    (hw : t.chain.write? w = some c) : s.Wrote A (t.wrote w c) := by
  obtain ⟨ms, hms, haccess, hleads⟩ := h
  refine ⟨ms ++ [⟨t.chain, w⟩], ?_, ?_, hleads.append (Chain.leads_single hw)⟩
  · rw [Store.wrote, hms, List.append_assoc]
  · exact List.forall_mem_append.2 ⟨haccess, List.forall_mem_singleton.2 ha⟩

theorem written (h : s.Wrote A t) : s.chain.Written A t.chain := by
  obtain ⟨ms, -, hms⟩ := h
  exact ⟨ms, hms⟩

theorem confined (h : s.Wrote A t) : ∃ ms, t.writes = s.writes ++ ms ∧
    (∀ m ∈ ms, m.write.access ∈ A) ∧ s.chain.Confined ms t.chain := by
  obtain ⟨ms, hms, haccess, hleads⟩ := h
  exact ⟨ms, hms, haccess, hleads.confined⟩

/-- Who only reads, writes nothing. -/
theorem eq_of_reads (h : s.Wrote A t) (hA : ∀ a ∈ A, ∃ name, a = .read name) :
    t.writes = s.writes ∧ t.chain = s.chain := by
  obtain ⟨ms, hms, haccess, hleads⟩ := h
  cases ms with
  | nil => exact ⟨hms.trans (List.append_nil _), hleads⟩
  | cons m ms =>
    obtain ⟨name, hread⟩ := hA _ (haccess m List.mem_cons_self)
    cases hw : m.write <;> rw [hw] at hread <;> cases hread

end Store.Wrote

end SchemeCore
