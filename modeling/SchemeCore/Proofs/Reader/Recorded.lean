import SchemeCore.Reader.Recorded

/-!
# What readers put on record

A failure is put on record once, where it is made, and then handed on. So the record of a reading
holds the failure in which it ends and nothing else (`Recorded.Once`): a `#` that announces nothing
leaves no entry behind, and a failure deep inside a datum gets no second one on the way out. There
is a rule for each step that readings are put together from, and the readers follow by these
rules.
-/

namespace SchemeCore

/-- The entries that a reading is to make: one for its failure. -/
def readRecords {α : Type} : Except ParseFailure α → List Record
  | .ok _ => []
  | .error f => [.readFailed f]

namespace Reader

/-! ## Steps -/

namespace Recorded

variable {α β : Type} {r : Recorded α}

/-- The record holds the failure that the reading ends in, or nothing if it ends in a result. -/
def Once (r : Recorded α) : Prop :=
  r.record = match r.ending with
    | .ok _ => []
    | .error f => [f]

theorem once_done (a : α) : (done a).Once := rfl

theorem once_fail (f : ReadFailure) : (fail f : Recorded α).Once := rfl

theorem once_ofLeaf (x : Except ReadFailure α) : (ofLeaf x).Once := by
  cases x <;> rfl

theorem Once.map (h : r.Once) (f : α → β) : (r.map f).Once := by
  rcases r with ⟨_ | a, record⟩ <;> exact h

/-- A failure is handed on with its entry, and behind a result there is no entry yet. -/
theorem Once.andThen {next : (a : α) → r.ending = .ok a → Recorded β} (h : r.Once)
    (hnext : ∀ a ha, (next a ha).Once) : (r.andThen next).Once := by
  rcases r with ⟨f | a, record⟩
  · exact h
  · have hrecord : record = [] := h
    subst hrecord
    exact hnext a rfl

theorem Once.inText (h : r.Once) (text : String) : r.inText text =
    (r.ending.mapError (·.inText text), readRecords (r.ending.mapError (·.inText text))) := by
  rcases r with ⟨f | a, record⟩
  · have hrecord : record = [f] := h
    subst hrecord
    rfl
  · have hrecord : record = [] := h
    subst hrecord
    rfl

end Recorded

open Recorded

/-! ## Readers -/

section

variable {item : Element} {recorder : Recorder item}

theorem once_recordSequence (h : ∀ c, (recorder.read c).Once) (opened : Nat) (what : String)
    (c : Cursor) : (recordSequence recorder opened what c).Once := by
  fun_induction recordSequence recorder opened what c with
  | case1 c ih =>
    refine (once_ofLeaf _).andThen fun here hs => ?_
    split
    · exact once_fail _
    · exact once_done _
    · exact (h here).andThen fun first hd => (ih here hs first hd).map _

/-- What is given up as no announcement has left no entry. -/
theorem once_recordHash? (h : ∀ c, (recorder.read c).Once) (c : Cursor) :
    ∀ r ∈ recordHash? recorder c, r.Once := by
  unfold recordHash?
  intro r hr
  split at hr
  · cases hr
  · cases hr
    exact (once_recordSequence h _ _ _).map _
  · cases hr
    exact once_ofLeaf _
  · split at hr
    · cases hr
      exact once_ofLeaf _
    · split at hr
      · obtain ⟨p, -, rfl⟩ := Option.map_eq_some_iff.1 hr
        exact once_done p
      · cases hr

theorem once_recordHere (h : ∀ c, (recorder.read c).Once) (c : Cursor) :
    (recordHere recorder c).Once := by
  unfold recordHere
  split
  · exact once_ofLeaf _
  · exact (h _).map _
  · exact (h _).map _
  · exact (h _).map _
  · exact (once_recordSequence h _ _ _).map _
  · exact once_fail _
  · cases hr : recordHash? recorder c with
    | none => exact once_ofLeaf _
    | some r => exact once_recordHash? h c r hr
  · exact once_ofLeaf _
  · exact once_ofLeaf _

theorem once_recordRest (h : ∀ c, (recorder.read c).Once) (c : Cursor) :
    (recordRest recorder c).Once := by
  fun_induction recordRest recorder c with
  | case1 c ih =>
    refine (once_ofLeaf _).andThen fun here hs => ?_
    split
    · exact once_done _
    · exact (h here).andThen fun first hd => (ih here hs first hd).map _

end

theorem once_recordBehind {here : Cursor → Recorded (Datum × Cursor)} (h : ∀ c, (here c).Once)
    (c : Cursor) : (recordBehind here c).Once := by
  refine (once_ofLeaf _).andThen fun start _ => ?_
  split
  · exact once_fail _
  · exact h start

/-- However deep data nest, a failure in them has one entry. -/
theorem once_recorder (limit : Int) (levels : Nat) (c : Cursor) :
    ((recorder limit levels).read c).Once := by
  induction levels generalizing c with
  | zero => exact once_recordBehind (fun _ => once_fail _) c
  | succ levels ih => exact once_recordBehind (fun start => once_recordHere ih start) c

end Reader

/-! ## Texts -/

theorem readOnRecord_eq (limit : Int) (text : String) :
    readOnRecord limit text = (read limit text, readRecords (read limit text)) := by
  have honce : (Reader.recordFirst limit text.toList).Once :=
    (Reader.once_recorder limit _ _).map _
  have hending : (Reader.recordFirst limit text.toList).ending =
      Reader.readFirst limit text.toList :=
    congrArg (Except.map _) ((Reader.recorder limit _).ending_read _)
  rw [readOnRecord, honce.inText, hending]
  rfl

theorem readAllOnRecord_eq (limit : Int) (text : String) :
    readAllOnRecord limit text = (readAll limit text, readRecords (readAll limit text)) := by
  have honce : (Reader.recordEvery limit text.toList).Once :=
    Reader.once_recordRest (Reader.once_recorder limit _) _
  have hending : (Reader.recordEvery limit text.toList).ending =
      Reader.readEvery limit text.toList := Reader.ending_recordRest _ _
  rw [readAllOnRecord, honce.inText, hending]
  rfl

end SchemeCore
