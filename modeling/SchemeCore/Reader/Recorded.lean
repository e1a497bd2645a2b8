import SchemeCore.Log
import SchemeCore.Reader.Source

/-!
# Readings on record

A reader puts a failure on record where it makes it, and everything around hands it on without a
further entry. The readers of this module make the same readings as those that keep no record
(`ending_recordSequence` and the like), and say what has been put on record until the reading ends.
-/

namespace SchemeCore.Reader

/-- A reading with its record: how it ends, and the failures that were put on record, oldest
first. -/
structure Recorded (α : Type) where
  ending : Except ReadFailure α
  record : List ReadFailure

namespace Recorded

variable {α β : Type}

/-- Comes to a result. -/
def done (a : α) : Recorded α := ⟨.ok a, []⟩

/-- Gives up, and puts the failure on record. -/
def fail (f : ReadFailure) : Recorded α := ⟨.error f, [f]⟩

/-- A reader without others inside: the failure that it answers with is one that it makes. -/
def ofLeaf : Except ReadFailure α → Recorded α
  | .ok a => done a
  | .error f => fail f

/-- Goes on from the result. A failure is handed on as it is. -/
def andThen (r : Recorded α) (next : (a : α) → r.ending = .ok a → Recorded β) : Recorded β :=
  match h : r.ending with
  | .error f => ⟨.error f, r.record⟩
  | .ok a => ⟨(next a h).ending, r.record ++ (next a h).record⟩

/-- Changes the result. -/
def map (f : α → β) (r : Recorded α) : Recorded β := ⟨r.ending.map f, r.record⟩

theorem ending_ofLeaf (r : Except ReadFailure α) : (ofLeaf r).ending = r := by
  cases r <;> rfl

theorem ending_andThen (r : Recorded α) (next : α → Recorded β) :
    (r.andThen fun a _ => next a).ending = r.ending.bind fun a => (next a).ending := by
  rcases r with ⟨f | a, record⟩ <;> rfl

end Recorded

/-! ## Readers that keep a record -/

/-- A reader of single data that keeps a record, and makes the readings of one that does not. -/
structure Recorder (item : Element) where
  read : Cursor → Recorded (Datum × Cursor)
  ending_read : ∀ c, (read c).ending = item.read c

section

variable {item : Element}

/-- The data from the cursor up to a closing parenthesis, as `readSequence` reads them. -/
def recordSequence (recorder : Recorder item) (opened : Nat) (what : String) (c : Cursor) :
    Recorded (List Datum × Cursor) :=
  (Recorded.ofLeaf (skipAtmosphere c)).andThen fun here _ =>
    match here.rest with
    | [] => .fail ⟨opened, .openSequence what⟩
    | ')' :: _ => .done ([], here.advance 1)
    | _ =>
      (recorder.read here).andThen fun first _ =>
        (recordSequence recorder opened what first.2).map fun (ds, last) => (first.1 :: ds, last)
termination_by c.rest.length
decreasing_by
  rename_i hs hd
  rw [Recorded.ending_ofLeaf] at hs
  rw [recorder.ending_read] at hd
  exact Nat.lt_of_lt_of_le (item.consumes hd) (length_skipAtmosphere hs)

def recordList (recorder : Recorder item) (c : Cursor) : Recorded (Datum × Cursor) :=
  (recordSequence recorder c.pos "list" (c.advance 1)).map fun (ds, next) => (.list ds, next)

def recordVector (recorder : Recorder item) (c : Cursor) : Recorded (Datum × Cursor) :=
  (recordSequence recorder c.pos "vector" (c.advance 2)).map fun (ds, next) => (.vector ds, next)

def recordMarked (recorder : Recorder item) (c : Cursor) : Recorded (Datum × Cursor) :=
  let (mark, width) := shortMark c.rest
  (recorder.read (c.advance width)).map fun (d, next) => (mark.on d, next)

/-- What the `#` at the cursor announces. What announces nothing leaves nothing on record. -/
def recordHash? (recorder : Recorder item) (c : Cursor) : Option (Recorded (Datum × Cursor)) :=
  match c.rest.drop 1 with
  | [] => none
  | '(' :: _ => some (recordVector recorder c)
  | '\\' :: _ => some (.ofLeaf (readCharacter c))
  | ch :: _ =>
    match Text.Radix.ofLetter? ch with
    | some radix => some (.ofLeaf (readNumber c (c.advance 2) radix))
    | none =>
      if Text.foldCase ch = 't' ∨ Text.foldCase ch = 'f' then (readBoolean c).map .done else none

def recordHere (recorder : Recorder item) (c : Cursor) : Recorded (Datum × Cursor) :=
  match c.rest with
  | '"' :: _ => .ofLeaf (readString c)
  | '\'' :: _ | '\x60' :: _ | ',' :: _ => recordMarked recorder c
  | '(' :: _ => recordList recorder c
  | ')' :: _ => .fail ⟨c.pos, .unexpectedClose⟩
  | '#' :: _ => (recordHash? recorder c).getD (.ofLeaf (readSymbol c))
  | ch :: _ =>
    .ofLeaf (if Text.Radix.decimal.isDigit ch then readNumber c c .decimal else readSymbol c)
  | [] => .ofLeaf (readSymbol c)

theorem ending_recordSequence (recorder : Recorder item) (opened : Nat) (what : String)
    (c : Cursor) : (recordSequence recorder opened what c).ending =
      readSequence item opened what c := by
  fun_induction readSequence item opened what c with
  | case1 c f hs =>
    rw [recordSequence, Recorded.ending_andThen, Recorded.ending_ofLeaf, hs]
    rfl
  | case2 c here hs hr =>
    rw [recordSequence, Recorded.ending_andThen, Recorded.ending_ofLeaf, hs]
    simp [Except.bind, hr, Recorded.fail]
  | case3 c here hs cs hr =>
    rw [recordSequence, Recorded.ending_andThen, Recorded.ending_ofLeaf, hs]
    simp [Except.bind, hr, Recorded.done]
  | case4 c here hs f hd hopen hclose =>
    rw [recordSequence, Recorded.ending_andThen, Recorded.ending_ofLeaf, hs]
    dsimp only [Except.bind]
    split
    · contradiction
    · rename_i hr
      exact (hclose _ hr).elim
    · rw [Recorded.ending_andThen, recorder.ending_read, hd]
      rfl
  | case5 c here hs d next hd hlt hopen hclose ih =>
    rw [recordSequence, Recorded.ending_andThen, Recorded.ending_ofLeaf, hs]
    dsimp only [Except.bind]
    split
    · contradiction
    · rename_i hr
      exact (hclose _ hr).elim
    · rw [Recorded.ending_andThen, recorder.ending_read, hd, ← ih]
      rfl

theorem ending_recordMarked (recorder : Recorder item) (c : Cursor) :
    (recordMarked recorder c).ending = readMarked item c :=
  congrArg (Except.map _) (recorder.ending_read _)

theorem ending_recordVector (recorder : Recorder item) (c : Cursor) :
    (recordVector recorder c).ending = readVector item c :=
  congrArg (Except.map _) (ending_recordSequence recorder _ _ _)

theorem ending_recordList (recorder : Recorder item) (c : Cursor) :
    (recordList recorder c).ending = readList item c :=
  congrArg (Except.map _) (ending_recordSequence recorder _ _ _)

theorem ending_recordHash? (recorder : Recorder item) (c : Cursor) :
    (recordHash? recorder c).map Recorded.ending = readHash? item c := by
  fun_cases readHash? item c with
  | case1 hr => simp only [recordHash?, hr, Option.map_none]
  | case2 _ hr =>
    simp only [recordHash?, hr]
    exact congrArg some (ending_recordVector recorder c)
  | case3 _ hr =>
    simp only [recordHash?, hr]
    exact congrArg some (Recorded.ending_ofLeaf _)
  | case4 _ _ _ _ hr _ hletter =>
    simp only [recordHash?, hr, hletter]
    exact congrArg some (Recorded.ending_ofLeaf _)
  | case5 _ _ _ _ hr hletter hboolean =>
    simp only [recordHash?, hr, hletter, if_pos hboolean]
    exact Option.map_map ..
  | case6 _ _ _ _ hr hletter hboolean =>
    simp only [recordHash?, hr, hletter, if_neg hboolean, Option.map_none]

theorem ending_recordHere (recorder : Recorder item) (c : Cursor) :
    (recordHere recorder c).ending = readHere item c := by
  fun_cases readHere item c with
  | case1 _ hr =>
    simp only [recordHere, hr]
    exact Recorded.ending_ofLeaf _
  | case2 _ hr | case3 _ hr | case4 _ hr =>
    simp only [recordHere, hr]
    exact ending_recordMarked recorder c
  | case5 _ hr =>
    simp only [recordHere, hr]
    exact ending_recordList recorder c
  | case6 _ hr =>
    simp only [recordHere, hr]
    rfl
  | case7 _ hr =>
    simp only [recordHere, hr]
    rw [← ending_recordHash? recorder]
    cases recordHash? recorder c with
    | none => exact Recorded.ending_ofLeaf _
    | some r => rfl
  | case8 _ _ _ _ _ _ _ _ _ hr hdigit =>
    simp only [recordHere, hr, if_pos hdigit]
    exact Recorded.ending_ofLeaf _
  | case9 _ _ _ _ _ _ _ _ _ hr hdigit =>
    simp only [recordHere, hr, if_neg hdigit]
    exact Recorded.ending_ofLeaf _
  | case10 hr =>
    simp only [recordHere, hr]
    exact Recorded.ending_ofLeaf _

end

def recordBehind (here : Cursor → Recorded (Datum × Cursor)) (c : Cursor) :
    Recorded (Datum × Cursor) :=
  (Recorded.ofLeaf (skipAtmosphere c)).andThen fun start _ =>
    if start.rest = [] then .fail ⟨start.pos, .endOfInput⟩ else here start

theorem ending_recordBehind {here : Cursor → Recorded (Datum × Cursor)} {plain : Cursor → Reading}
    (h : ∀ c, (here c).ending = plain c) (c : Cursor) :
    (recordBehind here c).ending = readBehind plain c := by
  rw [recordBehind, readBehind, Recorded.ending_andThen, Recorded.ending_ofLeaf]
  cases skipAtmosphere c with
  | error f => rfl
  | ok start =>
    dsimp only [Except.bind]
    split
    · rfl
    · exact h start

/-- The reader that makes the readings of `element limit levels` and keeps a record. -/
def recorder (limit : Int) : (levels : Nat) → Recorder (element limit levels)
  | 0 =>
    ⟨recordBehind fun start => .fail ⟨start.pos, .tooDeep limit⟩, ending_recordBehind fun _ => rfl⟩
  | levels + 1 =>
    ⟨recordBehind fun start => recordHere (recorder limit levels) start,
      ending_recordBehind fun start => ending_recordHere (recorder limit levels) start⟩

/-! ## Texts on record -/

/-- All data from the cursor to the end of the text, as `readRest` reads them. -/
def recordRest {item : Element} (recorder : Recorder item) (c : Cursor) : Recorded (List Datum) :=
  (Recorded.ofLeaf (skipAtmosphere c)).andThen fun here _ =>
    if here.rest = [] then .done []
    else
      (recorder.read here).andThen fun first _ => (recordRest recorder first.2).map (first.1 :: ·)
termination_by c.rest.length
decreasing_by
  rename_i hs _ hd
  rw [Recorded.ending_ofLeaf] at hs
  rw [recorder.ending_read] at hd
  exact Nat.lt_of_lt_of_le (item.consumes hd) (length_skipAtmosphere hs)

theorem ending_recordRest {item : Element} (recorder : Recorder item) (c : Cursor) :
    (recordRest recorder c).ending = readRest item c := by
  fun_induction readRest item c with
  | case1 c f hs =>
    rw [recordRest, Recorded.ending_andThen, Recorded.ending_ofLeaf, hs]
    rfl
  | case2 c here hs hr =>
    rw [recordRest, Recorded.ending_andThen, Recorded.ending_ofLeaf, hs]
    dsimp only [Except.bind]
    rw [if_pos hr]
    rfl
  | case3 c here hs hr f hd =>
    rw [recordRest, Recorded.ending_andThen, Recorded.ending_ofLeaf, hs]
    dsimp only [Except.bind]
    rw [if_neg hr, Recorded.ending_andThen, recorder.ending_read, hd]
    rfl
  | case4 c here hs hr d next hd hlt ih =>
    rw [recordRest, Recorded.ending_andThen, Recorded.ending_ofLeaf, hs]
    dsimp only [Except.bind]
    rw [if_neg hr, Recorded.ending_andThen, recorder.ending_read, hd, ← ih]
    rfl

/-- The first datum of a text, as `readFirst` reads it. -/
def recordFirst (limit : Int) (text : List Char) : Recorded Datum :=
  ((recorder limit (levelsLeft limit 0)).read (.ofPos text 0)).map (·.1)

/-- All data of a text, as `readEvery` reads them. -/
def recordEvery (limit : Int) (text : List Char) : Recorded (List Datum) :=
  recordRest (recorder limit (levelsLeft limit 0)) (.ofPos text 0)

/-- A reading as a caller sees it, and the entries that it has made in the log. -/
def Recorded.inText {α : Type} (r : Recorded α) (text : String) :
    Except ParseFailure α × List Record :=
  (r.ending.mapError (·.inText text), r.record.map fun f => .readFailed (f.inText text))

end SchemeCore.Reader

namespace SchemeCore

/-- Reads the first datum of `text` on record. -/
def readOnRecord (limit : Int) (text : String) : Except ParseFailure Datum × List Record :=
  (Reader.recordFirst limit text.toList).inText text

/-- Reads all data of `text` on record. -/
def readAllOnRecord (limit : Int) (text : String) :
    Except ParseFailure (List Datum) × List Record :=
  (Reader.recordEvery limit text.toList).inText text

end SchemeCore
