import SchemeCore.Datum.Mark
import SchemeCore.Depth
import SchemeCore.Reader.Atmosphere
import SchemeCore.Reader.Token

/-!
# Data in the source text

A datum nests data, each of which is read by an `Element`: a reader that takes at least one
character for each datum that it reads. `readHere` reads the datum at a cursor with the help of the
reader for the data one level further in, and `element limit levels` is the reader for data that
may nest `levels` levels including their own (`levelsLeft`).
-/

namespace SchemeCore.Reader

/-- A reader of single data that never stands still. -/
structure Element where
  read : Cursor → Reading
  consumes : ∀ {c next : Cursor} {d : Datum}, read c = .ok (d, next) →
    next.rest.length < c.rest.length

/-- The data from the cursor up to a closing parenthesis, and the cursor behind it. Its absence is
blamed on `opened`, where the run called `what` was opened. -/
def readSequence (item : Element) (opened : Nat) (what : String) (c : Cursor) :
    Except ReadFailure (List Datum × Cursor) :=
  match hs : skipAtmosphere c with
  | .error f => .error f
  | .ok here =>
    match here.rest with
    | [] => .error ⟨opened, .openSequence what⟩
    | ')' :: _ => .ok ([], here.advance 1)
    | _ =>
      match hd : item.read here with
      | .error f => .error f
      | .ok (d, next) =>
        have : next.rest.length < c.rest.length :=
          Nat.lt_of_lt_of_le (item.consumes hd) (length_skipAtmosphere hs)
        (readSequence item opened what next).map fun (ds, last) => (d :: ds, last)
termination_by c.rest.length

/-- The list whose opening parenthesis stands at the cursor. -/
def readList (item : Element) (c : Cursor) : Reading :=
  (readSequence item c.pos "list" (c.advance 1)).map fun (ds, next) => (.list ds, next)

/-- The vector whose `#(` stands at the cursor. -/
def readVector (item : Element) (c : Cursor) : Reading :=
  (readSequence item c.pos "vector" (c.advance 2)).map fun (ds, next) => (.vector ds, next)

/-- The mark that `cs` starts with in its short form, and the width of that form. -/
def shortMark : (cs : List Char) → Mark × Nat
  | ',' :: '@' :: _ => (.unquoteSplicing, 2)
  | '\'' :: _ => (.quote, 1)
  | '\x60' :: _ => (.quasiquote, 1)
  | _ => (.unquote, 1)

/-- The marked datum whose mark stands at the cursor in its short form. -/
def readMarked (item : Element) (c : Cursor) : Reading :=
  let (mark, width) := shortMark c.rest
  (item.read (c.advance width)).map fun (d, next) => (mark.on d, next)

/-- What the `#` at the cursor announces: a vector, a character, a number with a radix or a
boolean, or nothing of the kind. -/
def readHash? (item : Element) (c : Cursor) : Option Reading :=
  match c.rest.drop 1 with
  | [] => none
  | '(' :: _ => some (readVector item c)
  | '\\' :: _ => some (readCharacter c)
  | ch :: _ =>
    match Text.Radix.ofLetter? ch with
    | some radix => some (readNumber c (c.advance 2) radix)
    | none =>
      if Text.foldCase ch = 't' ∨ Text.foldCase ch = 'f' then (readBoolean c).map .ok else none

/-- The datum that starts at the cursor itself. A `#` that announces nothing begins a symbol. -/
def readHere (item : Element) (c : Cursor) : Reading :=
  match c.rest with
  | '"' :: _ => readString c
  | '\'' :: _ | '\x60' :: _ | ',' :: _ => readMarked item c
  | '(' :: _ => readList item c
  | ')' :: _ => .error ⟨c.pos, .unexpectedClose⟩
  | '#' :: _ => (readHash? item c).getD (readSymbol c)
  | ch :: _ => if Text.Radix.decimal.isDigit ch then readNumber c c .decimal else readSymbol c
  | [] => readSymbol c

/-- Reads behind atmosphere what `here` reads, which the end of the text does not let begin. -/
def readBehind (here : Cursor → Reading) (c : Cursor) : Reading :=
  match skipAtmosphere c with
  | .error f => .error f
  | .ok start => if start.rest = [] then .error ⟨start.pos, .endOfInput⟩ else here start

/-! ## Progress -/

/-- A change of the value alone keeps the cursor. -/
theorem ok_of_map_ok {α β : Type} {r : Except ReadFailure (α × Cursor)}
    {f : α × Cursor → β × Cursor} (hf : ∀ p, (f p).2 = p.2) {b : β} {next : Cursor}
    (h : r.map f = .ok (b, next)) :
    ∃ a, r = .ok (a, next) := by
  cases r with
  | error e => simp [Except.map] at h
  | ok p =>
    simp only [Except.map, Except.ok.injEq] at h
    exact ⟨p.1, by rw [← show p.2 = next by rw [← hf p, h]]⟩

theorem length_readSequence {item : Element} {opened : Nat} {what : String} {c next : Cursor}
    {ds : List Datum} (h : readSequence item opened what c = .ok (ds, next)) :
    next.rest.length < c.rest.length := by
  fun_induction readSequence item opened what c generalizing ds next with
  | case1 | case2 | case4 => simp at h
  | case3 c here hs cs hr =>
    have := length_skipAtmosphere hs
    simp only [Except.ok.injEq, Prod.mk.injEq] at h
    rw [← h.2, Cursor.rest_advance, hr]
    simp only [hr, List.length_cons] at this
    simp
    omega
  | case5 c here hs d mid _ hlt _ _ ih =>
    obtain ⟨ds', hm⟩ := ok_of_map_ok (by simp) h
    exact Nat.lt_trans (ih hm) hlt

theorem length_advance_le (c : Cursor) (n : Nat) : (c.advance n).rest.length ≤ c.rest.length := by
  simp

theorem length_readList {item : Element} {c next : Cursor} {d : Datum}
    (h : readList item c = .ok (d, next)) : next.rest.length < c.rest.length := by
  obtain ⟨ds, hs⟩ := ok_of_map_ok (by simp) h
  exact Nat.lt_of_lt_of_le (length_readSequence hs) (length_advance_le c 1)

theorem length_readVector {item : Element} {c next : Cursor} {d : Datum}
    (h : readVector item c = .ok (d, next)) : next.rest.length < c.rest.length := by
  obtain ⟨ds, hs⟩ := ok_of_map_ok (by simp) h
  exact Nat.lt_of_lt_of_le (length_readSequence hs) (length_advance_le c 2)

theorem length_readMarked {item : Element} {c next : Cursor} {d : Datum}
    (h : readMarked item c = .ok (d, next)) : next.rest.length < c.rest.length := by
  obtain ⟨d, hs⟩ := ok_of_map_ok (by simp) h
  exact Nat.lt_of_lt_of_le (item.consumes hs) (length_advance_le c _)

theorem length_readHash {item : Element} {c next : Cursor} {d : Datum}
    (h : readHash? item c = some (.ok (d, next))) (hc : c.rest ≠ []) :
    next.rest.length < c.rest.length := by
  unfold readHash? at h
  split at h
  · simp at h
  · exact length_readVector (Option.some.inj h)
  · exact length_readCharacter (Option.some.inj h)
  · split at h
    · exact Nat.lt_of_lt_of_le (length_readNumber (Option.some.inj h)) (length_advance_le c 2)
    · split at h
      · simp only [Option.map_eq_some_iff, Except.ok.injEq, exists_eq_right] at h
        exact length_readBoolean h hc
      · simp at h

/-- A datum takes at least one character, where the cursor stands on neither white space nor a
semicolon. -/
theorem length_readHere {item : Element} {c next : Cursor} {d : Datum}
    (h : readHere item c = .ok (d, next)) (hc : c.rest ≠ [])
    (hh : ∀ {ch rest}, c.rest = ch :: rest → Text.isBlank ch = false ∧ ch ≠ ';') :
    next.rest.length < c.rest.length := by
  unfold readHere at h
  split at h
  · exact length_readString h hc
  · exact length_readMarked h
  · exact length_readMarked h
  · exact length_readMarked h
  · exact length_readList h
  · simp at h
  · rename_i rest hr
    cases hx : readHash? item c with
    | none =>
      rw [hx] at h
      exact length_readSymbol h hr (by decide)
    | some r =>
      rw [hx] at h
      simp only [Option.getD_some] at h
      rw [h] at hx
      exact length_readHash hx hc
  · rename_i ch rest h1 h2 h3 h4 h5 h6 h7 hr
    split at h
    · exact length_readNumber h
    · refine length_readSymbol h hr ?_
      obtain ⟨hb, hsemi⟩ := hh hr
      simp_all [Cursor.isDelimiter, Cursor.delimiters]
  · contradiction

theorem length_readBehind {here : Cursor → Reading} {c next : Cursor} {d : Datum}
    (h : readBehind here c = .ok (d, next))
    (hh : ∀ {start}, skipAtmosphere c = .ok start → start.rest ≠ [] →
      here start = .ok (d, next) → next.rest.length < start.rest.length) :
    next.rest.length < c.rest.length := by
  unfold readBehind at h
  split at h
  · simp at h
  · rename_i start hs
    split at h
    · simp at h
    · rename_i hne
      exact Nat.lt_of_lt_of_le (hh hs hne h) (length_skipAtmosphere hs)

/-- The reader for data that may nest `levels` levels including their own. The reader for the data
inside is made where one of them is read, so levels that a text does not reach cost nothing. -/
def element (limit : Int) : (levels : Nat) → Element
  | 0 =>
    ⟨readBehind fun start => .error ⟨start.pos, .tooDeep limit⟩, fun h =>
      length_readBehind h fun _ _ hd => by simp at hd⟩
  | levels + 1 =>
    ⟨readBehind fun start => readHere (element limit levels) start, fun h =>
      length_readBehind h fun hs hne hd => length_readHere hd hne (head_skipAtmosphere hs)⟩

/-- The reader for data at `depth`. -/
def elementAt (limit depth : Int) : Element := element limit (levelsLeft limit depth)

/-- The first datum at or behind the cursor, at `depth`. -/
def readDatum (limit depth : Int) (c : Cursor) : Reading := (elementAt limit depth).read c

end SchemeCore.Reader
