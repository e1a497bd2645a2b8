import SchemeCore.Proofs.Reader.Joined
import SchemeCore.Proofs.Reader.Written

/-!
# The characters of a datum

The reader decides on a datum by the characters that it takes, and by no others than the next one.

1. A spelling in front of anything is one in front of whatever ends a token, except for an opening
   parenthesis, which would join a single `#` (`Layout.inFront`). What a reader scans beyond that,
   the token behind a character or the delimiter behind a boolean, is the same there.
2. Readings do not depend on the position they start from, so that nothing in front of the start
   matters (`element_translates`).
-/

namespace SchemeCore.Reader

/-- Behind a closing parenthesis everything looks alike. -/
theorem alike_close (rest rest' : List Char) : Alike (')' :: rest) (')' :: rest') :=
  ⟨rfl, by simp⟩

theorem Delimited.endsNumeral {rest : List Char} (h : Delimited rest) (radix : Text.Radix) :
    EndsNumeral radix rest :=
  fun c hc => isDigit_of_isDelimiter (h c hc) radix

/-- A spelling needs no more behind it than the end of a token, and one with a closing mark of its
own needs nothing. -/
theorem Layout.inFront {d : Datum} {s rest rest' : List Char} (hl : Layout d s rest)
    (hr : Apart rest') : Layout d s rest' :=
  match hl with
  | .string hc => .string hc
  | .list hw hs => .list hw (hs.ahead (alike_close _ _))
  | .vector hw hs => .vector hw (hs.ahead (alike_close _ _))
  | .decimal hn _ => .decimal hn (hr.1.endsNumeral .decimal)
  | .radix base hletter hn _ => .radix base hletter hn (hr.1.endsNumeral base)
  | .boolean hm hs _ => .boolean hm hs hr.1
  | .character _ => .character (spells_token_single hr.1)
  | .characterName hm hs _ => .characterName hm hs hr.1
  | .symbol hn _ _ => .symbol hn hr.1 fun _ => hr.2
  | .marked mark hw hs ha => .marked mark hw (hs.inFront hr) ha

variable {limit depth : Int} {text : List Char} {d : Datum} {next : Cursor}

/-- The characters that a reading took, atmosphere in front included. -/
theorem taken_of_readDatum (h : readDatum limit depth (.ofPos text 0) = .ok (d, next)) :
    ∃ w s, text.take next.pos = w ++ s ∧ next.pos = (w ++ s).length ∧ IsAtmosphere w ∧
      Layout d s next.rest ∧ depth + d.height ≤ limit := by
  obtain ⟨w, s, hw, hl, ⟨hrest, hpos⟩, hheight⟩ := element_sound limit _ h
  have htext : text = w ++ s ++ next.rest := hrest
  have hlength : next.pos = (w ++ s).length := by rw [hpos]; exact Nat.zero_add _
  refine ⟨w, s, ?_, hlength, hw, hl, ?_⟩
  · rw [hlength, htext, List.take_left]
  · unfold levelsLeft at hheight
    omega

/-- The same characters are read in front of whatever ends a token, and behind anything. -/
theorem readDatum_moved (h : readDatum limit depth (.ofPos text 0) = .ok (d, next))
    (before : List Char) {rest : List Char} (hr : Apart rest) :
    readDatum limit depth (.ofPos (before ++ text.take next.pos ++ rest) before.length) =
      .ok (d, .ofPos (before ++ text.take next.pos ++ rest) (before.length + next.pos)) := by
  obtain ⟨w, s, htake, hlength, hw, hl, hheight⟩ := taken_of_readDatum h
  have hspan := span_ofPos before (w ++ s) rest
  have hrest : (Cursor.ofPos (before ++ (w ++ s) ++ rest) (before ++ (w ++ s)).length).rest =
      rest := List.drop_left
  have hlayout : Layout d s
      (Cursor.ofPos (before ++ (w ++ s) ++ rest) (before ++ (w ++ s)).length).rest := by
    rw [hrest]
    exact hl.inFront hr
  rw [htake, hlength, ← List.length_append]
  exact readDatum_of_layout hlayout hw hheight hspan

theorem ofPos_append (before text : List Char) :
    Cursor.ofPos (before ++ text) before.length = (Cursor.ofPos text 0).shift before.length := by
  show Cursor.mk _ _ = Cursor.mk _ _
  rw [List.drop_left]
  rfl

/-- A datum is determined by exactly the characters that it takes. Read behind any others, in front
of the end of the text or of a delimiter that is no opening parenthesis, the same characters give
the same datum and the reader stops right behind them. And whatever stands in front of the start, a
reading ends the same, be it with a datum or with a failure. -/
theorem datum_determined_by_its_characters (limit depth : Int) (text : List Char) :
    (∀ d next, readDatum limit depth (.ofPos text 0) = .ok (d, next) →
      ∀ before rest : List Char, Delimited rest → rest.head? ≠ some '(' →
        let moved := before ++ text.take next.pos ++ rest
        readDatum limit depth (.ofPos moved before.length) =
          .ok (d, .ofPos moved (before.length + next.pos))) ∧
    ∀ before : List Char, readDatum limit depth (.ofPos (before ++ text) before.length) =
      shiftEnd before.length (shiftNext before.length) (readDatum limit depth (.ofPos text 0)) := by
  constructor
  · intro d next h before rest hd hp
    exact readDatum_moved h before ⟨hd, hp⟩
  · intro before
    rw [ofPos_append]
    exact element_translates limit _ before.length _

theorem datum_determined_by_its_characters_named :
    readDatum 0 0 (.ofPos ";c\n#\\tab#".toList 0) = .ok (.char 't', ⟨6, "ab#".toList⟩) ∧
      readDatum 0 0 (.ofPos "(#;c\n#\\t)x".toList 2) = .ok (.char 't', ⟨8, ")x".toList⟩) := by
  have hread : readDatum 0 0 (.ofPos ";c\n#\\tab#".toList 0) =
      .ok (.char 't', ⟨6, "ab#".toList⟩) := by decide
  have hmoved := (datum_determined_by_its_characters 0 0 ";c\n#\\tab#".toList).1 _ _ hread
    "(#".toList ")x".toList (by rintro c ⟨⟩; decide) (by decide)
  exact ⟨hread, hmoved⟩

end SchemeCore.Reader
