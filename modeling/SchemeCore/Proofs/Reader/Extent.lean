import SchemeCore.Proofs.Reader.Soundness

/-!
# Where data are read

The reader drops no character and takes in no other. A datum that is read at a position of a text
is spelled by the characters of the text between the atmosphere there and the position that the
reader answers with (`SpelledAt`), and a text whose data are all read is made of their spellings and
of atmosphere. With the limit on nesting these are also the only conditions.

A last line comment may be cut off by the end of the text (`CutOff`).
-/

namespace SchemeCore

/-! ## Spans of a text -/

namespace Cursor.Span

variable {text : List Char} {pos stop : Nat}

theorem extract (h : pos ≤ stop) (hs : stop ≤ text.length) :
    (ofPos text pos).Span (text.extract pos stop) (ofPos text stop) := by
  have hlen : (text.extract pos stop).length = stop - pos := by
    rw [List.extract_eq_take_drop, List.length_take, List.length_drop]
    omega
  constructor
  · show text.drop pos = text.extract pos stop ++ text.drop stop
    rw [List.extract_eq_take_drop, show text.drop stop = (text.drop pos).drop (stop - pos) by
      rw [List.drop_drop, show pos + (stop - pos) = stop by omega]]
    exact (List.take_append_drop ..).symm
  · show stop = pos + _
    rw [hlen]
    omega

/-- A span that starts at a position of the text ends at one, and is what stands between them. -/
theorem eq_extract {s : List Char} {next : Cursor} (h : (ofPos text pos).Span s next) :
    next = ofPos text (pos + s.length) ∧ s = text.extract pos (pos + s.length) := by
  obtain ⟨hr, hp⟩ := h
  have hdrop : text.drop pos = s ++ next.rest := hr
  constructor
  · show next = ⟨pos + s.length, text.drop (pos + s.length)⟩
    rw [← List.drop_drop, hdrop, List.drop_left, ← show next.pos = pos + s.length from hp]
  · rw [List.extract_eq_take_drop, hdrop, Nat.add_sub_cancel_left, List.take_left]

theorem end_le_length {s : List Char} {next : Cursor} (h : (ofPos text pos).Span s next)
    (hs : s ≠ []) : pos + s.length ≤ text.length := by
  have hlen : text.length - pos = s.length + next.rest.length := by
    rw [← List.length_drop, ← List.length_append]
    exact congrArg List.length h.1
  have hpos := List.length_pos_iff.2 hs
  omega

end Cursor.Span

namespace Reader

/-! ## Data at positions -/

/-- From `start` to `stop` the characters of the text spell the datum, and from `pos` to `start`
there is nothing but atmosphere. -/
structure SpelledAt (text : List Char) (pos start stop : Nat) (d : Datum) : Prop where
  le_start : pos ≤ start
  start_lt : start < stop
  stop_le : stop ≤ text.length
  atmosphere : IsAtmosphere (text.extract pos start)
  layout : Layout d (text.extract start stop) (text.drop stop)

variable {limit depth : Int} {text : List Char} {pos : Nat} {d : Datum} {next : Cursor}

theorem spelledAt_of_readDatum (h : readDatum limit depth (.ofPos text pos) = .ok (d, next)) :
    ∃ start stop, SpelledAt text pos start stop d ∧
      skipAtmosphere (.ofPos text pos) = .ok (.ofPos text start) ∧ next = .ofPos text stop ∧
      depth + d.height ≤ limit := by
  obtain ⟨w, s, hw, hl, hspan, hheight⟩ := element_sound limit _ h
  obtain ⟨⟨ch, s', hs, -⟩, hclear⟩ := hl.head
  have hfront := hspan.front
  have hbehind := hspan.behind
  obtain ⟨hstart, hatmosphere⟩ := hfront.eq_extract
  rw [hstart] at hfront hbehind
  obtain ⟨hstop, hlayout⟩ := hbehind.eq_extract
  have hskip : skipAtmosphere (.ofPos text pos) = .ok (.ofPos text (pos + w.length)) := by
    apply skipAtmosphere_of_span hfront hw
    rw [hbehind.1]
    exact hclear
  refine ⟨pos + w.length, pos + w.length + s.length, ⟨?_, ?_, ?_, ?_, ?_⟩, hskip, hstop, ?_⟩
  · exact Nat.le_add_right _ _
  · rw [hs, List.length_cons]
    omega
  · exact hbehind.end_le_length (by simp [hs])
  · rwa [← hatmosphere]
  · rw [← hlayout]
    rwa [hstop] at hl
  · unfold levelsLeft at hheight
    omega

theorem readDatum_of_spelledAt {start stop : Nat} (h : SpelledAt text pos start stop d)
    (hd : depth + d.height ≤ limit) :
    readDatum limit depth (.ofPos text pos) = .ok (d, .ofPos text stop) := by
  have hstart : start ≤ text.length := Nat.le_trans h.start_lt.le h.stop_le
  exact readDatum_of_layout h.layout h.atmosphere hd
    ((Cursor.Span.extract h.le_start hstart).trans (.extract h.start_lt.le h.stop_le))

/-! ## All data of a text -/

theorem scanAtmosphere_unended {comment : List Char} (h : '\n' ∉ comment) (pos : Nat) :
    scanAtmosphere .lineComment pos comment = .ok ⟨pos + comment.length, []⟩ := by
  induction comment generalizing pos with
  | nil => rfl
  | cons c comment ih =>
    simp only [List.mem_cons, not_or] at h
    rw [scanAtmosphere, if_neg (Ne.symm h.1), ih h.2, List.length_cons]
    congr 2
    omega

/-- A cut off comment reaches to the end of the text. -/
theorem CutOff.skipAtmosphere {line : List Char} (h : CutOff line []) (pos : Nat) :
    skipAtmosphere ⟨pos, line⟩ = .ok ⟨pos + line.length, []⟩ := by
  rcases h with rfl | ⟨-, comment, rfl, hc⟩
  · rfl
  · show scanAtmosphere .between pos (';' :: comment) = _
    rw [scanAtmosphere, if_neg (by decide), if_pos rfl, scanAtmosphere_unended hc,
      List.length_cons]
    · congr 2
      omega
    · exact fun cs hc => absurd hc (by decide)

theorem readEvery_of_layouts {ds : List Datum} {w s line : List Char} (hw : IsAtmosphere w)
    (hl : LayoutItems ds s line) (hc : CutOff line []) (hd : ∀ d ∈ ds, (d.height : Int) ≤ limit) :
    readEvery limit (w ++ s ++ line) = .ok ds := by
  have hspan : (Cursor.ofPos (w ++ s ++ line) 0).Span (w ++ s) ⟨0 + (w ++ s).length, line⟩ :=
    ⟨rfl, rfl⟩
  rw [readEvery, readRest_span hl hw hd hspan, readRest_end (hc.skipAtmosphere _) rfl]
  exact congrArg Except.ok (List.append_nil ds)

/-- The reader accepts nothing but layouts and drops no character. A datum is read at a position of
a text if and only if it is spelled there behind atmosphere, down to the position that the reader
answers with, and the limit leaves room for it. All data of a text are read if and only if the text
is made of their spellings, of atmosphere around them and of a cut off comment at its end. -/
theorem reads_exactly_layouts (limit : Int) (text : String) :
    (∀ (depth : Int) (pos : Nat) (d : Datum) (next : Cursor),
      readDatum limit depth (.ofPos text.toList pos) = .ok (d, next) ↔
        ∃ start stop, SpelledAt text.toList pos start stop d ∧
          skipAtmosphere (.ofPos text.toList pos) = .ok (.ofPos text.toList start) ∧
          next = .ofPos text.toList stop ∧ depth + d.height ≤ limit) ∧
    (∀ ds, readAll limit text = .ok ds ↔
      (∃ w s line, text.toList = w ++ s ++ line ∧ IsAtmosphere w ∧ LayoutItems ds s line ∧
        CutOff line []) ∧ ∀ d ∈ ds, (d.height : Int) ≤ limit) := by
  refine ⟨fun depth pos d next => ⟨spelledAt_of_readDatum, ?_⟩, fun ds => ?_⟩
  · rintro ⟨start, stop, hspelled, -, rfl, hd⟩
    exact readDatum_of_spelledAt hspelled hd
  · rw [readAll_eq_ok]
    constructor
    · intro h
      exact span_of_readRest h
    · rintro ⟨⟨w, s, line, htext, hw, hl, hc⟩, hd⟩
      rw [htext]
      exact readEvery_of_layouts hw hl hc hd

theorem reads_exactly_layouts_commented :
    let text := "x#|c|##('a #T);y"
    let d : Datum := .vector [Mark.quote.on (.symbol "a"), .boolean true]
    SpelledAt text.toList 1 6 14 d ∧
      readDatum 3 1 (.ofPos text.toList 1) = .ok (d, .ofPos text.toList 14) ∧
      readAll 2 "#('a #T);y" = .ok [d] ∧
      ∃ w s line, "#('a #T);y".toList = w ++ s ++ line ∧ IsAtmosphere w ∧
        LayoutItems [d] s line ∧ CutOff line [] := by
  intro text d
  have hname : IsName ['a'] := isName_of_all (by decide) (by decide) (by decide) (by decide)
  have hmarked : Layout (Mark.quote.on (.symbol "a")) ['\'', 'a'] " #T);y".toList :=
    .marked .quote .nil (.symbol hname (by rintro c ⟨⟩; decide) (by rintro ⟨⟩)) (by rintro ⟨⟩)
  have htrue : Layout (.boolean true) ['#', 'T'] ");y".toList :=
    .boolean (show ("t", true) ∈ booleanNames by decide) (by decide) (by rintro c ⟨⟩; decide)
  have hlayout : Layout d "#('a #T)".toList ";y".toList :=
    .vector .nil (.cons hmarked (.blank (by decide) .nil) (.cons htrue .nil .nil))
  have hcomment : IsAtmosphere "#|c|#".toList :=
    .blockComment (.plain (by decide) (by decide) .last) .nil
  have hspelled : SpelledAt text.toList 1 6 14 d := by
    refine ⟨by decide, by decide, by decide, ?_, ?_⟩
    · rwa [show text.toList.extract 1 6 = "#|c|#".toList by decide]
    · rwa [show text.toList.extract 6 14 = "#('a #T)".toList by decide,
        show text.toList.drop 14 = ";y".toList by decide]
  have hread : readDatum 3 1 (.ofPos text.toList 1) = .ok (d, .ofPos text.toList 14) :=
    ((reads_exactly_layouts 3 text).1 1 1 d _).2 ⟨6, 14, hspelled, by decide, rfl, by decide⟩
  have hitems : ∃ w s line, "#('a #T);y".toList = w ++ s ++ line ∧ IsAtmosphere w ∧
      LayoutItems [d] s line ∧ CutOff line [] :=
    ⟨[], _, ";y".toList, rfl, .nil, .cons hlayout .nil .nil, .inr ⟨rfl, ['y'], rfl, by decide⟩⟩
  exact ⟨hspelled, hread,
    ((reads_exactly_layouts 2 "#('a #T);y").2 [d]).2 ⟨hitems, by decide⟩, hitems⟩

end Reader

end SchemeCore
