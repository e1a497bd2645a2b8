import SchemeCore.Proofs.Reader.Joined

/-!
# The first datum of a text

The reader of the first datum and the reader of all data of a text agree, although they pass over
atmosphere at different places and decide on the end of the text in different ways.

1. What stands behind atmosphere begins with none, so that atmosphere may be passed over twice
   (`skipAtmosphere_idem`, `readBehind_start`).
2. Hence all data are the first one and then the rest (`readRest_of_read_ok`), and where there is no
   first one they fail as it does, unless nothing but atmosphere is left (`readRest_of_read_error`).
3. The rest of a text is read from where its first datum ends as a text of its own is, only further
   on (`readEvery_behind`).
-/

namespace SchemeCore.Reader

/-! ## Atmosphere twice -/

theorem skipAtmosphere_idem {c here : Cursor} (h : skipAtmosphere c = .ok here) :
    skipAtmosphere here = .ok here :=
  scanAtmosphere_of_clear (clear_of_scanAtmosphere h) here.pos

theorem readBehind_start {read : Cursor → Reading} {c here : Cursor}
    (h : skipAtmosphere c = .ok here) : readBehind read here = readBehind read c := by
  rw [readBehind, readBehind, skipAtmosphere_idem h, h]

/-- Whatever the levels, single data are read behind atmosphere. -/
theorem exists_readBehind (limit depth : Int) :
    ∃ here, (elementAt limit depth).read = readBehind here := by
  unfold elementAt
  cases levelsLeft limit depth with
  | zero => exact ⟨_, rfl⟩
  | succ levels => exact ⟨_, rfl⟩

/-! ## One step -/

section

variable {item : Element} {here : Cursor → Reading} (hitem : item.read = readBehind here)
  {c : Cursor}

include hitem

/-- To read all data is to read the first one and then the rest. -/
theorem readRest_of_read_ok {d : Datum} {next : Cursor} (h : item.read c = .ok (d, next)) :
    readRest item c = (readRest item next).map (d :: ·) := by
  rw [hitem] at h
  obtain ⟨start, w, hw, hspan, hne, hclear, -⟩ := readBehind_ok h
  have hs : skipAtmosphere c = .ok start := skipAtmosphere_of_span hspan hw hclear
  apply readRest_ok hs hne
  rw [hitem, readBehind_start hs, h]

/-- Where the first datum is missing, all data fail as it does, unless there are none. -/
theorem readRest_of_read_error {f : ReadFailure} (h : item.read c = .error f) :
    readRest item c = .error f ∨
      readRest item c = .ok [] ∧ f = ⟨c.pos + c.rest.length, .endOfInput⟩ := by
  rw [hitem] at h
  obtain hs | ⟨start, hs, ⟨hend, rfl⟩ | ⟨hne, -⟩⟩ := readBehind_error h
  · left
    rw [readRest_eq, hs]
  · right
    obtain ⟨u, -, hrest, hpos⟩ := skipped_of_skipAtmosphere hs
    rw [hend, List.append_nil] at hrest
    rw [hrest, ← hpos]
    exact ⟨readRest_end hs hend, rfl⟩
  · left
    apply readRest_error hs hne
    rw [hitem, readBehind_start hs, h]

end

/-! ## Texts -/

section

variable {limit : Int} {text : List Char} {d : Datum} {next : Cursor}

theorem readEvery_of_readDatum_ok (h : readDatum limit 0 (.ofPos text 0) = .ok (d, next)) :
    readEvery limit text = (readRest (elementAt limit 0) next).map (d :: ·) := by
  obtain ⟨here, hitem⟩ := exists_readBehind limit 0
  exact readRest_of_read_ok hitem h

theorem readEvery_of_readDatum_error {f : ReadFailure}
    (h : readDatum limit 0 (.ofPos text 0) = .error f) : readEvery limit text = .error f ∨
      readEvery limit text = .ok [] ∧ f = ⟨text.length, .endOfInput⟩ := by
  obtain ⟨here, hitem⟩ := exists_readBehind limit 0
  obtain herror | ⟨hnil, hf⟩ := readRest_of_read_error hitem h
  · exact .inl herror
  · exact .inr ⟨hnil, hf.trans (by rw [Cursor.ofPos, List.drop_zero, Nat.zero_add])⟩

/-- Behind the first datum a text is read as one of its own, further on. -/
theorem readEvery_behind {e : Nat}
    (h : readDatum limit 0 (.ofPos text 0) = .ok (d, .ofPos text e)) :
    readEvery limit text = (shiftEnd e id (readEvery limit (text.drop e))).map (d :: ·) := by
  have hshift : Cursor.ofPos text e = (Cursor.ofPos (text.drop e) 0).shift e := rfl
  have htranslates : (elementAt limit 0).Translates := element_translates limit _
  rw [readEvery_of_readDatum_ok h, hshift, readRest_shift htranslates]
  rfl

theorem readDatum_of_readEvery_cons {ds : List Datum} (h : readEvery limit text = .ok (d :: ds)) :
    ∃ next, readDatum limit 0 (.ofPos text 0) = .ok (d, next) := by
  cases hd : readDatum limit 0 (.ofPos text 0) with
  | error f =>
    obtain herror | ⟨hnil, -⟩ := readEvery_of_readDatum_error hd
    · cases herror.symm.trans h
    · cases hnil.symm.trans h
  | ok p =>
    rw [readEvery_of_readDatum_ok hd] at h
    cases hr : readRest (elementAt limit 0) p.2 <;> rw [hr] at h <;> cases h
    exact ⟨p.2, rfl⟩

/-- A text without data has no first one. -/
theorem readDatum_of_readEvery_nil (h : readEvery limit text = .ok []) :
    readDatum limit 0 (.ofPos text 0) = .error ⟨text.length, .endOfInput⟩ := by
  cases hd : readDatum limit 0 (.ofPos text 0) with
  | error f =>
    obtain herror | ⟨-, rfl⟩ := readEvery_of_readDatum_error hd
    · cases herror.symm.trans h
    · rfl
  | ok p =>
    rw [readEvery_of_readDatum_ok hd] at h
    cases hr : readRest (elementAt limit 0) p.2 <;> rw [hr] at h <;> cases h

end

theorem read_eq_ok {limit : Int} {text : String} {d : Datum} : read limit text = .ok d ↔
    ∃ next, readDatum limit 0 (.ofPos text.toList 0) = .ok (d, next) := by
  unfold read readFirst
  cases readDatum limit 0 (.ofPos text.toList 0) with
  | error f => simp [Except.mapError, Except.map]
  | ok p => simp [Except.mapError, Except.map, Prod.ext_iff]

theorem read_eq_error {limit : Int} {text : String} {f : ParseFailure} :
    read limit text = .error f ↔
      ∃ g, readDatum limit 0 (.ofPos text.toList 0) = .error g ∧ g.inText text = f := by
  unfold read readFirst
  cases readDatum limit 0 (.ofPos text.toList 0) <;> simp [Except.mapError, Except.map]

/-- The first datum of a text is the head of all its data. If all data are read, the first is the
first of them; if there are none, the end of the input is missing it. If the first datum fails, so
do all data with the same failure, unless there are none. And if it is read, it ends at a position
`e` of the text from where the rest is read as a text of its own: all data are the first one and
those of the rest, or the failure of the rest with its position counted on from `e`. -/
theorem first_datum_heads_all_data (limit : Int) (text : String) :
    (∀ v vs, readAll limit text = .ok (v :: vs) → read limit text = .ok v) ∧
    (readAll limit text = .ok [] →
      read limit text = .error ⟨text.length, "unexpected end of input", text⟩) ∧
    (∀ f, read limit text = .error f →
      readAll limit text = .error f ∨ readAll limit text = .ok []) ∧
    ∀ v, read limit text = .ok v → ∃ e, 0 < e ∧ e ≤ text.length ∧
      readDatum limit 0 (.ofPos text.toList 0) = .ok (v, .ofPos text.toList e) ∧
      let rest := String.ofList (text.toList.drop e)
      (∀ vs, readAll limit rest = .ok vs → readAll limit text = .ok (v :: vs)) ∧
      ∀ f, readAll limit rest = .error f →
        readAll limit text = .error ⟨e + f.position, f.message, text⟩ := by
  refine ⟨?_, ?_, ?_, ?_⟩
  · intro v vs h
    exact read_eq_ok.2 (readDatum_of_readEvery_cons (readAll_eq_ok.1 h))
  · intro h
    rw [← String.length_toList]
    exact read_eq_error.2 ⟨_, readDatum_of_readEvery_nil (readAll_eq_ok.1 h), rfl⟩
  · intro f h
    obtain ⟨g, hg, rfl⟩ := read_eq_error.1 h
    obtain herror | ⟨hnil, -⟩ := readEvery_of_readDatum_error hg
    · exact .inl (readAll_eq_error.2 ⟨g, herror, rfl⟩)
    · exact .inr (readAll_eq_ok.2 hnil)
  · intro v h
    obtain ⟨next, hnext⟩ := read_eq_ok.1 h
    obtain ⟨start, e, hspelled, -, rfl, -⟩ := spelledAt_of_readDatum hnext
    have hbehind := readEvery_behind hnext
    refine ⟨e, Nat.lt_of_le_of_lt (Nat.zero_le _) hspelled.start_lt, ?_, hnext, ?_, ?_⟩
    · rw [← String.length_toList]
      exact hspelled.stop_le
    · intro vs hvs
      rw [readAll_eq_ok, String.toList_ofList] at hvs
      rw [readAll_eq_ok, hbehind, hvs]
      rfl
    · intro f hf
      obtain ⟨g, hg, rfl⟩ := readAll_eq_error.1 hf
      rw [String.toList_ofList] at hg
      exact readAll_eq_error.2 ⟨g.shift e, by rw [hbehind, hg]; rfl, rfl⟩

theorem first_datum_heads_all_data_commented :
    let text := "#|c|##t )"
    let unexpected : String → Nat → ParseFailure := fun text pos => ⟨pos, "unexpected ')'", text⟩
    readDatum 0 0 (.ofPos text.toList 0) = .ok (.boolean true, .ofPos text.toList 7) ∧
      read 0 text = .ok (.boolean true) ∧ readAll 0 " )" = .error (unexpected " )" 1) ∧
      readAll 0 text = .error (unexpected text 8) ∧
      readAll 0 "#t;c" = .ok [.boolean true] ∧ read 0 "#t;c" = .ok (.boolean true) ∧
      readAll 0 " ;c" = .ok [] ∧ read 0 " ;c" = .error ⟨3, "unexpected end of input", " ;c"⟩ ∧
      read 0 " )" = .error (unexpected " )" 1) ∧
      (readAll 0 " )" = .error (unexpected " )" 1) ∨ readAll 0 " )" = .ok []) := by
  intro text unexpected
  have htrue (rest : List Char) (hr : Delimited rest) : Layout (.boolean true) "#t".toList rest :=
    .boolean (show ("t", true) ∈ booleanNames by decide) (by decide) hr
  have hcomment : IsAtmosphere "#|c|#".toList :=
    .blockComment (.plain (by decide) (by decide) .last) .nil
  have hspan : (Cursor.ofPos text.toList 0).Span ("#|c|#".toList ++ "#t".toList)
      (.ofPos text.toList 7) := ⟨by decide, by decide⟩
  have hend : readDatum 0 0 (.ofPos text.toList 0) = .ok (.boolean true, .ofPos text.toList 7) :=
    readDatum_of_layout (htrue _ (delimited_iff.2 (by decide))) hcomment (by decide) hspan
  have hread : read 0 text = .ok (.boolean true) := read_eq_ok.2 ⟨_, hend⟩
  have hrest : readAll 0 " )" = .error (unexpected " )" 1) :=
    readAll_eq_error.2 ⟨⟨1, .unexpectedClose⟩, by rw [readEvery, readRest_eq]; rfl, by decide⟩
  have hfirst : read 0 " )" = .error (unexpected " )" 1) := by
    refine read_eq_error.2 ⟨⟨1, .unexpectedClose⟩, ?_, by decide⟩
    rw [readDatum, elementAt, levelsLeft_of_le (by decide)]
    rfl
  have hall : readAll 0 "#t;c" = .ok [.boolean true] :=
    readAll_eq_ok.2 (readEvery_of_layouts .nil
      (.cons (htrue _ (delimited_iff.2 (by decide))) .nil .nil)
      (.inr ⟨rfl, ['c'], rfl, by decide⟩) (by decide))
  have hnone : readAll 0 " ;c" = .ok [] :=
    readAll_eq_ok.2 (readEvery_of_layouts (.blank (by decide) .nil) .nil
      (.inr ⟨rfl, ['c'], rfl, by decide⟩) (by decide))
  obtain ⟨e, -, -, hdatum, -, herror⟩ := (first_datum_heads_all_data 0 text).2.2.2 _ hread
  obtain rfl : e = 7 :=
    congrArg Cursor.pos (Prod.ext_iff.1 (Except.ok.inj (hdatum.symm.trans hend))).2
  rw [show String.ofList (text.toList.drop 7) = " )" by decide] at herror
  exact ⟨hend, hread, hrest, herror _ hrest, hall,
    (first_datum_heads_all_data 0 "#t;c").1 _ _ hall, hnone,
    (first_datum_heads_all_data 0 " ;c").2.1 hnone, hfirst,
    (first_datum_heads_all_data 0 " )").2.2.1 _ hfirst⟩

end SchemeCore.Reader
