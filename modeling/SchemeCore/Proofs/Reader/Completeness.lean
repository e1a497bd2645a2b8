import SchemeCore.Proofs.Datum
import SchemeCore.Proofs.Reader.Token
import SchemeCore.Reader.Source

/-!
# Every layout is read

`readDatum` reads each layout of a datum behind any atmosphere, and stops right behind it, as long
as the datum nests no deeper than the limit allows.

1. A layout begins with a character that is neither atmosphere nor a closing parenthesis
   (`Layout.head`), so the reader finds its beginning.
2. By its first characters `readHere` hands it to the reader for data of its kind; the layouts of
   atoms are read by those (`readHere_of_layout`, the cases without elements).
3. Elements are read one level further in. The induction is over the rules of `Layout` and
   `LayoutItems` at once.
-/

namespace SchemeCore.Reader

/-! ## First characters -/

theorem isDigit_iff (c : Char) : c.isDigit = true ↔ 48 ≤ c.toNat ∧ c.toNat ≤ 57 := by
  simp [Char.isDigit, UInt32.le_iff_toNat_le]

theorem isDigit_decimal (c : Char) : Text.Radix.decimal.isDigit c = c.isDigit := by
  have hle : ∀ a b : Char, a ≤ b ↔ a.toNat ≤ b.toNat := fun a b => UInt32.le_iff_toNat_le
  rw [Bool.eq_iff_iff, isDigit_iff]
  unfold Text.Radix.isDigit Text.digitValue? Text.Radix.base
  simp only [hle, Option.any_eq_true, decide_eq_true_eq, Char.reduceToNat]
  split_ifs <;> simp <;> omega

theorem isDelimiter_eq_false {c : Char} (h : Cursor.isDelimiter c = false) :
    Text.isBlank c = false ∧ c ≠ '(' ∧ c ≠ ')' ∧ c ≠ '"' ∧ c ≠ ';' ∧ c ≠ '\'' ∧ c ≠ '\x60' ∧
      c ≠ ',' := by
  rw [← Bool.not_eq_true, isDelimiter_iff] at h
  push Not at h
  simpa using h

theorem isDelimiter_of_isDigit {c : Char} (h : c.isDigit = true) :
    Cursor.isDelimiter c = false := by
  by_contra hc
  rw [Bool.not_eq_false] at hc
  exact (toNat_of_isDelimiter hc).1 ((isDigit_iff c).1 h)

theorem clear_of_head {c : Char} {cs : List Char} (hc : c ≠ '#') (hb : Text.isBlank c = false)
    (hs : c ≠ ';') : Clear (c :: cs) := by
  constructor
  · rintro ⟨t, ht⟩
    rw [List.cons_append, List.cons.injEq] at ht
    exact hc ht.1.symm
  · rintro d ⟨⟩
    exact ⟨hb, hs⟩

theorem clear_of_hash {cs : List Char} (hc : cs.head? ≠ some '|') : Clear ('#' :: cs) := by
  constructor
  · rintro ⟨t, ht⟩
    rw [List.cons_append, List.cons.injEq] at ht
    rw [← ht.2] at hc
    exact hc rfl
  · rintro d ⟨⟩
    decide

theorem IsName.clear {name rest : List Char} (hn : IsName name) (hr : Delimited rest) :
    Clear (name ++ rest) := by
  obtain ⟨c, tail, rfl⟩ := List.exists_cons_of_ne_nil hn.ne_nil
  obtain ⟨hb, -, -, -, hs, -⟩ := isDelimiter_eq_false (hn.noDelimiter c List.mem_cons_self)
  by_cases hc : c = '#'
  · subst hc
    apply clear_of_hash
    intro hbar
    cases tail with
    | nil => exact absurd (hr _ hbar) (by decide)
    | cons t tail =>
      cases hbar
      exact (hn.hash _ rfl).1 '|' rfl (by decide)
  · exact clear_of_head hc hb hs

/-- A name that begins with no character of a special meaning needs no more than to be a token. -/
theorem isName_of_all {c : Char} {cs : List Char}
    (hall : (c :: cs).all (!Cursor.isDelimiter ·) = true) (hdot : c ≠ '.') (hhash : c ≠ '#')
    (hdigit : c.isDigit = false) : IsName (c :: cs) := by
  refine ⟨by simp, ?_, ?_, ?_, ?_⟩
  · simpa only [List.all_eq_true, Bool.not_eq_true'] using hall
  · intro h
    exact hdot (List.cons.inj h).1
  · rintro d ⟨⟩
    exact hdigit
  · intro tail h
    exact absurd (List.cons.inj h).1 hhash

/-- A layout begins where no atmosphere begins, and not with a closing parenthesis. -/
theorem Layout.head {d : Datum} {s rest : List Char} (h : Layout d s rest) :
    (∃ c s', s = c :: s' ∧ c ≠ ')') ∧ Clear (s ++ rest) := by
  cases h with
  | decimal hn hr =>
    obtain ⟨hne, hd, -⟩ := hn
    obtain ⟨c, s, rfl⟩ := List.exists_cons_of_ne_nil hne
    have hc : c.isDigit = true := by
      rw [← isDigit_decimal]
      exact hd c List.mem_cons_self
    obtain ⟨hb, -, hp, -, hs, -⟩ := isDelimiter_eq_false (isDelimiter_of_isDigit hc)
    refine ⟨⟨c, s, rfl, hp⟩, clear_of_head ?_ hb hs⟩
    rintro rfl
    exact absurd hc (by decide)
  | radix radix hl hn hr =>
    refine ⟨⟨_, _, rfl, by decide⟩, clear_of_hash ?_⟩
    rintro ⟨⟩
    cases hl
  | boolean hm hs hr =>
    obtain ⟨c, tok, rfl, hc⟩ := head_of_boolean hm hs
    refine ⟨⟨_, _, rfl, by decide⟩, clear_of_hash ?_⟩
    rintro ⟨⟩
    exact absurd hc (by decide)
  | character hr => exact ⟨⟨_, _, rfl, by decide⟩, clear_of_hash (by simp)⟩
  | characterName hm hs hr => exact ⟨⟨_, _, rfl, by decide⟩, clear_of_hash (by simp)⟩
  | string hc => exact ⟨⟨_, _, rfl, by decide⟩, clear_of_head (by decide) (by decide) (by decide)⟩
  | symbol hn hr hp =>
    refine ⟨?_, hn.clear hr⟩
    obtain ⟨c, tail, rfl⟩ := List.exists_cons_of_ne_nil hn.ne_nil
    exact ⟨c, tail, rfl, (isDelimiter_eq_false (hn.noDelimiter c List.mem_cons_self)).2.2.1⟩
  | list hw hs => exact ⟨⟨_, _, rfl, by decide⟩, clear_of_head (by decide) (by decide) (by decide)⟩
  | vector hw hs => exact ⟨⟨_, _, rfl, by decide⟩, clear_of_hash (by simp)⟩
  | marked mark hw hs ha =>
    cases mark <;>
      exact ⟨⟨_, _, rfl, by decide⟩, clear_of_head (by decide) (by decide) (by decide)⟩

/-! ## Which reader is asked -/

section Dispatch

variable {item : Element} {c : Cursor} {ch : Char} {cs : List Char}

theorem readHere_plain (hr : c.rest = ch :: cs) (hd : Cursor.isDelimiter ch = false)
    (hh : ch ≠ '#') : readHere item c =
      if Text.Radix.decimal.isDigit ch then readNumber c c .decimal else readSymbol c := by
  obtain ⟨-, ho, hc, hq, -, h1, h2, h3⟩ := isDelimiter_eq_false hd
  unfold readHere
  rw [hr]
  split <;> simp_all

theorem readHere_hash (hr : c.rest = '#' :: cs) :
    readHere item c = (readHash? item c).getD (readSymbol c) := by
  unfold readHere
  rw [hr]
  rfl

theorem readHere_quote (hr : c.rest = '"' :: cs) : readHere item c = readString c := by
  unfold readHere
  rw [hr]
  rfl

theorem readHere_open (hr : c.rest = '(' :: cs) : readHere item c = readList item c := by
  unfold readHere
  rw [hr]
  rfl

theorem readHere_close (hr : c.rest = ')' :: cs) :
    readHere item c = .error ⟨c.pos, .unexpectedClose⟩ := by
  unfold readHere
  rw [hr]
  rfl

theorem readHash?_open (hr : c.rest = '#' :: '(' :: cs) :
    readHash? item c = some (readVector item c) := by
  unfold readHash?
  rw [hr]
  rfl

theorem readHash?_backslash (hr : c.rest = '#' :: '\\' :: cs) :
    readHash? item c = some (readCharacter c) := by
  unfold readHash?
  rw [hr]
  rfl

theorem readHash?_other (hr : c.rest = '#' :: ch :: cs) (hp : ch ≠ '(') (hb : ch ≠ '\\') :
    readHash? item c = match Text.Radix.ofLetter? ch with
      | some radix => some (readNumber c (c.advance 2) radix)
      | none =>
        if Text.foldCase ch = 't' ∨ Text.foldCase ch = 'f' then (readBoolean c).map .ok
        else none := by
  unfold readHash?
  rw [hr, List.drop_one, List.tail_cons]
  split
  · rename_i h
    cases h
  · rename_i h
    cases h
    exact absurd rfl hp
  · rename_i h
    cases h
    exact absurd rfl hb
  · rename_i h
    cases h
    rfl

theorem readHash?_radix {radix : Text.Radix} (hr : c.rest = '#' :: ch :: cs)
    (hl : Text.Radix.ofLetter? ch = some radix) :
    readHash? item c = some (readNumber c (c.advance 2) radix) := by
  rw [readHash?_other hr, hl]
  · rintro rfl
    cases hl
  · rintro rfl
    cases hl

theorem ofLetter?_eq_none {ch : Char} (h : Text.foldCase ch ∉ ['b', 'o', 'd', 'x']) :
    Text.Radix.ofLetter? ch = none := by
  simp only [List.mem_cons, List.not_mem_nil, or_false, not_or] at h
  unfold Text.Radix.ofLetter?
  split
  · exact absurd ‹_› h.1
  · exact absurd ‹_› h.2.1
  · exact absurd ‹_› h.2.2.1
  · exact absurd ‹_› h.2.2.2
  · rfl

theorem readHash?_boolean (hr : c.rest = '#' :: ch :: cs)
    (hc : Text.foldCase ch = 't' ∨ Text.foldCase ch = 'f') :
    readHash? item c = (readBoolean c).map .ok := by
  have hl : Text.Radix.ofLetter? ch = none := by
    apply ofLetter?_eq_none
    rcases hc with h | h <;> rw [h] <;> decide
  rw [readHash?_other hr, hl]
  · exact if_pos hc
  · rintro rfl
    exact absurd hc (by decide)
  · rintro rfl
    exact absurd hc (by decide)

/-- Where a name stands behind `#`, nothing else does. -/
theorem readHash?_name {tail rest : List Char} (hr : c.rest = '#' :: (tail ++ rest))
    (hn : HashName tail) (ht : ∀ ch ∈ tail, Cursor.isDelimiter ch = false) (hd : Delimited rest)
    (hp : tail = [] → rest.head? ≠ some '(') : readHash? item c = none := by
  have htok : token (c.rest.drop 1) = tail := by
    rw [hr]
    exact token_append ht hd
  have hlisted : ∀ e ∈ booleanNames, e.1 ∈ ["t", "f", "true", "false"] := by decide
  have hbool : readBoolean c = none := by
    rw [readBoolean_eq, htok, Option.map_eq_none_iff, List.find?_eq_none]
    intro e he hs
    apply hn.2
    rw [eq_of_beq hs, String.ofList_toList]
    exact hlisted e he
  cases tail with
  | nil =>
    cases rest with
    | nil =>
      unfold readHash?
      rw [hr]
      rfl
    | cons ch rest =>
      have hch : ch ≠ '(' := fun h => hp rfl (by rw [h]; rfl)
      have hdel : Cursor.isDelimiter ch = true := hd ch rfl
      rw [readHash?_other hr hch, ofLetter?_eq_none, hbool]
      · simp
      · rw [foldCase_of_isDelimiter hdel]
        rintro hm
        simp at hm
        rcases hm with rfl | rfl | rfl | rfl <;> exact absurd hdel (by decide)
      · rintro rfl
        exact absurd hdel (by decide)
  | cons ch tail =>
    have hch := hn.1 ch rfl
    rw [readHash?_other hr, ofLetter?_eq_none, hbool]
    · simp
    · intro hm
      exact hch (List.mem_cons_of_mem _ (List.mem_cons_of_mem _ hm))
    · rintro rfl
      exact absurd (ht _ List.mem_cons_self) (by decide)
    · rintro rfl
      exact hch (by decide)

end Dispatch

/-! ## Data without elements -/

theorem readHere_name {item : Element} {c next : Cursor} {name : List Char} (hn : IsName name)
    (hr : Delimited next.rest) (hp : name = ['#'] → next.rest.head? ≠ some '(')
    (h : c.Span name next) : readHere item c = .ok (.symbol (String.ofList name), next) := by
  have hread := readSymbol_of_span hn hr h
  obtain ⟨ch, tail, rfl⟩ := List.exists_cons_of_ne_nil hn.ne_nil
  have hd := hn.noDelimiter ch List.mem_cons_self
  by_cases hc : ch = '#'
  · subst hc
    have htail : ∀ ch ∈ tail, Cursor.isDelimiter ch = false := fun ch hch =>
      hn.noDelimiter ch (List.mem_cons_of_mem _ hch)
    rw [readHere_hash h.1, readHash?_name h.1 (hn.hash tail rfl) htail hr fun ht => hp (by rw [ht])]
    exact hread
  · rw [readHere_plain h.1 hd hc, isDigit_decimal, hn.noDigit ch rfl]
    exact hread

theorem readHere_decimal {item : Element} {c next : Cursor} {digits : List Char} {n : Nat}
    (hn : IsNumeral .decimal digits n) (hr : EndsNumeral .decimal next.rest)
    (h : c.Span digits next) : readHere item c = .ok (.integer n, next) := by
  obtain ⟨ch, tail, rfl⟩ := List.exists_cons_of_ne_nil hn.1
  have hd : Text.Radix.decimal.isDigit ch = true := hn.2.1 ch List.mem_cons_self
  have hch : ch.isDigit = true := by rw [← isDigit_decimal, hd]
  have hne : ch ≠ '#' := by
    rintro rfl
    exact absurd hch (by decide)
  rw [readHere_plain h.1 (isDelimiter_of_isDigit hch) hne, hd, if_pos rfl,
    readNumber_of_span hn hr h]

/-! ## Elements -/

theorem readSequence_eq (item : Element) (opened : Nat) (what : String) (c : Cursor) :
    readSequence item opened what c =
      match skipAtmosphere c with
      | .error f => .error f
      | .ok here =>
        if here.rest = [] then .error ⟨opened, .openSequence what⟩
        else if here.rest.head? = some ')' then .ok ([], here.advance 1)
        else
          match item.read here with
          | .error f => .error f
          | .ok (d, next) =>
            (readSequence item opened what next).map fun (ds, last) => (d :: ds, last) := by
  rw [readSequence]
  split
  · simp_all only
  · rename_i here hs
    simp only [hs]
    split
    · rename_i hr
      rw [if_pos hr]
    · rename_i hr
      rw [if_neg (by simp [hr]), if_pos (by simp [hr])]
    · rename_i hne hclose
      have hhead : here.rest.head? ≠ some ')' := by
        intro h
        obtain ⟨cs, hr⟩ := List.head?_eq_some_iff.1 h
        exact hclose cs hr
      rw [if_neg hne, if_neg hhead]
      split <;> simp_all only

theorem readSequence_close {item : Element} {opened : Nat} {what : String} {c here : Cursor}
    {cs : List Char} (hs : skipAtmosphere c = .ok here) (hr : here.rest = ')' :: cs) :
    readSequence item opened what c = .ok ([], here.advance 1) := by
  rw [readSequence_eq, hs]
  simp [hr]

/-- A sequence gives up where its element does. -/
theorem readSequence_error {item : Element} {opened : Nat} {what : String} {c here : Cursor}
    {f : ReadFailure} (hs : skipAtmosphere c = .ok here) (hne : here.rest ≠ [])
    (hclose : here.rest.head? ≠ some ')') (hd : item.read here = .error f) :
    readSequence item opened what c = .error f := by
  rw [readSequence_eq, hs]
  dsimp only
  rw [if_neg hne, if_neg hclose, hd]

/-- A sequence goes on behind an element. -/
theorem readSequence_ok {item : Element} {opened : Nat} {what : String} {c here next : Cursor}
    {d : Datum} (hs : skipAtmosphere c = .ok here) (hne : here.rest ≠ [])
    (hclose : here.rest.head? ≠ some ')') (hd : item.read here = .ok (d, next)) :
    readSequence item opened what c =
      (readSequence item opened what next).map fun (ds, last) => (d :: ds, last) := by
  rw [readSequence_eq, hs]
  dsimp only
  rw [if_neg hne, if_neg hclose, hd]

/-- Atmosphere ends where a spelling begins. -/
theorem skipAtmosphere_layout {d : Datum} {w s rest : List Char} {c : Cursor} (hl : Layout d s rest)
    (hw : IsAtmosphere w) (hc : c.rest = w ++ (s ++ rest)) :
    skipAtmosphere c = .ok (c.advance w.length) := by
  apply skipAtmosphere_of_span (.advance hc) hw
  rw [Cursor.Span.rest_advance_of hc]
  exact hl.head.2

theorem readSequence_layout {item : Element} {opened : Nat} {what : String} {d : Datum}
    {w s rest : List Char} {c : Cursor} (hl : Layout d s rest) (hw : IsAtmosphere w)
    (hc : c.rest = w ++ (s ++ rest)) : readSequence item opened what c =
      match item.read (c.advance w.length) with
      | .error f => .error f
      | .ok (d, next) =>
        (readSequence item opened what next).map fun (ds, last) => (d :: ds, last) := by
  obtain ⟨⟨ch, s', rfl, hp⟩, -⟩ := id hl.head
  have hrest : (c.advance w.length).rest = ch :: (s' ++ rest) := Cursor.Span.rest_advance_of hc
  rw [readSequence_eq, skipAtmosphere_layout hl hw hc]
  dsimp only
  rw [hrest, if_neg (List.cons_ne_nil _ _), if_neg (by simpa using hp)]

theorem readBehind_at {here : Cursor → Reading} {c start : Cursor}
    (h : skipAtmosphere c = .ok start) (hne : start.rest ≠ []) :
    readBehind here c = here start := by
  rw [readBehind, h]
  exact if_neg hne

theorem readBehind_layout {here : Cursor → Reading} {d : Datum} {w s rest : List Char} {c : Cursor}
    (hl : Layout d s rest) (hw : IsAtmosphere w) (hc : c.rest = w ++ (s ++ rest)) :
    readBehind here c = here (c.advance w.length) := by
  obtain ⟨⟨ch, s', rfl, -⟩, -⟩ := id hl.head
  apply readBehind_at (skipAtmosphere_layout hl hw hc)
  rw [Cursor.Span.rest_advance_of hc]
  exact List.cons_ne_nil _ _

/-- Behind atmosphere, where a level is left, the datum is read where it begins. -/
theorem element_read {limit : Int} {levels : Nat} {c next : Cursor} {d : Datum}
    {w s : List Char} (hw : IsAtmosphere w) (hl : Layout d s next.rest)
    (h : c.Span (w ++ s) next)
    (hh : ∀ here : Cursor, here.Span s next →
      readHere (element limit levels) here = .ok (d, next)) :
    (element limit (levels + 1)).read c = .ok (d, next) := by
  show readBehind _ c = _
  rw [readBehind_layout hl hw (by rw [h.1, List.append_assoc])]
  exact hh _ h.behind

/-- What does not go on with `@` within a spelling does not do so behind it. -/
theorem Layout.head_unquoted {d : Datum} {w s rest : List Char} (hl : Layout d s rest)
    (ha : (w ++ s).head? ≠ some '@') : (w ++ (s ++ rest)).head? ≠ some '@' := by
  obtain ⟨⟨ch, s', rfl, -⟩, -⟩ := hl.head
  cases w <;> exact ha

theorem readHere_short {item : Element} {c : Cursor} {cs : List Char} {mark : Mark}
    (hr : c.rest = shortForm mark ++ cs) (ha : mark = .unquote → cs.head? ≠ some '@') :
    readHere item c = (item.read (c.advance (shortForm mark).length)).map
      fun (d, next) => (mark.on d, next) := by
  have hshort : shortMark c.rest = (mark, (shortForm mark).length) := by
    rw [hr]
    cases mark with
    | quote => rfl
    | quasiquote => rfl
    | unquoteSplicing => rfl
    | unquote =>
      cases cs with
      | nil => rfl
      | cons ch cs =>
        have hat : ch ≠ '@' := fun h => ha rfl (by rw [h]; rfl)
        show shortMark (',' :: ch :: cs) = _
        unfold shortMark
        split <;> simp_all [shortForm]
  have hmarked : readHere item c = readMarked item c := by
    unfold readHere
    rw [hr]
    cases mark <;> rfl
  rw [hmarked, readMarked, hshort]

mutual

theorem readHere_of_layout {d : Datum} {s rest : List Char} (hl : Layout d s rest)
    {limit : Int} {levels : Nat} (hd : d.height ≤ levels) {c next : Cursor} (h : c.Span s next)
    (hr : next.rest = rest) : readHere (element limit levels) c = .ok (d, next) :=
  match hl with
  | .decimal hn he => by
    subst hr
    exact readHere_decimal hn he h
  | .radix radix hletter hn he => by
    subst hr
    rw [readHere_hash h.1, readHash?_radix h.1 hletter, readNumber_of_span hn he]
    · rfl
    · exact Cursor.Span.behind (s := ['#', _]) h
  | .boolean hm hs he => by
    subst hr
    obtain ⟨ch, tok, rfl, hc⟩ := head_of_boolean hm hs
    rw [readHere_hash h.1, readHash?_boolean h.1 hc, readBoolean_of_span hm hs he h]
    rfl
  | .character he => by
    subst hr
    rw [readHere_hash h.1, readHash?_backslash h.1, readCharacter_of_layout (.character he) h]
    rfl
  | .characterName hm hs he => by
    subst hr
    rw [readHere_hash h.1, readHash?_backslash h.1,
      readCharacter_of_layout (.characterName hm hs he) h]
    rfl
  | .string hc => by
    rw [readHere_quote h.1, readString_of_span hc h]
  | .symbol hn he hp => by
    subst hr
    exact readHere_name hn he hp h
  | @Layout.list items _ _ _ hw hs => by
    have hread : readSequence (element limit levels) c.pos "list" (c.advance 1) =
        .ok (items, next) :=
      readSequence_of_layouts hs hd hw rfl (Cursor.Span.behind (s := ['(']) h) hr
    rw [readHere_open h.1, readList, hread]
    rfl
  | @Layout.vector items _ _ _ hw hs => by
    have hread : readSequence (element limit levels) c.pos "vector" (c.advance 2) =
        .ok (items, next) :=
      readSequence_of_layouts hs hd hw rfl (Cursor.Span.behind (s := ['#', '(']) h) hr
    rw [readHere_hash h.1, readHash?_open h.1, readVector, hread]
    rfl
  | @Layout.marked d w s _ mark hw hs ha => by
    subst hr
    rw [Mark.height_on] at hd
    obtain ⟨inner, rfl⟩ := Nat.exists_eq_add_of_le' (Nat.le_trans (Nat.le_add_left 1 _) hd)
    rw [List.append_assoc] at h
    have hread : (element limit (inner + 1)).read (c.advance (shortForm mark).length) =
        .ok (d, next) :=
      element_read hw hs h.behind fun here hhere =>
        readHere_of_layout hs (Nat.le_of_succ_le_succ hd) hhere rfl
    have hrest : c.rest = shortForm mark ++ (w ++ s ++ next.rest) := by
      rw [h.1, List.append_assoc]
    rw [readHere_short hrest fun hm => by
      rw [List.append_assoc]
      exact hs.head_unquoted (ha hm), hread]
    rfl

theorem readSequence_of_layouts {ds : List Datum} {s rest : List Char} (hl : LayoutItems ds s rest)
    {limit : Int} {levels : Nat} (hd : Datum.heightItems ds ≤ levels) {opened : Nat}
    {what : String} {w cs : List Char} (hw : IsAtmosphere w) (hcs : rest = ')' :: cs)
    {c next : Cursor} (h : c.Span (w ++ s ++ [')']) next) (hr : next.rest = cs) :
    readSequence (element limit levels) opened what c = .ok (ds, next) :=
  match hl with
  | .nil => by
    rw [List.append_nil] at h
    have hclose := h.behind
    have hskip : skipAtmosphere c = .ok (c.advance w.length) := by
      apply skipAtmosphere_of_span h.front hw
      rw [hclose.1]
      exact clear_of_head (by decide) (by decide) (by decide)
    rw [readSequence_close hskip hclose.1]
    show Except.ok ([], (c.advance w.length).advance [')'].length) = _
    rw [hclose.advance_eq]
  | @LayoutItems.cons d ds s w' ss _ hs hw' hss => by
    subst hcs hr
    have hmax : d.height + 1 ≤ levels ∧ Datum.heightItems ds ≤ levels := Nat.max_le.1 hd
    obtain ⟨inner, rfl⟩ := Nat.exists_eq_add_of_le' (Nat.le_trans (Nat.le_add_left 1 _) hmax.1)
    have hsplit : w ++ (s ++ w' ++ ss) ++ [')'] = w ++ (s ++ (w' ++ ss ++ [')'])) := by
      simp only [List.append_assoc]
    rw [hsplit] at h
    -- the first element stands behind the atmosphere, all else behind the first element
    have hfirst := h.behind.front
    have hothers := h.behind.behind
    have hrest : w' ++ ss ++ ')' :: next.rest =
        ((c.advance w.length).advance s.length).rest := by
      rw [hothers.1]
      simp only [List.append_assoc, List.singleton_append]
    rw [hrest] at hs
    have hread : (element limit (inner + 1)).read (c.advance w.length) =
        .ok (d, (c.advance w.length).advance s.length) :=
      element_read .nil hs hfirst fun here hhere =>
        readHere_of_layout hs (Nat.le_of_succ_le_succ hmax.1) hhere rfl
    rw [readSequence_layout hs hw (by rw [h.1, List.append_assoc, ← hfirst.1, h.behind.1]), hread]
    dsimp only
    rw [readSequence_of_layouts hss hmax.2 hw' rfl hothers rfl]
    rfl

end

/-! ## Whole texts -/

theorem levelsLeft_of_height {limit depth : Int} {d : Datum} (h : depth + d.height ≤ limit) :
    ∃ levels, levelsLeft limit depth = levels + 1 ∧ d.height ≤ levels := by
  refine ⟨(limit - depth).toNat, ?_, ?_⟩
  · unfold levelsLeft
    omega
  · omega

theorem readDatum_of_layout {limit depth : Int} {d : Datum} {w s : List Char} {c next : Cursor}
    (hl : Layout d s next.rest) (hw : IsAtmosphere w) (hd : depth + d.height ≤ limit)
    (h : c.Span (w ++ s) next) : readDatum limit depth c = .ok (d, next) := by
  obtain ⟨levels, hlevels, hheight⟩ := levelsLeft_of_height hd
  rw [readDatum, elementAt, hlevels]
  exact element_read hw hl h fun here hhere => readHere_of_layout hl hheight hhere rfl

theorem readRest_eq (item : Element) (c : Cursor) : readRest item c =
    match skipAtmosphere c with
    | .error f => .error f
    | .ok here =>
      if here.rest = [] then .ok []
      else
        match item.read here with
        | .error f => .error f
        | .ok (d, next) => (readRest item next).map (d :: ·) := by
  rw [readRest]
  split
  · simp_all only
  · rename_i here hs
    simp only [hs]
    split
    · rfl
    · split <;> simp_all only

theorem readRest_end {item : Element} {c here : Cursor} (hs : skipAtmosphere c = .ok here)
    (hr : here.rest = []) : readRest item c = .ok [] := by
  rw [readRest_eq, hs]
  exact if_pos hr

theorem readRest_error {item : Element} {c here : Cursor} {f : ReadFailure}
    (hs : skipAtmosphere c = .ok here) (hne : here.rest ≠ []) (hd : item.read here = .error f) :
    readRest item c = .error f := by
  rw [readRest_eq, hs]
  dsimp only
  rw [if_neg hne, hd]

theorem readRest_ok {item : Element} {c here next : Cursor} {d : Datum}
    (hs : skipAtmosphere c = .ok here) (hne : here.rest ≠ []) (hd : item.read here = .ok (d, next)) :
    readRest item c = (readRest item next).map (d :: ·) := by
  rw [readRest_eq, hs]
  dsimp only
  rw [if_neg hne, hd]

theorem readRest_layout {item : Element} {d : Datum} {w s rest : List Char} {c : Cursor}
    (hl : Layout d s rest) (hw : IsAtmosphere w) (hc : c.rest = w ++ (s ++ rest)) :
    readRest item c = match item.read (c.advance w.length) with
      | .error f => .error f
      | .ok (d, next) => (readRest item next).map (d :: ·) := by
  obtain ⟨⟨ch, s', rfl, -⟩, -⟩ := id hl.head
  have hrest : (c.advance w.length).rest = ch :: (s' ++ rest) := Cursor.Span.rest_advance_of hc
  rw [readRest_eq, skipAtmosphere_layout hl hw hc]
  dsimp only
  rw [hrest, if_neg (List.cons_ne_nil _ _)]

/-- What is read up to the end of the text depends on the place behind the atmosphere alone. -/
theorem readRest_congr {item : Element} {c c' : Cursor} (h : skipAtmosphere c = skipAtmosphere c') :
    readRest item c = readRest item c' := by
  rw [readRest_eq item c, readRest_eq item c', h]

theorem skipAtmosphere_span {c next : Cursor} {w : List Char} (h : c.Span w next)
    (hw : IsAtmosphere w) : skipAtmosphere c = skipAtmosphere next := by
  rw [skipAtmosphere, skipAtmosphere, h.1, scanAtmosphere_append hw, h.2]

/-- Data that stand in front of others are read first. -/
theorem readRest_span {limit : Int} {ds : List Datum} {w s : List Char} {c next : Cursor}
    (hl : LayoutItems ds s next.rest) (hw : IsAtmosphere w)
    (hd : ∀ d ∈ ds, (d.height : Int) ≤ limit) (h : c.Span (w ++ s) next) :
    readRest (elementAt limit 0) c = (readRest (elementAt limit 0) next).map (ds ++ ·) := by
  induction ds generalizing c w s with
  | nil =>
    cases hl
    rw [List.append_nil] at h
    rw [readRest_congr (skipAtmosphere_span h hw)]
    cases readRest (elementAt limit 0) next <;> rfl
  | cons d ds ih =>
    cases hl with
    | @cons _ _ s w' ss _ hs hw' hss =>
      rw [List.append_assoc] at h
      -- the first datum stands behind the atmosphere, the others behind the first datum
      have hfirst := h.behind.front
      have hothers := h.behind.behind
      rw [← hothers.1] at hs
      have hread : readDatum limit 0 (c.advance w.length) =
          .ok (d, (c.advance w.length).advance s.length) :=
        readDatum_of_layout hs .nil (by simpa using hd d List.mem_cons_self) hfirst
      have hdatum : (elementAt limit 0).read (c.advance w.length) = _ := hread
      rw [readRest_layout hs hw (by rw [h.1, List.append_assoc, ← hfirst.1, h.behind.1]), hdatum]
      dsimp only
      rw [ih hss hw' (fun d' hd' => hd d' (List.mem_cons_of_mem d hd')) hothers]
      cases readRest (elementAt limit 0) next <;> rfl

theorem readRest_of_layouts {limit : Int} {ds : List Datum} {s w : List Char}
    (hl : LayoutItems ds s []) (hw : IsAtmosphere w) (hd : ∀ d ∈ ds, (d.height : Int) ≤ limit)
    {c : Cursor} (h : c.rest = w ++ s) : readRest (elementAt limit 0) c = .ok ds := by
  have hspan : c.Span (w ++ s) ⟨c.pos + (w ++ s).length, []⟩ := ⟨by rw [h, List.append_nil], rfl⟩
  have hend : skipAtmosphere ⟨c.pos + (w ++ s).length, []⟩ = .ok ⟨_, []⟩ := rfl
  rw [readRest_span hl hw hd hspan, readRest_end hend rfl]
  exact congrArg Except.ok (List.append_nil ds)

theorem span_ofPos (before s rest : List Char) :
    (Cursor.ofPos (before ++ s ++ rest) before.length).Span s
      (Cursor.ofPos (before ++ s ++ rest) (before ++ s).length) := by
  constructor
  · show List.drop _ _ = s ++ List.drop _ _
    rw [List.drop_left, List.append_assoc, List.drop_left]
  · exact List.length_append

/-- The reader accepts every layout: behind any characters and any atmosphere, at any depth that
leaves room for the datum, it reads the datum that the layout spells and stops right behind it. The
first datum of a text and all of them are read likewise. -/
theorem reads_every_layout (limit : Int) :
    (∀ d s rest, Layout d s rest → ∀ w, IsAtmosphere w →
      ∀ depth : Int, depth + d.height ≤ limit → ∀ before : List Char,
        readDatum limit depth (.ofPos (before ++ (w ++ s) ++ rest) before.length) =
          .ok (d, .ofPos (before ++ (w ++ s) ++ rest) (before ++ (w ++ s)).length)) ∧
    (∀ d s rest, Layout d s rest → ∀ w, IsAtmosphere w → (d.height : Int) ≤ limit →
      read limit (String.ofList (w ++ s ++ rest)) = .ok d) ∧
    (∀ ds s, LayoutItems ds s [] → ∀ w, IsAtmosphere w → (∀ d ∈ ds, (d.height : Int) ≤ limit) →
      readAll limit (String.ofList (w ++ s)) = .ok ds) := by
  have hdatum : ∀ d s rest, Layout d s rest → ∀ w, IsAtmosphere w →
      ∀ depth : Int, depth + d.height ≤ limit → ∀ before : List Char,
        readDatum limit depth (.ofPos (before ++ (w ++ s) ++ rest) before.length) =
          .ok (d, .ofPos (before ++ (w ++ s) ++ rest) (before ++ (w ++ s)).length) := by
    intro d s rest hl w hw depth hd before
    have hspan := span_ofPos before (w ++ s) rest
    refine readDatum_of_layout ?_ hw hd hspan
    have hrest : (Cursor.ofPos (before ++ (w ++ s) ++ rest) (before ++ (w ++ s)).length).rest =
        rest := List.drop_left
    rw [hrest]
    exact hl
  refine ⟨hdatum, ?_, ?_⟩
  · intro d s rest hl w hw hd
    have hread := hdatum d s rest hl w hw 0 (by simpa using hd) []
    rw [read, readFirst, String.toList_ofList]
    show Except.mapError _ (Except.map _ (readDatum limit 0 (.ofPos (w ++ s ++ rest) 0))) = _
    rw [show readDatum limit 0 (.ofPos (w ++ s ++ rest) 0) = _ from hread]
    rfl
  · intro ds s hl w hw hd
    rw [readAll, readEvery, String.toList_ofList, readRest_of_layouts hl hw hd rfl]
    rfl

theorem reads_commented_layout :
    Layout (.list [.integer 31, Mark.quote.on (.symbol "a")]) "(#X1f;c\n'a )".toList ['b'] ∧
      IsAtmosphere "#|#|||#|# ".toList ∧
      readDatum 3 1 (.ofPos "a#|#|||#|# (#X1f;c\n'a )b".toList 1) =
        .ok (.list [.integer 31, Mark.quote.on (.symbol "a")],
          .ofPos "a#|#|||#|# (#X1f;c\n'a )b".toList 23) ∧
      read 2 "#|#|||#|# (#X1f;c\n'a )b" =
        .ok (.list [.integer 31, Mark.quote.on (.symbol "a")]) ∧
      readAll 2 "#|#|||#|# (#X1f;c\n'a )" =
        .ok [.list [.integer 31, Mark.quote.on (.symbol "a")]] := by
  have hname : IsName ['a'] := isName_of_all (by decide) (by decide) (by decide) (by decide)
  have hlayout : ∀ rest, Layout (.list [.integer 31, Mark.quote.on (.symbol "a")])
      "(#X1f;c\n'a )".toList rest := by
    intro rest
    have hmarked : Layout (Mark.quote.on (.symbol "a")) ['\'', 'a'] (' ' :: ')' :: rest) :=
      .marked .quote .nil (.symbol hname (by rintro c ⟨⟩; decide) (by rintro ⟨⟩)) (by rintro ⟨⟩)
    have hdigits : ∀ c ∈ "1f".toList, Text.Radix.hexadecimal.isDigit c = true :=
      List.all_eq_true.1 (by decide)
    have hnumber : Layout (.integer 31) "#X1f".toList (";c\n'a ".toList ++ ')' :: rest) :=
      .radix .hexadecimal (by decide) ⟨by decide, hdigits, by decide⟩ (by rintro c ⟨⟩; decide)
    have hcomment : IsAtmosphere ";c\n".toList :=
      @IsAtmosphere.lineComment ['c'] [] (by decide) .nil
    exact .list .nil (.cons hnumber hcomment (.cons hmarked (.blank (by decide) .nil) .nil))
  have hbody : Closes 0 "#|||#|#".toList :=
    .inward (.plain (by decide) (by decide) (.outward .last))
  have hw : IsAtmosphere "#|#|||#|# ".toList := .blockComment hbody (.blank (by decide) .nil)
  refine ⟨hlayout _, hw, ?_, ?_, ?_⟩
  · have hread := (reads_every_layout 3).1 _ _ ['b'] (hlayout _) _ hw 1 (by decide) ['a']
    rwa [show ['a'] ++ ("#|#|||#|# ".toList ++ "(#X1f;c\n'a )".toList) ++ ['b'] =
      "a#|#|||#|# (#X1f;c\n'a )b".toList by decide] at hread
  · have hread := (reads_every_layout 2).2.1 _ _ ['b'] (hlayout _) _ hw (by decide)
    rwa [show String.ofList ("#|#|||#|# ".toList ++ "(#X1f;c\n'a )".toList ++ ['b']) =
      "#|#|||#|# (#X1f;c\n'a )b" by decide] at hread
  · have hread := (reads_every_layout 2).2.2 _ _ (.cons (hlayout _) .nil .nil) _ hw (by decide)
    rwa [show String.ofList ("#|#|||#|# ".toList ++ ("(#X1f;c\n'a )".toList ++ [] ++ [])) =
      "#|#|||#|# (#X1f;c\n'a )" by decide] at hread

end SchemeCore.Reader
