import SchemeCore.Proofs.Reader.Completeness

/-!
# Only layouts are read

The converse of completeness: what the reader answers with is spelled by the characters that it
went past, and nests no deeper than the levels that it had. `Element.Sound item levels` says this
of a reader of single data; it passes from the reader for the data one level further in to the
readers for sequences and from there to the reader for this level (`element_sound`).

What stands at the cursor is told by its first characters; a symbol is what is left where they
announce nothing else, which is why the rules for names are the negations of those for the rest.
-/

namespace SchemeCore.Reader

/-! ## Names -/

/-- Lower case changes capitals only, and into small letters. -/
theorem toNat_toLower {c : Char} (h : c.toLower ≠ c) :
    97 ≤ c.toLower.toNat ∧ c.toLower.toNat ≤ 122 := by
  rcases toLower_cases c with hc | ⟨hcapital, hc⟩
  · exact absurd hc h
  · omega

theorem eq_of_foldCase {c x : Char} (h : Text.foldCase c = x)
    (hx : ¬ (97 ≤ x.toNat ∧ x.toNat ≤ 122)) : c = x := by
  unfold Text.foldCase at h
  by_cases hk : c = '\u212a'
  · rw [if_pos hk] at h
    subst h
    exact absurd ⟨by decide, by decide⟩ hx
  · rw [if_neg hk] at h
    by_contra hne
    rw [← h] at hne hx
    exact hx (toNat_toLower (Ne.symm hne))

/-- Where `#` announces nothing, a name may go on behind it. -/
theorem hashName_of_readHash? {item : Element} {c : Cursor} {tail rest : List Char}
    (hr : c.rest = '#' :: (tail ++ rest)) (hclear : Clear c.rest)
    (ht : ∀ ch ∈ tail, Cursor.isDelimiter ch = false) (hd : Delimited rest)
    (h : readHash? item c = none) :
    HashName tail ∧ (tail = [] → rest.head? ≠ some '(') := by
  have htok : token (c.rest.drop 1) = tail := by
    rw [hr]
    exact token_append ht hd
  refine ⟨⟨?_, ?_⟩, ?_⟩
  · intro ch hch hm
    obtain ⟨tail, rfl⟩ := List.head?_eq_some_iff.1 hch
    rw [List.cons_append] at hr
    simp only [List.mem_cons, List.not_mem_nil, or_false] at hm
    rcases hm with hm | hm | hm | hm | hm | hm
    · rw [eq_of_foldCase hm (by decide)] at hr
      rw [hr] at hclear
      exact hclear.1 ⟨_, rfl⟩
    · rw [eq_of_foldCase hm (by decide)] at hr
      rw [readHash?_backslash hr] at h
      cases h
    all_goals
      obtain ⟨radix, hl⟩ : ∃ radix, Text.Radix.ofLetter? ch = some radix := by
        unfold Text.Radix.ofLetter?
        rw [hm]
        exact ⟨_, rfl⟩
      rw [readHash?_radix hr hl] at h
      cases h
  · intro hm
    obtain ⟨e, he, hname⟩ : ∃ e ∈ booleanNames, e.1 = String.ofList (tail.map Text.foldCase) := by
      simp only [List.mem_cons, List.not_mem_nil, or_false] at hm
      rcases hm with hm | hm | hm | hm <;> rw [hm] <;> simp [booleanNames]
    have hs : Text.spells tail e.1 = true := by
      unfold Text.spells
      rw [hname, String.toList_ofList, beq_self_eq_true]
    obtain ⟨ch, tail, rfl, hch⟩ := head_of_boolean he hs
    rw [readHash?_boolean hr hch, readBoolean_eq, htok, find?_spells booleanNames_unique he hs] at h
    cases h
  · rintro rfl hp
    obtain ⟨cs, rfl⟩ := List.head?_eq_some_iff.1 hp
    rw [readHash?_open hr] at h
    cases h

/-- What is read as a symbol is one, where its first character begins nothing else. -/
theorem layout_of_readSymbol {c next : Cursor} {d : Datum} {ch : Char} {cs : List Char}
    (hr : c.rest = ch :: cs) (hdel : Cursor.isDelimiter ch = false) (hdig : ch.isDigit = false)
    (hhash : ∀ tail rest, ch = '#' → cs = tail ++ rest →
      (∀ ch ∈ tail, Cursor.isDelimiter ch = false) → Delimited rest →
      HashName tail ∧ (tail = [] → rest.head? ≠ some '('))
    (h : readSymbol c = .ok (d, next)) :
    ∃ s, Layout d s next.rest ∧ c.Span s next ∧ d.height = 0 := by
  obtain ⟨name, rfl, hno, hdot, hd, hspan⟩ := span_of_readSymbol h
  have hcs := hspan.1
  rw [hr] at hcs
  cases name with
  | nil =>
    have hdel' : Cursor.isDelimiter ch = true := by
      apply hd
      rw [← List.nil_append next.rest, ← hcs]
      rfl
    rw [hdel] at hdel'
    cases hdel'
  | cons ch' tail =>
    rw [List.cons_append, List.cons.injEq] at hcs
    obtain ⟨rfl, hcs⟩ := hcs
    have htail : ∀ ch ∈ tail, Cursor.isDelimiter ch = false := fun a ha =>
      hno a (List.mem_cons_of_mem _ ha)
    refine ⟨_, .symbol ⟨by simp, hno, hdot, ?_, ?_⟩ hd ?_, hspan, rfl⟩
    · rintro a ⟨⟩
      exact hdig
    · rintro tail' hname
      rw [List.cons.injEq] at hname
      obtain ⟨rfl, rfl⟩ := hname
      exact (hhash _ _ rfl hcs htail hd).1
    · intro hname
      rw [List.cons.injEq] at hname
      obtain ⟨rfl, rfl⟩ := hname
      exact (hhash _ _ rfl hcs htail hd).2 rfl

/-! ## What stands at the cursor -/

/-- A quote, a backquote or a comma begins the short form of a mark. -/
theorem exists_shortForm {ch : Char} (h : ch = '\'' ∨ ch = '\x60' ∨ ch = ',') (cs : List Char) :
    ∃ mark cs', ch :: cs = shortForm mark ++ cs' ∧ (mark = .unquote → cs'.head? ≠ some '@') := by
  rcases h with rfl | rfl | rfl
  · exact ⟨.quote, cs, rfl, by simp⟩
  · exact ⟨.quasiquote, cs, rfl, by simp⟩
  · by_cases hat : cs.head? = some '@'
    · obtain ⟨cs, rfl⟩ := List.head?_eq_some_iff.1 hat
      exact ⟨.unquoteSplicing, cs, rfl, by simp⟩
    · exact ⟨.unquote, cs, rfl, fun _ => hat⟩

/-- By what stands behind it, a `#` is left to the reader for a kind of data, or to no reader. -/
theorem readHash?_cases {item : Element} {c : Cursor} {cs : List Char}
    {motive : Option Reading → Prop} (hr : c.rest = '#' :: cs)
    (vector : ∀ cs', cs = '(' :: cs' → motive (some (readVector item c)))
    (character : ∀ cs', cs = '\\' :: cs' → motive (some (readCharacter c)))
    (number : ∀ radix ch cs', cs = ch :: cs' → Text.Radix.ofLetter? ch = some radix →
      motive (some (readNumber c (c.advance 2) radix)))
    (boolean : ∀ p, readBoolean c = some p → motive (some (.ok p)))
    (other : readHash? item c = none → motive none) : motive (readHash? item c) := by
  have hother (h : readHash? item c = none) : motive (readHash? item c) := by
    rw [h]
    exact other h
  cases cs with
  | nil =>
    apply hother
    unfold readHash?
    rw [hr]
    rfl
  | cons ch cs =>
    by_cases hp : ch = '('
    · subst hp
      rw [readHash?_open hr]
      exact vector cs rfl
    by_cases hb : ch = '\\'
    · subst hb
      rw [readHash?_backslash hr]
      exact character cs rfl
    cases hl : Text.Radix.ofLetter? ch with
    | some radix =>
      rw [readHash?_radix hr hl]
      exact number radix ch cs rfl hl
    | none =>
      have hhash : readHash? item c = _ := readHash?_other hr hp hb
      rw [hl] at hhash
      dsimp only at hhash
      cases hbool : readBoolean c with
      | none =>
        rw [hbool] at hhash
        exact hother (hhash.trans (ite_self none))
      | some p =>
        rw [hbool] at hhash
        by_cases hc : Text.foldCase ch = 't' ∨ Text.foldCase ch = 'f'
        · rw [hhash, if_pos hc]
          exact boolean p hbool
        · exact hother (hhash.trans (if_neg hc))

/-- By its first characters a datum is left to the reader for its kind. Where they announce nothing
else a symbol stands, behind a `#` as well. -/
theorem readHere_cases {item : Element} {c : Cursor} {motive : Reading → Prop} (hne : c.rest ≠ [])
    (hclear : Clear c.rest)
    (string : ∀ cs, c.rest = '"' :: cs → motive (readString c))
    (list : ∀ cs, c.rest = '(' :: cs → motive (readList item c))
    (close : ∀ cs, c.rest = ')' :: cs → motive (.error ⟨c.pos, .unexpectedClose⟩))
    (marked : ∀ mark cs, c.rest = shortForm mark ++ cs →
      (mark = .unquote → cs.head? ≠ some '@') →
      motive ((item.read (c.advance (shortForm mark).length)).map
        fun (d, next) => (mark.on d, next)))
    (vector : ∀ cs, c.rest = '#' :: '(' :: cs → motive (readVector item c))
    (character : ∀ cs, c.rest = '#' :: '\\' :: cs → motive (readCharacter c))
    (number : ∀ radix ch cs, c.rest = '#' :: ch :: cs → Text.Radix.ofLetter? ch = some radix →
      motive (readNumber c (c.advance 2) radix))
    (boolean : ∀ cs p, c.rest = '#' :: cs → readBoolean c = some p → motive (.ok p))
    (decimal : ∀ ch cs, c.rest = ch :: cs → ch.isDigit = true → motive (readNumber c c .decimal))
    (symbol : ∀ ch cs, c.rest = ch :: cs → Cursor.isDelimiter ch = false → ch.isDigit = false →
      (ch = '#' → readHash? item c = none) → motive (readSymbol c)) :
    motive (readHere item c) := by
  obtain ⟨ch, cs, hr⟩ := List.exists_cons_of_ne_nil hne
  by_cases hquote : ch = '"'
  · subst hquote
    rw [readHere_quote hr]
    exact string cs hr
  by_cases hopen : ch = '('
  · subst hopen
    rw [readHere_open hr]
    exact list cs hr
  by_cases hclose : ch = ')'
  · subst hclose
    rw [readHere_close hr]
    exact close cs hr
  by_cases hmark : ch = '\'' ∨ ch = '\x60' ∨ ch = ','
  · obtain ⟨mark, cs', hshort, ha⟩ := exists_shortForm hmark cs
    rw [hshort] at hr
    rw [readHere_short hr ha]
    exact marked mark cs' hr ha
  have hdel : Cursor.isDelimiter ch = false := by
    rw [hr] at hclear
    obtain ⟨hblank, hsemi⟩ := hclear.2 ch rfl
    rw [← Bool.not_eq_true, isDelimiter_iff, hblank]
    simp only [not_or] at hmark
    simp [hquote, hopen, hclose, hmark, hsemi]
  by_cases hhash : ch = '#'
  · subst hhash
    rw [readHere_hash hr]
    exact readHash?_cases (motive := fun r => motive (r.getD (readSymbol c))) hr
      (fun cs' hcs => vector cs' (by rw [hr, hcs])) (fun cs' hcs => character cs' (by rw [hr, hcs]))
      (fun radix ch cs' hcs => number radix ch cs' (by rw [hr, hcs])) (fun p => boolean cs p hr)
      (fun hnone => symbol '#' cs hr hdel (by decide) fun _ => hnone)
  · rw [readHere_plain hr hdel hhash, isDigit_decimal]
    by_cases hdig : ch.isDigit = true
    · rw [if_pos hdig]
      exact decimal ch cs hr hdig
    · rw [if_neg hdig]
      exact symbol ch cs hr hdel (by simpa using hdig) fun h => absurd h hhash

/-! ## Elements -/

/-- Whatever the reader answers with is spelled behind atmosphere, and is below `levels` high. -/
def Element.Sound (item : Element) (levels : Nat) : Prop :=
  ∀ {c next : Cursor} {d : Datum}, item.read c = .ok (d, next) →
    ∃ w s, IsAtmosphere w ∧ Layout d s next.rest ∧ c.Span (w ++ s) next ∧ d.height < levels

theorem map_eq_ok {ε α β : Type} {r : Except ε α} {f : α → β} {b : β} (h : r.map f = .ok b) :
    ∃ a, r = .ok a ∧ f a = b := by
  cases r with
  | error e => cases h
  | ok a =>
    cases h
    exact ⟨a, rfl, rfl⟩

section Sound

variable {item : Element} {levels : Nat} (hi : item.Sound levels)

include hi

theorem layouts_of_readSequence {opened : Nat} {what : String} {c next : Cursor} {ds : List Datum}
    (h : readSequence item opened what c = .ok (ds, next)) :
    ∃ w s, IsAtmosphere w ∧ LayoutItems ds s (')' :: next.rest) ∧
      c.Span (w ++ s ++ [')']) next ∧ Datum.heightItems ds ≤ levels := by
  fun_induction readSequence item opened what c generalizing ds next with
  | case1 | case2 | case4 => cases h
  | case3 c here hs cs hr =>
    cases h
    obtain ⟨⟨w, hw, hspan⟩, -⟩ := span_of_skipAtmosphere hs (by simp [hr])
    refine ⟨w, [], hw, .nil, ?_, Nat.zero_le _⟩
    rw [List.append_nil]
    exact hspan.trans (Cursor.Span.advance (s := [')']) hr)
  | case5 c here hs d mid hd _ hne _ ih =>
    obtain ⟨⟨ds', last⟩, hm, he⟩ := map_eq_ok h
    cases he
    obtain ⟨⟨w, hw, hspan⟩, -⟩ := span_of_skipAtmosphere hs hne
    obtain ⟨w₁, s, hw₁, hl, hspan₁, hheight⟩ := hi hd
    obtain ⟨w₂, ss, hw₂, hls, hspan₂, hheights⟩ := ih hm
    have hrest : mid.rest = w₂ ++ ss ++ ')' :: next.rest := by
      rw [hspan₂.1, List.append_assoc, List.singleton_append]
    rw [hrest] at hl
    refine ⟨w ++ w₁, s ++ w₂ ++ ss, hw.append hw₁, .cons hl hw₂ hls, ?_,
      Nat.max_le.2 ⟨hheight, hheights⟩⟩
    have hall := (hspan.trans hspan₁).trans hspan₂
    simpa only [List.append_assoc] using hall

theorem layout_of_readMarked {c next : Cursor} {d : Datum} {mark : Mark} {cs : List Char}
    (hr : c.rest = shortForm mark ++ cs) (ha : mark = .unquote → cs.head? ≠ some '@')
    (h : (item.read (c.advance (shortForm mark).length)).map
      (fun (d, next) => (mark.on d, next)) = .ok (d, next)) :
    ∃ s, Layout d s next.rest ∧ c.Span s next ∧ d.height ≤ levels := by
  obtain ⟨⟨d', last⟩, hm, he⟩ := map_eq_ok h
  cases he
  obtain ⟨w, s, hw, hl, hspan, hheight⟩ := hi hm
  have hfront : c.Span (shortForm mark) (c.advance (shortForm mark).length) :=
    Cursor.Span.advance hr
  refine ⟨shortForm mark ++ w ++ s, .marked mark hw hl ?_, ?_, ?_⟩
  · intro hmark hat
    apply ha hmark
    rw [← Cursor.Span.rest_advance_of hr, hspan.1, List.head?_append, hat]
    rfl
  · rw [List.append_assoc]
    exact hfront.trans hspan
  · rw [Mark.height_on]
    exact hheight

theorem layout_of_readHere {c next : Cursor} {d : Datum} (hne : c.rest ≠ [])
    (hclear : Clear c.rest) (h : readHere item c = .ok (d, next)) :
    ∃ s, Layout d s next.rest ∧ c.Span s next ∧ d.height ≤ levels := by
  refine readHere_cases (motive := fun r => r = .ok (d, next) → _) hne hclear ?string ?list ?close
    ?marked ?vector ?character ?number ?boolean ?decimal ?symbol h
  case string =>
    intro cs hr h
    obtain ⟨contents, hl, rfl, hspan⟩ := span_of_readString h hr
    exact ⟨_, .string hl, hspan, Nat.zero_le _⟩
  case list =>
    intro cs hr h
    obtain ⟨⟨ds, last⟩, hm, he⟩ := map_eq_ok h
    cases he
    obtain ⟨w, s, hw, hl, hspan, hheight⟩ := layouts_of_readSequence hi hm
    have hfront : c.Span ['('] (c.advance 1) := Cursor.Span.advance hr
    exact ⟨_, .list hw hl, hfront.trans hspan, hheight⟩
  case close =>
    intro cs hr h
    cases h
  case marked =>
    intro mark cs hr ha h
    exact layout_of_readMarked hi hr ha h
  case vector =>
    intro cs hr h
    obtain ⟨⟨ds, last⟩, hm, he⟩ := map_eq_ok h
    cases he
    obtain ⟨w, s, hw, hl, hspan, hheight⟩ := layouts_of_readSequence hi hm
    have hfront : c.Span ['#', '('] (c.advance 2) := Cursor.Span.advance hr
    exact ⟨_, .vector hw hl, hfront.trans hspan, hheight⟩
  case character =>
    intro cs hr h
    obtain ⟨s, hl, hspan, hheight⟩ := layout_of_readCharacter h hr
    exact ⟨s, hl, hspan, by omega⟩
  case number =>
    intro radix ch cs hr hl h
    obtain ⟨digits, n, hn, he, rfl, hspan⟩ := span_of_readNumber h
    have hfront : c.Span ['#', ch] (c.advance 2) := Cursor.Span.advance hr
    exact ⟨_, .radix radix hl hn he, hfront.trans hspan, Nat.zero_le _⟩
  case boolean =>
    intro cs p hr hbool h
    cases h
    obtain ⟨s, hl, hspan, hheight⟩ := layout_of_readBoolean hbool hr
    exact ⟨s, hl, hspan, by omega⟩
  case decimal =>
    intro ch cs hr hdig h
    obtain ⟨digits, n, hn, he, rfl, hspan⟩ := span_of_readNumber h
    exact ⟨_, .decimal hn he, hspan, Nat.zero_le _⟩
  case symbol =>
    intro ch cs hr hdel hdig hhash h
    obtain ⟨s, hl, hspan, hheight⟩ := layout_of_readSymbol hr hdel hdig
      (fun tail rest hch hcs ht hd =>
        hashName_of_readHash? (by rw [hr, hcs, hch]) hclear ht hd (hhash hch)) h
    exact ⟨s, hl, hspan, by omega⟩

end Sound

theorem readBehind_ok {here : Cursor → Reading} {c next : Cursor} {d : Datum}
    (h : readBehind here c = .ok (d, next)) :
    ∃ start w, IsAtmosphere w ∧ c.Span w start ∧ start.rest ≠ [] ∧ Clear start.rest ∧
      here start = .ok (d, next) := by
  unfold readBehind at h
  split at h
  · cases h
  · rename_i start hs
    by_cases hne : start.rest = []
    · rw [if_pos hne] at h
      cases h
    · rw [if_neg hne] at h
      obtain ⟨⟨w, hw, hspan⟩, hclear⟩ := span_of_skipAtmosphere hs hne
      exact ⟨start, w, hw, hspan, hne, hclear, h⟩

/-- Such a reading fails in the atmosphere, at the end of the text, or where the datum begins. -/
theorem readBehind_error {here : Cursor → Reading} {c : Cursor} {f : ReadFailure}
    (h : readBehind here c = .error f) :
    skipAtmosphere c = .error f ∨ ∃ start, skipAtmosphere c = .ok start ∧
      (start.rest = [] ∧ f = ⟨start.pos, .endOfInput⟩ ∨
        start.rest ≠ [] ∧ here start = .error f) := by
  unfold readBehind at h
  split at h
  · rename_i hskip
    cases h
    exact .inl hskip
  · rename_i start hskip
    by_cases hend : start.rest = []
    · rw [if_pos hend] at h
      cases h
      exact .inr ⟨start, hskip, .inl ⟨hend, rfl⟩⟩
    · rw [if_neg hend] at h
      exact .inr ⟨start, hskip, .inr ⟨hend, h⟩⟩

/-- Each level of the reader answers with what is spelled behind the cursor, and nests no deeper
than its levels. -/
theorem element_sound (limit : Int) (levels : Nat) : (element limit levels).Sound levels := by
  induction levels with
  | zero =>
    intro c next d h
    obtain ⟨start, w, -, -, -, -, hstart⟩ := readBehind_ok h
    cases hstart
  | succ levels ih =>
    intro c next d h
    obtain ⟨start, w, hw, hspan, hne, hclear, hstart⟩ := readBehind_ok h
    obtain ⟨s, hl, hspan', hheight⟩ := layout_of_readHere ih hne hclear hstart
    exact ⟨w, s, hw, hl, hspan.trans hspan', Nat.lt_succ_of_le hheight⟩

/-! ## Whole texts -/

theorem height_le_of_lt_levelsLeft {limit : Int} {height : Nat} (h : height < levelsLeft limit 0) :
    (height : Int) ≤ limit := by
  unfold levelsLeft at h
  omega

/-- Behind the cursor stand the data that are read to the end of the text, with atmosphere in front
of and behind each, and nothing else. -/
theorem span_of_readRest {limit : Int} {c : Cursor} {ds : List Datum}
    (h : readRest (elementAt limit 0) c = .ok ds) :
    (∃ w s line, c.rest = w ++ s ++ line ∧ IsAtmosphere w ∧ LayoutItems ds s line ∧
      CutOff line []) ∧ ∀ d ∈ ds, (d.height : Int) ≤ limit := by
  fun_induction readRest (elementAt limit 0) c generalizing ds with
  | case1 | case3 => cases h
  | case2 c here hs hend =>
    cases h
    obtain ⟨u, ⟨w, line, rfl, hw, hl⟩, hr, -⟩ := skipped_of_skipAtmosphere hs
    rw [hend] at hr hl
    refine ⟨⟨w, [], line, ?_, hw, .nil, hl⟩, by simp⟩
    rw [hr, List.append_nil, List.append_nil]
  | case4 c here hs hne d next hd _ ih =>
    obtain ⟨ds', hm, rfl⟩ := map_eq_ok h
    obtain ⟨⟨w, hw, hspan⟩, -⟩ := span_of_skipAtmosphere hs hne
    obtain ⟨w₁, s, hw₁, hl, hspan₁, hheight⟩ := element_sound limit _ hd
    obtain ⟨⟨w₂, ss, line, hr, hw₂, hls, hcut⟩, hheights⟩ := ih hm
    rw [hr] at hl
    refine ⟨⟨w ++ w₁, s ++ w₂ ++ ss, line, ?_, hw.append hw₁, .cons hl hw₂ hls, hcut⟩, ?_⟩
    · rw [hspan.1, hspan₁.1, hr]
      simp only [List.append_assoc]
    · rw [List.forall_mem_cons]
      exact ⟨height_le_of_lt_levelsLeft hheight, hheights⟩

theorem LayoutItems.exists_layout {ds : List Datum} {s rest : List Char}
    (h : LayoutItems ds s rest) :
    ∀ d ∈ ds, ∃ s rest, Layout d s rest := by
  induction ds generalizing s with
  | nil => simp
  | cons d ds ih =>
    cases h with
    | cons hs _ hss =>
      rw [List.forall_mem_cons]
      exact ⟨⟨_, _, hs⟩, ih hss⟩

theorem layout_of_read {limit : Int} {text : String} {d : Datum} (h : read limit text = .ok d) :
    (∃ w s rest, IsAtmosphere w ∧ Layout d s rest ∧ text.toList = w ++ s ++ rest) ∧
      (d.height : Int) ≤ limit := by
  unfold read readFirst at h
  cases hd : readDatum limit 0 (.ofPos text.toList 0) with
  | error f =>
    rw [hd] at h
    cases h
  | ok p =>
    rw [hd] at h
    cases h
    obtain ⟨w, s, hw, hl, hspan, hheight⟩ := element_sound limit _ hd
    exact ⟨⟨w, s, _, hw, hl, hspan.1⟩, height_le_of_lt_levelsLeft hheight⟩

theorem readAll_eq_ok {limit : Int} {text : String} {ds : List Datum} :
    readAll limit text = .ok ds ↔ readEvery limit text.toList = .ok ds := by
  unfold readAll
  cases readEvery limit text.toList <;> simp [Except.mapError]

theorem readAll_eq_error {limit : Int} {text : String} {f : ParseFailure} :
    readAll limit text = .error f ↔
      ∃ g, readEvery limit text.toList = .error g ∧ g.inText text = f := by
  unfold readAll
  cases readEvery limit text.toList <;> simp [Except.mapError]

theorem layouts_of_readAll {limit : Int} {text : String} {ds : List Datum}
    (h : readAll limit text = .ok ds) :
    ∀ d ∈ ds, (∃ s rest, Layout d s rest) ∧ (d.height : Int) ≤ limit := by
  obtain ⟨⟨w, s, line, -, -, hls, -⟩, hheights⟩ := span_of_readRest (readAll_eq_ok.1 h)
  exact fun d hmem => ⟨hls.exists_layout d hmem, hheights d hmem⟩

end SchemeCore.Reader
