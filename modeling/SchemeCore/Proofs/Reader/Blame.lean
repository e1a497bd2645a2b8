import SchemeCore.Proofs.Reader.Limit
import SchemeCore.Proofs.Reader.Translation

/-!
# What a failure blames

A failure of the reader names a position of the text, and what stands there fits its message:
`Blamed` has one rule for each message. The reader of an atom blames the place where the atom
begins, and readers of sequences and of marked data hand on what was blamed further in
(`BlamedIn.behind`).

A list or vector is blamed for its missing parenthesis by the reader that opened it, at the end of
the text. Everything that this reader went past is a run of complete data, which is also what a
reader of whole texts finds there (`blamed_of_readSequence`); no sequence inside is open.
-/

namespace SchemeCore.Reader

/-- The message is about what stands at the beginning of `cs`, the characters from the blamed
position to the end of the text. -/
inductive Blamed (limit : Int) : (cs : List Char) → (message : String) → Prop where
  | endOfInput : Blamed limit [] "unexpected end of input"
  | blockComment {rest : List Char} : Blamed limit ('#' :: '|' :: rest) "unterminated block comment"
  | string {rest : List Char} : Blamed limit ('"' :: rest) "unterminated string literal"
  | list {inside : List Char} {ds : List Datum} (h : readAll limit (String.ofList inside) = .ok ds) :
      Blamed limit ('(' :: inside) "unterminated list: missing ')'"
  | vector {inside : List Char} {ds : List Datum}
      (h : readAll limit (String.ofList inside) = .ok ds) :
      Blamed limit ('#' :: '(' :: inside) "unterminated vector: missing ')'"
  | close {rest : List Char} : Blamed limit (')' :: rest) "unexpected ')'"
  | dot {rest : List Char} (h : Delimited rest) :
      Blamed limit ('.' :: rest) "dotted lists are not supported"
  | digits {letter : Char} {radix : Text.Radix} {rest : List Char}
      (hl : Text.Radix.ofLetter? letter = some radix) (h : EndsNumeral radix rest) :
      Blamed limit ('#' :: letter :: rest) ("expected base-" ++ toString radix.base ++
        " digits after " ++ Text.quote (String.ofList ['#', letter]))
  | character : Blamed limit ['#', '\\'] "expected a character after '#\\'"
  | tooDeep {cs : List Char} (hne : cs ≠ []) (h : Clear cs) :
      Blamed limit cs ("nesting deeper than " ++ toString limit ++ " levels")

/-- The failure blames a place at or behind the cursor, for what stands there. -/
def BlamedIn (limit : Int) (c : Cursor) (f : ReadFailure) : Prop :=
  ∃ s here, c.Span s here ∧ f.position = here.pos ∧ Blamed limit here.rest f.fault.message

theorem BlamedIn.here {limit : Int} {c : Cursor} {fault : ReadFault}
    (h : Blamed limit c.rest fault.message) : BlamedIn limit c ⟨c.pos, fault⟩ :=
  ⟨[], c, ⟨rfl, rfl⟩, rfl, h⟩

/-- What is blamed further on is blamed. -/
theorem BlamedIn.behind {limit : Int} {c mid : Cursor} {f : ReadFailure} {s : List Char}
    (h : BlamedIn limit mid f) (hspan : c.Span s mid) : BlamedIn limit c f := by
  obtain ⟨t, here, hspan', hpos, hblamed⟩ := h
  exact ⟨s ++ t, here, hspan.trans hspan', hpos, hblamed⟩

/-! ## Atmosphere and atoms -/

section Atoms

variable {c : Cursor} {f : ReadFailure}

/-- The failure of a scan blames a block comment that it came to, or the one that it starts in. -/
def BlamedScan (limit : Int) (mode : Atmosphere) (c : Cursor) (f : ReadFailure) : Prop :=
  f.fault = .openBlockComment ∧
    (BlamedIn limit c f ∨ ∃ inner, mode = .blockComment f.position inner)

/-- What a scan blames is blamed by the scan that starts some characters before, if that one is in
the comment already or the comment begins with them. -/
theorem BlamedScan.behind {limit : Int} {mode mode' : Atmosphere} {pos : Nat} {cs : List Char}
    (s : List Char) (h : BlamedScan limit mode' ⟨pos + s.length, cs⟩ f)
    (hstep : ∀ inner, mode' = .blockComment f.position inner →
      BlamedScan limit mode ⟨pos, s ++ cs⟩ f) : BlamedScan limit mode ⟨pos, s ++ cs⟩ f := by
  obtain ⟨hfault, hblamed | ⟨inner, hmode⟩⟩ := h
  · have hfront : (⟨pos, s ++ cs⟩ : Cursor).Span s ⟨pos + s.length, cs⟩ := ⟨rfl, rfl⟩
    exact ⟨hfault, .inl (hblamed.behind hfront)⟩
  · exact hstep inner hmode

theorem blamed_of_scanAtmosphere (limit : Int) {mode : Atmosphere} {pos : Nat} {cs : List Char}
    (h : scanAtmosphere mode pos cs = .error f) : BlamedScan limit mode ⟨pos, cs⟩ f := by
  fun_induction scanAtmosphere mode pos cs with
  | case1 | case5 | case6 => cases h
  | case8 =>
    cases h
    exact ⟨rfl, .inr ⟨_, rfl⟩⟩
  | case2 pos cs ih =>
    -- the comment that is open at the end begins here
    refine (ih h).behind ['#', '|'] fun inner hmode => ?_
    obtain ⟨position, fault⟩ := f
    obtain ⟨rfl, -⟩ := ih h
    cases hmode
    exact ⟨rfl, .inl (.here .blockComment)⟩
  | case3 pos c cs _ _ ih => exact (ih h).behind [c] (by rintro _ ⟨⟩)
  | case4 pos cs _ _ ih => exact (ih h).behind [';'] (by rintro _ ⟨⟩)
  | case7 pos c cs ih =>
    refine (ih h).behind [c] fun inner hmode => ?_
    split at hmode <;> cases hmode
  | case9 start inner pos cs ih =>
    refine (ih h).behind ['#', '|'] fun _ hmode => ⟨(ih h).1, .inr ⟨inner, ?_⟩⟩
    cases hmode
    rfl
  | case10 start pos cs ih => exact (ih h).behind ['|', '#'] (by rintro _ ⟨⟩)
  | case11 start inner pos cs ih =>
    refine (ih h).behind ['|', '#'] fun _ hmode => ⟨(ih h).1, .inr ⟨inner + 1, ?_⟩⟩
    cases hmode
    rfl
  | case12 start inner pos c cs _ _ _ ih =>
    refine (ih h).behind [c] fun _ hmode => ⟨(ih h).1, .inr ⟨inner, ?_⟩⟩
    cases hmode
    rfl

theorem blamed_of_skipAtmosphere (limit : Int) (h : skipAtmosphere c = .error f) :
    f.fault = .openBlockComment ∧ BlamedIn limit c f := by
  obtain ⟨hfault, hblamed | ⟨_, hmode⟩⟩ := blamed_of_scanAtmosphere limit h
  · exact ⟨hfault, hblamed⟩
  · cases hmode

theorem readString_error (h : readString c = .error f) : f = ⟨c.pos, .openString⟩ := by
  unfold readString at h
  split at h <;> cases h
  rfl

theorem readNumber_error {opened start : Cursor} {radix : Text.Radix}
    (h : readNumber opened start radix = .error f) :
    EndsNumeral radix start.rest ∧ f = ⟨opened.pos,
      .missingDigits radix (String.ofList (opened.rest.take (start.pos - opened.pos)))⟩ := by
  unfold readNumber at h
  split at h <;> cases h
  rename_i hrun
  obtain ⟨rest, hr, -, hstop⟩ := takeWhile_spec radix.isDigit start.rest
  have hrest : start.rest = rest := by
    rw [hr, show start.rest.takeWhile radix.isDigit = [] from hrun, List.nil_append]
  exact ⟨by rwa [EndsNumeral, hrest], rfl⟩

theorem readCharacter_error (h : readCharacter c = .error f) :
    c.rest.drop 2 = [] ∧ f = ⟨c.pos, .missingCharacter⟩ := by
  cases hr : (c.advance 2).rest with
  | nil =>
    simp only [readCharacter, hr] at h
    cases h
    exact ⟨hr, rfl⟩
  | cons ch cs =>
    rw [readCharacter_eq hr] at h
    split at h <;> cases h

theorem readSymbol_error (h : readSymbol c = .error f) :
    (∃ rest, c.rest = '.' :: rest ∧ Delimited rest) ∧ f = ⟨c.pos, .dottedList⟩ := by
  unfold readSymbol at h
  split at h <;> cases h
  rename_i hdot
  obtain ⟨rest, hr, -, hd⟩ := token_spec c.rest
  rw [show token c.rest = ['.'] from hdot] at hr
  exact ⟨⟨rest, hr, hd⟩, rfl⟩

variable {limit : Int} {cs : List Char}

theorem blamed_of_readString (hr : c.rest = '"' :: cs) (h : readString c = .error f) :
    BlamedIn limit c f := by
  rw [readString_error h]
  refine .here ?_
  rw [hr]
  exact .string

theorem blamed_of_readCharacter (hr : c.rest = '#' :: '\\' :: cs)
    (h : readCharacter c = .error f) : BlamedIn limit c f := by
  obtain ⟨hend, rfl⟩ := readCharacter_error h
  refine .here ?_
  rw [hr] at hend ⊢
  rw [show cs = [] from hend]
  exact .character

theorem blamed_of_readNumber {radix : Text.Radix} {letter : Char}
    (hr : c.rest = '#' :: letter :: cs) (hl : Text.Radix.ofLetter? letter = some radix)
    (h : readNumber c (c.advance 2) radix = .error f) : BlamedIn limit c f := by
  obtain ⟨hstop, rfl⟩ := readNumber_error h
  have hspan : c.Span ['#', letter] (c.advance 2) := .advance hr
  have hintro : c.rest.take ((c.advance 2).pos - c.pos) = ['#', letter] := by
    rw [Cursor.pos_advance, Nat.add_sub_cancel_left, hr]
    rfl
  refine .here ?_
  rw [hintro, hspan.1]
  exact .digits hl hstop

/-- The digit that announces a number without a radix is one of its digits. -/
theorem readNumber_ne_error {ch : Char} (hr : c.rest = ch :: cs) (hdig : ch.isDigit = true) :
    readNumber c c .decimal ≠ .error f := by
  intro h
  obtain ⟨hstop, -⟩ := readNumber_error h
  rw [hr] at hstop
  have hnone := hstop ch rfl
  rw [isDigit_decimal, hdig] at hnone
  cases hnone

theorem blamed_of_readSymbol (h : readSymbol c = .error f) : BlamedIn limit c f := by
  obtain ⟨⟨rest, hr, hd⟩, rfl⟩ := readSymbol_error h
  refine .here ?_
  rw [hr]
  exact .dot hd

end Atoms

/-! ## Elements -/

theorem mapError_eq_error {ε ε' α : Type} {r : Except ε α} {g : ε → ε'} {e : ε'}
    (h : r.mapError g = .error e) : ∃ e', r = .error e' ∧ g e' = e := by
  cases r with
  | error e' => exact ⟨e', rfl, Except.error.inj h⟩
  | ok a => cases h

theorem map_eq_error {ε α β : Type} {r : Except ε α} {f : α → β} {e : ε} (h : r.map f = .error e) :
    r = .error e := by
  cases r with
  | error e' => exact congrArg Except.error (Except.error.inj h)
  | ok a => cases h

/-- What a reader of whole texts finds behind the cursor, under a lower limit than that of the
text. -/
theorem readAll_of_readRest {limit : Int} {levels : Nat} (hle : levels ≤ (limit + 1).toNat)
    {c : Cursor} {ds : List Datum} (h : readRest (element limit levels) c = .ok ds) :
    readAll limit (String.ofList c.rest) = .ok ds := by
  have htop : readRest (element limit (limit + 1).toNat) c = .ok ds := by
    obtain heq | ⟨p, herror⟩ := readRest_keeps (element_keeps limit limit hle) c
    · rw [heq, h]
    · rw [h] at herror
      cases herror
  have hshift : c = (⟨0, c.rest⟩ : Cursor).shift c.pos := rfl
  rw [hshift, readRest_shift (element_translates limit _)] at htop
  rw [readAll_eq, String.toList_ofList]
  cases hread : readRest (element limit (limit + 1).toNat) ⟨0, c.rest⟩ with
  | error f =>
    rw [hread] at htop
    cases htop
  | ok ds' =>
    rw [hread] at htop
    cases htop
    rfl

/-- The reader for single data blames rightly. -/
def Element.Blames (item : Element) (limit : Int) : Prop :=
  ∀ {c : Cursor} {f : ReadFailure}, item.read c = .error f → BlamedIn limit c f

section Elements

variable {limit : Int} {item : Element} {levels : Nat} (hi : item.Blames limit)
  (hs : item.Sound levels) {c : Cursor} {f : ReadFailure}

include hi hs

/-- A sequence that is blamed for its missing parenthesis has complete data in it, up to the end of
the text. -/
theorem blamed_of_readSequence {opened : Nat} {what : String}
    (h : readSequence item opened what c = .error f) :
    BlamedIn limit c f ∨
      f = ⟨opened, .openSequence what⟩ ∧ ∃ ds, readRest item c = .ok ds := by
  fun_induction readSequence item opened what c with
  | case1 c f' hskip =>
    cases h
    exact .inl (blamed_of_skipAtmosphere limit hskip).2
  | case2 c here hskip hend =>
    cases h
    exact .inr ⟨rfl, [], readRest_end hskip hend⟩
  | case3 => cases h
  | case4 c here hskip f' hd _ _ =>
    cases h
    obtain ⟨u, -, hspan⟩ := skipped_of_skipAtmosphere hskip
    exact .inl ((hi hd).behind hspan)
  | case5 c here hskip d next hd _ hne _ ih =>
    obtain ⟨u, -, hspan⟩ := skipped_of_skipAtmosphere hskip
    obtain ⟨w, s, -, -, hspan', -⟩ := hs hd
    obtain hblamed | ⟨hf, ds, hds⟩ := ih (map_eq_error h)
    · exact .inl (hblamed.behind (hspan.trans hspan'))
    · refine .inr ⟨hf, d :: ds, ?_⟩
      rw [readRest_ok hskip hne hd, hds]
      rfl

theorem blamed_of_readRest (h : readRest item c = .error f) : BlamedIn limit c f := by
  fun_induction readRest item c with
  | case1 c f' hskip =>
    cases h
    exact (blamed_of_skipAtmosphere limit hskip).2
  | case2 => cases h
  | case3 c here hskip _ f' hd =>
    cases h
    obtain ⟨u, -, hspan⟩ := skipped_of_skipAtmosphere hskip
    exact (hi hd).behind hspan
  | case4 c here hskip _ d next hd _ ih =>
    obtain ⟨u, -, hspan⟩ := skipped_of_skipAtmosphere hskip
    obtain ⟨w, s, -, -, hspan', -⟩ := hs hd
    exact (ih (map_eq_error h)).behind (hspan.trans hspan')

/-- The failure of a list or vector blames something in it, or else what opens it. -/
theorem blamed_of_opened (hall : ∀ {c : Cursor} {ds : List Datum}, readRest item c = .ok ds →
      readAll limit (String.ofList c.rest) = .ok ds)
    (front : List Char) {cs : List Char} {what : String} (hr : c.rest = front ++ cs)
    (hblamed : ∀ {ds : List Datum}, readAll limit (String.ofList cs) = .ok ds →
      Blamed limit (front ++ cs) (ReadFault.openSequence what).message)
    (h : readSequence item c.pos what (c.advance front.length) = .error f) :
    BlamedIn limit c f := by
  have hspan : c.Span front (c.advance front.length) := .advance hr
  obtain hinside | ⟨rfl, ds, hds⟩ := blamed_of_readSequence hi hs h
  · exact hinside.behind hspan
  · have hread := hall hds
    rw [Cursor.Span.rest_advance_of hr] at hread
    refine .here ?_
    rw [hr]
    exact hblamed hread

/-- Where a datum begins, the failure to read it blames the place itself or one inside. -/
theorem blamed_of_readHere (hall : ∀ {c : Cursor} {ds : List Datum}, readRest item c = .ok ds →
      readAll limit (String.ofList c.rest) = .ok ds)
    (hne : c.rest ≠ []) (hclear : Clear c.rest) (h : readHere item c = .error f) :
    BlamedIn limit c f := by
  refine readHere_cases (motive := fun r => r = .error f → _) hne hclear ?string ?list ?close
    ?marked ?vector ?character ?number ?boolean ?decimal ?symbol h
  case string => exact fun cs hr => blamed_of_readString hr
  case list =>
    exact fun cs hr h => blamed_of_opened hi hs hall ['('] hr .list (map_eq_error h)
  case close =>
    rintro cs hr ⟨⟩
    refine .here ?_
    rw [hr]
    exact .close
  case marked => exact fun mark cs hr _ h => (hi (map_eq_error h)).behind (.advance hr)
  case vector =>
    exact fun cs hr h => blamed_of_opened hi hs hall ['#', '('] hr .vector (map_eq_error h)
  case character => exact fun cs hr => blamed_of_readCharacter hr
  case number => exact fun radix letter cs hr hl => blamed_of_readNumber hr hl
  case boolean => rintro cs p - - ⟨⟩
  case decimal => exact fun ch cs hr hdig h => absurd h (readNumber_ne_error hr hdig)
  case symbol => exact fun ch cs _ _ _ _ => blamed_of_readSymbol

end Elements

theorem blamed_of_readBehind {limit : Int} {here : Cursor → Reading} {c : Cursor} {f : ReadFailure}
    (hhere : ∀ start : Cursor, start.rest ≠ [] → Clear start.rest → here start = .error f →
      BlamedIn limit start f) (h : readBehind here c = .error f) : BlamedIn limit c f := by
  obtain hskip | ⟨start, hskip, hstart⟩ := readBehind_error h
  · exact (blamed_of_skipAtmosphere limit hskip).2
  · obtain ⟨u, -, hspan⟩ := skipped_of_skipAtmosphere hskip
    refine .behind ?_ hspan
    obtain ⟨hend, rfl⟩ | ⟨hne, hstart⟩ := hstart
    · refine .here ?_
      rw [hend]
      exact .endOfInput
    · exact hhere start hne (clear_of_scanAtmosphere hskip) hstart

/-- No level of the reader blames anything wrongly. -/
theorem element_blames (limit : Int) {levels : Nat} (hle : levels ≤ (limit + 1).toNat) :
    (element limit levels).Blames limit := by
  induction levels with
  | zero =>
    intro c f h
    refine blamed_of_readBehind (fun start hne hclear hstart => ?_) h
    cases hstart
    exact .here (.tooDeep hne hclear)
  | succ levels ih =>
    intro c f h
    have hle' : levels ≤ (limit + 1).toNat := Nat.le_of_succ_le hle
    exact blamed_of_readBehind (fun start hne hclear hstart =>
      blamed_of_readHere (ih hle') (element_sound limit levels) (readAll_of_readRest hle') hne
        hclear hstart) h

/-! ## Whole texts -/

/-- A failure blames what stands at its position in the text. -/
theorem blamed_in_text {limit : Int} {text : String} {g : ReadFailure}
    (h : BlamedIn limit ⟨0, text.toList⟩ g) :
    ∃ p ≤ text.length, (g.inText text).position = p ∧
      Blamed limit (text.toList.drop p) (g.inText text).message := by
  obtain ⟨s, here, ⟨hrest, hpos⟩, hposition, hblamed⟩ := h
  have htext : text.toList = s ++ here.rest := hrest
  refine ⟨s.length, ?_, ?_, ?_⟩
  · rw [← String.length_toList, htext, List.length_append]
    exact Nat.le_add_right _ _
  · show (g.position : Int) = _
    rw [hposition, hpos]
    simp
  · rw [htext, List.drop_left]
    exact hblamed

/-- Every failure of the reader blames the right character. Its position lies in the text or at its
end, and what stands there is what the message says; a list or vector without its closing
parenthesis is the innermost one, since behind its opening there are complete data only. No other
messages occur. -/
theorem failures_blame_their_characters (limit : Int) (text : String) (f : ParseFailure)
    (h : read limit text = .error f ∨ readAll limit text = .error f) :
    f.text = text ∧ ∃ p ≤ text.length, f.position = p ∧
      Blamed limit (text.toList.drop p) f.message := by
  have hblames : (element limit (limit + 1).toNat).Blames limit :=
    element_blames limit (Nat.le_refl _)
  obtain h | h := h
  · rw [read_eq] at h
    obtain ⟨g, hg, rfl⟩ := mapError_eq_error h
    exact ⟨rfl, blamed_in_text (hblames (map_eq_error hg))⟩
  · rw [readAll_eq] at h
    obtain ⟨g, hg, rfl⟩ := mapError_eq_error h
    exact ⟨rfl, blamed_in_text (blamed_of_readRest hblames (element_sound limit _) hg)⟩

theorem failures_blame_their_characters_open :
    read 2 "'#(a;)" = .error ⟨1, "unterminated vector: missing ')'", "'#(a;)"⟩ ∧
      ∃ p : Nat, p ≤ 6 ∧ (1 : Int) = p ∧
        Blamed 2 ("'#(a;)".toList.drop p) "unterminated vector: missing ')'" := by
  have hsequence : readSequence (element 2 1) 1 "vector" ⟨3, "a;)".toList⟩ =
      .error ⟨1, .openSequence "vector"⟩ := by
    rw [readSequence_eq]
    show (readSequence (element 2 1) 1 "vector" ⟨4, ";)".toList⟩).map _ = _
    rw [readSequence_eq]
    rfl
  have hvector : (element 2 2).read ⟨1, "#(a;)".toList⟩ = .error ⟨1, .openSequence "vector"⟩ := by
    show readHere (element 2 1) ⟨1, "#(a;)".toList⟩ = _
    exact readHere_vector_error rfl hsequence
  have hmarked : (element 2 3).read ⟨0, "'#(a;)".toList⟩ = .error ⟨1, .openSequence "vector"⟩ := by
    show readHere (element 2 2) ⟨0, shortForm .quote ++ "#(a;)".toList⟩ = _
    exact readHere_marked_error rfl (by simp) hvector
  have hread : read 2 "'#(a;)" = .error ⟨1, "unterminated vector: missing ')'", "'#(a;)"⟩ := by
    rw [read_eq]
    show Except.mapError _ (Except.map _ ((element 2 3).read ⟨0, "'#(a;)".toList⟩)) = _
    rw [hmarked]
    rfl
  exact ⟨hread, (failures_blame_their_characters 2 "'#(a;)" _ (.inl hread)).2⟩

end SchemeCore.Reader
