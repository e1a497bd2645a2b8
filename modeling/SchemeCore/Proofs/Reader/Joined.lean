import SchemeCore.Proofs.Place
import SchemeCore.Proofs.Reader.Extent
import SchemeCore.Proofs.Reader.Translation

/-!
# Joined texts

Two texts that are joined by a line feed are read one after the other.

1. A spelling looks ahead no further than to the end of the token behind it (`Layout.ahead`). The
   end of a text and a line feed end a token alike, so the data of the first text are spelled in
   front of the second one as they were alone.
2. The line feed ends a line comment that the end of the first text cut off; what is left between
   the data of the two texts is atmosphere.
3. The second text is read as it is alone, only further on (`readRest_shift`).
-/

namespace SchemeCore.Reader

/-! ## Looking ahead -/

/-- A token in front goes on for the same characters, and an opening parenthesis follows at once in
both cases or in neither. -/
structure Alike (rest rest' : List Char) : Prop where
  token_eq : token rest = token rest'
  open_iff : rest.head? = some '(' ↔ rest'.head? = some '('

theorem Alike.append {rest rest' : List Char} (h : Alike rest rest') (cs : List Char) :
    Alike (cs ++ rest) (cs ++ rest') := by
  constructor
  · have htoken := h.token_eq
    unfold token at htoken ⊢
    rw [List.takeWhile_append, List.takeWhile_append, htoken]
  · cases cs with
    | nil => exact h.open_iff
    | cons c cs => rfl

theorem delimited_iff {rest : List Char} : Delimited rest ↔ token rest = [] := by
  cases rest with
  | nil => simp [Delimited, token]
  | cons c rest => simp [Delimited, token, List.takeWhile_cons]

theorem isDigit_of_isDelimiter {c : Char} (h : Cursor.isDelimiter c = true) (radix : Text.Radix) :
    radix.isDigit c = false := by
  have hvalue : Text.digitValue? c = none := by
    rcases isDelimiter_iff.1 h with hb | rfl | rfl | rfl | rfl | rfl | rfl | rfl
    · have hle : ∀ a b : Char, a ≤ b ↔ a.toNat ≤ b.toNat := fun a b => UInt32.le_iff_toNat_le
      simp only [Text.isBlank, Bool.or_eq_true, Bool.and_eq_true, decide_eq_true_eq,
        beq_iff_eq] at hb
      unfold Text.digitValue?
      simp only [hle, Char.reduceToNat]
      rw [if_neg (by omega), if_neg (by omega), if_neg (by omega)]
    all_goals rfl
  rw [Text.Radix.isDigit, hvalue]
  rfl

/-- A numeral ends where the token behind it begins with no digit. -/
theorem endsNumeral_iff {radix : Text.Radix} {rest : List Char} :
    EndsNumeral radix rest ↔ ∀ c ∈ (token rest).head?, radix.isDigit c = false := by
  cases rest with
  | nil => simp [EndsNumeral, token]
  | cons c rest =>
    by_cases hc : Cursor.isDelimiter c = true
    · simp [EndsNumeral, token, hc, isDigit_of_isDelimiter hc]
    · simp [EndsNumeral, token, hc]

mutual

/-- A spelling in front of `rest` is one in front of all that looks alike. -/
theorem Layout.ahead {d : Datum} {s rest rest' : List Char} (hl : Layout d s rest)
    (h : Alike rest rest') : Layout d s rest' :=
  match hl with
  | .decimal hn hr => .decimal hn (by rwa [endsNumeral_iff, ← h.token_eq, ← endsNumeral_iff])
  | .radix radix hletter hn hr =>
    .radix radix hletter hn (by rwa [endsNumeral_iff, ← h.token_eq, ← endsNumeral_iff])
  | .boolean hm hs hr => .boolean hm hs (by rwa [delimited_iff, ← h.token_eq, ← delimited_iff])
  | .character (c := c) hr => .character (by
    have htoken : token (c :: rest) = token (c :: rest') := (h.append [c]).token_eq
    rwa [← htoken])
  | .characterName hm hs hr =>
    .characterName hm hs (by rwa [delimited_iff, ← h.token_eq, ← delimited_iff])
  | .string hc => .string hc
  | .symbol hn hr hp =>
    .symbol hn (by rwa [delimited_iff, ← h.token_eq, ← delimited_iff]) fun hname hopen =>
      hp hname (h.open_iff.2 hopen)
  | .list hw hs => .list hw (hs.ahead (h.append [')']))
  | .vector hw hs => .vector hw (hs.ahead (h.append [')']))
  | .marked mark hw hs ha => .marked mark hw (hs.ahead h) ha

theorem LayoutItems.ahead {ds : List Datum} {s rest rest' : List Char} (hl : LayoutItems ds s rest)
    (h : Alike rest rest') : LayoutItems ds s rest' :=
  match hl with
  | .nil => .nil
  | .cons hs hw hss => .cons (hs.ahead (h.append _)) hw (hss.ahead h)

end

/-- The end of a text and a line feed end a token alike. -/
theorem alike_line (line cs : List Char) : Alike line (line ++ '\n' :: cs) := by
  have hend : Alike [] ('\n' :: cs) := ⟨rfl, by simp⟩
  have hline := hend.append line
  rwa [List.append_nil] at hline

/-! ## The place between the texts -/

/-- A line feed ends a cut off comment. -/
theorem CutOff.isAtmosphere {line : List Char} (h : CutOff line []) :
    IsAtmosphere (line ++ ['\n']) := by
  rcases h with rfl | ⟨-, comment, rfl, hc⟩
  · exact .blank (by decide) .nil
  · exact .lineComment hc .nil

theorem readRest_line {limit : Int} {line cs : List Char} (h : CutOff line []) (pos : Nat) :
    readRest (elementAt limit 0) ⟨pos, line ++ '\n' :: cs⟩ =
      readRest (elementAt limit 0) ⟨pos + line.length + 1, cs⟩ := by
  apply readRest_congr
  apply skipAtmosphere_span _ h.isAtmosphere
  constructor
  · rw [List.append_assoc]
    rfl
  · rw [List.length_append]
    rfl

/-- The data of the first text are read, and then the second text as it is alone. -/
theorem readEvery_joined {limit : Int} {a b : List Char} {xs : List Datum}
    (ha : readEvery limit a = .ok xs) : readEvery limit (a ++ '\n' :: b) =
      (shiftEnd (a.length + 1) id (readEvery limit b)).map (xs ++ ·) := by
  obtain ⟨⟨w, s, line, htext, hw, hls, hcut⟩, hheights⟩ := span_of_readRest ha
  replace htext : a = w ++ s ++ line := htext
  have hspan : (Cursor.ofPos (a ++ '\n' :: b) 0).Span (w ++ s)
      ⟨0 + (w ++ s).length, line ++ '\n' :: b⟩ := by
    refine ⟨?_, rfl⟩
    rw [htext, List.append_assoc]
    rfl
  have hpos : 0 + (w ++ s).length + line.length + 1 = a.length + 1 := by
    rw [htext]
    simp only [List.length_append]
    omega
  have hitem : (elementAt limit 0).Translates := element_translates limit _
  have hshift : (⟨a.length + 1, b⟩ : Cursor) = (Cursor.ofPos b 0).shift (a.length + 1) := rfl
  rw [readEvery, readRest_span (hls.ahead (alike_line line b)) hw hheights hspan,
    readRest_line hcut, hpos, hshift, readRest_shift hitem]
  rfl

theorem toList_joined (a b : String) :
    (a ++ "\n" ++ b).toList = a.toList ++ '\n' :: b.toList := by
  rw [String.toList_append, String.toList_append, List.append_assoc]
  rfl

theorem readAll_joined_eq {limit : Int} {a b : String} {xs : List Datum}
    (ha : readAll limit a = .ok xs) : readAll limit (a ++ "\n" ++ b) =
      ((shiftEnd (a.length + 1) id (readEvery limit b.toList)).map (xs ++ ·)).mapError
        (·.inText (a ++ "\n" ++ b)) := by
  rw [readAll, toList_joined, readEvery_joined (readAll_eq_ok.1 ha), String.length_toList]

/-- A failure behind a line feed keeps its column, and its line is counted on from the text in
front. -/
theorem line_column_joined (a b : String) (f : ReadFailure) :
    let g := (f.shift (a.length + 1)).inText (a ++ "\n" ++ b)
    g.column = (f.inText b).column ∧ g.line = (f.inText b).line + 1 + a.toList.count '\n' := by
  have hcolumn := Text.columnAt_joined a.toList b.toList f.position
  have hline := Text.lineAt_joined a.toList b.toList f.position
  rw [← toList_joined, String.length_toList] at hcolumn hline
  exact ⟨hcolumn, hline⟩

/-- Reading goes line by line. If all data of a text are read, then behind it and a line feed
another text is read as it is alone: its data follow those of the first text, or its failure is
found at its place in the joined text, on the same column. -/
theorem readAll_joined (limit : Int) (a b : String) (xs : List Datum)
    (ha : readAll limit a = .ok xs) :
    (∀ ys, readAll limit b = .ok ys → readAll limit (a ++ "\n" ++ b) = .ok (xs ++ ys)) ∧
    (∀ f, readAll limit b = .error f → ∃ g, readAll limit (a ++ "\n" ++ b) = .error g ∧
      g.message = f.message ∧ g.position = f.position + a.length + 1 ∧ g.column = f.column ∧
      g.line = f.line + 1 + a.toList.count '\n') := by
  rw [readAll_joined_eq ha]
  constructor
  · intro ys hb
    rw [readAll_eq_ok.1 hb]
    rfl
  · intro f hb
    obtain ⟨g, hg, rfl⟩ := readAll_eq_error.1 hb
    obtain ⟨hcolumn, hline⟩ := line_column_joined a b g
    rw [hg]
    refine ⟨_, rfl, rfl, ?_, hcolumn, hline⟩
    show ((a.length + 1 + g.position : Nat) : Int) = (g.position : Int) + a.length + 1
    omega

theorem readAll_joined_commented :
    readAll 0 "#t;c" = .ok [.boolean true] ∧
      readAll 0 "#t;c\n#f" = .ok [.boolean true, .boolean false] ∧
      (∃ f, readAll 0 "\n )" = .error f ∧ f.position = 2 ∧ f.line = 2 ∧ f.column = 2) ∧
      ∃ g, readAll 0 "#t;c\n\n )" = .error g ∧ g.message = "unexpected ')'" ∧ g.position = 7 ∧
        g.line = 3 ∧ g.column = 2 := by
  have htrue : Layout (.boolean true) "#t".toList ";c".toList :=
    .boolean (show ("t", true) ∈ booleanNames by decide) (by decide) (by rintro c ⟨⟩; decide)
  have hfalse : Layout (.boolean false) "#f".toList [] :=
    .boolean (show ("f", false) ∈ booleanNames by decide) (by decide) (by rintro c ⟨⟩)
  have ha : readAll 0 "#t;c" = .ok [.boolean true] :=
    readAll_eq_ok.2 (readEvery_of_layouts .nil (.cons htrue .nil .nil)
      (.inr ⟨rfl, ['c'], rfl, by decide⟩) (by decide))
  have hb : readAll 0 "#f" = .ok [.boolean false] :=
    readAll_eq_ok.2 (readEvery_of_layouts .nil (.cons hfalse .nil .nil) (.inl rfl) (by decide))
  have hf : readAll 0 "\n )" = .error ⟨2, "unexpected ')'", "\n )"⟩ :=
    readAll_eq_error.2 ⟨⟨2, .unexpectedClose⟩, by rw [readEvery, readRest_eq]; rfl, by decide⟩
  obtain ⟨g, hg, hmessage, hposition, hcolumn, hline⟩ :=
    (readAll_joined 0 "#t;c" "\n )" _ ha).2 _ hf
  exact ⟨ha, (readAll_joined 0 "#t;c" "#f" _ ha).1 _ hb, ⟨_, hf, by decide, by decide, by decide⟩,
    g, hg, hmessage, hposition, hline, hcolumn⟩

end SchemeCore.Reader
