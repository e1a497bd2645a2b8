import SchemeCore.Proofs.Reader.Extent
import Mathlib.Order.Bounds.Defs

/-!
# String literals

Where a string literal ends and what it holds, said without a scan. It ends at the first double
quote behind its opening mark that does not stand right behind a backslash. It holds what stands
between the two, without each backslash that stands in front of a double quote (`unescaped`).

1. `Between c body` says that `body`, behind the character `c`, ends right in front of the first
   such quote. Character by character it goes along with the scan (`between_cons`).
2. The scan takes such a body (`scanString_between`), and no other: what it gives back is a body
   again once it is escaped (`between_escaped`).
3. In a text the end of the body is the least of its `bareQuotes` (`isLeast_bareQuotes`,
   `exists_between_of_isLeast`).
-/

namespace SchemeCore.Reader

/-- The text without the backslashes that stand right in front of a double quote. -/
def unescaped : List Char → List Char
  | [] => []
  | c :: cs => if c = '\\' ∧ cs.head? = some '"' then unescaped cs else c :: unescaped cs

theorem unescaped_escape (cs : List Char) : unescaped ('\\' :: '"' :: cs) = '"' :: unescaped cs := by
  simp [unescaped]

theorem unescaped_cons {c : Char} {cs : List Char} (h : c = '\\' → cs.head? ≠ some '"') :
    unescaped (c :: cs) = c :: unescaped cs := by
  rw [unescaped, if_neg]
  rintro ⟨hc, hcs⟩
  exact h hc hcs

/-- Behind the character `c`, each double quote of the text stands right behind a backslash, and
what follows the text does not. -/
structure Between (c : Char) (body : List Char) : Prop where
  covered : ∀ i : Nat, body[i]? = some '"' → (c :: body)[i]? = some '\\'
  bare : (c :: body)[body.length]? ≠ some '\\'

theorem between_nil {c : Char} : Between c [] ↔ c ≠ '\\' :=
  ⟨fun h => by simpa using h.bare, fun h => ⟨by simp, by simpa using h⟩⟩

theorem between_cons {c d : Char} {body : List Char} :
    Between c (d :: body) ↔ (d = '"' → c = '\\') ∧ Between d body := by
  constructor
  · rintro ⟨hcovered, hbare⟩
    refine ⟨fun hd => ?_, fun i hi => hcovered (i + 1) hi, hbare⟩
    simpa using hcovered 0 (by rw [hd]; rfl)
  · rintro ⟨hd, hcovered, hbare⟩
    refine ⟨fun i hi => ?_, hbare⟩
    cases i with
    | zero =>
      rw [hd (by simpa using hi)]
      rfl
    | succ i => exact hcovered i hi

/-- The scan takes what stands in front of the first bare double quote. It goes over an escaped
quote in two steps at once, so it never stands at a quote behind a backslash. -/
theorem scanString_between (pos : Nat) {c : Char} {body rest cs : List Char} (h : Between c body)
    (hc : c = '\\' → body.head? ≠ some '"') (hcs : body ++ '"' :: rest = cs) :
    scanString pos cs = some (unescaped body, ⟨pos + body.length + 1, rest⟩) := by
  fun_induction scanString pos cs generalizing c body with
  | case1 => exact absurd hcs (by simp)
  | case2 pos cs =>
    cases body with
    | nil =>
      cases hcs
      rfl
    | cons d body =>
      cases hcs
      exact absurd rfl (hc ((between_cons.1 h).1 rfl))
  | case3 pos cs ih =>
    rcases body with _ | ⟨d, _ | ⟨e, body⟩⟩
    · cases hcs
    · cases hcs
      exact absurd rfl (between_nil.1 (between_cons.1 h).2)
    · cases hcs
      have hbody := (between_cons.1 (between_cons.1 h).2).2
      rw [ih hbody (fun hc => absurd hc (by decide)) rfl, unescaped_escape]
      simp only [Option.map_some, List.length_cons]
      congr 3
      omega
  | case4 pos d cs hquote hescape ih =>
    cases body with
    | nil =>
      cases hcs
      exact absurd rfl hquote
    | cons e body =>
      cases hcs
      have hnext : d = '\\' → body.head? ≠ some '"' := by
        rintro hd hbody
        obtain ⟨body, rfl⟩ := List.head?_eq_some_iff.1 hbody
        exact hescape _ hd rfl
      rw [ih (between_cons.1 h).2 hnext rfl, unescaped_cons hnext]
      simp only [Option.map_some, List.length_cons]
      congr 3
      omega

/-- Escaped contents end where they are meant to. -/
theorem between_escaped {c : Char} {contents : List Char}
    (h : (c :: contents).getLast? ≠ some '\\') : Between c (escaped contents) := by
  induction contents generalizing c with
  | nil => exact between_nil.2 fun hc => h (by rw [hc]; rfl)
  | cons d contents ih =>
    have hbehind : Between d (escaped contents) := ih h
    rw [escaped_cons]
    by_cases hd : d = '"'
    · subst hd
      rw [if_pos rfl]
      exact between_cons.2 ⟨by simp, between_cons.2 ⟨fun _ => rfl, hbehind⟩⟩
    · rw [if_neg hd]
      exact between_cons.2 ⟨fun h => absurd h hd, hbehind⟩

/-! ## Positions -/

/-- The positions behind `pos` of the double quotes that do not stand right behind a backslash. -/
def bareQuotes (text : List Char) (pos : Nat) : Set Nat :=
  { j | pos < j ∧ text[j]? = some '"' ∧ text[j - 1]? ≠ some '\\' }

section Positions

variable {text cs : List Char} {pos : Nat}

theorem mem_bareQuotes (h : text.drop pos = '"' :: cs) (i : Nat) :
    pos + i + 1 ∈ bareQuotes text pos ↔
      cs[i]? = some '"' ∧ ('"' :: cs)[i]? ≠ some '\\' := by
  have hat (k : Nat) : text[pos + k]? = ('"' :: cs)[k]? := by rw [← h, List.getElem?_drop]
  have hquote : text[pos + i + 1]? = cs[i]? := hat (i + 1)
  show pos < pos + i + 1 ∧ text[pos + i + 1]? = some '"' ∧ text[pos + i + 1 - 1]? ≠ some '\\' ↔ _
  rw [hquote, Nat.add_sub_cancel, hat]
  exact and_iff_right (by omega)

/-- Within the body of a literal, characters are found as in the whole text. -/
theorem getElem?_body {body rest : List Char} {i : Nat} (h : i ≤ body.length) :
    ('"' :: (body ++ '"' :: rest))[i]? = ('"' :: body)[i]? := by
  rw [← List.cons_append, List.getElem?_append_left (Nat.lt_succ_of_le h)]

theorem isLeast_bareQuotes {body rest : List Char} (h : text.drop pos = '"' :: (body ++ '"' :: rest))
    (hbody : Between '"' body) : IsLeast (bareQuotes text pos) (pos + body.length + 1) := by
  constructor
  · rw [mem_bareQuotes h, getElem?_body (Nat.le_refl _)]
    exact ⟨by simp, hbody.bare⟩
  · intro j hj
    obtain ⟨i, rfl⟩ : ∃ i, j = pos + i + 1 := ⟨j - pos - 1, by have := hj.1; omega⟩
    rw [mem_bareQuotes h] at hj
    by_contra hlt
    have hi : i < body.length := by omega
    rw [getElem?_body (Nat.le_of_lt hi), List.getElem?_append_left hi] at hj
    exact hj.2 (hbody.covered i hj.1)

theorem exists_between_of_isLeast (h : text.drop pos = '"' :: cs) {j : Nat}
    (hj : IsLeast (bareQuotes text pos) j) : ∃ body rest, cs = body ++ '"' :: rest ∧
      Between '"' body ∧ j = pos + body.length + 1 := by
  obtain ⟨hmem, hleast⟩ := hj
  obtain ⟨i, rfl⟩ : ∃ i, j = pos + i + 1 := ⟨j - pos - 1, by have := hmem.1; omega⟩
  obtain ⟨hquote, hbare⟩ := (mem_bareQuotes h i).1 hmem
  -- the text in front of the quote is the body
  obtain ⟨body, rest, rfl, rfl⟩ : ∃ body rest, cs = body ++ '"' :: rest ∧ body.length = i := by
    obtain ⟨hi, hget⟩ := List.getElem?_eq_some_iff.1 hquote
    refine ⟨cs.take i, cs.drop (i + 1), ?_, List.length_take_of_le (Nat.le_of_lt hi)⟩
    rw [← hget, ← List.drop_eq_getElem_cons, List.take_append_drop]
  rw [getElem?_body (Nat.le_refl _)] at hbare
  refine ⟨body, rest, rfl, ⟨fun i hi => ?_, hbare⟩, rfl⟩
  obtain ⟨hlt, -⟩ := List.getElem?_eq_some_iff.1 hi
  by_contra hne
  have hearlier : pos + i + 1 ∈ bareQuotes text pos := by
    rw [mem_bareQuotes h, getElem?_body (Nat.le_of_lt hlt), List.getElem?_append_left hlt]
    exact ⟨hi, hne⟩
  have hle := hleast hearlier
  omega

end Positions

/-! ## Literals -/

section Literals

variable {text : List Char} {pos : Nat}

theorem rest_drop_one : (Cursor.ofPos text pos).rest.drop 1 = text.drop (pos + 1) :=
  List.drop_drop

variable (h : text[pos]? = some '"')

include h

theorem drop_eq_of_quote : text.drop pos = '"' :: text.drop (pos + 1) := by
  obtain ⟨hpos, hget⟩ := List.getElem?_eq_some_iff.1 h
  rw [← hget, List.drop_eq_getElem_cons]

theorem readString_of_isLeast {j : Nat} (hj : IsLeast (bareQuotes text pos) j) :
    readString (.ofPos text pos) =
      .ok (.string (String.ofList (unescaped (text.extract (pos + 1) j))), .ofPos text (j + 1)) := by
  obtain ⟨body, rest, hcs, hbody, rfl⟩ := exists_between_of_isLeast (drop_eq_of_quote h) hj
  have hfront : (Cursor.ofPos text (pos + 1)).Span body ⟨pos + 1 + body.length, '"' :: rest⟩ :=
    ⟨hcs, rfl⟩
  have hall : (Cursor.ofPos text (pos + 1)).Span (body ++ ['"']) ⟨pos + 1 + body.length + 1, rest⟩ :=
    hfront.trans (Cursor.Span.advance (s := ['"']) rfl)
  have hextract : body = text.extract (pos + 1) (pos + body.length + 1) := by
    rw [Nat.add_right_comm]
    exact hfront.eq_extract.2
  have hnext : (⟨pos + 1 + body.length + 1, rest⟩ : Cursor) =
      .ofPos text (pos + body.length + 1 + 1) := by
    rw [hall.eq_extract.1, List.length_append, List.length_singleton]
    congr 1
    omega
  have hscan := scanString_between (pos + 1) hbody (fun hc => absurd hc (by decide)) hcs.symm
  rw [readString, rest_drop_one, show (Cursor.ofPos text pos).pos = pos from rfl, hscan, ← hextract,
    ← hnext]

theorem readString_of_noQuote (hnone : bareQuotes text pos = ∅) :
    readString (.ofPos text pos) = .error ⟨pos, .openString⟩ := by
  rw [readString, rest_drop_one]
  cases hscan : scanString ((Cursor.ofPos text pos).pos + 1) (text.drop (pos + 1)) with
  | none => rfl
  | some p =>
    obtain ⟨hlast, hcs, -⟩ := span_of_scanString hscan
    have hbody : Between '"' (escaped p.1) :=
      between_escaped (getLast?_cons_ne (by decide) hlast)
    have hquote := isLeast_bareQuotes ((drop_eq_of_quote h).trans (congrArg _ hcs)) hbody
    exact absurd hquote.1 (Set.eq_empty_iff_forall_notMem.1 hnone _)

end Literals

/-- String literals in closed form. A literal that is opened at a position ends at the first double
quote behind it that does not stand right behind a backslash, and holds what stands between without
the backslashes in front of double quotes; the reader goes on right behind it. If there is no such
quote, the literal is not terminated, which is blamed on its opening mark. The contents of literals
are the texts that do not end in a backslash, and all of these. -/
theorem string_literals_in_closed_form :
    (∀ (text : List Char) (pos : Nat), text[pos]? = some '"' →
      (∀ j, IsLeast (bareQuotes text pos) j → readString (.ofPos text pos) =
        .ok (.string (String.ofList (unescaped (text.extract (pos + 1) j))),
          .ofPos text (j + 1))) ∧
      (bareQuotes text pos = ∅ → readString (.ofPos text pos) = .error ⟨pos, .openString⟩ ∧
        ReadFault.openString.message = "unterminated string literal")) ∧
    ∀ contents : String, (∃ text pos next, text[pos]? = some '"' ∧
      readString (.ofPos text pos) = .ok (.string contents, next)) ↔
        contents.toList.getLast? ≠ some '\\' := by
  refine ⟨fun text pos h => ⟨fun j hj => readString_of_isLeast h hj, fun hnone =>
    ⟨readString_of_noQuote h hnone, rfl⟩⟩, fun contents => ⟨?_, fun h => ?_⟩⟩
  · rintro ⟨text, pos, next, h, hread⟩
    obtain ⟨contents', hlast, hcontents, -⟩ := span_of_readString hread (drop_eq_of_quote h)
    rw [Datum.string.inj hcontents, String.toList_ofList]
    exact hlast
  · have hspan : (Cursor.ofPos ('"' :: (escaped contents.toList ++ ['"'])) 0).Span
        ('"' :: (escaped contents.toList ++ ['"'])) ⟨_, []⟩ :=
      ⟨(List.append_nil _).symm, rfl⟩
    have hread := readString_of_span h hspan
    rw [String.ofList_toList] at hread
    exact ⟨_, 0, _, rfl, hread⟩

theorem string_literals_in_closed_form_escaped :
    let text := "\"a\\\\\"b\" c".toList
    text = ['"', 'a', '\\', '\\', '"', 'b', '"', ' ', 'c'] ∧ IsLeast (bareQuotes text 0) 6 ∧
      readString (.ofPos text 0) = .ok (.string "a\\\"b", .ofPos text 7) ∧
      bareQuotes text 6 = ∅ ∧ readString (.ofPos text 6) = .error ⟨6, .openString⟩ ∧
      ∃ text pos next, text[pos]? = some '"' ∧
        readString (.ofPos text pos) = .ok (.string "\\\n", next) := by
  intro text
  have hearlier : ∀ j < 6, ¬ (0 < j ∧ text[j]? = some '"' ∧ text[j - 1]? ≠ some '\\') := by decide
  have hlater : ∀ j < text.length, ¬ (6 < j ∧ text[j]? = some '"' ∧ text[j - 1]? ≠ some '\\') := by
    decide
  have hleast : IsLeast (bareQuotes text 0) 6 :=
    ⟨show _ ∧ _ ∧ _ by decide, fun j hj => Nat.le_of_not_lt fun hlt => hearlier j hlt hj⟩
  have hnone : bareQuotes text 6 = ∅ := by
    refine Set.eq_empty_iff_forall_notMem.2 fun j hj => ?_
    obtain ⟨hlt, -⟩ := List.getElem?_eq_some_iff.1 hj.2.1
    exact hlater j hlt hj
  obtain ⟨hform, himage⟩ := string_literals_in_closed_form
  exact ⟨rfl, hleast, (hform text 0 rfl).1 6 hleast, hnone, ((hform text 6 rfl).2 hnone).1,
    (himage "\\\n").2 (by decide)⟩

end SchemeCore.Reader
