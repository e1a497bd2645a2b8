import SchemeCore.Proofs.Reader.Extent
import SchemeCore.Proofs.Text.Numeral

/-!
# Integer literals

An integer literal is what may announce its radix (`introducers`) and a numeral: digits of that
radix, as many as there are. It denotes the value of the digits in positional notation.
-/

namespace SchemeCore.Reader

/-! ## Radixes -/

/-- What announces a numeral of the radix: a `#` and a letter in either case. A decimal one needs no
announcement. -/
def introducers : Text.Radix → List (List Char)
  | .binary => [['#', 'b'], ['#', 'B']]
  | .octal => [['#', 'o'], ['#', 'O']]
  | .decimal => [[], ['#', 'd'], ['#', 'D']]
  | .hexadecimal => [['#', 'x'], ['#', 'X']]

/-- What has a small letter for its lower case is that letter or its capital. -/
theorem eq_or_of_foldCase {c x : Char} (h : Text.foldCase c = x) (hk : x ≠ 'k') :
    c = x ∨ c.toNat + 32 = x.toNat := by
  unfold Text.foldCase at h
  split at h
  · exact absurd h.symm hk
  · rcases toLower_cases c with hc | ⟨-, hc⟩
    · exact .inl (hc ▸ h)
    · exact .inr (by rw [← h, hc])

theorem ofLetter?_eq_some {letter : Char} {radix : Text.Radix} :
    Text.Radix.ofLetter? letter = some radix ↔ ['#', letter] ∈ introducers radix := by
  constructor
  · intro h
    have hcase {x X : Char} (hx : Text.foldCase letter = x) (hk : x ≠ 'k')
        (hX : X.toNat + 32 = x.toNat) : letter = x ∨ letter = X :=
      (eq_or_of_foldCase hx hk).imp_right fun h => Char.toNat_inj.1 (by omega)
    unfold Text.Radix.ofLetter? at h
    split at h <;> cases h <;> rename_i hfold
    · rcases hcase hfold (by decide) (X := 'B') (by decide) with rfl | rfl <;> decide
    · rcases hcase hfold (by decide) (X := 'O') (by decide) with rfl | rfl <;> decide
    · rcases hcase hfold (by decide) (X := 'D') (by decide) with rfl | rfl <;> decide
    · rcases hcase hfold (by decide) (X := 'X') (by decide) with rfl | rfl <;> decide
  · intro h
    cases radix
    all_goals
      simp only [introducers, List.mem_cons, List.cons.injEq, List.not_mem_nil, or_false,
        reduceCtorEq, and_true, true_and, false_or] at h
      rcases h with rfl | rfl <;> rfl

theorem eq_of_mem_introducers : ∀ {radix : Text.Radix}, ∀ pre ∈ introducers radix,
    (pre = [] ∧ radix = .decimal) ∨ ∃ letter, pre = ['#', letter] := by
  intro radix
  cases radix <;> simp [introducers]

/-! ## Literals -/

theorem layout_of_isNumeral {radix : Text.Radix} {pre digits rest : List Char} {n : Nat}
    (hpre : pre ∈ introducers radix) (hn : IsNumeral radix digits n)
    (hr : EndsNumeral radix rest) : Layout (.integer n) (pre ++ digits) rest := by
  rcases eq_of_mem_introducers pre hpre with ⟨rfl, rfl⟩ | ⟨letter, rfl⟩
  · exact .decimal hn hr
  · exact .radix radix (ofLetter?_eq_some.2 hpre) hn hr

theorem isNumeral_of_layout {n : Int} {s rest : List Char} (hl : Layout (.integer n) s rest) :
    ∃ radix pre digits m, n = (m : Nat) ∧ pre ∈ introducers radix ∧ s = pre ++ digits ∧
      IsNumeral radix digits m ∧ EndsNumeral radix rest := by
  generalize hd : Datum.integer n = d at hl
  cases hl with
  | decimal hn hr =>
    cases hd
    exact ⟨.decimal, [], _, _, rfl, by decide, rfl, hn, hr⟩
  | @radix m letter digits _ radix hletter hn hr =>
    cases hd
    exact ⟨radix, ['#', letter], digits, m, rfl, ofLetter?_eq_some.1 hletter, rfl, hn, hr⟩
  | _ => cases hd

theorem positionalValue_of_isNumeral {radix : Text.Radix} {digits : List Char} {n : Nat}
    (hn : IsNumeral radix digits n) : Text.positionalValue digits radix.base = .ok (n : Int) := by
  rw [Text.positionalValue_eq hn.2.1, positional_eq, hn.2.2]

/-- Without digits behind its announcement a numeral is refused. -/
theorem readDatum_noDigits {limit depth : Int} (hd : depth ≤ limit) {radix : Text.Radix}
    {letter : Char} (hletter : ['#', letter] ∈ introducers radix) {c : Cursor} {rest : List Char}
    (hc : c.rest = '#' :: letter :: rest) (hr : EndsNumeral radix rest) :
    readDatum limit depth c = .error ⟨c.pos, .missingDigits radix (String.ofList ['#', letter])⟩ := by
  have hofLetter := ofLetter?_eq_some.2 hletter
  have hclear : Clear c.rest := by
    rw [hc]
    apply clear_of_hash
    rintro ⟨⟩
    cases hofLetter
  have hskip : skipAtmosphere c = .ok c := skipAtmosphere_of_span ⟨rfl, rfl⟩ .nil hclear
  have hrun : (c.advance 2).run radix.isDigit = [] := by
    rw [Cursor.run, Cursor.rest_advance, hc]
    exact @takeWhile_append_of_run _ [] rest (by simp) hr
  rw [readDatum, elementAt, levelsLeft_of_le hd]
  show readBehind _ c = _
  rw [readBehind_at hskip (by simp [hc]), readHere_hash hc, readHash?_radix hc hofLetter,
    Option.getD_some, readNumber, hrun, hc, Cursor.pos_advance, Nat.add_sub_cancel_left]
  rfl

/-- Integer literals denote their positional value. Behind anything, a numeral of a radix, with
leading zeros and in either letter case, that is announced by one of the introducers of the radix is
read to its last digit and no further, wherever a character that is no digit of the radix or the end
of the text follows. Conversely an integer that is read anywhere, at whatever depth, is what a
non-empty run of digits counts that goes on for as long as there are any. An announcement without
digits is refused at its `#`. What digits count in any base is what those in front count, carried
past those behind, and what these count. -/
theorem integer_literals_denote_positional_values :
    (∀ (radix : Text.Radix) (pre digits : List Char) (n : Nat), pre ∈ introducers radix →
      IsNumeral radix digits n → ∀ rest, EndsNumeral radix rest →
      ∀ (front : List Char) (limit depth : Int), depth ≤ limit →
        let text := front ++ (pre ++ digits) ++ rest
        readDatum limit depth (.ofPos text front.length) =
          .ok (.integer n, .ofPos text (front ++ (pre ++ digits)).length)) ∧
    (∀ (limit depth : Int) (text : List Char) (pos : Nat) (n : Int) (next : Cursor),
      readDatum limit depth (.ofPos text pos) = .ok (.integer n, next) →
        ∃ w radix pre digits, IsAtmosphere w ∧ pre ∈ introducers radix ∧
          (Cursor.ofPos text pos).Span (w ++ (pre ++ digits)) next ∧ digits ≠ [] ∧
          (∀ c ∈ digits, radix.isDigit c = true) ∧ EndsNumeral radix next.rest ∧
          Text.positionalValue digits radix.base = .ok n) ∧
    (∀ (radix : Text.Radix) (letter : Char), ['#', letter] ∈ introducers radix →
      ∀ rest, EndsNumeral radix rest → ∀ (front : List Char) (limit depth : Int), depth ≤ limit →
        readDatum limit depth (.ofPos (front ++ ['#', letter] ++ rest) front.length) =
          .error ⟨front.length, .missingDigits radix (String.ofList ['#', letter])⟩) ∧
    ∀ xs ys : List Char, (∀ c ∈ xs, Text.Radix.hexadecimal.isDigit c = true) →
      (∀ c ∈ ys, Text.Radix.hexadecimal.isDigit c = true) → ∀ radix : Int,
        ∃ m n, Text.positionalValue xs radix = .ok m ∧ Text.positionalValue ys radix = .ok n ∧
          Text.positionalValue (xs ++ ys) radix = .ok (m * radix ^ ys.length + n) := by
  refine ⟨?_, ?_, ?_, fun xs ys => Text.positionalValue_append⟩
  · intro radix pre digits n hpre hn rest hr front limit depth hd text
    have hspan := span_ofPos front (pre ++ digits) rest
    have hlayout :
        Layout (.integer n) (pre ++ digits) (text.drop (front ++ (pre ++ digits)).length) := by
      rw [List.drop_left]
      exact layout_of_isNumeral hpre hn hr
    exact readDatum_of_layout hlayout .nil (by simpa [Datum.height] using hd) hspan
  · intro limit depth text pos n next h
    obtain ⟨w, s, hw, hl, hspan, -⟩ := element_sound limit _ h
    obtain ⟨radix, pre, digits, m, rfl, hpre, rfl, hn, hr⟩ := isNumeral_of_layout hl
    exact ⟨w, radix, pre, digits, hw, hpre, hspan, hn.1, hn.2.1, hr,
      positionalValue_of_isNumeral hn⟩
  · intro radix letter hletter rest hr front limit depth hd
    refine readDatum_noDigits hd hletter ?_ hr
    show List.drop _ _ = _
    rw [List.append_assoc, List.drop_left]
    rfl

theorem integer_literals_denote_positional_values_mixed_case :
    let text := "(#X00fFg".toList
    IsNumeral .hexadecimal ['0', '0', 'f', 'F'] 255 ∧
      readDatum 0 0 (.ofPos text 1) = .ok (.integer 255, .ofPos text 7) ∧
      (∃ w radix pre digits, IsAtmosphere w ∧ pre ∈ introducers radix ∧
        (Cursor.ofPos text 1).Span (w ++ (pre ++ digits)) (.ofPos text 7) ∧ digits ≠ [] ∧
        (∀ c ∈ digits, radix.isDigit c = true) ∧ EndsNumeral radix (Cursor.ofPos text 7).rest ∧
        Text.positionalValue digits radix.base = .ok 255) ∧
      readDatum 0 0 (.ofPos "'#b2".toList 1) = .error ⟨1, .missingDigits .binary "#b"⟩ ∧
      ∃ m n, Text.positionalValue ['1', 'f'] (-3) = .ok m ∧
        Text.positionalValue ['A'] (-3) = .ok n ∧
        Text.positionalValue ['1', 'f', 'A'] (-3) = .ok (m * (-3) ^ 1 + n) := by
  intro text
  obtain ⟨hread, hrun, hempty, happend⟩ := integer_literals_denote_positional_values
  have hnumeral : IsNumeral .hexadecimal ['0', '0', 'f', 'F'] 255 :=
    ⟨by decide, List.all_eq_true.1 rfl, by decide⟩
  have htext : readDatum 0 0 (.ofPos text 1) = .ok (.integer 255, .ofPos text 7) :=
    hread .hexadecimal ['#', 'X'] _ 255 (by decide) hnumeral ['g'] (by rintro c ⟨⟩; decide) ['('] 0 0
      (by decide)
  exact ⟨hnumeral, htext, hrun 0 0 text 1 255 _ htext,
    hempty .binary 'b' (by decide) ['2'] (by rintro c ⟨⟩; decide) ['\''] 0 0 (by decide),
    happend ['1', 'f'] ['A'] (List.all_eq_true.1 rfl) (List.all_eq_true.1 rfl) (-3)⟩

end SchemeCore.Reader
