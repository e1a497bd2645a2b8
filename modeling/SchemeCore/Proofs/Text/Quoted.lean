import SchemeCore.Proofs.Text.Numeral
import SchemeCore.Text.Quoted

/-!
# Reading quoted text

Quoted text can be read back wherever it stands. Which characters count as printable does not
matter.

1. `Recoverable spell a`: where the spelling of `a` stands in front of anything, both can be told
   from the whole. Recoverable spellings may stand in a row up to a character that none of them
   begins with (`Recoverable.row`), also with separators between them (`Recoverable.separated`).
2. `unescape` takes one character off an escaped text (`unescape_escapeWith`). A character that is
   spelled by its number is read in positional notation (`value_hexDigits`).
3. So a quoted text ends at its mark, which is the first character of it (`recoverable_quoteWith`).
-/

namespace SchemeCore.Text

/-! ## Recoverable spellings -/

/-- Whatever stands behind the spelling of `a`, no other spelling leads to the same characters. -/
def Recoverable {α : Type} (spell : α → List Char) (a : α) : Prop :=
  ∀ ⦃b : α⦄ ⦃rest rest' : List Char⦄, spell a ++ rest = spell b ++ rest' → a = b ∧ rest = rest'

section Recoverable

variable {α : Type} {spell : α → List Char}

/-- What can be read back is recoverable. -/
theorem recoverable_of_read {read : List Char → Option (α × List Char)}
    (h : ∀ a rest, read (spell a ++ rest) = some (a, rest)) (a : α) : Recoverable spell a := by
  intro b rest rest' heq
  have hread := h a rest
  rw [heq, h b rest'] at hread
  cases hread
  exact ⟨rfl, rfl⟩

theorem Recoverable.behind {a : α} (h : Recoverable spell a) (front : List Char) :
    Recoverable (fun a => front ++ spell a) a := by
  intro b rest rest' heq
  rw [List.append_assoc, List.append_assoc] at heq
  exact h (List.append_cancel_left heq)

theorem Recoverable.before {a : α} (h : Recoverable spell a) (tail : List Char) :
    Recoverable (fun a => spell a ++ tail) a := by
  intro b rest rest' heq
  rw [List.append_assoc, List.append_assoc] at heq
  obtain ⟨rfl, htail⟩ := h heq
  exact ⟨rfl, List.append_cancel_left htail⟩

/-- No spelling is empty or begins with `stop`. -/
def Avoids (spell : α → List Char) (stop : Char) : Prop :=
  ∀ a, ∃ c cs, spell a = c :: cs ∧ c ≠ stop

theorem Avoids.append_ne {stop : Char} (h : Avoids spell stop) (a : α) (rest rest' : List Char) :
    spell a ++ rest ≠ stop :: rest' := by
  obtain ⟨c, cs, ha, hc⟩ := h a
  rw [ha]
  exact fun heq => hc (List.cons.inj heq).1

/-- Recoverable spellings in a row, up to a character that none of them begins with. -/
theorem Recoverable.row {stop : Char} (hstop : Avoids spell stop) {as : List α}
    (has : ∀ a ∈ as, Recoverable spell a) :
    Recoverable (fun as : List α => as.flatMap spell ++ [stop]) as := by
  intro bs rest rest' heq
  simp only [List.append_assoc, List.singleton_append] at heq
  induction as generalizing bs with
  | nil =>
    cases bs with
    | nil => exact ⟨rfl, (List.cons.inj heq).2⟩
    | cons b bs =>
      rw [List.flatMap_cons, List.append_assoc] at heq
      exact absurd heq.symm (hstop.append_ne b _ _)
  | cons a as ih =>
    obtain ⟨ha, has⟩ := List.forall_mem_cons.1 has
    cases bs with
    | nil =>
      rw [List.flatMap_cons, List.append_assoc] at heq
      exact absurd heq (hstop.append_ne a _ _)
    | cons b bs =>
      rw [List.flatMap_cons, List.flatMap_cons, List.append_assoc, List.append_assoc] at heq
      obtain ⟨rfl, hothers⟩ := ha heq
      obtain ⟨rfl, hrest⟩ := ih has hothers
      exact ⟨rfl, hrest⟩

theorem intercalate_cons (sep front : List Char) (others : List (List Char)) :
    sep.intercalate (front :: others) = front ++ others.flatMap (sep ++ ·) := by
  induction others generalizing front with
  | nil => simp
  | cons next others ih =>
    rw [List.intercalate_cons_cons, ih, List.flatMap_cons, List.append_assoc, List.append_assoc]

/-- Recoverable spellings with separators between them, up to a character that begins neither a
spelling nor a separator. -/
theorem Recoverable.separated {c stop : Char} (sep : List Char) (hsep : c ≠ stop)
    (hstop : Avoids spell stop) {as : List α} (has : ∀ a ∈ as, Recoverable spell a) :
    Recoverable (fun as : List α => (c :: sep).intercalate (as.map spell) ++ [stop]) as := by
  intro bs rest rest' heq
  cases as with
  | nil =>
    cases bs with
    | nil => exact ⟨rfl, (List.cons.inj heq).2⟩
    | cons b bs =>
      simp only [List.map_cons, intercalate_cons, List.append_assoc] at heq
      exact absurd heq.symm (hstop.append_ne b _ _)
  | cons a as =>
    obtain ⟨ha, has⟩ := List.forall_mem_cons.1 has
    cases bs with
    | nil =>
      simp only [List.map_cons, intercalate_cons, List.append_assoc] at heq
      exact absurd heq (hstop.append_ne a _ _)
    | cons b bs =>
      -- behind the first spelling each other one stands behind its separator
      have hrow : Recoverable
          (fun as : List α => as.flatMap (fun a => c :: sep ++ spell a) ++ [stop]) as :=
        Recoverable.row (fun a => ⟨c, sep ++ spell a, rfl, hsep⟩)
          fun a h => (has a h).behind (c :: sep)
      simp only [List.map_cons, intercalate_cons, List.flatMap_map, List.append_assoc] at heq
      obtain ⟨rfl, hothers⟩ := ha heq
      simp only [← List.append_assoc] at hothers
      obtain ⟨rfl, hrest⟩ := hrow hothers
      exact ⟨rfl, hrest⟩

/-- Words up to a character that is in none of them. -/
theorem recoverable_word {word : α → List Char} (hword : Function.Injective word) {stop : Char}
    (hstop : ∀ a, stop ∉ word a) (a : α) : Recoverable (fun a => word a ++ [stop]) a := by
  have hfront (a : α) (rest : List Char) :
      (word a ++ [stop] ++ rest).takeWhile (· ≠ stop) = word a := by
    rw [List.append_assoc, List.takeWhile_append_of_pos, List.singleton_append,
      List.takeWhile_cons_of_neg (by simp), List.append_nil]
    exact fun c hc => decide_eq_true fun h => hstop a (h ▸ hc)
  intro b rest rest' heq
  have hsame : word a = word b := by rw [← hfront a rest, heq, hfront]
  obtain rfl := hword hsame
  exact ⟨rfl, List.append_cancel_left heq⟩

end Recoverable

/-! ## Escapes -/

theorem length_hexDigits (width n : Nat) : (hexDigits width n).length = width := by
  induction width generalizing n with
  | zero => rfl
  | succ width ih => rw [hexDigits, List.length_append, ih, List.length_singleton]

/-- The digits of a number that fits into their width have its value. -/
theorem value_hexDigits {width n : Nat} (h : n < 16 ^ width) :
    Radix.hexadecimal.value (hexDigits width n) = n := by
  induction width generalizing n with
  | zero =>
    obtain rfl : n = 0 := by omega
    rfl
  | succ width ih =>
    have hdigit := digitValue?_digitChar (n % 16) (by omega)
    have hfront := ih (n := n / 16) (by rw [pow_succ] at h; omega)
    unfold Radix.value at hfront ⊢
    rw [hexDigits, List.filterMap_append, positional_append, hfront, List.filterMap_cons, hdigit]
    show ((n / 16 : Nat) : Int) * 16 ^ 1 + positional 16 [n % 16] = n
    rw [positional_singleton]
    omega

/-- The character whose number stands in front in `width` hexadecimal digits. -/
def numbered (width : Nat) (cs : List Char) : Char × List Char :=
  (Char.ofNat (Radix.hexadecimal.value (cs.take width)).toNat, cs.drop width)

/-- The character that an escape stands for, behind its backslash. -/
def unescapeBehind : List Char → Option (Char × List Char)
  | [] => none
  | 'n' :: cs => some ('\n', cs)
  | 'r' :: cs => some ('\r', cs)
  | 't' :: cs => some ('\t', cs)
  | 'x' :: cs => some (numbered 2 cs)
  | 'u' :: cs => some (numbered 4 cs)
  | 'U' :: cs => some (numbered 8 cs)
  | c :: cs => some (c, cs)

/-- The first character of an escaped text, and what stands behind its spelling. -/
def unescape : List Char → Option (Char × List Char)
  | [] => none
  | c :: cs => if c = '\\' then unescapeBehind cs else some (c, cs)

theorem numbered_hexDigits {width : Nat} {c : Char} (h : c.toNat < 16 ^ width)
    (rest : List Char) : numbered width (hexDigits width c.toNat ++ rest) = (c, rest) := by
  have hlength := length_hexDigits width c.toNat
  unfold numbered
  rw [List.take_left' hlength, List.drop_left' hlength, value_hexDigits h, Int.toNat_natCast,
    Char.ofNat_toNat]

theorem unescape_numberEscape (c : Char) (rest : List Char) :
    unescape (numberEscape c ++ rest) = some (c, rest) := by
  unfold numberEscape
  dsimp only
  split
  · exact congrArg some (numbered_hexDigits (by omega) rest)
  · split
    · exact congrArg some (numbered_hexDigits (by omega) rest)
    · have hvalid : c.toNat < 16 ^ 8 := c.val.toNat_lt
      exact congrArg some (numbered_hexDigits hvalid rest)

/-- The two marks. Neither of them names an escape behind a backslash. -/
def IsMark (mark : Char) : Prop := mark = '\'' ∨ mark = '"'

theorem isMark_quoteMark (text : List Char) : IsMark (quoteMark text) := by
  unfold quoteMark
  split
  · exact .inr rfl
  · exact .inl rfl

variable {printable : Char → Bool} {mark : Char}

theorem unescape_escapeWith (hmark : IsMark mark) (c : Char) (rest : List Char) :
    unescape (escapeWith printable mark c ++ rest) = some (c, rest) := by
  unfold escapeWith
  split
  · rename_i h
    rcases h with rfl | rfl
    · rcases hmark with rfl | rfl <;> rfl
    · rfl
  · rename_i h
    split_ifs with hn hr ht hprint
    · rw [hn]; rfl
    · rw [hr]; rfl
    · rw [ht]; rfl
    · exact if_neg fun hc => h (.inr hc)
    · exact unescape_numberEscape c rest

theorem numberEscape_eq_cons (c : Char) : ∃ cs, numberEscape c = '\\' :: cs := by
  unfold numberEscape
  dsimp only
  split_ifs <;> exact ⟨_, rfl⟩

/-- No character is spelled with the mark in front. -/
theorem escapeWith_avoids (hmark : IsMark mark) : Avoids (escapeWith printable mark) mark := by
  intro c
  have hbackslash : '\\' ≠ mark := by
    rcases hmark with rfl | rfl <;> decide
  unfold escapeWith
  split_ifs with h
  · exact ⟨_, _, rfl, hbackslash⟩
  · exact ⟨_, _, rfl, hbackslash⟩
  · exact ⟨_, _, rfl, hbackslash⟩
  · exact ⟨_, _, rfl, hbackslash⟩
  · exact ⟨c, [], rfl, fun hc => h (.inl hc)⟩
  · obtain ⟨cs, hcs⟩ := numberEscape_eq_cons c
    exact ⟨_, cs, hcs, hbackslash⟩

/-! ## Quoted text -/

theorem recoverable_quoteWith (text : List Char) : Recoverable (quoteWith printable) text := by
  intro text' rest rest' heq
  obtain ⟨hmark, heq⟩ := List.cons.inj heq
  rw [← hmark] at heq
  have hescape (c : Char) : Recoverable (escapeWith printable (quoteMark text)) c :=
    recoverable_of_read (unescape_escapeWith (isMark_quoteMark text)) c
  exact Recoverable.row (escapeWith_avoids (isMark_quoteMark text)) (fun c _ => hescape c) heq

end SchemeCore.Text
