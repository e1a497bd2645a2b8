import SchemeCore.Failure
import Mathlib.Algebra.GroupWithZero.Nat
import Mathlib.Data.List.TakeWhile

/-!
# Lines and columns

The lines of a text are the pieces between its line feeds. Line and column of a position are found
apart from each other, the line by a count and the column by a search backwards. Together they give
the position back (`isPlace`).

1. A text behind a line feed keeps its columns, and its lines are counted on from the text in front.
2. On the first line the column counts the characters in front.
3. By induction on the lines, each position is as far behind the start of the text as its line and
   column say. Lines only grow along the text, so that positions are ordered as their lines and
   columns are.
-/

namespace SchemeCore.Text

/-! ## Behind a line feed -/

section

variable (a b : List Char) (p : Nat)

theorem before_joined :
    before (a ++ '\n' :: b) (a.length + 1 + p : Nat) = a ++ '\n' :: before b p := by
  rw [before_natCast, before_natCast, Nat.add_assoc, List.take_length_add_append, Nat.add_comm 1,
    List.take_succ_cons]

theorem lineAt_joined :
    lineAt (a ++ '\n' :: b) (a.length + 1 + p : Nat) = lineAt b p + 1 + a.count '\n' := by
  rw [lineAt, lineAt, before_joined, List.count_append, List.count_cons_self]
  omega

/-- The line feed in front ends the search for the start of a line. -/
theorem lineStart_joined :
    lineStart (a ++ '\n' :: b) (a.length + 1 + p : Nat) = a.length + 1 + lineStart b p := by
  have hline : ((before b p).reverse ++ '\n' :: a.reverse).takeWhile (· != '\n') =
      (before b p).reverse.takeWhile (· != '\n') := by
    rw [List.takeWhile_append]
    split
    · rename_i hall
      rw [List.takeWhile_cons_of_neg (by simp), List.append_nil,
        (List.takeWhile_prefix _).eq_of_length hall]
    · rfl
  have hle : ((before b p).reverse.takeWhile (· != '\n')).length ≤ (before b p).length := by
    rw [← show (before b p).reverse.length = (before b p).length from List.length_reverse]
    exact (List.takeWhile_prefix _).length_le
  rw [lineStart, lineStart, before_joined, List.reverse_append, List.reverse_cons,
    List.append_assoc, List.singleton_append, hline, List.length_append, List.length_cons]
  omega

theorem columnAt_joined :
    columnAt (a ++ '\n' :: b) (a.length + 1 + p : Nat) = columnAt b p := by
  rw [columnAt, columnAt, lineStart_joined]
  push_cast
  omega

end

/-! ## On the first line -/

section

variable {a : List Char} {p : Nat}

theorem before_first (hp : p ≤ a.length) (rest : List Char) :
    before (a ++ rest) p = a.take p := by
  rw [before_natCast, List.take_append_of_le_length hp]

theorem lineAt_first (ha : '\n' ∉ a) (hp : p ≤ a.length) (rest : List Char) :
    lineAt (a ++ rest) p = 1 := by
  have hnone : '\n' ∉ a.take p := fun h => ha (List.mem_of_mem_take h)
  rw [lineAt, before_first hp, List.count_eq_zero.2 hnone]

theorem columnAt_first (ha : '\n' ∉ a) (hp : p ≤ a.length) (rest : List Char) :
    columnAt (a ++ rest) p = p + 1 := by
  have hline : (a.take p).reverse.takeWhile (· != '\n') = (a.take p).reverse := by
    rw [List.takeWhile_eq_self_iff]
    intro c hc
    have hmem : c ∈ a := List.mem_of_mem_take (List.mem_reverse.1 hc)
    exact bne_iff_ne.2 fun h => ha (h ▸ hmem)
  have hstart : lineStart (a ++ rest) p = 0 := by
    rw [lineStart, before_first hp, hline, List.length_reverse, Nat.sub_self]
  rw [columnAt, hstart]
  omega

end

/-! ## In the lines of the text -/

/-- The lines of a text. Only a line feed ends a line, and the last line has none. -/
def lines (text : List Char) : List (List Char) := text.splitOn '\n'

theorem lines_single {a : List Char} (ha : '\n' ∉ a) : lines a = [a] :=
  List.splitOn_eq_singleton ha

theorem lines_joined {a : List Char} (ha : '\n' ∉ a) (b : List Char) :
    lines (a ++ '\n' :: b) = a :: lines b :=
  List.splitOn_append_cons_self_of_not_mem ha b

/-- The position is the one at `column` of `line`, both counted from 1: it is as many characters
behind the start of the text as the lines in front have, their line feeds included, and as the
column says. A line feed belongs to the line that it ends. -/
structure IsPlace (text : List Char) (pos line : Nat) (column : Int) : Prop where
  one_le_line : 1 ≤ line
  line_le : line ≤ (lines text).length
  one_le_column : 1 ≤ column
  on_line : ∃ content, (lines text)[line - 1]? = some content ∧ column ≤ content.length + 1
  pos_eq : (pos : Int) =
    ((((lines text).take (line - 1)).map List.length).sum + (line - 1) : Nat) + column - 1

namespace IsPlace

variable {text a b : List Char} {p line : Nat} {column : Int}

theorem first {others : List (List Char)} (hlines : lines text = a :: others)
    (hp : p ≤ a.length) : IsPlace text p 1 (p + 1) where
  one_le_line := Nat.le_refl 1
  line_le := by
    rw [hlines, List.length_cons]
    omega
  one_le_column := by omega
  on_line := ⟨a, by rw [hlines]; rfl, by omega⟩
  pos_eq := by
    rw [Nat.sub_self, List.take_zero, List.map_nil, List.sum_nil]
    omega

theorem next (ha : '\n' ∉ a) (h : IsPlace b p line column) :
    IsPlace (a ++ '\n' :: b) (a.length + 1 + p) (line + 1) column := by
  obtain ⟨hline, hle, hcolumn, ⟨content, hcontent, hlength⟩, hpos⟩ := h
  obtain ⟨above, rfl⟩ : ∃ above, line = above + 1 := ⟨line - 1, by omega⟩
  rw [Nat.add_sub_cancel] at hcontent hpos
  refine ⟨by omega, ?_, hcolumn, ⟨content, ?_, hlength⟩, ?_⟩
  · rw [lines_joined ha, List.length_cons]
    omega
  · rw [lines_joined ha, Nat.add_sub_cancel, List.getElem?_cons_succ]
    exact hcontent
  · rw [lines_joined ha, Nat.add_sub_cancel, List.take_succ_cons, List.map_cons, List.sum_cons]
    push_cast at hpos ⊢
    omega

/-- No two positions are at the same place. -/
theorem pos_unique {q : Nat} (hp : IsPlace text p line column) (hq : IsPlace text q line column) :
    p = q := by
  have h := hp.pos_eq.trans hq.pos_eq.symm
  omega

end IsPlace

/-- A text is a last line, or a line in front of other lines. -/
@[elab_as_elim]
theorem lines_induction {motive : List Char → Prop} (last : ∀ a, '\n' ∉ a → motive a)
    (next : ∀ a b, '\n' ∉ a → motive b → motive (a ++ '\n' :: b)) (text : List Char) :
    motive text := by
  induction hn : text.length using Nat.strong_induction_on generalizing text with
  | _ n ih =>
    by_cases hmem : '\n' ∈ text
    · obtain ⟨a, b, rfl, ha⟩ := List.eq_append_cons_of_mem hmem
      refine next a b ha (ih b.length ?_ b rfl)
      rw [← hn, List.length_append, List.length_cons]
      omega
    · exact last text hmem

/-- Line and column of a position of the text are those at which it is. -/
theorem isPlace {text : List Char} {p : Nat} (hp : p ≤ text.length) :
    IsPlace text p (lineAt text p) (columnAt text p) := by
  induction text using lines_induction generalizing p with
  | last a ha =>
    rw [← List.append_nil a, lineAt_first ha hp, columnAt_first ha hp, List.append_nil]
    exact .first (lines_single ha) hp
  | next a b ha ih =>
    by_cases hfirst : p ≤ a.length
    · rw [lineAt_first ha hfirst, columnAt_first ha hfirst]
      exact .first (lines_joined ha b) hfirst
    · obtain ⟨q, rfl⟩ : ∃ q, p = a.length + 1 + q := ⟨p - (a.length + 1), by omega⟩
      rw [List.length_append, List.length_cons] at hp
      have hplace := (ih (p := q) (by omega)).next ha
      rw [lineAt_joined, columnAt_joined, List.count_eq_zero.2 ha]
      exact hplace

theorem lineAt_mono (text : List Char) {p q : Nat} (h : p ≤ q) : lineAt text p ≤ lineAt text q := by
  rw [lineAt, lineAt, before_natCast, before_natCast]
  exact Nat.succ_le_succ ((List.take_prefix_take_left h).count_le '\n')

/-- Further on is a later line, or a later column of the same line. -/
theorem line_column_lt {text : List Char} {p q : Nat} (hq : q ≤ text.length) (h : p < q) :
    lineAt text p < lineAt text q ∨
      lineAt text p = lineAt text q ∧ columnAt text p < columnAt text q := by
  obtain hline | hline := Nat.lt_or_eq_of_le (lineAt_mono text h.le)
  · exact .inl hline
  · -- on one line the positions are as far apart as the columns
    have hp := (isPlace (Nat.le_trans h.le hq)).pos_eq
    have hq := (isPlace hq).pos_eq
    rw [hline] at hp
    exact .inr ⟨hline, by omega⟩

theorem lt_iff_line_column {text : List Char} {p q : Nat} (hp : p ≤ text.length)
    (hq : q ≤ text.length) : p < q ↔ lineAt text p < lineAt text q ∨
      lineAt text p = lineAt text q ∧ columnAt text p < columnAt text q := by
  refine ⟨line_column_lt hq, fun hlex => ?_⟩
  obtain hlt | rfl | hgt := Nat.lt_trichotomy p q
  · exact hlt
  · omega
  · have hback := line_column_lt hp hgt
    omega

/-- Line and column identify the position of a failure. The line is one of those of its text, the
column lies in it or right behind it, and the position is as far behind the start of the text as the
two say. Hence failures at different positions have different lines or columns, and one position is
in front of another exactly if its line is, or its column on the same line. -/
theorem line_and_column_identify_position (text : String) (p : Nat) (hp : p ≤ text.length)
    (m : String) :
    let f : ParseFailure := ⟨p, m, text⟩
    IsPlace text.toList p f.line f.column ∧
    ∀ (q : Nat) (m' : String), q ≤ text.length →
      let g : ParseFailure := ⟨q, m', text⟩
      (p ≠ q → (f.line, f.column) ≠ (g.line, g.column)) ∧
      (p < q ↔ f.line < g.line ∨ f.line = g.line ∧ f.column < g.column) := by
  intro f
  rw [← String.length_toList] at hp
  have hf : IsPlace text.toList p f.line f.column := isPlace hp
  refine ⟨hf, fun q m' hq => ?_⟩
  rw [← String.length_toList] at hq
  intro g
  have hg : IsPlace text.toList q g.line g.column := isPlace hq
  refine ⟨fun hne heq => ?_, lt_iff_line_column hp hq⟩
  obtain ⟨hline, hcolumn⟩ := Prod.ext_iff.1 heq
  rw [show f.line = g.line from hline, show f.column = g.column from hcolumn] at hf
  exact hne (hf.pos_unique hg)

theorem line_and_column_identify_position_empty_line :
    let f : ParseFailure := ⟨3, "unexpected ')'", "ab\n\ncd"⟩
    let g : ParseFailure := ⟨6, "unexpected end of input", "ab\n\ncd"⟩
    3 ≤ "ab\n\ncd".length ∧ 6 ≤ "ab\n\ncd".length ∧
      (f.line, f.column) = (2, 1) ∧ (g.line, g.column) = (3, 3) ∧
      IsPlace "ab\n\ncd".toList 3 f.line f.column ∧
      (f.line, f.column) ≠ (g.line, g.column) ∧
      (f.line < g.line ∨ f.line = g.line ∧ f.column < g.column) := by
  intro f g
  have hplace := line_and_column_identify_position "ab\n\ncd" 3 (by decide) "unexpected ')'"
  obtain ⟨hne, hlt⟩ := hplace.2 6 "unexpected end of input" (by decide)
  exact ⟨by decide, by decide, by decide, by decide, hplace.1, hne (by decide), hlt.1 (by decide)⟩

end SchemeCore.Text
