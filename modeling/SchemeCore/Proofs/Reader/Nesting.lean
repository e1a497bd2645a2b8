import SchemeCore.Proofs.Reader.Completeness

/-!
# Places of nested data

The outermost datum is nested 0 deep, and what stands in a datum nested `k` deep is nested `k + 1`
deep, be it an element of a list or vector or the operand of a mark in its short form. `Nests` and
`NestsAmong` say where the data nested `k` deep begin in a spelling.

A reader that has `k` levels left for a datum comes to the first place of a datum nested `k` deep
and gives up there.

1. If a datum is at least `k` high, there is such a place, and the reader gives up at one
   (`element_tooDeep`).
2. The reader goes on to no place of a datum nested `k` deep but the first, so it gives up in front
   of or at each of them (`Nests.read_le`).
-/

namespace SchemeCore.Reader

mutual

/-- In the spelling of a datum, a datum nested `k` deep begins `off` characters behind the start. -/
inductive Nests : (k : Nat) → Datum → (s rest : List Char) → (off : Nat) → Prop where
  | self {d : Datum} {s rest : List Char} (hs : Layout d s rest) : Nests 0 d s rest 0
  | list {k : Nat} {items : List Datum} {w s rest : List Char} {off : Nat} (hw : IsAtmosphere w)
      (h : NestsAmong k items s (')' :: rest) off) :
      Nests (k + 1) (.list items) ('(' :: (w ++ s ++ [')'])) rest (1 + w.length + off)
  | vector {k : Nat} {items : List Datum} {w s rest : List Char} {off : Nat} (hw : IsAtmosphere w)
      (h : NestsAmong k items s (')' :: rest) off) :
      Nests (k + 1) (.vector items) ('#' :: '(' :: (w ++ s ++ [')'])) rest (2 + w.length + off)
  | marked {k : Nat} {d : Datum} {w s rest : List Char} {off : Nat} (mark : Mark)
      (hw : IsAtmosphere w) (h : Nests k d s rest off)
      (ha : mark = .unquote → (w ++ s).head? ≠ some '@') :
      Nests (k + 1) (mark.on d) (shortForm mark ++ w ++ s) rest
        ((shortForm mark).length + w.length + off)

/-- In the spellings of data one after another, a datum nested `k` deep in one of them begins `off`
characters behind the start of the first. -/
inductive NestsAmong : (k : Nat) → List Datum → (s rest : List Char) → (off : Nat) → Prop where
  | first {k : Nat} {d : Datum} {ds : List Datum} {s w ss rest : List Char} {off : Nat}
      (h : Nests k d s (w ++ ss ++ rest) off) (hw : IsAtmosphere w)
      (hss : LayoutItems ds ss rest) : NestsAmong k (d :: ds) (s ++ w ++ ss) rest off
  | later {k : Nat} {d : Datum} {ds : List Datum} {s w ss rest : List Char} {off : Nat}
      (hs : Layout d s (w ++ ss ++ rest)) (hw : IsAtmosphere w) (h : NestsAmong k ds ss rest off) :
      NestsAmong k (d :: ds) (s ++ w ++ ss) rest (s.length + w.length + off)

end

mutual

theorem Nests.layout {k : Nat} {d : Datum} {s rest : List Char} {off : Nat}
    (h : Nests k d s rest off) : Layout d s rest :=
  match h with
  | .self hs => hs
  | .list hw h => .list hw h.layouts
  | .vector hw h => .vector hw h.layouts
  | .marked mark hw h ha => .marked mark hw h.layout ha

theorem NestsAmong.layouts {k : Nat} {ds : List Datum} {s rest : List Char} {off : Nat}
    (h : NestsAmong k ds s rest off) : LayoutItems ds s rest :=
  match h with
  | .first h hw hss => .cons h.layout hw hss
  | .later hs hw h => .cons hs hw h.layouts

end

mutual

/-- A nested datum begins before the spelling ends. -/
theorem Nests.lt_length {k : Nat} {d : Datum} {s rest : List Char} {off : Nat}
    (h : Nests k d s rest off) : off < s.length :=
  match h with
  | .self hs => by
    obtain ⟨⟨ch, s', rfl, -⟩, -⟩ := hs.head
    exact Nat.succ_pos _
  | .list _ h => by
    have := h.lt_length
    simp only [List.length_cons, List.length_append, List.length_nil]
    omega
  | .vector _ h => by
    have := h.lt_length
    simp only [List.length_cons, List.length_append, List.length_nil]
    omega
  | .marked _ _ h _ => by
    have := h.lt_length
    simp only [List.length_append]
    omega

theorem NestsAmong.lt_length {k : Nat} {ds : List Datum} {s rest : List Char} {off : Nat}
    (h : NestsAmong k ds s rest off) : off < s.length :=
  match h with
  | .first h _ _ => by
    have := h.lt_length
    simp only [List.length_append]
    omega
  | .later _ _ h => by
    have := h.lt_length
    simp only [List.length_append]
    omega

end

/-- A datum is spelled at `p`. -/
def BeginsAt (cs : List Char) (p : Nat) : Prop :=
  ∃ d s rest, cs.drop p = s ++ rest ∧ Layout d s rest

theorem BeginsAt.behind {cs cs' : List Char} {n p : Nat} (h : BeginsAt cs p) (front : List Char)
    (hcs : cs' = front ++ cs) (hn : n = front.length) : BeginsAt cs' (n + p) := by
  obtain ⟨d, s, rest, hdrop, hl⟩ := h
  refine ⟨d, s, rest, ?_, hl⟩
  rw [hcs, hn, List.drop_length_add_append, hdrop]

mutual

/-- Where a nested datum begins, one is spelled. -/
theorem Nests.begins {k : Nat} {d : Datum} {s rest : List Char} {off : Nat}
    (h : Nests k d s rest off) : BeginsAt (s ++ rest) off :=
  match h with
  | .self hs => ⟨_, _, _, rfl, hs⟩
  | @Nests.list _ _ w _ _ _ _ h => h.begins.behind ('(' :: w) (by simp) (Nat.add_comm 1 _)
  | @Nests.vector _ _ w _ _ _ _ h =>
    h.begins.behind ('#' :: '(' :: w) (by simp) (Nat.add_comm 2 _)
  | @Nests.marked _ _ w _ _ _ mark _ h _ =>
    h.begins.behind (shortForm mark ++ w) (by simp) List.length_append.symm

theorem NestsAmong.begins {k : Nat} {ds : List Datum} {s rest : List Char} {off : Nat}
    (h : NestsAmong k ds s rest off) : BeginsAt (s ++ rest) off :=
  match h with
  | @NestsAmong.first _ _ _ s w ss _ _ h _ _ => by
    rw [List.append_assoc, List.append_assoc, ← List.append_assoc w]
    exact h.begins
  | @NestsAmong.later _ _ _ s w _ _ _ _ _ h =>
    h.begins.behind (s ++ w) (by simp) List.length_append.symm

end

/-! ## Giving up inside -/

section

variable {item : Element} {c : Cursor} {f : ReadFailure}

/-- Behind an opening `o` stand the elements, and the closing parenthesis behind them. -/
theorem rest_inside {o w s rest : List Char} (hc : c.rest = o ++ (w ++ s ++ [')']) ++ rest) :
    (c.advance o.length).rest = w ++ (s ++ ')' :: rest) := by
  rw [Cursor.rest_advance, hc]
  simp

theorem readHere_list_error {cs : List Char} (hr : c.rest = '(' :: cs)
    (h : readSequence item c.pos "list" (c.advance 1) = .error f) : readHere item c = .error f := by
  rw [readHere_open hr, readList, h]
  rfl

theorem readHere_vector_error {cs : List Char} (hr : c.rest = '#' :: '(' :: cs)
    (h : readSequence item c.pos "vector" (c.advance 2) = .error f) :
    readHere item c = .error f := by
  rw [readHere_hash hr, readHash?_open hr, readVector, h]
  rfl

theorem readHere_marked_error {mark : Mark} {cs : List Char} (hr : c.rest = shortForm mark ++ cs)
    (ha : mark = .unquote → cs.head? ≠ some '@')
    (h : item.read (c.advance (shortForm mark).length) = .error f) :
    readHere item c = .error f := by
  rw [readHere_short hr ha, h]
  rfl

end

/-- A reader of data one after another leaves each of them to the reader for single data, and gives
up where that one does. -/
structure Runs {β : Type} (item : Element) (go : Cursor → Except ReadFailure β) : Prop where
  first {d : Datum} {w s rest : List Char} {c : Cursor} {f : ReadFailure} (hl : Layout d s rest)
    (hw : IsAtmosphere w) (hc : c.rest = w ++ (s ++ rest))
    (h : item.read (c.advance w.length) = .error f) : go c = .error f
  later {d : Datum} {w s rest : List Char} {c next : Cursor} {f : ReadFailure}
    (hl : Layout d s rest) (hw : IsAtmosphere w) (hc : c.rest = w ++ (s ++ rest))
    (hd : item.read (c.advance w.length) = .ok (d, next)) (h : go next = .error f) :
    go c = .error f

theorem runs_readSequence (item : Element) (opened : Nat) (what : String) :
    Runs item (readSequence item opened what) where
  first hl hw hc h := by
    rw [readSequence_layout hl hw hc, h]
  later hl hw hc hd h := by
    rw [readSequence_layout hl hw hc, hd]
    dsimp only
    rw [h]
    rfl

theorem runs_readRest (item : Element) : Runs item (readRest item) where
  first hl hw hc h := by
    rw [readRest_layout hl hw hc, h]
  later hl hw hc hd h := by
    rw [readRest_layout hl hw hc, hd]
    dsimp only
    rw [h]
    rfl

/-! ## In front of a spelling -/

section

variable (limit : Int) {k : Nat} {d : Datum} {s w rest : List Char} {c : Cursor}

/-- A datum that is lower than the levels that are left is read. -/
theorem element_layout (hl : Layout d s rest) (hk : d.height < k) (hw : IsAtmosphere w)
    (hc : c.rest = w ++ (s ++ rest)) : (element limit k).read c =
      .ok (d, (c.advance w.length).advance s.length) := by
  obtain ⟨levels, rfl⟩ := Nat.exists_eq_add_of_le' (Nat.le_trans (Nat.le_add_left 1 _) hk)
  have hrest : (c.advance w.length).rest = s ++ rest := Cursor.Span.rest_advance_of hc
  show readBehind _ c = _
  rw [readBehind_layout hl hw hc]
  exact readHere_of_layout hl (Nat.le_of_lt_succ hk) (.advance hrest)
    (Cursor.Span.rest_advance_of hrest)

/-- Where no level is left, no datum is read. -/
theorem element_none (hl : Layout d s rest) (hw : IsAtmosphere w)
    (hc : c.rest = w ++ (s ++ rest)) :
    (element limit 0).read c = .error ⟨c.pos + w.length, .tooDeep limit⟩ := by
  show readBehind _ c = _
  rw [readBehind_layout hl hw hc]
  rfl

theorem element_succ (hl : Layout d s rest) (hw : IsAtmosphere w)
    (hc : c.rest = w ++ (s ++ rest)) :
    (element limit (k + 1)).read c = readHere (element limit k) (c.advance w.length) := by
  show readBehind _ c = _
  rw [readBehind_layout hl hw hc]

/-- The reader gives up at a datum nested as deep as it has levels, if it does so behind the
atmosphere. -/
theorem element_tooDeep_of (hl : Layout d s rest) (hw : IsAtmosphere w)
    (hc : c.rest = w ++ (s ++ rest))
    (hhere : ∀ j here, k = j + 1 → here.rest = s ++ rest → ∃ off, Nests (j + 1) d s rest off ∧
      readHere (element limit j) here = .error ⟨here.pos + off, .tooDeep limit⟩) :
    ∃ off, Nests k d s rest off ∧
      (element limit k).read c = .error ⟨c.pos + w.length + off, .tooDeep limit⟩ := by
  cases k with
  | zero => exact ⟨0, .self hl, element_none limit hl hw hc⟩
  | succ j =>
    obtain ⟨off, hn, hread⟩ := hhere j (c.advance w.length) rfl (Cursor.Span.rest_advance_of hc)
    exact ⟨off, hn, (element_succ limit hl hw hc).trans hread⟩

end

mutual

/-- A datum higher than the levels that are left for its elements is given up at one of the data
nested too deep. -/
theorem readHere_tooDeep {d : Datum} {s rest : List Char} (hl : Layout d s rest) {limit : Int}
    {k : Nat} (hk : k + 1 ≤ d.height) {c : Cursor} (hc : c.rest = s ++ rest) :
    ∃ off, Nests (k + 1) d s rest off ∧
      readHere (element limit k) c = .error ⟨c.pos + off, .tooDeep limit⟩ :=
  match hl with
  | .decimal .. | .radix .. | .boolean .. | .character .. | .characterName .. | .string ..
  | .symbol .. => absurd hk (Nat.not_succ_le_zero k)
  | @Layout.list items w s _ hw hs => by
    have hrest : (c.advance 1).rest = _ := rest_inside (o := ['(']) hc
    obtain ⟨off, hn, hread⟩ := run_tooDeep hs hk (runs_readSequence _ c.pos "list") hw hrest
    refine ⟨1 + w.length + off, .list hw hn, ?_⟩
    rw [readHere_list_error hc hread]
    simp only [Cursor.pos_advance, Nat.add_assoc]
  | @Layout.vector items w s _ hw hs => by
    have hrest : (c.advance 2).rest = _ := rest_inside (o := ['#', '(']) hc
    obtain ⟨off, hn, hread⟩ := run_tooDeep hs hk (runs_readSequence _ c.pos "vector") hw hrest
    refine ⟨2 + w.length + off, .vector hw hn, ?_⟩
    rw [readHere_vector_error hc hread]
    simp only [Cursor.pos_advance, Nat.add_assoc]
  | @Layout.marked d w s _ mark hw hs ha => by
    rw [Mark.height_on] at hk
    have hshort : c.rest = shortForm mark ++ (w ++ (s ++ rest)) := by
      rw [hc]
      simp only [List.append_assoc]
    obtain ⟨off, hn, hread⟩ := element_tooDeep_of limit (k := k) hs hw
      (Cursor.Span.rest_advance_of hshort) fun j here hj hhere =>
        readHere_tooDeep hs (by omega) hhere
    refine ⟨(shortForm mark).length + w.length + off, .marked mark hw hn ha, ?_⟩
    rw [readHere_marked_error hshort (fun hm => hs.head_unquoted (ha hm)) hread]
    simp only [Cursor.pos_advance, Nat.add_assoc]

theorem run_tooDeep {ds : List Datum} {s rest : List Char} (hl : LayoutItems ds s rest)
    {limit : Int} {k : Nat} (hk : k + 1 ≤ Datum.heightItems ds) {β : Type}
    {go : Cursor → Except ReadFailure β} (hgo : Runs (element limit k) go) {w : List Char}
    (hw : IsAtmosphere w) {c : Cursor} (hc : c.rest = w ++ (s ++ rest)) :
    ∃ off, NestsAmong k ds s rest off ∧
      go c = .error ⟨c.pos + w.length + off, .tooDeep limit⟩ :=
  match hl with
  | .nil => absurd hk (Nat.not_succ_le_zero k)
  | @LayoutItems.cons d ds s w' ss _ hs hw' hss => by
    have hc' : c.rest = w ++ (s ++ (w' ++ ss ++ rest)) := by
      rw [hc]
      simp only [List.append_assoc]
    have hfirst : (c.advance w.length).rest = s ++ (w' ++ ss ++ rest) :=
      Cursor.Span.rest_advance_of hc'
    by_cases hhigh : k ≤ d.height
    · obtain ⟨off, hn, hread⟩ := element_tooDeep_of limit (k := k) hs .nil hfirst
        fun j here hj hhere => readHere_tooDeep hs (by omega) hhere
      exact ⟨off, .first hn hw' hss, hgo.first hs hw hc' hread⟩
    · have hothers : k + 1 ≤ Datum.heightItems ds := by
        rw [Datum.heightItems] at hk
        omega
      have hrest : ((c.advance w.length).advance s.length).rest = w' ++ (ss ++ rest) := by
        rw [Cursor.Span.rest_advance_of hfirst, List.append_assoc]
      have hread := element_layout limit hs (Nat.lt_of_not_le hhigh) .nil hfirst
      obtain ⟨off, hn, hgive⟩ := run_tooDeep hss hothers hgo hw' hrest
      refine ⟨s.length + w'.length + off, .later hs hw' hn, ?_⟩
      rw [hgo.later hs hw hc' hread hgive]
      simp only [Cursor.pos_advance, Nat.add_assoc]

end

/-- A datum at least as high as the levels that are left is given up at one of the data nested that
deep. -/
theorem element_tooDeep (limit : Int) {k : Nat} {d : Datum} {s w rest : List Char} {c : Cursor}
    (hl : Layout d s rest) (hk : k ≤ d.height) (hw : IsAtmosphere w)
    (hc : c.rest = w ++ (s ++ rest)) : ∃ off, Nests k d s rest off ∧
      (element limit k).read c = .error ⟨c.pos + w.length + off, .tooDeep limit⟩ :=
  element_tooDeep_of limit hl hw hc fun _ _ hj hhere => readHere_tooDeep hl (by omega) hhere

mutual

/-- The reader goes no further than to any datum nested as deep as it has levels. -/
theorem Nests.read_le {k : Nat} {d : Datum} {s rest : List Char} {off : Nat}
    (h : Nests k d s rest off) (limit : Int) {w : List Char} (hw : IsAtmosphere w) {c : Cursor}
    (hc : c.rest = w ++ (s ++ rest)) :
    ∃ p, (element limit k).read c = .error ⟨p, .tooDeep limit⟩ ∧ p ≤ c.pos + w.length + off :=
  match h with
  | .self hs => ⟨_, element_none limit hs hw hc, Nat.le_refl _⟩
  | @Nests.list _ _ w' s _ off hw' h => by
    have hfirst := Cursor.Span.rest_advance_of hc
    have hrest : ((c.advance w.length).advance 1).rest = _ := rest_inside (o := ['(']) hfirst
    obtain ⟨p, hread, hp⟩ :=
      h.run_le (runs_readSequence (element limit _) _ "list") hw' hrest
    have hhere := readHere_list_error hfirst hread
    refine ⟨p, (element_succ limit (.list hw' h.layouts) hw hc).trans hhere, ?_⟩
    simp only [Cursor.pos_advance] at hp
    omega
  | @Nests.vector _ _ w' s _ off hw' h => by
    have hfirst := Cursor.Span.rest_advance_of hc
    have hrest : ((c.advance w.length).advance 2).rest = _ := rest_inside (o := ['#', '(']) hfirst
    obtain ⟨p, hread, hp⟩ :=
      h.run_le (runs_readSequence (element limit _) _ "vector") hw' hrest
    have hhere := readHere_vector_error hfirst hread
    refine ⟨p, (element_succ limit (.vector hw' h.layouts) hw hc).trans hhere, ?_⟩
    simp only [Cursor.pos_advance] at hp
    omega
  | @Nests.marked _ d w' s _ off mark hw' h ha => by
    have hfirst := Cursor.Span.rest_advance_of hc
    have hshort : (c.advance w.length).rest = shortForm mark ++ (w' ++ (s ++ rest)) := by
      rw [hfirst]
      simp only [List.append_assoc]
    obtain ⟨p, hread, hp⟩ := h.read_le limit hw' (Cursor.Span.rest_advance_of hshort)
    have hhere := readHere_marked_error hshort (fun hm => h.layout.head_unquoted (ha hm)) hread
    refine ⟨p, (element_succ limit (.marked mark hw' h.layout ha) hw hc).trans hhere, ?_⟩
    simp only [Cursor.pos_advance] at hp
    omega

theorem NestsAmong.run_le {k : Nat} {ds : List Datum} {s rest : List Char} {off : Nat}
    (h : NestsAmong k ds s rest off) {limit : Int} {β : Type}
    {go : Cursor → Except ReadFailure β} (hgo : Runs (element limit k) go) {w : List Char}
    (hw : IsAtmosphere w) {c : Cursor} (hc : c.rest = w ++ (s ++ rest)) :
    ∃ p, go c = .error ⟨p, .tooDeep limit⟩ ∧ p ≤ c.pos + w.length + off :=
  match h with
  | @NestsAmong.first _ d ds s w' ss _ off h hw' hss => by
    have hc' : c.rest = w ++ (s ++ (w' ++ ss ++ rest)) := by
      rw [hc]
      simp only [List.append_assoc]
    obtain ⟨p, hread, hp⟩ := h.read_le limit .nil (Cursor.Span.rest_advance_of hc')
    exact ⟨p, hgo.first h.layout hw hc' hread, hp⟩
  | @NestsAmong.later _ d ds s w' ss _ off hs hw' h => by
    have hc' : c.rest = w ++ (s ++ (w' ++ ss ++ rest)) := by
      rw [hc]
      simp only [List.append_assoc]
    have hfirst : (c.advance w.length).rest = s ++ (w' ++ ss ++ rest) :=
      Cursor.Span.rest_advance_of hc'
    -- the reader gives up in a datum in front, or reads it and goes on
    by_cases hhigh : k ≤ d.height
    · obtain ⟨off', hn, hread⟩ := element_tooDeep limit hs hhigh .nil hfirst
      have hbefore : off' < s.length := hn.lt_length
      refine ⟨_, hgo.first hs hw hc' hread, ?_⟩
      simp only [Cursor.pos_advance, List.length_nil]
      omega
    · have hrest : ((c.advance w.length).advance s.length).rest = w' ++ (ss ++ rest) := by
        rw [Cursor.Span.rest_advance_of hfirst, List.append_assoc]
      have hread := element_layout limit hs (Nat.lt_of_not_le hhigh) .nil hfirst
      obtain ⟨p, hgive, hp⟩ := h.run_le hgo hw' hrest
      refine ⟨p, hgo.later hs hw hc' hread hgive, ?_⟩
      simp only [Cursor.pos_advance] at hp
      omega

end

end SchemeCore.Reader
