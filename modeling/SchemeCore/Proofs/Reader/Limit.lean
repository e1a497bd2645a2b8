import Mathlib.Order.Bounds.Defs
import SchemeCore.Proofs.Reader.Extent
import SchemeCore.Proofs.Reader.Nesting

/-!
# Two limits on nesting

A text is read under two limits, the second at least as high as the first.

1. A reader with more levels does what one with fewer does, unless that one gives up for the depth
   (`Keeps`). This passes from the reader for single data to those for sequences and for whole
   texts, and from each level to the one around it.
2. The data that the second limit lets in are the spellings in the text. Under the first limit they
   are read if they are no higher than it, and otherwise the reader gives up at the first datum that
   is nested too deep.
-/

namespace SchemeCore.Reader

/-! ## More levels -/

/-- `r'` is the same end of a reading as `r`, or `r` gave up for the depth. -/
def Keeps {α : Type} (limit : Int) (r r' : Except ReadFailure α) : Prop :=
  r' = r ∨ ∃ p, r = .error ⟨p, .tooDeep limit⟩

/-- The second reader keeps what the first one answers with. -/
def Element.Keeps (limit : Int) (item item' : Element) : Prop :=
  ∀ c, Reader.Keeps limit (item.read c) (item'.read c)

section

variable {α β : Type} {limit : Int} {r r' : Except ReadFailure α}

theorem Keeps.refl (r : Except ReadFailure α) : Keeps limit r r := .inl rfl

theorem Keeps.map (h : Keeps limit r r') (f : α → β) : Keeps limit (r.map f) (r'.map f) := by
  obtain rfl | ⟨p, rfl⟩ := h
  · exact .refl _
  · exact .inr ⟨p, rfl⟩

/-- What goes on from a datum that was read has to be kept only if it is read. -/
theorem Keeps.next {r r' : Reading} {f f' : Datum → Cursor → Except ReadFailure β} :
    Keeps limit r r' → (∀ d next, r = .ok (d, next) → Keeps limit (f d next) (f' d next)) →
      Keeps limit (match r with | .error e => .error e | .ok (d, next) => f d next)
        (match r' with | .error e => .error e | .ok (d, next) => f' d next) := by
  intro h hf
  obtain rfl | ⟨p, rfl⟩ := h
  · rcases r' with e | ⟨d, next⟩
    · exact .refl _
    · exact hf d next rfl
  · exact .inr ⟨p, rfl⟩

theorem readBehind_keeps {here here' : Cursor → Reading}
    (h : ∀ c, Keeps limit (here c) (here' c)) (c : Cursor) :
    Keeps limit (readBehind here c) (readBehind here' c) := by
  unfold readBehind
  cases skipAtmosphere c with
  | error f => exact .refl _
  | ok start =>
    dsimp only
    split
    · exact .refl _
    · exact h start

end

section Elements

variable {limit : Int} {item item' : Element} (hi : item.Keeps limit item')

include hi

theorem readSequence_keeps (opened : Nat) (what : String) (c : Cursor) :
    Keeps limit (readSequence item opened what c) (readSequence item' opened what c) := by
  induction hlen : c.rest.length using Nat.strongRecOn generalizing c with
  | ind n ih =>
    rw [readSequence_eq item, readSequence_eq item']
    cases hs : skipAtmosphere c with
    | error f => exact .refl _
    | ok here =>
      dsimp only
      split_ifs
      · exact .refl _
      · exact .refl _
      · refine (hi here).next fun d next hd => (ih _ ?_ next rfl).map _
        rw [← hlen]
        exact Nat.lt_of_lt_of_le (item.consumes hd) (length_skipAtmosphere hs)

theorem readHash?_keeps (c : Cursor) (r : Reading) :
    Keeps limit ((readHash? item c).getD r) ((readHash? item' c).getD r) := by
  unfold readHash?
  split
  · exact .refl _
  · exact (readSequence_keeps hi _ _ _).map _
  · exact .refl _
  · exact .refl _

theorem readHere_keeps (c : Cursor) : Keeps limit (readHere item c) (readHere item' c) := by
  unfold readHere
  split
  · exact .refl _
  · exact (hi _).map _
  · exact (hi _).map _
  · exact (hi _).map _
  · exact (readSequence_keeps hi _ _ _).map _
  · exact .refl _
  · exact readHash?_keeps hi c _
  · exact .refl _
  · exact .refl _

theorem readRest_keeps (c : Cursor) : Keeps limit (readRest item c) (readRest item' c) := by
  induction hlen : c.rest.length using Nat.strongRecOn generalizing c with
  | ind n ih =>
    rw [readRest_eq item, readRest_eq item']
    cases hs : skipAtmosphere c with
    | error f => exact .refl _
    | ok here =>
      dsimp only
      split_ifs
      · exact .refl _
      · refine (hi here).next fun d next hd => (ih _ ?_ next rfl).map _
        rw [← hlen]
        exact Nat.lt_of_lt_of_le (item.consumes hd) (length_skipAtmosphere hs)

end Elements

/-- More levels keep what was read with fewer. -/
theorem element_keeps (limit limit' : Int) {levels levels' : Nat} (h : levels ≤ levels') :
    (element limit levels).Keeps limit (element limit' levels') := by
  induction levels generalizing levels' with
  | zero =>
    intro c
    cases levels' <;> exact readBehind_keeps (fun start => .inr ⟨start.pos, rfl⟩) c
  | succ levels ih =>
    obtain ⟨more, rfl⟩ := Nat.exists_eq_add_of_le' (Nat.le_trans (Nat.le_add_left 1 _) h)
    exact readBehind_keeps (readHere_keeps (ih (Nat.le_of_succ_le_succ h)))

/-! ## Whole texts -/

/-- In a text that begins with the datum, a datum nested `k` deep in it begins at `p`. -/
def NestedAt (text : List Char) (d : Datum) (k p : Nat) : Prop :=
  ∃ w s rest off, text = w ++ s ++ rest ∧ IsAtmosphere w ∧ Nests k d s rest off ∧
    p = w.length + off

/-- In a text that consists of the data, a datum nested `k` deep in one of them begins at `p`. -/
def NestedAmongAt (text : List Char) (ds : List Datum) (k p : Nat) : Prop :=
  ∃ w s line off, text = w ++ s ++ line ∧ IsAtmosphere w ∧ NestsAmong k ds s line off ∧
    CutOff line [] ∧ p = w.length + off

/-- The text is given up at the first of the places of data that `limit` does not let in. -/
def CutAtFirst {α : Type} (limit : Int) (text : String) (places : Nat → Prop)
    (r : Except ParseFailure α) : Prop :=
  ∃ p, IsLeast {p | places p} p ∧ BeginsAt text.toList p ∧
    r = .error ⟨p, "nesting deeper than " ++ toString limit ++ " levels", text⟩

theorem NestedAt.beginsAt {text : List Char} {d : Datum} {k p : Nat} (h : NestedAt text d k p) :
    BeginsAt text p := by
  obtain ⟨w, s, rest, off, rfl, -, hn, rfl⟩ := h
  exact hn.begins.behind w (List.append_assoc ..) rfl

theorem NestedAmongAt.beginsAt {text : List Char} {ds : List Datum} {k p : Nat}
    (h : NestedAmongAt text ds k p) : BeginsAt text p := by
  obtain ⟨w, s, line, off, rfl, -, hn, -, rfl⟩ := h
  exact hn.begins.behind w (List.append_assoc ..) rfl

theorem levelsLeft_zero (limit : Int) : levelsLeft limit 0 = (limit + 1).toNat := by
  rw [levelsLeft, Int.sub_zero]

theorem read_eq (limit : Int) (text : String) : read limit text =
    (((element limit (limit + 1).toNat).read ⟨0, text.toList⟩).map (·.1)).mapError
      (·.inText text) := by
  rw [← levelsLeft_zero]
  rfl

theorem readAll_eq (limit : Int) (text : String) : readAll limit text =
    (readRest (element limit (limit + 1).toNat) ⟨0, text.toList⟩).mapError (·.inText text) := by
  rw [← levelsLeft_zero]
  rfl

section

variable {α β : Type} {limit : Int} {text : String}

/-- A reading that gives up at one of the places, and at none behind another, gives up at the
first. -/
theorem cutAtFirst_of {places : Nat → Prop} {off : Nat} {r : Except ReadFailure α}
    (hplace : places off) (hbegins : BeginsAt text.toList off)
    (hread : r = .error ⟨0 + off, .tooDeep limit⟩)
    (hle : ∀ p, places p → ∃ q, r = .error ⟨q, .tooDeep limit⟩ ∧ q ≤ 0 + p) :
    CutAtFirst limit text places (r.mapError (·.inText text)) := by
  rw [Nat.zero_add] at hread
  refine ⟨off, ⟨hplace, fun p hp => ?_⟩, hbegins, by rw [hread]; rfl⟩
  obtain ⟨q, hread', hq⟩ := hle p hp
  rw [hread, Except.error.injEq, ReadFailure.mk.injEq] at hread'
  rwa [hread'.1, ← Nat.zero_add p]

/-- The characters of a text, from its start. -/
theorem rest_of_split {w s rest : List Char} (h : text.toList = w ++ s ++ rest) :
    (⟨0, text.toList⟩ : Cursor).rest = w ++ (s ++ rest) := by
  rw [← List.append_assoc]
  exact h

theorem read_cut {d : Datum} {limit' : Int} (h : read limit' text = .ok d) :
    ((d.height : Int) ≤ limit → read limit text = .ok d) ∧
      (limit < d.height →
        CutAtFirst limit text (NestedAt text.toList d (limit + 1).toNat) (read limit text)) := by
  obtain ⟨⟨w, s, rest, hw, hl, htext⟩, -⟩ := layout_of_read h
  rw [read_eq]
  constructor
  · intro hlow
    rw [element_layout limit hl (by omega) hw (rest_of_split htext)]
    rfl
  · intro hhigh
    obtain ⟨off, hn, hread⟩ := element_tooDeep limit (k := (limit + 1).toNat) hl
      (by omega) hw (rest_of_split htext)
    have hplace : NestedAt text.toList d (limit + 1).toNat (w.length + off) :=
      ⟨w, s, rest, off, htext, hw, hn, rfl⟩
    rw [Nat.add_assoc] at hread
    refine cutAtFirst_of hplace hplace.beginsAt (by rw [hread]; rfl) ?_
    rintro p ⟨w', s', rest', off', htext', hw', hn', rfl⟩
    obtain ⟨q, hread', hq⟩ := hn'.read_le limit hw' (rest_of_split htext')
    exact ⟨q, by rw [hread']; rfl, by rwa [← Nat.add_assoc]⟩

theorem readAll_cut {ds : List Datum} {limit' : Int} (h : readAll limit' text = .ok ds) :
    ((∀ d ∈ ds, (d.height : Int) ≤ limit) → readAll limit text = .ok ds) ∧
      ((∃ d ∈ ds, limit < (d.height : Int)) →
        CutAtFirst limit text (NestedAmongAt text.toList ds (limit + 1).toNat)
          (readAll limit text)) := by
  obtain ⟨⟨w, s, line, htext, hw, hls, hcut⟩, -⟩ := span_of_readRest (readAll_eq_ok.1 h)
  replace htext : text.toList = w ++ s ++ line := htext
  constructor
  · intro hlow
    rw [readAll_eq_ok, htext]
    exact readEvery_of_layouts hw hls hcut hlow
  · rintro ⟨d, hmem, hhigh⟩
    have hheight := Datum.height_lt_of_mem hmem
    have hrun := runs_readRest (element limit (limit + 1).toNat)
    obtain ⟨off, hn, hread⟩ := run_tooDeep hls (by omega) hrun hw (rest_of_split htext)
    have hplace : NestedAmongAt text.toList ds (limit + 1).toNat (w.length + off) :=
      ⟨w, s, line, off, htext, hw, hn, hcut, rfl⟩
    rw [Nat.add_assoc] at hread
    rw [readAll_eq]
    refine cutAtFirst_of hplace hplace.beginsAt hread ?_
    rintro p ⟨w', s', line', off', htext', hw', hn', -, rfl⟩
    obtain ⟨q, hread', hq⟩ := hn'.run_le hrun hw' (rest_of_split htext')
    exact ⟨q, hread', by rwa [← Nat.add_assoc]⟩

/-- A reading that is kept is the same in the text too, if it did not end with the failure for the
depth. -/
theorem Keeps.eq_of_ne {r r' : Except ReadFailure α} (h : Keeps limit r r')
    (hne : ∀ f, r.mapError (·.inText text) = .error f →
      f.message ≠ "nesting deeper than " ++ toString limit ++ " levels") : r' = r := by
  obtain rfl | ⟨p, rfl⟩ := h
  · rfl
  · exact absurd rfl (hne _ rfl)

end

/-- The limit cuts exactly at the height of the data. What a limit lets in, a lower limit lets in as
long as it is no lower than the data are high, and otherwise the reading gives up at the first datum
of the text that is nested one level deeper than the limit. A reading that does not give up for the
depth is the same under every higher limit. A mark in its short form counts one level as the list
does that it stands for, and an empty list or vector counts none. -/
theorem limit_cuts_at_height {m m' : Int} (hm : m ≤ m') (text : String) :
    (∀ d, read m' text = .ok d →
      ((d.height : Int) ≤ m → read m text = .ok d) ∧
      (m < d.height →
        CutAtFirst m text (NestedAt text.toList d (m + 1).toNat) (read m text))) ∧
    (∀ ds, readAll m' text = .ok ds →
      ((∀ d ∈ ds, (d.height : Int) ≤ m) → readAll m text = .ok ds) ∧
      ((∃ d ∈ ds, m < (d.height : Int)) →
        CutAtFirst m text (NestedAmongAt text.toList ds (m + 1).toNat) (readAll m text))) ∧
    ((∀ f, read m text = .error f →
      f.message ≠ "nesting deeper than " ++ toString m ++ " levels") →
        read m' text = read m text) ∧
    ((∀ f, readAll m text = .error f →
      f.message ≠ "nesting deeper than " ++ toString m ++ " levels") →
        readAll m' text = readAll m text) ∧
    (∀ w line, text.toList = w ++ line → IsAtmosphere w → CutOff line [] →
      readAll m text = .ok []) ∧
    (∀ (mark : Mark) (d : Datum), (mark.on d).height = d.height + 1) ∧
    (Datum.list []).height = 0 ∧ (Datum.vector []).height = 0 := by
  have hlevels : (m + 1).toNat ≤ (m' + 1).toNat := by omega
  have hitem := element_keeps m m' hlevels
  refine ⟨fun d h => read_cut h, fun ds h => readAll_cut h, ?_, ?_, ?_, Mark.height_on, rfl, rfl⟩
  · intro hne
    rw [read_eq] at hne ⊢
    rw [read_eq, ((hitem _).map _).eq_of_ne hne]
  · intro hne
    rw [readAll_eq] at hne ⊢
    rw [readAll_eq, (readRest_keeps hitem _).eq_of_ne hne]
  · intro w line htext hw hcut
    rw [readAll_eq_ok, htext, ← List.append_nil w]
    exact readEvery_of_layouts hw .nil hcut (by simp)

theorem limit_cuts_at_height_marked :
    let text := "'(a ()) ;b"
    let d := Mark.quote.on (.list [.symbol "a", .nil])
    read 2 text = .ok d ∧
      CutAtFirst 0 text (NestedAt text.toList d 1) (read 0 text) ∧
      CutAtFirst (-5) text (NestedAmongAt text.toList [d] 0) (readAll (-5) text) ∧
      read 0 text = .error ⟨1, "nesting deeper than 0 levels", text⟩ ∧
      read 3 text = read 2 text := by
  intro text d
  have hname : IsName ['a'] := isName_of_all (by decide) (by decide) (by decide) (by decide)
  have hempty : Layout .nil ['(', ')'] [')', ' ', ';', 'b'] := .list .nil .nil
  have hsymbol : Layout (.symbol "a") ['a'] " ()) ;b".toList :=
    .symbol hname (by rintro c ⟨⟩; decide) (by rintro ⟨⟩)
  have hlist : Layout (.list [.symbol "a", .nil]) "(a ())".toList [' ', ';', 'b'] :=
    .list .nil (.cons hsymbol (.blank (by decide) .nil) (.cons hempty .nil .nil))
  have hlayout : Layout d "'(a ())".toList [' ', ';', 'b'] := .marked .quote .nil hlist (by simp)
  have hread : read 2 text = .ok d := by
    rw [read_eq, element_layout 2 hlayout (by decide) .nil (by decide)]
    rfl
  have hall : readEvery 2 text.toList = .ok [d] := by
    have hsplit : text.toList = [] ++ ("'(a ())".toList ++ [' '] ++ []) ++ [';', 'b'] := by decide
    rw [hsplit]
    exact readEvery_of_layouts .nil (.cons hlayout (.blank (by decide) .nil) .nil)
      (.inr ⟨rfl, ['b'], rfl, by decide⟩) (by decide)
  obtain ⟨-, -, hkeep, -⟩ := limit_cuts_at_height (show (2 : Int) ≤ 3 by decide) text
  refine ⟨hread, ?_, ?_, ?_, hkeep ?_⟩
  · exact ((limit_cuts_at_height (show (0 : Int) ≤ 2 by decide) text).1 d hread).2 (by decide)
  · exact ((limit_cuts_at_height (show (-5 : Int) ≤ 2 by decide) text).2.1 [d]
      (readAll_eq_ok.2 hall)).2 ⟨d, List.mem_cons_self, by decide⟩
  · rw [read_eq]
    decide
  · rw [hread]
    rintro f ⟨⟩

end SchemeCore.Reader
