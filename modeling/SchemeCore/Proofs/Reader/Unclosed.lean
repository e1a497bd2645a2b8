import SchemeCore.Proofs.Reader.Blame
import SchemeCore.Proofs.Reader.Joined

/-!
# Closing what is open

At the end of a text the reader may be inside of lists and vectors, one in the other, that lack
their closing parentheses. `Unclosed` lists where they begin, innermost first: a parenthesis on a
line of its own closes the first of them, and then the reader blames the next one, until none is
left. The list is put together along the reading: a sequence adds itself behind those that are open
in its last element (`unclosed_of_readSequence`).

The line feed ends a comment at the end of the text, and a token there goes on for no further than
before, so that all data that were complete stay as they were.
-/

namespace SchemeCore

/-- The same place of a text that goes on for longer. -/
def Cursor.append (c : Cursor) (tail : List Char) : Cursor := ⟨c.pos, c.rest ++ tail⟩

theorem Cursor.append_nil (c : Cursor) : c.append [] = c := by
  rw [append, List.append_nil]

theorem Cursor.Span.append {c next : Cursor} {s : List Char} (h : c.Span s next)
    (tail : List Char) : (c.append tail).Span s (next.append tail) := by
  refine ⟨?_, h.2⟩
  show c.rest ++ tail = s ++ (next.rest ++ tail)
  rw [h.1, List.append_assoc]

theorem Cursor.head?_append {c : Cursor} (h : c.rest ≠ []) (tail : List Char) :
    (c.append tail).rest.head? = c.rest.head? := by
  obtain ⟨ch, cs, hr⟩ := List.exists_cons_of_ne_nil h
  show (c.rest ++ tail).head? = _
  rw [hr]
  rfl

theorem Cursor.append_ne_nil {c : Cursor} (h : c.rest ≠ []) (tail : List Char) :
    (c.append tail).rest ≠ [] :=
  List.append_ne_nil_of_left_ne_nil h tail

theorem Cursor.Span.count_le {c next : Cursor} {s : List Char} (h : c.Span s next) (ch : Char) :
    next.rest.count ch ≤ c.rest.count ch := by
  rw [h.1, List.count_append]
  exact Nat.le_add_left ..

theorem Cursor.Span.pos_le {c next : Cursor} {s : List Char} (h : c.Span s next) :
    c.pos ≤ next.pos := by
  rw [h.2]
  exact Nat.le_add_right ..

namespace Reader

/-- Closing parentheses, each on a line of its own. -/
def closings : Nat → List Char
  | 0 => []
  | n + 1 => '\n' :: ')' :: closings n

/-- The lists and vectors that are open at the end of a reading begin at the positions `ps`,
innermost first, where `r n` is how the reading ends in front of `n` closing parentheses. -/
structure Stops {β : Type} (low parens : Nat) (r : Nat → Except ReadFailure β) (ps : List Nat) :
    Prop where
  stops : ∀ {n p : Nat}, ps[n]? = some p →
    ∃ what ∈ ["list", "vector"], r n = .error ⟨p, .openSequence what⟩
  outward : ps.Pairwise (· > ·)
  low_le : ∀ p ∈ ps, low ≤ p
  length_le : ps.length ≤ parens

/-- Where as many parentheses stand as are missing, the reading ends in front of those that are
left. -/
structure Unclosed {β : Type} (low parens : Nat) (r : Nat → Except ReadFailure (β × Cursor))
    (ps : List Nat) : Prop extends Stops low parens r ps where
  ends : ∀ m, ∃ b pos, r (ps.length + m) = .ok (b, ⟨pos, closings m⟩)

/-! ## In front of closing parentheses -/

theorem alike_closings (n : Nat) : Alike [] (closings n) := by
  cases n with
  | zero => exact ⟨rfl, by simp [closings]⟩
  | succ n => exact ⟨rfl, by simp [closings]⟩

theorem Clear.append {cs tail : List Char} (h : Clear cs) (hne : cs ≠ [])
    (ht : tail.head? ≠ some '|') : Clear (cs ++ tail) := by
  obtain ⟨c, cs, rfl⟩ := List.exists_cons_of_ne_nil hne
  refine ⟨?_, h.2⟩
  rintro ⟨t, heq⟩
  simp only [List.cons_append, List.nil_append, List.cons.injEq] at heq
  obtain ⟨rfl, hbar⟩ := heq
  cases cs with
  | nil =>
    rw [List.nil_append] at hbar
    rw [← hbar] at ht
    exact ht rfl
  | cons c cs =>
    rw [List.cons_append, List.cons.injEq] at hbar
    exact h.1 ⟨cs, by rw [← hbar.1]; rfl⟩

theorem head?_closings_ne (n : Nat) {ch : Char} (h : ch ≠ '\n') :
    (closings n).head? ≠ some ch := by
  cases n with
  | zero => simp [closings]
  | succ n => simpa [closings] using h.symm

section

variable {c here : Cursor}

/-- What stands behind atmosphere still does so. -/
theorem skipAtmosphere_append (h : skipAtmosphere c = .ok here) (hne : here.rest ≠ []) (n : Nat) :
    skipAtmosphere (c.append (closings n)) = .ok (here.append (closings n)) := by
  obtain ⟨⟨w, hw, hspan⟩, hclear⟩ := span_of_skipAtmosphere h hne
  exact skipAtmosphere_of_span (hspan.append _) hw
    (hclear.append hne (head?_closings_ne n (by decide)))

/-- Atmosphere at the end of the text goes on to the first closing parenthesis. -/
theorem skipAtmosphere_closings (h : skipAtmosphere c = .ok here) (hend : here.rest = []) (n : Nat) :
    ∃ pos, skipAtmosphere (c.append (closings (n + 1))) = .ok ⟨pos, ')' :: closings n⟩ := by
  obtain ⟨u, ⟨w, line, rfl, hw, hl⟩, hrest, -⟩ := skipped_of_skipAtmosphere h
  rw [hend] at hl hrest
  have hspan : (c.append (closings (n + 1))).Span (w ++ (line ++ ['\n']))
      ⟨c.pos + (w ++ (line ++ ['\n'])).length, ')' :: closings n⟩ := by
    refine ⟨?_, rfl⟩
    show c.rest ++ '\n' :: ')' :: closings n = _
    rw [hrest]
    simp
  exact ⟨_, skipAtmosphere_of_span hspan (hw.append hl.isAtmosphere)
    (clear_of_head (by decide) (by decide) (by decide))⟩

/-- A datum that was read is read in front of closing parentheses. -/
theorem element_append {limit : Int} {levels : Nat} {c next : Cursor} {d : Datum}
    (h : (element limit levels).read c = .ok (d, next)) (n : Nat) :
    (element limit levels).read (c.append (closings n)) = .ok (d, next.append (closings n)) := by
  obtain ⟨w, s, hw, hl, hspan, hheight⟩ := element_sound limit levels h
  have hahead : Alike next.rest (next.rest ++ closings n) := by
    have hrest := (alike_closings n).append next.rest
    rwa [List.append_nil] at hrest
  have hspan' := hspan.append (closings n)
  have hrest : (c.append (closings n)).rest = w ++ (s ++ (next.rest ++ closings n)) := by
    rw [← List.append_assoc]
    exact hspan'.1
  rw [element_layout limit (hl.ahead hahead) hheight hw hrest, hspan'.behind.advance_eq]

end

/-! ## Putting readings together -/

section

variable {α β : Type} {low low' parens parens' : Nat} {ps : List Nat}

theorem Stops.mono {r : Nat → Except ReadFailure β} (h : Stops low parens r ps)
    (hlow : low' ≤ low) (hparens : parens ≤ parens') : Stops low' parens' r ps where
  stops := h.stops
  outward := h.outward
  low_le p hp := Nat.le_trans hlow (h.low_le p hp)
  length_le := Nat.le_trans h.length_le hparens

/-- The same sequences are open in a reading that stops as another one does. -/
theorem Stops.map {r : Nat → Except ReadFailure α} {r' : Nat → Except ReadFailure β}
    (h : Stops low parens r ps) (f : α → β) (hr : ∀ n, r' n = (r n).map f) :
    Stops low parens r' ps where
  stops hp := by
    obtain ⟨what, hwhat, hstop⟩ := h.stops hp
    exact ⟨what, hwhat, by rw [hr, hstop]; rfl⟩
  outward := h.outward
  low_le := h.low_le
  length_le := h.length_le

theorem Unclosed.mono {r : Nat → Except ReadFailure (β × Cursor)} (h : Unclosed low parens r ps)
    (hlow : low' ≤ low) (hparens : parens ≤ parens') : Unclosed low' parens' r ps :=
  ⟨h.toStops.mono hlow hparens, h.ends⟩

theorem Unclosed.map {r : Nat → Except ReadFailure (α × Cursor)}
    {r' : Nat → Except ReadFailure (β × Cursor)} (h : Unclosed low parens r ps) (f : α → β)
    (hr : ∀ n, r' n = (r n).map fun (a, next) => (f a, next)) : Unclosed low parens r' ps where
  toStops := h.toStops.map _ hr
  ends m := by
    obtain ⟨a, pos, hend⟩ := h.ends m
    exact ⟨f a, pos, by rw [hr, hend]; rfl⟩

/-- The end of a text in a sequence, which closing it ends. -/
theorem unclosed_at_end (item : Element) {opened : Nat} {what : String}
    (hwhat : what ∈ ["list", "vector"]) {c here : Cursor} (h : skipAtmosphere c = .ok here)
    (hend : here.rest = []) : Unclosed opened 1
      (fun n => readSequence item opened what (c.append (closings n))) [opened] where
  stops {n p} hp := by
    cases n with
    | zero =>
      cases hp
      refine ⟨what, hwhat, ?_⟩
      rw [closings, Cursor.append_nil, readSequence_eq, h]
      exact if_pos hend
    | succ n => cases hp
  outward := List.pairwise_singleton ..
  low_le p hp := by rw [List.mem_singleton.1 hp]
  length_le := Nat.le_refl 1
  ends m := by
    obtain ⟨pos, hskip⟩ := skipAtmosphere_closings h hend m
    rw [List.length_singleton, Nat.add_comm, readSequence_close hskip rfl]
    exact ⟨[], _, rfl⟩

/-- What is open in the last element of a sequence is open in the sequence, which follows it. -/
theorem Unclosed.enclose {item : Element} {opened : Nat} {what : String}
    (hwhat : what ∈ ["list", "vector"]) {c here : Cursor} (hskip : skipAtmosphere c = .ok here)
    (hne : here.rest ≠ []) (hclose : here.rest.head? ≠ some ')')
    (h : Unclosed low parens (fun n => item.read (here.append (closings n))) ps)
    (hlow : opened < low) : Unclosed opened (parens + 1)
      (fun n => readSequence item opened what (c.append (closings n))) (ps ++ [opened]) := by
  have hskip' := skipAtmosphere_append hskip hne
  have hne' := fun n => Cursor.append_ne_nil hne (closings n)
  have hclose' : ∀ n, (here.append (closings n)).rest.head? ≠ some ')' := fun n => by
    rwa [Cursor.head?_append hne]
  -- the sequence goes on behind the element, with those parentheses that it left
  have hbehind : ∀ k, ∃ d pos, readSequence item opened what
      (c.append (closings (ps.length + k))) =
        (readSequence item opened what (Cursor.append ⟨pos, []⟩ (closings k))).map
          fun p => (d :: p.1, p.2) := by
    intro k
    obtain ⟨d, pos, hend⟩ := h.ends k
    exact ⟨d, pos, readSequence_ok (hskip' _) (hne' _) (hclose' _) hend⟩
  have hat : ∀ pos, Unclosed opened 1 (fun n => readSequence item opened what
      (Cursor.append ⟨pos, []⟩ (closings n))) [opened] :=
    fun pos => unclosed_at_end item hwhat (show skipAtmosphere ⟨pos, []⟩ = .ok ⟨pos, []⟩ from rfl)
      rfl
  refine ⟨⟨?stops, ?outward, ?low_le, ?length_le⟩, ?ends⟩
  case stops =>
    intro n p hp
    by_cases hn : n < ps.length
    · rw [List.getElem?_append_left hn] at hp
      obtain ⟨what', hwhat', hstop⟩ := h.stops hp
      exact ⟨what', hwhat', readSequence_error (hskip' n) (hne' n) (hclose' n) hstop⟩
    · obtain ⟨k, rfl⟩ := Nat.exists_eq_add_of_le (Nat.le_of_not_lt hn)
      rw [List.getElem?_append_right (Nat.le_add_right _ _), Nat.add_sub_cancel_left] at hp
      obtain ⟨d, pos, hread⟩ := hbehind k
      obtain ⟨what', hwhat', hstop⟩ := (hat pos).stops hp
      exact ⟨what', hwhat', by rw [hread, hstop]; rfl⟩
  case outward =>
    rw [List.pairwise_append]
    refine ⟨h.outward, List.pairwise_singleton .., fun p hp q hq => ?_⟩
    rw [List.mem_singleton.1 hq]
    exact Nat.lt_of_lt_of_le hlow (h.low_le p hp)
  case low_le =>
    intro p hp
    obtain hp | hp := List.mem_append.1 hp
    · exact Nat.le_trans hlow.le (h.low_le p hp)
    · rw [List.mem_singleton.1 hp]
  case length_le =>
    rw [List.length_append]
    exact Nat.succ_le_succ h.length_le
  case ends =>
    intro m
    obtain ⟨d, pos, hread⟩ := hbehind (1 + m)
    obtain ⟨ds, pos', hend⟩ := (hat pos).ends m
    rw [List.length_append, List.length_singleton, Nat.add_assoc]
    exact ⟨d :: ds, pos', by rw [hread]; exact congrArg _ hend⟩

end

/-! ## Elements -/

/-- Where the reader is in a list or vector at the end of the text, a list of open ones exists. -/
def Element.Closable (item : Element) : Prop :=
  ∀ {c : Cursor} {p : Nat} {what : String}, item.read c = .error ⟨p, .openSequence what⟩ →
    ∃ ps, Unclosed c.pos (c.rest.count '(') (fun n => item.read (c.append (closings n))) ps

/-- The reader answers the same in front of closing parentheses. -/
def Element.Stays (item : Element) : Prop :=
  ∀ {c next : Cursor} {d : Datum}, item.read c = .ok (d, next) → ∀ n,
    item.read (c.append (closings n)) = .ok (d, next.append (closings n))

theorem head?_ne_of {α : Type} {a : α} {l : List α} (h : ∀ l', l = a :: l' → False) :
    l.head? ≠ some a := by
  intro heq
  obtain ⟨l', rfl⟩ := List.head?_eq_some_iff.1 heq
  exact h l' rfl

section Elements

variable {item : Element} {levels : Nat} (hi : item.Closable) (hs : item.Stays)
  (hsound : item.Sound levels) {c : Cursor} {p : Nat} {what : String}

include hi hs hsound

theorem unclosed_of_readSequence {opened : Nat} {w : String} (hw : w ∈ ["list", "vector"])
    (hopened : opened < c.pos)
    (h : readSequence item opened w c = .error ⟨p, .openSequence what⟩) :
    ∃ ps, Unclosed opened (c.rest.count '(' + 1)
      (fun n => readSequence item opened w (c.append (closings n))) ps := by
  fun_induction readSequence item opened w c with
  | case1 c f hskip =>
    cases h
    cases (blamed_of_skipAtmosphere 0 hskip).1
  | case2 c here hskip hend =>
    have hat : Unclosed opened 1 _ [opened] := unclosed_at_end item hw hskip hend
    exact ⟨[opened], hat.mono (Nat.le_refl _) (Nat.le_add_left ..)⟩
  | case3 => cases h
  | case4 c here hskip f hd hne hclose =>
    cases h
    obtain ⟨u, -, hspan⟩ := skipped_of_skipAtmosphere hskip
    obtain ⟨ps, hps⟩ := hi hd
    have hall := hps.enclose hw hskip hne (head?_ne_of hclose)
      (Nat.lt_of_lt_of_le hopened hspan.pos_le)
    exact ⟨_, hall.mono (Nat.le_refl _) (Nat.succ_le_succ (hspan.count_le _))⟩
  | case5 c here hskip d next hd _ hne hclose ih =>
    obtain ⟨u, -, hspan⟩ := skipped_of_skipAtmosphere hskip
    obtain ⟨w', s, -, -, hspan', -⟩ := hsound hd
    have hfront := hspan.trans hspan'
    obtain ⟨ps, hps⟩ := ih (Nat.lt_of_lt_of_le hopened hfront.pos_le) (map_eq_error h)
    have hall := hps.mono (Nat.le_refl _) (Nat.succ_le_succ (hfront.count_le _))
    refine ⟨ps, hall.map (d :: ·) fun n => ?_⟩
    apply readSequence_ok (skipAtmosphere_append hskip hne n) (Cursor.append_ne_nil hne _)
    · rw [Cursor.head?_append hne]
      exact head?_ne_of hclose
    · exact hs hd n

/-- A list or vector that begins at the cursor, and whose elements begin behind `o`. -/
theorem unclosed_of_opened {o cs : List Char} {w : String} (hw : w ∈ ["list", "vector"])
    (hr : c.rest = o ++ cs) (ho : o.count '(' = 1)
    (h : readSequence item c.pos w (c.advance o.length) = .error ⟨p, .openSequence what⟩) :
    ∃ ps, Unclosed c.pos (c.rest.count '(') (fun n => readSequence item c.pos w
      ((c.append (closings n)).advance o.length)) ps := by
  have hspan : c.Span o (c.advance o.length) := .advance hr
  have hlength : 0 < o.length := by
    rw [List.length_pos_iff]
    rintro rfl
    cases ho
  have hpos : c.pos < (c.advance o.length).pos := by
    rw [hspan.2]
    omega
  obtain ⟨ps, hps⟩ := unclosed_of_readSequence hi hs hsound hw hpos h
  have hcount : (c.advance o.length).rest.count '(' + 1 = c.rest.count '(' := by
    rw [hspan.1, List.count_append, ho, Nat.add_comm]
  rw [hcount] at hps
  refine ⟨ps, ?_⟩
  convert hps using 4 with n
  exact (hspan.append (closings n)).advance_eq

theorem unclosed_of_readHere (hne : c.rest ≠ []) (hclear : Clear c.rest)
    (h : readHere item c = .error ⟨p, .openSequence what⟩) :
    ∃ ps, Unclosed c.pos (c.rest.count '(') (fun n => readHere item (c.append (closings n))) ps := by
  refine readHere_cases (motive := fun r => r = .error ⟨p, .openSequence what⟩ → _) hne hclear
    ?string ?list ?close ?marked ?vector ?character ?number ?boolean ?decimal ?symbol h
  case string =>
    intro cs hr h
    cases readString_error h
  case list =>
    intro cs hr h
    obtain ⟨ps, hps⟩ := unclosed_of_opened (o := ['(']) hi hs hsound (by simp) hr (by decide)
      (map_eq_error h)
    refine ⟨ps, hps.map .list fun n => ?_⟩
    have hr' : (c.append (closings n)).rest = '(' :: (cs ++ closings n) := by
      rw [Cursor.append, hr]
      rfl
    rw [readHere_open hr']
    rfl
  case close =>
    rintro cs hr ⟨⟩
  case marked =>
    intro mark cs hr ha h
    obtain ⟨ps, hps⟩ := hi (map_eq_error h)
    have hspan : c.Span (shortForm mark) (c.advance (shortForm mark).length) := .advance hr
    refine ⟨ps, (hps.mono hspan.pos_le (hspan.count_le _)).map mark.on fun n => ?_⟩
    have hr' : (c.append (closings n)).rest = shortForm mark ++ (cs ++ closings n) := by
      rw [Cursor.append, hr, List.append_assoc]
    rw [readHere_short hr', (hspan.append _).advance_eq]
    intro hmark hat
    cases cs with
    | nil => exact head?_closings_ne n (by decide) hat
    | cons ch cs => exact ha hmark hat
  case vector =>
    intro cs hr h
    obtain ⟨ps, hps⟩ := unclosed_of_opened (o := ['#', '(']) hi hs hsound (by simp) hr (by decide)
      (map_eq_error h)
    refine ⟨ps, hps.map .vector fun n => ?_⟩
    have hr' : (c.append (closings n)).rest = '#' :: '(' :: (cs ++ closings n) := by
      rw [Cursor.append, hr]
      rfl
    rw [readHere_hash hr', readHash?_open hr']
    rfl
  case character =>
    intro cs hr h
    cases (readCharacter_error h).2
  case number =>
    intro radix letter cs hr hl h
    cases (readNumber_error h).2
  case boolean =>
    rintro cs p - - ⟨⟩
  case decimal =>
    intro ch cs hr hdig h
    cases (readNumber_error h).2
  case symbol =>
    intro ch cs _ _ _ _ h
    cases (readSymbol_error h).2

/-- What is open in the last of the data of a text is open in the text, which ends behind it. -/
theorem stops_of_readRest (h : readRest item c = .error ⟨p, .openSequence what⟩) :
    ∃ ps, Stops c.pos (c.rest.count '(') (fun n => readRest item (c.append (closings n))) ps ∧
      ∃ ds, readRest item (c.append (closings ps.length)) = .ok ds := by
  fun_induction readRest item c with
  | case1 c f hskip =>
    cases h
    cases (blamed_of_skipAtmosphere 0 hskip).1
  | case2 => cases h
  | case3 c here hskip hne f hd =>
    cases h
    obtain ⟨u, -, hspan⟩ := skipped_of_skipAtmosphere hskip
    obtain ⟨ps, hps⟩ := hi hd
    refine ⟨ps, ⟨?_, hps.outward, ?_, ?_⟩, ?_⟩
    · intro n p hp
      obtain ⟨what', hwhat', hstop⟩ := hps.stops hp
      exact ⟨what', hwhat', readRest_error (skipAtmosphere_append hskip hne n)
        (Cursor.append_ne_nil hne _) hstop⟩
    · exact fun p hp => Nat.le_trans hspan.pos_le (hps.low_le p hp)
    · exact Nat.le_trans hps.length_le (hspan.count_le _)
    · obtain ⟨d, pos, hend⟩ := hps.ends 0
      rw [Nat.add_zero] at hend
      have hrest : readRest item ⟨pos, closings 0⟩ = .ok [] :=
        readRest_end (show skipAtmosphere ⟨pos, []⟩ = .ok ⟨pos, []⟩ from rfl) rfl
      refine ⟨[d], ?_⟩
      rw [readRest_ok (skipAtmosphere_append hskip hne _) (Cursor.append_ne_nil hne _) hend, hrest]
      rfl
  | case4 c here hskip hne d next hd _ ih =>
    obtain ⟨u, -, hspan⟩ := skipped_of_skipAtmosphere hskip
    obtain ⟨w', s, -, -, hspan', -⟩ := hsound hd
    have hfront := hspan.trans hspan'
    obtain ⟨ps, hps, ds, hend⟩ := ih (map_eq_error h)
    have hfirst : ∀ n, readRest item (c.append (closings n)) =
        (readRest item (next.append (closings n))).map (d :: ·) := fun n =>
      readRest_ok (skipAtmosphere_append hskip hne n) (Cursor.append_ne_nil hne _) (hs hd n)
    refine ⟨ps, (hps.mono hfront.pos_le (hfront.count_le _)).map _ hfirst, d :: ds, ?_⟩
    rw [hfirst, hend]
    rfl

end Elements

/-- A list or vector is open behind the atmosphere only. -/
theorem behind_of_open {here : Cursor → Reading} {c : Cursor} {p : Nat} {what : String}
    (h : readBehind here c = .error ⟨p, .openSequence what⟩) : ∃ start,
      skipAtmosphere c = .ok start ∧ start.rest ≠ [] ∧
        here start = .error ⟨p, .openSequence what⟩ := by
  obtain hskip | ⟨start, hskip, ⟨-, hf⟩ | ⟨hne, hstart⟩⟩ := readBehind_error h
  · cases (blamed_of_skipAtmosphere 0 hskip).1
  · cases hf
  · exact ⟨start, hskip, hne, hstart⟩

/-- At each level what is open can be closed. -/
theorem element_closable (limit : Int) (levels : Nat) : (element limit levels).Closable := by
  induction levels with
  | zero =>
    intro c p what h
    obtain ⟨start, -, -, hstart⟩ := behind_of_open h
    cases hstart
  | succ levels ih =>
    intro c p what h
    obtain ⟨start, hskip, hne, hstart⟩ := behind_of_open h
    obtain ⟨u, -, hspan⟩ := skipped_of_skipAtmosphere hskip
    obtain ⟨ps, hps⟩ := unclosed_of_readHere ih element_append (element_sound limit levels) hne
      (clear_of_scanAtmosphere hskip) hstart
    have hread : ∀ n, (element limit (levels + 1)).read (c.append (closings n)) =
        readHere (element limit levels) (start.append (closings n)) := fun n =>
      readBehind_at (skipAtmosphere_append hskip hne n) (Cursor.append_ne_nil hne _)
    rw [← funext hread] at hps
    exact ⟨ps, hps.mono hspan.pos_le (hspan.count_le _)⟩

/-! ## Whole texts -/

/-- The failure of a reading that ended in a list or vector. -/
def Unterminated (f : ParseFailure) : Prop :=
  f.message = "unterminated list: missing ')'" ∨ f.message = "unterminated vector: missing ')'"

theorem head?_toList_append {s : String} {ch : Char} (h : s.toList.head? = some ch) (t : String) :
    (s ++ t).toList.head? = some ch := by
  rw [String.toList_append, List.head?_append, h]
  rfl

/-- By its message such a failure is told from all others. -/
theorem openSequence_of_unterminated {g : ReadFailure} {text : String}
    (h : Unterminated (g.inText text)) : ∃ what, g.fault = .openSequence what := by
  obtain ⟨p, fault⟩ := g
  replace h : fault.message = "unterminated list: missing ')'" ∨
    fault.message = "unterminated vector: missing ')'" := h
  have hhead : fault.message.toList.head? = some 'u' := by
    obtain h | h := h
    · rw [h]
      decide
    · rw [h]
      decide
  cases fault with
  | openSequence what => exact ⟨what, rfl⟩
  | tooDeep limit =>
    have hn : ("nesting deeper than " ++ toString limit ++ " levels").toList.head? = some 'n' :=
      head?_toList_append (head?_toList_append (by decide) _) _
    cases hn.symm.trans hhead
  | missingDigits radix introducer =>
    have he : ("expected base-" ++ toString radix.base ++ " digits after " ++
        Text.quote introducer).toList.head? = some 'e' :=
      head?_toList_append (head?_toList_append (head?_toList_append (by decide) _) _) _
    cases he.symm.trans hhead
  | endOfInput | unexpectedClose | openBlockComment | openString | dottedList | missingCharacter =>
    exact absurd h (by decide)

theorem unterminated_of_openSequence {p : Nat} {what : String} (h : what ∈ ["list", "vector"])
    (text : String) : Unterminated ((⟨p, .openSequence what⟩ : ReadFailure).inText text) := by
  simp only [List.mem_cons, List.not_mem_nil, or_false] at h
  obtain rfl | rfl := h
  · exact .inl rfl
  · exact .inr rfl

theorem toList_join_replicate (n : Nat) :
    (String.join (List.replicate n "\n)")).toList = closings n := by
  induction n with
  | zero => rfl
  | succ n ih =>
    rw [List.replicate_succ, String.join_cons, String.toList_append, ih]
    rfl

/-- A text in front of closing parentheses on lines of their own. -/
theorem readAll_closings (limit : Int) (text : String) (n : Nat) :
    readAll limit (text ++ String.join (List.replicate n "\n)")) =
      (readRest (element limit (limit + 1).toNat)
        (Cursor.append ⟨0, text.toList⟩ (closings n))).mapError
          (·.inText (text ++ String.join (List.replicate n "\n)"))) := by
  rw [readAll_eq, String.toList_append, toList_join_replicate]
  rfl

/-- An unterminated list or vector is repaired by closing it. If the reading of all data of a text
ends in one, then behind a line feed and a closing parenthesis it succeeds or ends in one that was
opened before; so as many parentheses as the text opens, or fewer, make it succeed. -/
theorem unterminated_is_repaired_by_closing (limit : Int) (text : String) (f : ParseFailure)
    (h : readAll limit text = .error f) (hf : Unterminated f) :
    ((∃ ds, readAll limit (text ++ "\n)") = .ok ds) ∨
      ∃ g, readAll limit (text ++ "\n)") = .error g ∧ Unterminated g ∧ g.position < f.position) ∧
    ∃ n ≤ text.toList.count '(', ∃ ds,
      readAll limit (text ++ String.join (List.replicate n "\n)")) = .ok ds := by
  rw [readAll_eq] at h
  obtain ⟨⟨p, fault⟩, hread, rfl⟩ := mapError_eq_error h
  obtain ⟨what, rfl⟩ := openSequence_of_unterminated hf
  obtain ⟨ps, hps, ds, hend⟩ := stops_of_readRest (element_closable limit _) element_append
    (element_sound limit _) hread
  have hall : readAll limit (text ++ String.join (List.replicate ps.length "\n)")) = .ok ds := by
    rw [readAll_closings, hend]
    rfl
  refine ⟨?_, ps.length, hps.length_le, ds, hall⟩
  have hone : text ++ "\n)" = text ++ String.join (List.replicate 1 "\n)") := by
    rw [List.replicate_one, String.join_cons, String.join_nil, String.append_empty]
  cases ps with
  | nil =>
    -- the reading would have succeeded without any parenthesis
    rw [List.length_nil, closings, Cursor.append_nil, hread] at hend
    cases hend
  | cons p' ps =>
    have hfirst : p' = p := by
      obtain ⟨what', -, hstop⟩ := hps.stops (n := 0) rfl
      rw [closings, Cursor.append_nil, hread] at hstop
      cases hstop
      rfl
    cases ps with
    | nil => exact .inl ⟨ds, by rw [hone]; exact hall⟩
    | cons q ps =>
      obtain ⟨what', hwhat, hstop⟩ := hps.stops (n := 1) rfl
      have hlt : q < p' := List.rel_of_pairwise_cons hps.outward List.mem_cons_self
      refine .inr ⟨_, by rw [hone, readAll_closings, hstop]; rfl,
        unterminated_of_openSequence hwhat _, ?_⟩
      show (q : Int) < (p : Int)
      omega

theorem unterminated_is_repaired_by_closing_nested :
    readAll 1 "(#(;b" = .error ⟨1, "unterminated vector: missing ')'", "(#(;b"⟩ ∧
      ((∃ ds, readAll 1 "(#(;b\n)" = .ok ds) ∨
        ∃ g, readAll 1 "(#(;b\n)" = .error g ∧ Unterminated g ∧ g.position < 1) ∧
      ∃ n ≤ 2, ∃ ds, readAll 1 ("(#(;b" ++ String.join (List.replicate n "\n)")) = .ok ds := by
  have hinner : readSequence (element 1 0) 1 "vector" ⟨3, ";b".toList⟩ =
      .error ⟨1, .openSequence "vector"⟩ := by
    rw [readSequence_eq]
    rfl
  have hvector : (element 1 1).read ⟨1, "#(;b".toList⟩ = .error ⟨1, .openSequence "vector"⟩ := by
    show readHere (element 1 0) ⟨1, "#(;b".toList⟩ = _
    exact readHere_vector_error rfl hinner
  have houter : readSequence (element 1 1) 0 "list" ⟨1, "#(;b".toList⟩ =
      .error ⟨1, .openSequence "vector"⟩ :=
    readSequence_error rfl (by decide) (by decide) hvector
  have hlist : (element 1 2).read ⟨0, "(#(;b".toList⟩ = .error ⟨1, .openSequence "vector"⟩ := by
    show readHere (element 1 1) ⟨0, "(#(;b".toList⟩ = _
    exact readHere_list_error rfl houter
  have hread : readAll 1 "(#(;b" = .error ⟨1, "unterminated vector: missing ')'", "(#(;b"⟩ := by
    rw [readAll_eq]
    show Except.mapError _ (readRest (element 1 2) ⟨0, "(#(;b".toList⟩) = _
    rw [readRest_error rfl (by decide) hlist]
    rfl
  exact ⟨hread, unterminated_is_repaired_by_closing 1 "(#(;b" _ hread (.inr rfl)⟩

end Reader

end SchemeCore
