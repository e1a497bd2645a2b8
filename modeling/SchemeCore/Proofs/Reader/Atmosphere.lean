import SchemeCore.Proofs.Reader.Layout

/-!
# The scan of atmosphere

`skipAtmosphere` passes over exactly the atmosphere at the cursor. It passes over every
`IsAtmosphere` (`skipAtmosphere_of_span`), and what it passed over in front of a character is one
(`span_of_skipAtmosphere`). A scan may start inside a comment, and `Passed` says for each mode what
it passes over, with one rule for each step. Where a reading starts and ends is stated by
`Cursor.Span`.
-/

namespace SchemeCore

/-- The characters `s` stand between the two cursors. -/
def Cursor.Span (c : Cursor) (s : List Char) (next : Cursor) : Prop :=
  c.rest = s ++ next.rest ∧ next.pos = c.pos + s.length

namespace Cursor.Span

theorem trans {c mid next : Cursor} {s t : List Char} (h : c.Span s mid) (h' : mid.Span t next) :
    c.Span (s ++ t) next := by
  obtain ⟨hr, hp⟩ := h
  obtain ⟨hr', hp'⟩ := h'
  refine ⟨by rw [hr, hr', List.append_assoc], ?_⟩
  rw [hp', hp, List.length_append, Nat.add_assoc]

/-- What stands behind the cursor fixes where a span ends. -/
theorem eq {c next : Cursor} {s rest : List Char} (h : c.Span s next)
    (hc : c.rest = s ++ rest) : next = ⟨c.pos + s.length, rest⟩ := by
  obtain ⟨hr, hp⟩ := h
  have hrest : next.rest = rest := List.append_cancel_left (hr.symm.trans hc)
  rw [← hp, ← hrest]

theorem advance {c : Cursor} {s rest : List Char} (h : c.rest = s ++ rest) :
    c.Span s (c.advance s.length) := by
  constructor
  · rw [rest_advance, h, List.drop_left]
  · rfl

theorem advance_eq {c next : Cursor} {s : List Char} (h : c.Span s next) :
    c.advance s.length = next := by
  rw [h.eq h.1]
  show Cursor.mk _ _ = _
  rw [h.1, List.drop_left]

/-- The first part of a span. -/
theorem front {c next : Cursor} {s t : List Char} (h : c.Span (s ++ t) next) :
    c.Span s (c.advance s.length) := by
  apply advance
  rw [h.1, List.append_assoc]

/-- The second part of a span, from where the first one ends. -/
theorem behind {c next : Cursor} {s t : List Char} (h : c.Span (s ++ t) next) :
    (c.advance s.length).Span t next := by
  obtain ⟨hr, hp⟩ := h
  constructor
  · rw [rest_advance, hr, List.append_assoc, List.drop_left]
  · rw [hp, pos_advance, List.length_append, Nat.add_assoc]

theorem rest_advance_of {c : Cursor} {s rest : List Char} (h : c.rest = s ++ rest) :
    (c.advance s.length).rest = rest := by
  rw [rest_advance, h, List.drop_left]

end Cursor.Span

namespace Reader

/-! ## Over atmosphere -/

theorem Closes.ne_nil {inner : Nat} {body : List Char} (h : Closes inner body) : body ≠ [] := by
  cases h <;> simp

/-- Characters behind a non-empty run make no two-character mark of its first two. -/
theorem not_mark_append {a b c : Char} {body : List Char} (h : ¬ [a, b] <+: c :: body)
    (hb : body ≠ []) (rest cs : List Char) (hc : c = a) : body ++ rest ≠ b :: cs := by
  intro he
  obtain ⟨d, body, rfl⟩ := List.exists_cons_of_ne_nil hb
  rw [List.cons_append, List.cons.injEq] at he
  apply h
  rw [hc, he.1]
  exact ⟨body, rfl⟩

theorem scanAtmosphere_closes {inner : Nat} {body : List Char} (h : Closes inner body)
    (start pos : Nat) (rest : List Char) :
    scanAtmosphere (.blockComment start inner) pos (body ++ rest) =
      scanAtmosphere .between (pos + body.length) rest := by
  induction h generalizing pos with
  | last => rfl
  | outward _ ih =>
    rw [List.cons_append, List.cons_append, scanAtmosphere, ih, List.length_cons, List.length_cons]
    congr 1
    omega
  | inward _ ih =>
    rw [List.cons_append, List.cons_append, scanAtmosphere, ih, List.length_cons, List.length_cons]
    congr 1
    omega
  | plain hopen hclose h ih =>
    -- the mark that might begin here would lie in the comment, which has characters left
    rw [List.cons_append, scanAtmosphere, ih, List.length_cons]
    · congr 1
      omega
    · exact fun cs hc => not_mark_append hopen h.ne_nil rest cs hc
    · exact fun cs _ hc => not_mark_append hclose h.ne_nil rest cs hc
    · exact fun _ cs _ hc => not_mark_append hclose h.ne_nil rest cs hc

theorem scanAtmosphere_line {line : List Char} (hl : '\n' ∉ line) (pos : Nat) (rest : List Char) :
    scanAtmosphere .lineComment pos (line ++ '\n' :: rest) =
      scanAtmosphere .between (pos + line.length + 1) rest := by
  induction line generalizing pos with
  | nil => rfl
  | cons c line ih =>
    simp only [List.mem_cons, not_or] at hl
    rw [List.cons_append, scanAtmosphere, if_neg (Ne.symm hl.1), ih hl.2, List.length_cons]
    congr 1
    omega

theorem scanAtmosphere_append {w : List Char} (h : IsAtmosphere w) (pos : Nat)
    (rest : List Char) :
    scanAtmosphere .between pos (w ++ rest) = scanAtmosphere .between (pos + w.length) rest := by
  induction h generalizing pos with
  | nil => rfl
  | @blank c w hc _ ih =>
    have hmark : ∀ cs, c = '#' → w ++ rest = '|' :: cs → False := by
      rintro cs rfl
      exact absurd hc (by decide)
    rw [List.cons_append, scanAtmosphere, if_pos hc, ih, List.length_cons]
    · congr 1
      omega
    · exact hmark
  | lineComment hl _ ih =>
    rw [List.cons_append, List.append_assoc, List.cons_append, scanAtmosphere, if_neg (by decide),
      if_pos rfl, scanAtmosphere_line hl, ih]
    · simp only [List.length_cons, List.length_append]
      congr 1
      omega
    · exact fun cs hc => absurd hc (by decide)
  | blockComment hb _ ih =>
    rw [List.cons_append, List.cons_append, List.append_assoc, scanAtmosphere,
      scanAtmosphere_closes hb, ih]
    simp only [List.length_cons, List.length_append]
    congr 1
    omega

/-- No atmosphere begins here. -/
def Clear (cs : List Char) : Prop :=
  ¬ ['#', '|'] <+: cs ∧ ∀ c ∈ cs.head?, Text.isBlank c = false ∧ c ≠ ';'

theorem scanAtmosphere_of_clear {cs : List Char} (h : Clear cs) (pos : Nat) :
    scanAtmosphere .between pos cs = .ok ⟨pos, cs⟩ := by
  cases cs with
  | nil => rfl
  | cons c cs =>
    obtain ⟨hmark, hhead⟩ := h
    obtain ⟨hblank, hsemi⟩ := hhead c rfl
    rw [scanAtmosphere, hblank, if_neg (by simp), if_neg hsemi]
    rintro cs rfl rfl
    exact hmark ⟨cs, rfl⟩

/-- The reader passes over all atmosphere in front of what is none. -/
theorem skipAtmosphere_of_span {c next : Cursor} {w : List Char} (h : c.Span w next)
    (hw : IsAtmosphere w) (hn : Clear next.rest) : skipAtmosphere c = .ok next := by
  rw [skipAtmosphere, h.1, scanAtmosphere_append hw, scanAtmosphere_of_clear hn, ← h.2]

/-! ## Nothing but atmosphere -/

theorem IsAtmosphere.append {w w' : List Char} (h : IsAtmosphere w) (h' : IsAtmosphere w') :
    IsAtmosphere (w ++ w') := by
  induction h with
  | nil => exact h'
  | blank hc _ ih => exact .blank hc ih
  | lineComment hl _ ih =>
    rw [List.cons_append, List.append_assoc, List.cons_append]
    exact .lineComment hl ih
  | blockComment hb _ ih =>
    rw [List.cons_append, List.cons_append, List.append_assoc]
    exact .blockComment hb ih

/-- What may stand behind atmosphere in front of `rest`: nothing, or a line comment that the end of
the text cuts off. -/
def CutOff (line rest : List Char) : Prop :=
  line = [] ∨ rest = [] ∧ ∃ comment, line = ';' :: comment ∧ '\n' ∉ comment

/-- Atmosphere in front of `rest`, with a last line comment that may lack its line feed. -/
def Skipped (rest u : List Char) : Prop :=
  ∃ w line, u = w ++ line ∧ IsAtmosphere w ∧ CutOff line rest

theorem Skipped.prepend {rest u w : List Char} (h : Skipped rest u) (hw : IsAtmosphere w) :
    Skipped rest (w ++ u) := by
  obtain ⟨w', line, rfl, hw', hl⟩ := h
  exact ⟨w ++ w', line, (List.append_assoc ..).symm, hw.append hw', hl⟩

theorem Skipped.isAtmosphere {rest u : List Char} (h : Skipped rest u) (hne : rest ≠ []) :
    IsAtmosphere u := by
  obtain ⟨w, line, rfl, hw, rfl | ⟨hr, -⟩⟩ := h
  · rwa [List.append_nil]
  · exact absurd hr hne

/-- What a scan passes over up to the end of the atmosphere in front of `rest`. -/
def Passed (rest : List Char) : Atmosphere → List Char → Prop
  | .between, u => Skipped rest u
  | .lineComment, u =>
    (∃ line u', u = line ++ '\n' :: u' ∧ '\n' ∉ line ∧ Skipped rest u') ∨
      rest = [] ∧ '\n' ∉ u
  | .blockComment _ inner, u => ∃ body u', u = body ++ u' ∧ Closes inner body ∧ Skipped rest u'

section Passed

variable {rest u : List Char} {c : Char} {start start' inner : Nat}

theorem passed_blank (hc : Text.isBlank c = true) (h : Passed rest .between u) :
    Passed rest .between (c :: u) :=
  Skipped.prepend h (.blank hc .nil)

theorem passed_lineComment (h : Passed rest .lineComment u) : Passed rest .between (';' :: u) := by
  rcases h with ⟨line, u', rfl, hl, hu⟩ | ⟨hend, hl⟩
  · have hline := hu.prepend (.lineComment hl .nil)
    rwa [List.cons_append, List.append_assoc] at hline
  · exact ⟨[], _, rfl, .nil, .inr ⟨hend, u, rfl, hl⟩⟩

theorem passed_blockComment (h : Passed rest (.blockComment start 0) u) :
    Passed rest .between ('#' :: '|' :: u) := by
  obtain ⟨body, u', rfl, hb, hu⟩ := h
  have hcomment : IsAtmosphere ('#' :: '|' :: (body ++ [])) := .blockComment hb .nil
  rw [List.append_nil] at hcomment
  exact hu.prepend hcomment

theorem passed_inLine (h : Passed rest (if c = '\n' then .between else .lineComment) u) :
    Passed rest .lineComment (c :: u) := by
  by_cases hc : c = '\n'
  · rw [if_pos hc] at h
    exact .inl ⟨[], u, by rw [hc]; rfl, by simp, h⟩
  · rw [if_neg hc] at h
    rcases h with ⟨line, u', rfl, hl, hu⟩ | ⟨hend, hl⟩
    · exact .inl ⟨c :: line, u', rfl, by simp [Ne.symm hc, hl], hu⟩
    · exact .inr ⟨hend, by simp [Ne.symm hc, hl]⟩

theorem passed_inward (h : Passed rest (.blockComment start (inner + 1)) u) :
    Passed rest (.blockComment start' inner) ('#' :: '|' :: u) := by
  obtain ⟨body, u', rfl, hb, hu⟩ := h
  exact ⟨_, u', rfl, .inward hb, hu⟩

theorem passed_last (h : Passed rest .between u) :
    Passed rest (.blockComment start 0) ('|' :: '#' :: u) :=
  ⟨_, u, rfl, .last, h⟩

theorem passed_outward (h : Passed rest (.blockComment start inner) u) :
    Passed rest (.blockComment start' (inner + 1)) ('|' :: '#' :: u) := by
  obtain ⟨body, u', rfl, hb, hu⟩ := h
  exact ⟨_, u', rfl, .outward hb, hu⟩

theorem passed_plain (hopen : ¬ ['#', '|'] <+: c :: (u ++ rest))
    (hclose : ¬ ['|', '#'] <+: c :: (u ++ rest)) (h : Passed rest (.blockComment start inner) u) :
    Passed rest (.blockComment start' inner) (c :: u) := by
  obtain ⟨body, u', rfl, hb, hu⟩ := h
  have hbody : c :: body <+: c :: (body ++ u' ++ rest) := by
    rw [List.append_assoc, ← List.cons_append]
    exact List.prefix_append _ _
  exact ⟨_, u', rfl,
    .plain (fun hm => hopen (hm.trans hbody)) (fun hm => hclose (hm.trans hbody)) hb, hu⟩

theorem not_mark_of {a b : Char} {cs : List Char} (h : ∀ t, c = a → cs = b :: t → False) :
    ¬ [a, b] <+: c :: cs := by
  rintro ⟨t, ht⟩
  rw [List.cons_append, List.cons.injEq] at ht
  exact h t ht.1.symm ht.2.symm

end Passed

/-- What is passed over behind some characters is passed over together with them. -/
theorem passed_behind {mode mode' : Atmosphere} {pos : Nat} {cs : List Char} {next : Cursor}
    (s : List Char)
    (h : ∃ u, Passed next.rest mode' u ∧ (⟨pos + s.length, cs⟩ : Cursor).Span u next)
    (hstep : ∀ u, cs = u ++ next.rest → Passed next.rest mode' u → Passed next.rest mode (s ++ u)) :
    ∃ u, Passed next.rest mode u ∧ (⟨pos, s ++ cs⟩ : Cursor).Span u next := by
  obtain ⟨u, hu, hspan⟩ := h
  have hfront : (⟨pos, s ++ cs⟩ : Cursor).Span s ⟨pos + s.length, cs⟩ := ⟨rfl, rfl⟩
  exact ⟨s ++ u, hstep u hspan.1 hu, hfront.trans hspan⟩

theorem passed_of_scanAtmosphere {mode : Atmosphere} {pos : Nat} {cs : List Char} {next : Cursor}
    (h : scanAtmosphere mode pos cs = .ok next) :
    ∃ u, Passed next.rest mode u ∧ (⟨pos, cs⟩ : Cursor).Span u next := by
  fun_induction scanAtmosphere mode pos cs with
  | case1 | case5 =>
    cases h
    exact ⟨[], ⟨[], [], rfl, .nil, .inl rfl⟩, rfl, rfl⟩
  | case2 pos cs ih => exact passed_behind ['#', '|'] (ih h) fun _ _ => passed_blockComment
  | case3 pos c cs _ hc ih => exact passed_behind [c] (ih h) fun _ _ => passed_blank hc
  | case4 pos cs _ _ ih => exact passed_behind [';'] (ih h) fun _ _ => passed_lineComment
  | case6 =>
    cases h
    exact ⟨[], .inr ⟨rfl, by simp⟩, rfl, rfl⟩
  | case7 pos c cs ih => exact passed_behind [c] (ih h) fun _ _ => passed_inLine
  | case8 => cases h
  | case9 start inner pos cs ih =>
    exact passed_behind ['#', '|'] (ih h) fun _ _ => passed_inward
  | case10 start pos cs ih => exact passed_behind ['|', '#'] (ih h) fun _ _ => passed_last
  | case11 start inner pos cs ih =>
    exact passed_behind ['|', '#'] (ih h) fun _ _ => passed_outward
  | case12 start inner pos c cs hopen hlast houtward ih =>
    refine passed_behind [c] (ih h) fun u hcs => passed_plain ?_ ?_
    · rw [← hcs]
      exact not_mark_of hopen
    · rw [← hcs]
      refine not_mark_of fun t hc ht => ?_
      cases inner with
      | zero => exact hlast t rfl hc ht
      | succ inner => exact houtward inner t rfl hc ht

theorem clear_of_scanAtmosphere {mode : Atmosphere} {pos : Nat} {cs : List Char} {next : Cursor}
    (h : scanAtmosphere mode pos cs = .ok next) : Clear next.rest := by
  fun_induction scanAtmosphere mode pos cs with
  | case1 | case6 =>
    cases h
    exact ⟨by simp, by simp⟩
  | case5 pos c cs hmark hblank hsemi =>
    cases h
    constructor
    · rintro ⟨t, ht⟩
      rw [List.cons_append, List.cons.injEq] at ht
      exact hmark t ht.1.symm ht.2.symm
    · rintro d ⟨⟩
      exact ⟨by simpa using hblank, hsemi⟩
  | case8 => cases h
  | case2 _ _ ih | case3 _ _ _ _ _ ih | case4 _ _ _ _ ih | case7 _ _ _ ih | case9 _ _ _ _ ih
  | case10 _ _ _ ih | case11 _ _ _ _ ih | case12 _ _ _ _ _ _ _ _ ih => exact ih h

/-- The reader passes over nothing but atmosphere, and over all of it. -/
theorem skipped_of_skipAtmosphere {c next : Cursor} (h : skipAtmosphere c = .ok next) :
    ∃ u, Skipped next.rest u ∧ c.Span u next := by
  obtain ⟨u, hu, hr, hp⟩ := passed_of_scanAtmosphere h
  exact ⟨u, hu, hr, hp⟩

theorem span_of_skipAtmosphere {c next : Cursor} (h : skipAtmosphere c = .ok next)
    (hne : next.rest ≠ []) : (∃ w, IsAtmosphere w ∧ c.Span w next) ∧ Clear next.rest := by
  obtain ⟨w, hw, hspan⟩ := skipped_of_skipAtmosphere h
  exact ⟨⟨w, hw.isAtmosphere hne, hspan⟩, clear_of_scanAtmosphere h⟩

end Reader
end SchemeCore
