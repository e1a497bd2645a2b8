import SchemeCore.Proofs.Reader.Extent
import Mathlib.Logic.Relation

/-!
# Where the skipping of atmosphere ends

Atmosphere is skipped in rounds, each of them over one piece: a white space character, a line
comment or a block comment (`PieceAt`). A block comment is what the count of its marks says: it ends
where the count of open comments first returns to 0 (`IsBlockComment`), and without an end there is
always one left open (`NeverCloses`).

1. A block comment is taken token by token, and each token leads the scan on by its characters
   (`exists_token`). The count of the tokens says where the comment ends (`closes_iff`) and whether
   it does (`closes_or_open`).
2. At every position the skipping ends, or it is stuck at a comment without an end, or there is a
   piece (`skippedTo_or_stuckAt_or_pieceAt`). Behind the piece the answer is the same
   (`PieceAt.skipAtmosphere_eq`).
3. Each piece leads to a later position of the text, so that the rounds come to an end
   (`exists_skippedTo_or_stuckAt`). The answer tells which end it is.
-/

namespace SchemeCore.Reader

/-! ## Tokens of block comments -/

/-- What the scan of a block comment takes at once: a two-character mark, or else one character. -/
inductive CommentToken where
  | opening
  | closing
  | plain (c : Char)
  deriving DecidableEq

namespace CommentToken

def chars : CommentToken → List Char
  | opening => ['#', '|']
  | closing => ['|', '#']
  | plain c => [c]

/-- What the token adds to the number of open comments. -/
def weight : CommentToken → Int
  | opening => 1
  | closing => -1
  | plain _ => 0

/-- Where the scan is behind the token, with `inner` more comments open inside the one that started
at `start`. -/
def leadsTo (start : Nat) : (inner : Nat) → CommentToken → Atmosphere
  | inner, opening => .blockComment start (inner + 1)
  | 0, closing => .between
  | inner + 1, closing => .blockComment start inner
  | inner, plain _ => .blockComment start inner

theorem chars_ne_nil (t : CommentToken) : t.chars ≠ [] := by
  cases t <;> simp [chars]

end CommentToken

/-- The tokens of a block comment from left to right. The marks are taken before single
characters. -/
def commentTokens : List Char → List CommentToken
  | [] => []
  | '#' :: '|' :: cs => .opening :: commentTokens cs
  | '|' :: '#' :: cs => .closing :: commentTokens cs
  | c :: cs => .plain c :: commentTokens cs

/-- One step of the scan inside a block comment takes one token. -/
theorem exists_token {cs : List Char} (hne : cs ≠ []) :
    ∃ t rest, cs = t.chars ++ rest ∧ commentTokens cs = t :: commentTokens rest ∧
      ∀ start inner pos, scanAtmosphere (.blockComment start inner) pos cs =
        scanAtmosphere (t.leadsTo start inner) (pos + t.chars.length) rest := by
  fun_cases commentTokens cs with
  | case1 => exact absurd rfl hne
  | case2 cs => exact ⟨.opening, cs, rfl, rfl, fun _ _ _ => rfl⟩
  | case3 cs =>
    refine ⟨.closing, cs, rfl, rfl, fun start inner pos => ?_⟩
    cases inner <;> rfl
  | case4 c cs hopen hclose =>
    refine ⟨.plain c, cs, rfl, rfl, fun start inner pos => ?_⟩
    rw [scanAtmosphere]
    · rfl
    · exact hopen
    · exact fun cs _ => hclose cs
    · exact fun _ cs _ => hclose cs

/-! ## The count of open comments -/

/-- How many more comments the tokens open than they close. -/
def openCount (ts : List CommentToken) : Int := (ts.map CommentToken.weight).sum

/-- Counted on from `k`, the number of open comments is 0 behind all of the tokens, and not
before. -/
def ReturnsAtEnd (k : Int) (ts : List CommentToken) : Prop :=
  ∀ front, front <+: ts → (k + openCount front = 0 ↔ front = ts)

/-- Counted on from `k`, the number of open comments is never 0. -/
def NeverReturns (k : Int) (ts : List CommentToken) : Prop :=
  ∀ front, front <+: ts → k + openCount front ≠ 0

theorem forall_prefix_nil {α : Type} {P : List α → Prop} :
    (∀ front, front <+: [] → P front) ↔ P [] := by
  simp only [List.prefix_nil, forall_eq]

theorem forall_prefix_cons {α : Type} {P : List α → Prop} {a : α} {l : List α} :
    (∀ front, front <+: a :: l → P front) ↔ P [] ∧ ∀ front, front <+: l → P (a :: front) := by
  constructor
  · intro h
    exact ⟨h [] List.nil_prefix, fun front hl => h _ (List.cons_prefix_cons.2 ⟨rfl, hl⟩)⟩
  · rintro ⟨hnil, hcons⟩ front hfront
    obtain rfl | ⟨front, rfl, hl⟩ := List.prefix_cons_iff.1 hfront
    · exact hnil
    · exact hcons front hl

section

variable {k : Int} {t : CommentToken} {ts : List CommentToken}

theorem add_openCount_nil : k + openCount [] = k := Int.add_zero k

theorem add_openCount_cons : k + openCount (t :: ts) = k + t.weight + openCount ts :=
  (Int.add_assoc ..).symm

theorem returnsAtEnd_nil : ReturnsAtEnd k [] ↔ k = 0 := by
  rw [ReturnsAtEnd, forall_prefix_nil, add_openCount_nil, eq_self, iff_true]

theorem eq_nil_of_returnsAtEnd_zero (h : ReturnsAtEnd 0 ts) : ts = [] :=
  ((h [] List.nil_prefix).1 add_openCount_nil).symm

/-- A count returns behind all tokens if it goes on with the first one and returns behind the
others. -/
theorem returnsAtEnd_cons : ReturnsAtEnd k (t :: ts) ↔ k ≠ 0 ∧ ReturnsAtEnd (k + t.weight) ts := by
  simp only [ReturnsAtEnd, forall_prefix_cons, add_openCount_nil, add_openCount_cons,
    List.cons.injEq, true_and, List.nil_eq, reduceCtorEq, iff_false, ne_eq]

theorem neverReturns_nil : NeverReturns k [] ↔ k ≠ 0 := by
  rw [NeverReturns, forall_prefix_nil, add_openCount_nil]

theorem neverReturns_cons :
    NeverReturns k (t :: ts) ↔ k ≠ 0 ∧ NeverReturns (k + t.weight) ts := by
  simp only [NeverReturns, forall_prefix_cons, add_openCount_nil, add_openCount_cons]

end

/-- With comments open, the count goes on behind each token. -/
theorem returnsAtEnd_open {inner : Nat} {t : CommentToken} {ts : List CommentToken} :
    ReturnsAtEnd (inner + 1) (t :: ts) ↔ ReturnsAtEnd (inner + 1 + t.weight) ts := by
  rw [returnsAtEnd_cons, and_iff_right]
  omega

theorem neverReturns_open {inner : Nat} {t : CommentToken} {ts : List CommentToken} :
    NeverReturns (inner + 1) (t :: ts) ↔ NeverReturns (inner + 1 + t.weight) ts := by
  rw [neverReturns_cons, and_iff_right]
  omega

/-- A closing mark takes back what the last opening mark counted. -/
theorem closing_count (inner : Nat) :
    ((inner + 1 : Nat) : Int) + 1 + CommentToken.closing.weight = inner + 1 :=
  Int.add_neg_cancel_right _ 1

/-! ## The end of a block comment -/

theorem eq_nil_of_commentTokens {cs : List Char} (h : commentTokens cs = []) : cs = [] := by
  by_contra hne
  obtain ⟨t, rest, -, htokens, -⟩ := exists_token hne
  cases htokens.symm.trans h

/-- Characters that do not begin with a mark, as a pattern match leaves it. -/
theorem not_mark {a b c : Char} {cs : List Char} (h : ∀ rest, c = a → cs = b :: rest → False) :
    ¬ [a, b] <+: c :: cs := by
  rintro ⟨rest, heq⟩
  cases heq
  exact h _ rfl rfl

theorem commentTokens_plain {c : Char} {cs : List Char} (hopen : ¬ ['#', '|'] <+: c :: cs)
    (hclose : ¬ ['|', '#'] <+: c :: cs) :
    commentTokens (c :: cs) = .plain c :: commentTokens cs := by
  rw [commentTokens]
  · rintro cs rfl rfl
    exact hopen ⟨cs, rfl⟩
  · rintro cs rfl rfl
    exact hclose ⟨cs, rfl⟩

/-- What is left of a block comment ends where the count of its tokens returns to 0. -/
theorem closes_iff {inner : Nat} {body : List Char} :
    Closes inner body ↔ ReturnsAtEnd (inner + 1) (commentTokens body) := by
  constructor
  · intro h
    induction h with
    | last => exact returnsAtEnd_open.2 (returnsAtEnd_nil.2 rfl)
    | outward _ ih =>
      rw [commentTokens, returnsAtEnd_open, closing_count]
      exact ih
    | inward _ ih => exact returnsAtEnd_open.2 ih
    | plain hopen hclose _ ih =>
      rw [commentTokens_plain hopen hclose, returnsAtEnd_open]
      exact ih
  · intro h
    fun_induction commentTokens body generalizing inner with
    | case1 =>
      have hzero := returnsAtEnd_nil.1 h
      omega
    | case2 cs ih => exact .inward (ih (returnsAtEnd_open.1 h))
    | case3 cs ih =>
      rw [returnsAtEnd_open] at h
      cases inner with
      | zero =>
        -- the count is 0 behind the mark, which is therefore the last token
        obtain rfl := eq_nil_of_commentTokens (eq_nil_of_returnsAtEnd_zero h)
        exact .last
      | succ inner =>
        rw [closing_count] at h
        exact .outward (ih h)
    | case4 c cs hopen hclose ih =>
      exact .plain (not_mark hopen) (not_mark hclose) (ih (returnsAtEnd_open.1 h))

/-- Any text behind an opening mark has the end of the comment in it, or else the count never
returns. -/
theorem closes_or_open (inner : Nat) (cs : List Char) :
    (∃ body rest, cs = body ++ rest ∧ Closes inner body) ∨
      NeverReturns (inner + 1) (commentTokens cs) := by
  fun_induction commentTokens cs generalizing inner with
  | case1 => exact .inr (neverReturns_nil.2 (by omega))
  | case2 cs ih =>
    obtain ⟨body, rest, rfl, hb⟩ | hopen := ih (inner + 1)
    · exact .inl ⟨_, rest, rfl, .inward hb⟩
    · exact .inr (neverReturns_open.2 hopen)
  | case3 cs ih =>
    cases inner with
    | zero => exact .inl ⟨_, cs, rfl, .last⟩
    | succ inner =>
      obtain ⟨body, rest, rfl, hb⟩ | hopen := ih inner
      · exact .inl ⟨_, rest, rfl, .outward hb⟩
      · right
        rw [neverReturns_open, closing_count]
        exact hopen
  | case4 c cs hopen hclose ih =>
    obtain ⟨body, rest, rfl, hb⟩ | hnever := ih inner
    · -- a mark at the front of the comment would be one at the front of the text
      have hfront : c :: body <+: c :: (body ++ rest) := List.prefix_append (c :: body) rest
      exact .inl ⟨c :: body, rest, rfl, .plain (fun h => not_mark hopen (h.trans hfront))
        (fun h => not_mark hclose (h.trans hfront)) hb⟩
    · exact .inr (neverReturns_open.2 hnever)

/-- A scan in a block comment whose count never returns blames the comment that it started in. -/
theorem scanAtmosphere_neverReturns {inner : Nat} {cs : List Char}
    (h : NeverReturns (inner + 1) (commentTokens cs)) (start pos : Nat) :
    scanAtmosphere (.blockComment start inner) pos cs = .error ⟨start, .openBlockComment⟩ := by
  fun_induction commentTokens cs generalizing inner pos with
  | case1 => rfl
  | case2 cs ih => exact ih (neverReturns_open.1 h) _
  | case3 cs ih =>
    rw [neverReturns_open] at h
    cases inner with
    | zero => exact absurd rfl (h [] List.nil_prefix)
    | succ inner =>
      rw [closing_count] at h
      exact ih h _
  | case4 c cs hopen hclose ih =>
    rw [scanAtmosphere]
    · exact ih (neverReturns_open.1 h) _
    · exact hopen
    · exact fun cs _ => hclose cs
    · exact fun _ cs _ => hclose cs

/-! ## Pieces of atmosphere -/

/-- A block comment: from its opening mark on, where one comment is open, the count returns to 0 at
its end. -/
def IsBlockComment (s : List Char) : Prop :=
  ∃ body, s = '#' :: '|' :: body ∧ ReturnsAtEnd 1 (commentTokens body)

/-- A block comment begins here whose count never returns to 0. -/
def NeverCloses (cs : List Char) : Prop :=
  ∃ inside, cs = '#' :: '|' :: inside ∧ NeverReturns 1 (commentTokens inside)

/-- `s` is one piece of atmosphere in front of `rest`. A line comment takes its line feed with it,
or reaches to the end of the text. -/
inductive Piece : (s rest : List Char) → Prop where
  | blank {c : Char} {rest : List Char} (hc : Text.isBlank c = true) : Piece [c] rest
  | lineComment {line rest : List Char} (hl : '\n' ∉ line) :
      Piece (';' :: (line ++ ['\n'])) rest
  | lastLine {line : List Char} (hl : '\n' ∉ line) : Piece (';' :: line) []
  | blockComment {s rest : List Char} (hs : IsBlockComment s) : Piece s rest

theorem Piece.ne_nil {s rest : List Char} (h : Piece s rest) : s ≠ [] := by
  obtain _ | _ | _ | ⟨_, rfl, _⟩ := h <;> exact List.cons_ne_nil _ _

/-- Over a piece of atmosphere the scan goes on. -/
theorem Piece.scan_eq {s rest : List Char} (h : Piece s rest) (pos : Nat) :
    scanAtmosphere .between pos (s ++ rest) = scanAtmosphere .between (pos + s.length) rest := by
  cases h with
  | blank hc => exact scanAtmosphere_append (.blank hc .nil) pos rest
  | lineComment hl => exact scanAtmosphere_append (.lineComment hl .nil) pos rest
  | @lastLine line hl =>
    rw [List.append_nil]
    exact CutOff.skipAtmosphere (.inr ⟨rfl, line, rfl, hl⟩) pos
  | blockComment hs =>
    obtain ⟨body, rfl, hbody⟩ := hs
    have hcomment : IsAtmosphere ('#' :: '|' :: (body ++ [])) :=
      .blockComment (closes_iff.2 hbody) .nil
    rw [List.append_nil] at hcomment
    exact scanAtmosphere_append hcomment pos rest

/-- Any text begins with no atmosphere, with a comment without an end, or with a piece. -/
theorem clear_or_neverCloses_or_piece (cs : List Char) :
    Clear cs ∨ NeverCloses cs ∨ ∃ s rest, cs = s ++ rest ∧ Piece s rest := by
  by_cases hmark : ['#', '|'] <+: cs
  · obtain ⟨inside, rfl⟩ := hmark
    obtain ⟨body, rest, rfl, hbody⟩ | hnever := closes_or_open 0 inside
    · exact .inr (.inr ⟨_, rest, rfl, .blockComment ⟨body, rfl, closes_iff.1 hbody⟩⟩)
    · exact .inr (.inl ⟨inside, rfl, hnever⟩)
  · match cs with
    | [] => exact .inl ⟨hmark, by simp⟩
    | c :: cs =>
      by_cases hblank : Text.isBlank c = true
      · exact .inr (.inr ⟨[c], cs, rfl, .blank hblank⟩)
      · by_cases hsemi : c = ';'
        · subst hsemi
          refine .inr (.inr ?_)
          by_cases hline : '\n' ∈ cs
          · obtain ⟨line, rest, rfl, hl⟩ := List.eq_append_cons_of_mem hline
            exact ⟨';' :: (line ++ ['\n']), rest, by simp, .lineComment hl⟩
          · exact ⟨';' :: cs, [], by simp, .lastLine hline⟩
        · refine .inl ⟨hmark, ?_⟩
          rintro d ⟨⟩
          exact ⟨by simpa using hblank, hsemi⟩

/-! ## Rounds over a text -/

/-- One piece of atmosphere stands between the two positions of the text. -/
structure PieceAt (text : List Char) (start stop : Nat) : Prop where
  lt : start < stop
  le_length : stop ≤ text.length
  piece : Piece (text.extract start stop) (text.drop stop)

/-- From `pos` to `stop` there is nothing but pieces of atmosphere, and behind them there is
none. -/
structure SkippedTo (text : List Char) (pos stop : Nat) : Prop where
  le : pos ≤ stop
  le_length : stop ≤ text.length
  pieces : Relation.ReflTransGen (PieceAt text) pos stop
  clear : Clear (text.drop stop)

/-- From `pos` to `start` there is nothing but pieces of atmosphere, and behind them begins a
comment without an end. -/
structure StuckAt (text : List Char) (pos start : Nat) : Prop where
  le : pos ≤ start
  pieces : Relation.ReflTransGen (PieceAt text) pos start
  neverCloses : NeverCloses (text.drop start)

/-- One token of a block comment stands between the two positions of the text. -/
structure TokenAt (text : List Char) (start stop : Nat) (t : CommentToken) : Prop where
  lt : start < stop
  le_length : stop ≤ text.length
  chars : text.extract start stop = t.chars
  tokens : commentTokens (text.drop start) = t :: commentTokens (text.drop stop)

section

variable {text : List Char} {pos stop : Nat}

theorem PieceAt.skipAtmosphere_eq (h : PieceAt text pos stop) :
    skipAtmosphere (.ofPos text pos) = skipAtmosphere (.ofPos text stop) := by
  have hspan := Cursor.Span.extract h.lt.le h.le_length
  have hpiece : Piece (text.extract pos stop) (Cursor.ofPos text stop).rest := h.piece
  rw [skipAtmosphere, hspan.1, hpiece.scan_eq, ← hspan.2]
  rfl

theorem skipAtmosphere_of_pieces (h : Relation.ReflTransGen (PieceAt text) pos stop) :
    skipAtmosphere (.ofPos text pos) = skipAtmosphere (.ofPos text stop) := by
  induction h with
  | refl => rfl
  | tail _ hpiece ih => rw [ih, hpiece.skipAtmosphere_eq]

theorem SkippedTo.skipAtmosphere_eq (h : SkippedTo text pos stop) :
    skipAtmosphere (.ofPos text pos) = .ok (.ofPos text stop) := by
  rw [skipAtmosphere_of_pieces h.pieces]
  exact scanAtmosphere_of_clear h.clear stop

theorem StuckAt.skipAtmosphere_eq {start : Nat} (h : StuckAt text pos start) :
    skipAtmosphere (.ofPos text pos) = .error ⟨start, .openBlockComment⟩ := by
  obtain ⟨inside, hinside, hnever⟩ := h.neverCloses
  rw [skipAtmosphere_of_pieces h.pieces]
  show scanAtmosphere .between start (text.drop start) = _
  rw [hinside]
  exact scanAtmosphere_neverReturns hnever start (start + 2)

/-- What begins at a position of the text ends at a later one. -/
theorem extract_of_drop {s rest : List Char} (h : text.drop pos = s ++ rest) (hs : s ≠ []) :
    pos < pos + s.length ∧ pos + s.length ≤ text.length ∧
      text.extract pos (pos + s.length) = s ∧ text.drop (pos + s.length) = rest := by
  have hspan : (Cursor.ofPos text pos).Span s ⟨pos + s.length, rest⟩ := ⟨h, rfl⟩
  obtain ⟨hnext, hextract⟩ := hspan.eq_extract
  exact ⟨Nat.lt_add_of_pos_right (List.length_pos_iff.2 hs), hspan.end_le_length hs, hextract.symm,
    (congrArg Cursor.rest hnext).symm⟩

/-- Every round ends the skipping, gets stuck or comes to a later position. -/
theorem skippedTo_or_stuckAt_or_pieceAt (hpos : pos ≤ text.length) :
    SkippedTo text pos pos ∨ StuckAt text pos pos ∨ ∃ stop, PieceAt text pos stop := by
  obtain hclear | hnever | ⟨s, rest, hs, hpiece⟩ := clear_or_neverCloses_or_piece (text.drop pos)
  · exact .inl ⟨Nat.le_refl pos, hpos, .refl, hclear⟩
  · exact .inr (.inl ⟨Nat.le_refl pos, .refl, hnever⟩)
  · obtain ⟨hlt, hle, hextract, rfl⟩ := extract_of_drop hs hpiece.ne_nil
    exact .inr (.inr ⟨_, hlt, hle, hextract.symm ▸ hpiece⟩)

theorem PieceAt.skippedTo {mid : Nat} (h : PieceAt text pos mid) (hend : SkippedTo text mid stop) :
    SkippedTo text pos stop :=
  ⟨Nat.le_trans h.lt.le hend.le, hend.le_length, .head h hend.pieces, hend.clear⟩

theorem PieceAt.stuckAt {mid start : Nat} (h : PieceAt text pos mid)
    (hstuck : StuckAt text mid start) : StuckAt text pos start :=
  ⟨Nat.le_trans h.lt.le hstuck.le, .head h hstuck.pieces, hstuck.neverCloses⟩

/-- The rounds come to an end, since the positions of the text do. -/
theorem exists_skippedTo_or_stuckAt {pos : Nat} (hpos : pos ≤ text.length) :
    (∃ stop, SkippedTo text pos stop) ∨ ∃ start, StuckAt text pos start := by
  obtain hend | hstuck | ⟨mid, hpiece⟩ := skippedTo_or_stuckAt_or_pieceAt hpos
  · exact .inl ⟨pos, hend⟩
  · exact .inr ⟨pos, hstuck⟩
  · obtain ⟨stop, hend⟩ | ⟨start, hstuck⟩ := exists_skippedTo_or_stuckAt hpiece.le_length
    · exact .inl ⟨stop, hpiece.skippedTo hend⟩
    · exact .inr ⟨start, hpiece.stuckAt hstuck⟩
termination_by text.length - pos
decreasing_by
  have hlt := hpiece.lt
  have hle := hpiece.le_length
  omega

theorem skipAtmosphere_eq_ok {next : Cursor} (hpos : pos ≤ text.length) :
    skipAtmosphere (.ofPos text pos) = .ok next ↔
      ∃ stop, SkippedTo text pos stop ∧ next = .ofPos text stop := by
  constructor
  · intro h
    obtain ⟨stop, hend⟩ | ⟨start, hstuck⟩ := exists_skippedTo_or_stuckAt hpos
    · exact ⟨stop, hend, Except.ok.inj (h.symm.trans hend.skipAtmosphere_eq)⟩
    · cases h.symm.trans hstuck.skipAtmosphere_eq
  · rintro ⟨stop, hend, rfl⟩
    exact hend.skipAtmosphere_eq

theorem skipAtmosphere_eq_error {f : ReadFailure} (hpos : pos ≤ text.length) :
    skipAtmosphere (.ofPos text pos) = .error f ↔
      ∃ start, StuckAt text pos start ∧ f = ⟨start, .openBlockComment⟩ := by
  constructor
  · intro h
    obtain ⟨stop, hend⟩ | ⟨start, hstuck⟩ := exists_skippedTo_or_stuckAt hpos
    · cases h.symm.trans hend.skipAtmosphere_eq
    · exact ⟨start, hstuck, Except.error.inj (h.symm.trans hstuck.skipAtmosphere_eq)⟩
  · rintro ⟨start, hstuck, rfl⟩
    exact hstuck.skipAtmosphere_eq

/-- The pieces lead to one position only. -/
theorem SkippedTo.unique {stop' : Nat} (h : SkippedTo text pos stop)
    (h' : SkippedTo text pos stop') : stop = stop' :=
  congrArg Cursor.pos (Except.ok.inj (h.skipAtmosphere_eq.symm.trans h'.skipAtmosphere_eq))

/-- One round of the skipping. -/
theorem skipAtmosphere_round (hpos : pos ≤ text.length) :
    SkippedTo text pos pos ∨ StuckAt text pos pos ∨ ∃ stop, PieceAt text pos stop ∧
      skipAtmosphere (.ofPos text pos) = skipAtmosphere (.ofPos text stop) := by
  obtain hend | hstuck | ⟨stop, hpiece⟩ := skippedTo_or_stuckAt_or_pieceAt hpos
  · exact .inl hend
  · exact .inr (.inl hstuck)
  · exact .inr (.inr ⟨stop, hpiece, hpiece.skipAtmosphere_eq⟩)

/-- Inside a block comment each step of the scan takes a token and comes to a later position. -/
theorem exists_tokenAt (hpos : pos < text.length) (start inner : Nat) :
    ∃ t stop, TokenAt text pos stop t ∧
      scanAtmosphere (.blockComment start inner) pos (text.drop pos) =
        scanAtmosphere (t.leadsTo start inner) stop (text.drop stop) := by
  have hne : text.drop pos ≠ [] := by simpa using hpos
  obtain ⟨t, rest, hrest, htokens, hscan⟩ := exists_token hne
  obtain ⟨hlt, hle, hchars, rfl⟩ := extract_of_drop hrest t.chars_ne_nil
  exact ⟨t, _, ⟨hlt, hle, hchars, htokens⟩, hscan start inner pos⟩

end

/-- The skipping of atmosphere is exact. It answers with the position to which there is nothing but
pieces of atmosphere, and behind which there is none; there is no other such position, and to skip
once more leads no further. It fails if the pieces lead to a block comment in which the count never
returns to 0, and blames that one. It always comes to one of these ends, since each round, and
inside a block comment each token, leads to a later position. -/
theorem skips_exactly_atmosphere (text : List Char) (pos : Nat) (hpos : pos ≤ text.length) :
    (∀ next, skipAtmosphere (.ofPos text pos) = .ok next ↔
      ∃ stop, SkippedTo text pos stop ∧ next = .ofPos text stop) ∧
    (∀ stop stop', SkippedTo text pos stop → SkippedTo text pos stop' → stop = stop') ∧
    (∀ next, skipAtmosphere (.ofPos text pos) = .ok next → skipAtmosphere next = .ok next) ∧
    (∀ f, skipAtmosphere (.ofPos text pos) = .error f ↔
      ∃ start, StuckAt text pos start ∧ f = ⟨start, .openBlockComment⟩) ∧
    (SkippedTo text pos pos ∨ StuckAt text pos pos ∨ ∃ stop, PieceAt text pos stop ∧
      skipAtmosphere (.ofPos text pos) = skipAtmosphere (.ofPos text stop)) ∧
    ∀ start inner, pos < text.length → ∃ t stop, TokenAt text pos stop t ∧
      scanAtmosphere (.blockComment start inner) pos (text.drop pos) =
        scanAtmosphere (t.leadsTo start inner) stop (text.drop stop) := by
  refine ⟨fun next => skipAtmosphere_eq_ok hpos, fun stop stop' => SkippedTo.unique, ?_,
    fun f => skipAtmosphere_eq_error hpos, skipAtmosphere_round hpos, ?_⟩
  · intro next h
    obtain ⟨stop, hend, rfl⟩ := (skipAtmosphere_eq_ok hpos).1 h
    exact scanAtmosphere_of_clear hend.clear stop
  · intro start inner hlt
    exact exists_tokenAt hlt start inner

theorem skips_exactly_atmosphere_nested :
    let text := "( ;a\n#|||#;b".toList
    let unended := " #|a|##|#|b|#".toList
    1 ≤ text.length ∧ skipAtmosphere (.ofPos text 1) = .ok (.ofPos text 12) ∧
      SkippedTo text 1 12 ∧ 0 ≤ unended.length ∧
      skipAtmosphere (.ofPos unended 0) = .error ⟨6, .openBlockComment⟩ ∧
      StuckAt unended 0 6 := by
  intro text unended
  have hok : skipAtmosphere (.ofPos text 1) = .ok (.ofPos text 12) := by decide
  have herror : skipAtmosphere (.ofPos unended 0) = .error ⟨6, .openBlockComment⟩ := by decide
  obtain ⟨stop, hskipped, hstop⟩ := ((skips_exactly_atmosphere text 1 (by decide)).1 _).1 hok
  obtain rfl : 12 = stop := congrArg Cursor.pos hstop
  obtain ⟨start, hstuck, hstart⟩ :=
    ((skips_exactly_atmosphere unended 0 (by decide)).2.2.2.1 _).1 herror
  obtain rfl : 6 = start := congrArg ReadFailure.position hstart
  exact ⟨by decide, hok, hskipped, by decide, herror, hstuck⟩

end SchemeCore.Reader
