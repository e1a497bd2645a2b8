import SchemeCore.Log
import SchemeCore.Proofs.Reader.Written
import Mathlib.Data.List.TakeWhile
import Mathlib.Data.Rat.Floor

/-!
# The limit in force

`Spells` is the grammar of the digits that a text may hold: decimal digits of any script, with
single underscores between them. A text is an integer literal if it is such a row of digits, with
one sign at most in front and white space around it, and the settings take exactly the literals for
integers (`integer?_eq_some`). What they make of the variable is `Asked`; what is asked for beyond
the ceiling is capped.
-/

namespace SchemeCore

namespace Text

variable {c : Char} {d : Nat} {text core before after : List Char}

/-! ## Decimal digits -/

/-- The character is the decimal digit `d` of a script. -/
def IsDecimalDigit (c : Char) (d : Nat) : Prop :=
  ∃ start ∈ decimalZeros, d < 10 ∧ c.toNat = start + d

/-- The digits of one script do not reach into those of the next. -/
theorem decimalZeros_unique :
    ∀ a ∈ decimalZeros, ∀ b ∈ decimalZeros, a ≤ b → b < a + 10 → a = b := by
  decide +kernel

theorem decimalDigit?_eq_some : decimalDigit? c = some d ↔ IsDecimalDigit c d := by
  rw [decimalDigit?, Option.map_eq_some_iff]
  constructor
  · rintro ⟨start, hfind, rfl⟩
    have hzero := List.mem_of_find?_eq_some hfind
    have hrange := List.find?_some hfind
    simp only [Bool.and_eq_true, decide_eq_true_eq] at hrange
    exact ⟨start, hzero, by omega, by omega⟩
  · rintro ⟨start, hzero, hd, hc⟩
    have hsome : (decimalZeros.find? fun start =>
        start ≤ c.toNat && c.toNat < start + 10).isSome = true := by
      rw [List.find?_isSome]
      refine ⟨start, hzero, ?_⟩
      simp only [Bool.and_eq_true, decide_eq_true_eq]
      omega
    -- another zero that is found first would be less than ten characters away
    obtain ⟨found, hfind⟩ := Option.isSome_iff_exists.1 hsome
    have hfound := List.mem_of_find?_eq_some hfind
    have hnear := List.find?_some hfind
    simp only [Bool.and_eq_true, decide_eq_true_eq] at hnear
    have hsame : found = start := by
      rcases Nat.le_total found start with hle | hle
      · exact decimalZeros_unique found hfound start hzero hle (by omega)
      · exact (decimalZeros_unique start hzero found hfound hle (by omega)).symm
    exact ⟨found, hfind, by omega⟩

theorem IsDecimalDigit.isBlank_eq_false (h : IsDecimalDigit c d) : isBlank c = false := by
  have hblank : ∀ start ∈ decimalZeros, ∀ d < 10, ((0x09 ≤ start + d && start + d ≤ 0x0D) ||
      (0x1C ≤ start + d && start + d ≤ 0x20) || start + d == 0x85 || start + d == 0xA0 ||
      start + d == 0x1680 || (0x2000 ≤ start + d && start + d ≤ 0x200A) || start + d == 0x2028 ||
      start + d == 0x2029 || start + d == 0x202F || start + d == 0x205F || start + d == 0x3000) =
        false := by decide +kernel
  obtain ⟨start, hzero, hd, hc⟩ := h
  rw [isBlank, hc]
  exact hblank start hzero d hd

/-! ## White space around a text -/

theorem dropWhile_append_of_edge {p : Char → Bool} {front rest : List Char}
    (hfront : ∀ c ∈ front, p c = true) (hrest : ∀ c ∈ rest.head?, p c = false) :
    (front ++ rest).dropWhile p = rest := by
  rw [List.dropWhile_append_of_pos hfront]
  cases rest with
  | nil => rfl
  | cons c rest => rw [List.dropWhile_cons_of_neg (by simp [hrest c rfl])]

theorem exists_trimBlank (text : List Char) : ∃ before after,
    text = before ++ trimBlank text ++ after ∧ (∀ c ∈ before, isBlank c = true) ∧
      ∀ c ∈ after, isBlank c = true := by
  have hright := List.takeWhile_append_dropWhile (p := isBlank)
    (l := (text.dropWhile isBlank).reverse)
  refine ⟨text.takeWhile isBlank, ((text.dropWhile isBlank).reverse.takeWhile isBlank).reverse,
    ?_, fun c => List.mem_takeWhile_imp, fun c hc => List.mem_takeWhile_imp (List.mem_reverse.1 hc)⟩
  rw [List.append_assoc, trimBlank, ← List.reverse_append, hright, List.reverse_reverse,
    List.takeWhile_append_dropWhile]

/-- White space around a text that does not start or end with any is all that is trimmed. -/
theorem trimBlank_around (hbefore : ∀ c ∈ before, isBlank c = true)
    (hafter : ∀ c ∈ after, isBlank c = true) (hne : core ≠ [])
    (hhead : ∀ c ∈ core.head?, isBlank c = false) (hlast : ∀ c ∈ core.getLast?, isBlank c = false) :
    trimBlank (before ++ core ++ after) = core := by
  have hleft : (before ++ core ++ after).dropWhile isBlank = core ++ after := by
    rw [List.append_assoc]
    apply dropWhile_append_of_edge hbefore
    rw [List.head?_append_of_ne_nil core hne]
    exact hhead
  rw [trimBlank, hleft, List.reverse_append, dropWhile_append_of_edge, List.reverse_reverse]
  · exact fun c hc => hafter c (List.mem_reverse.1 hc)
  · rw [List.head?_reverse]
    exact hlast

end Text

namespace Settings

open Text

variable {c : Char} {d : Nat} {cs text core : List Char} {ds : List Nat} {n : Int}

/-! ## Integer literals -/

/-- The digits that the characters spell: one for each, with single underscores between them. -/
inductive Spells : List Char → List Nat → Prop where
  | last {c : Char} {d : Nat} (hc : IsDecimalDigit c d) : Spells [c] [d]
  | next {c : Char} {d : Nat} {cs : List Char} {ds : List Nat} (hc : IsDecimalDigit c d)
      (h : Spells cs ds) : Spells (c :: cs) (d :: ds)
  | apart {c : Char} {d : Nat} {cs : List Char} {ds : List Nat} (hc : IsDecimalDigit c d)
      (h : Spells cs ds) : Spells (c :: '_' :: cs) (d :: ds)

/-- An integer literal and its value: digits, 4300 at most, behind one sign at most. -/
inductive IsLiteral : List Char → Int → Prop where
  | unsigned {cs : List Char} {ds : List Nat} (h : Spells cs ds) (hlength : ds.length ≤ 4300) :
      IsLiteral cs (Nat.ofDigits 10 ds.reverse : Nat)
  | plus {cs : List Char} {ds : List Nat} (h : Spells cs ds) (hlength : ds.length ≤ 4300) :
      IsLiteral ('+' :: cs) (Nat.ofDigits 10 ds.reverse : Nat)
  | minus {cs : List Char} {ds : List Nat} (h : Spells cs ds) (hlength : ds.length ≤ 4300) :
      IsLiteral ('-' :: cs) (-(Nat.ofDigits 10 ds.reverse : Nat))

/-- The text is an integer literal of value `n`, with white space around it or without. -/
def Denotes (text : List Char) (n : Int) : Prop :=
  ∃ before core after, text = before ++ core ++ after ∧ (∀ c ∈ before, isBlank c = true) ∧
    (∀ c ∈ after, isBlank c = true) ∧ IsLiteral core n

/-! ### Digits -/

theorem not_isDecimalDigit (hc : decimalDigit? c = none) : ¬ IsDecimalDigit c d := by
  rw [← decimalDigit?_eq_some, hc]
  nofun

theorem Spells.exists_cons (h : Spells cs ds) :
    ∃ c d cs', cs = c :: cs' ∧ IsDecimalDigit c d := by
  cases h with
  | last hc | next hc | apart hc => exact ⟨_, _, _, rfl, hc⟩

theorem Spells.ne_cons (h : Spells cs ds) (hc : decimalDigit? c = none) (rest : List Char) :
    cs ≠ c :: rest := by
  rintro rfl
  obtain ⟨c', d, cs', hcs, hc'⟩ := h.exists_cons
  cases hcs
  exact not_isDecimalDigit hc hc'

theorem Spells.isBlank_getLast? (h : Spells cs ds) : ∀ c ∈ cs.getLast?, isBlank c = false := by
  induction h with
  | last hc =>
    intro c h
    cases h
    exact hc.isBlank_eq_false
  | next _ h ih | apart _ h ih =>
    obtain ⟨c', -, cs', rfl, -⟩ := h.exists_cons
    simpa [List.getLast?_cons_cons] using ih

theorem spells_of_moreDigits (hc : IsDecimalDigit c d) (h : moreDigits cs = some ds) :
    Spells (c :: cs) (d :: ds) := by
  fun_induction moreDigits cs generalizing c d ds with
  | case1 =>
    cases h
    exact .last hc
  | case2 c' cs ih =>
    obtain ⟨d', hd', h⟩ := Option.bind_eq_some_iff.1 h
    obtain ⟨ds', hds', h⟩ := Option.bind_eq_some_iff.1 h
    cases h
    exact .apart hc (ih (decimalDigit?_eq_some.1 hd') hds')
  | case3 c' cs _ ih =>
    obtain ⟨d', hd', h⟩ := Option.bind_eq_some_iff.1 h
    obtain ⟨ds', hds', h⟩ := Option.bind_eq_some_iff.1 h
    cases h
    exact .next hc (ih (decimalDigit?_eq_some.1 hd') hds')

/-- Digits may stand behind another digit, with an underscore in front of them or without. -/
theorem Spells.moreDigits (h : Spells cs ds) :
    moreDigits cs = some ds ∧ Settings.moreDigits ('_' :: cs) = some ds := by
  have hstep {c : Char} {d : Nat} {cs : List Char} {ds : List Nat} (hc : IsDecimalDigit c d)
      (h : Settings.moreDigits cs = some ds) : Settings.moreDigits (c :: cs) = some (d :: ds) ∧
        Settings.moreDigits ('_' :: c :: cs) = some (d :: ds) := by
    have hne : c ≠ '_' := fun he => not_isDecimalDigit (by decide) (he ▸ hc)
    rw [Settings.moreDigits, Settings.moreDigits, decimalDigit?_eq_some.2 hc, h]
    · exact ⟨rfl, rfl⟩
    · intro c' cs' he
      exact absurd he hne
  induction h with
  | last hc => exact hstep hc rfl
  | next hc _ ih => exact hstep hc ih.1
  | apart hc _ ih => exact hstep hc ih.2

theorem digits_eq_some : digits cs = some ds ↔ Spells cs ds := by
  constructor
  · intro h
    cases cs with
    | nil => cases h
    | cons c cs =>
      obtain ⟨d, hd, h⟩ := Option.bind_eq_some_iff.1 h
      obtain ⟨ds', hds', h⟩ := Option.bind_eq_some_iff.1 h
      cases h
      exact spells_of_moreDigits (decimalDigit?_eq_some.1 hd) hds'
  · intro h
    cases h with
    | last hc =>
      rw [digits, decimalDigit?_eq_some.2 hc]
      rfl
    | next hc h =>
      rw [digits, decimalDigit?_eq_some.2 hc, h.moreDigits.1]
      rfl
    | apart hc h =>
      rw [digits, decimalDigit?_eq_some.2 hc, h.moreDigits.2]
      rfl

theorem natural?_eq_some : natural? cs = some n ↔
    ∃ ds, Spells cs ds ∧ ds.length ≤ 4300 ∧ (Nat.ofDigits 10 ds.reverse : Nat) = n := by
  have hvalue (ds : List Nat) : positional 10 ds = (Nat.ofDigits 10 ds.reverse : Nat) :=
    Reader.positional_eq 10 ds
  rw [natural?, Option.bind_eq_bind, Option.bind_eq_some_iff]
  simp only [digits_eq_some, Option.ite_none_right_eq_some, Option.some.injEq, hvalue,
    Text.maxDigits]

/-! ### Signs and white space -/

theorem IsLiteral.edges (h : IsLiteral core n) : core ≠ [] ∧
    (∀ c ∈ core.head?, isBlank c = false) ∧ ∀ c ∈ core.getLast?, isBlank c = false := by
  cases h with
  | unsigned h =>
    obtain ⟨c, d, cs, rfl, hc⟩ := h.exists_cons
    refine ⟨List.cons_ne_nil _ _, fun c' hc' => ?_, h.isBlank_getLast?⟩
    cases hc'
    exact hc.isBlank_eq_false
  | plus h | minus h =>
    have hlast := h.isBlank_getLast?
    obtain ⟨c, d, cs, rfl, -⟩ := h.exists_cons
    refine ⟨List.cons_ne_nil _ _, fun c' hc' => ?_, hlast⟩
    cases hc'
    decide

/-- The texts that are taken for integers are the literals with white space around them. -/
theorem integer?_eq_some : integer? text = some n ↔ Denotes text n := by
  constructor
  · intro h
    obtain ⟨before, after, htext, hbefore, hafter⟩ := exists_trimBlank text
    refine ⟨before, trimBlank text, after, htext, hbefore, hafter, ?_⟩
    rw [integer?] at h
    split at h
    · rename_i cs hcore
      obtain ⟨ds, hds, hlength, rfl⟩ := natural?_eq_some.1 h
      exact hcore ▸ .plus hds hlength
    · rename_i cs hcore
      obtain ⟨m, hm, rfl⟩ := Option.map_eq_some_iff.1 h
      obtain ⟨ds, hds, hlength, rfl⟩ := natural?_eq_some.1 hm
      exact hcore ▸ .minus hds hlength
    · obtain ⟨ds, hds, hlength, rfl⟩ := natural?_eq_some.1 h
      exact .unsigned hds hlength
  · rintro ⟨before, core, after, rfl, hbefore, hafter, hcore⟩
    obtain ⟨hne, hhead, hlast⟩ := hcore.edges
    rw [integer?, trimBlank_around hbefore hafter hne hhead hlast]
    cases hcore with
    | plus h hlength => exact natural?_eq_some.2 ⟨_, h, hlength, rfl⟩
    | minus h hlength =>
      exact Option.map_eq_some_iff.2 ⟨_, natural?_eq_some.2 ⟨_, h, hlength, rfl⟩, rfl⟩
    | unsigned h hlength =>
      -- the first character is a digit, so it is no sign
      split
      · exact absurd rfl (h.ne_cons (by decide) _)
      · exact absurd rfl (h.ne_cons (by decide) _)
      · exact natural?_eq_some.2 ⟨_, h, hlength, rfl⟩

theorem isDecimalDigit_of_isDigit (h : Radix.decimal.isDigit c = true) :
    ∃ d, digitValue? c = some d ∧ IsDecimalDigit c d := by
  rw [Radix.isDigit, Option.any_eq_true] at h
  obtain ⟨d, hd, hlt⟩ := h
  have hten : d < 10 := of_decide_eq_true hlt
  refine ⟨d, hd, '0'.toNat, by decide, hten, ?_⟩
  rw [digitValue?] at hd
  split at hd
  · rename_i hrange
    cases hd
    have hle : '0'.toNat ≤ c.toNat := hrange.1
    omega
  · split at hd
    · cases hd
      omega
    · split at hd
      · cases hd
        omega
      · cases hd

theorem spells_of_isDigit (hne : cs ≠ []) (h : ∀ c ∈ cs, Radix.decimal.isDigit c = true) :
    Spells cs (cs.filterMap digitValue?) := by
  induction cs with
  | nil => exact absurd rfl hne
  | cons c cs ih =>
    obtain ⟨hc, hcs⟩ := List.forall_mem_cons.1 h
    obtain ⟨d, hd, hdigit⟩ := isDecimalDigit_of_isDigit hc
    rw [List.filterMap_cons, hd]
    cases cs with
    | nil => exact .last hdigit
    | cons c' cs' => exact .next hdigit (ih (List.cons_ne_nil _ _) hcs)

/-- The decimal digits of a natural number are a literal for it. -/
theorem denotes_toDigits {before after : List Char} {k : Nat}
    (hk : (Nat.toDigits 10 k).length ≤ 4300) (hbefore : ∀ c ∈ before, isBlank c = true)
    (hafter : ∀ c ∈ after, isBlank c = true) :
    Denotes (before ++ Nat.toDigits 10 k ++ after) k := by
  obtain ⟨hne, hdigits, hvalue⟩ := Reader.isNumeral_toDigits k
  have hliteral : IsLiteral (Nat.toDigits 10 k) (Nat.ofDigits 10 _ : Nat) :=
    .unsigned (spells_of_isDigit hne hdigits) (by rwa [length_filterMap_digitValue? hdigits])
  have hk' : Nat.ofDigits 10 ((Nat.toDigits 10 k).filterMap digitValue?).reverse = k := hvalue
  rw [hk'] at hliteral
  exact ⟨before, _, after, rfl, hbefore, hafter, hliteral⟩

/-! ## What the variable asks for -/

/-- What a text of the variable, or none, asks for, and what is said if it is ignored. -/
inductive Asked : Option String → Int → List String → Prop where
  | unset : Asked none 200 []
  | empty : Asked (some "") 200 []
  | positive {text : String} {n : Int} (h : Denotes text.toList n) (hn : 0 < n) :
      Asked (some text) n []
  | notPositive {text : String} {n : Int} (h : Denotes text.toList n) (hn : n ≤ 0) :
      Asked (some text) 200
        ["Ignoring SABLE_MAX_DEPTH=" ++ Text.quote text ++ ": must be positive"]
  | notInteger {text : String} (hne : text ≠ "") (h : ∀ n, ¬ Denotes text.toList n) :
      Asked (some text) 200 ["Ignoring SABLE_MAX_DEPTH=" ++ Text.quote text ++ ": not an integer"]

theorem ignoring_variable : "Ignoring " ++ depthVariable ++ "=" = "Ignoring SABLE_MAX_DEPTH=" := by
  decide

theorem message_notPositive (text : String) : (Warning.notPositive text).message =
    "Ignoring SABLE_MAX_DEPTH=" ++ Text.quote text ++ ": must be positive" :=
  congrArg (· ++ Text.quote text ++ ": must be positive") ignoring_variable

theorem message_notInteger (text : String) : (Warning.notInteger text).message =
    "Ignoring SABLE_MAX_DEPTH=" ++ Text.quote text ++ ": not an integer" :=
  congrArg (· ++ Text.quote text ++ ": not an integer") ignoring_variable

theorem message_capped (depth ceiling stackLimit : Int) :
    (Warning.capped depth ceiling stackLimit).message =
      "Capping SABLE_MAX_DEPTH=" ++ toString depth ++ " to " ++ toString ceiling ++
        " for recursion limit " ++ toString stackLimit := by
  have hfront : "Capping " ++ depthVariable ++ "=" = "Capping SABLE_MAX_DEPTH=" := by decide
  exact congrArg (· ++ toString depth ++ " to " ++ toString ceiling ++ " for recursion limit " ++
    toString stackLimit) hfront

theorem isEmpty_of_denotes {text : String} (h : Denotes text.toList n) : text.isEmpty = false := by
  rw [← integer?_eq_some] at h
  rw [Bool.eq_false_iff]
  intro hempty
  rw [String.isEmpty_iff.1 hempty] at h
  cases h

/-- Every text, and none, asks for a depth. -/
theorem asked_positiveDepth (s : Settings) : Asked s.depthText (s.positiveDepth defaultDepth).1
    ((s.positiveDepth defaultDepth).2.map Warning.message) := by
  unfold positiveDepth
  split
  · rename_i hnone
    rw [hnone]
    exact .unset
  · rename_i text hsome
    rw [hsome]
    split
    · rename_i hempty
      rw [String.isEmpty_iff.1 hempty]
      exact .empty
    · rename_i hempty
      have hne : text ≠ "" := fun h => hempty (String.isEmpty_iff.2 h)
      split
      · rename_i hnone
        rw [List.map_singleton, message_notInteger]
        refine .notInteger hne fun n hn => ?_
        rw [integer?_eq_some.2 hn] at hnone
        cases hnone
      · rename_i n hn
        split
        · rename_i hle
          rw [List.map_singleton, message_notPositive]
          exact .notPositive (integer?_eq_some.1 hn) hle
        · rename_i hlt
          exact .positive (integer?_eq_some.1 hn) (by omega)

theorem positiveDepth_of_asked {s : Settings} {depth : Int} {ignored : List String}
    (h : Asked s.depthText depth ignored) : (s.positiveDepth defaultDepth).1 = depth ∧
      (s.positiveDepth defaultDepth).2.map Warning.message = ignored := by
  unfold positiveDepth
  generalize s.depthText = text at h ⊢
  cases h with
  | unset | empty => exact ⟨rfl, rfl⟩
  | positive h hn =>
    simp [isEmpty_of_denotes h, integer?_eq_some.2 h, Int.not_le.2 hn]
  | notPositive h hn =>
    simp [isEmpty_of_denotes h, integer?_eq_some.2 h, hn, message_notPositive, defaultDepth]
  | @notInteger text hne h =>
    have hnone : integer? text.toList = none := by
      rw [Option.eq_none_iff_forall_ne_some]
      exact fun n hn => h n (integer?_eq_some.1 hn)
    simp [hne, hnone, message_notInteger, defaultDepth]

theorem depthCeiling_eq (s : Settings) :
    s.depthCeiling = max 1 ⌊((s.stackLimit : ℚ) - 100) / 4⌋ := by
  have hfloor := Rat.floor_intCast_div_natCast (s.stackLimit - 100) 4
  push_cast at hfloor
  rw [hfloor, depthCeiling, reservedCalls, callsPerLevel, Int.fdiv_eq_ediv_of_nonneg _ (by decide)]

/-- The limit in force is usable whatever the variable holds and whatever the stack can take: it is
what the variable asks for, or 200, but no more than the ceiling, which is at least 1. A text that
is ignored is warned about first and the cap second, and no other warning is given. A text that is
ignored is one that is neither empty nor a literal for a positive integer; the decimal digits of one
are such a literal, with white space around them or without. -/
theorem depth_limit_is_usable (s : Settings) :
    (∃ depth ignored, Asked s.depthText depth ignored) ∧
    (∀ depth ignored, Asked s.depthText depth ignored →
      s.maxDepth = min depth (max 1 ⌊((s.stackLimit : ℚ) - 100) / 4⌋) ∧
      s.records.map Record.message = ignored ++
        if max 1 ⌊((s.stackLimit : ℚ) - 100) / 4⌋ < depth then
          ["Capping SABLE_MAX_DEPTH=" ++ toString depth ++ " to " ++
            toString (max 1 ⌊((s.stackLimit : ℚ) - 100) / 4⌋) ++ " for recursion limit " ++
              toString s.stackLimit]
        else []) ∧
    1 ≤ s.maxDepth ∧ s.maxDepth ≤ max 1 ⌊((s.stackLimit : ℚ) - 100) / 4⌋ ∧
    ∀ (n : Nat) (before after : List Char), 0 < n → (Nat.toDigits 10 n).length ≤ 4300 →
      (∀ c ∈ before, isBlank c = true) → (∀ c ∈ after, isBlank c = true) →
      Asked (some (String.ofList (before ++ Nat.toDigits 10 n ++ after))) n [] := by
  rw [← depthCeiling_eq]
  have hmax (depth : Int) (h : (s.positiveDepth defaultDepth).1 = depth) :
      s.maxDepth = min depth s.depthCeiling := by
    rw [maxDepth, askDepth]
    dsimp only
    rw [h]
    split <;> dsimp only <;> omega
  refine ⟨⟨_, _, s.asked_positiveDepth⟩, fun depth ignored h => ?_, s.one_le_maxDepth, ?_, ?_⟩
  · obtain ⟨hdepth, hignored⟩ := positiveDepth_of_asked h
    refine ⟨hmax depth hdepth, ?_⟩
    have hmessages : s.records.map Record.message = s.warnings.map Warning.message :=
      List.map_map
    rw [hmessages, warnings, askDepth]
    dsimp only
    rw [hdepth]
    split
    · rw [List.map_append, hignored, List.map_singleton, message_capped]
    · rw [hignored, List.append_nil]
  · rw [hmax _ rfl]
    exact Int.min_le_right _ _
  · intro n before after hn hlength hbefore hafter
    refine .positive ?_ (Int.natCast_pos.2 hn)
    rw [String.toList_ofList]
    exact denotes_toDigits hlength hbefore hafter

/-- Both fall-backs in one call: the text is no positive integer, and the stack holds less than 200
levels. -/
theorem depth_limit_is_usable_negative :
    let s : Settings := { depthText := some "-0_7", stackLimit := 300 }
    s.maxDepth = 50 ∧ s.records.map Record.message =
      ["Ignoring SABLE_MAX_DEPTH=" ++ Text.quote "-0_7" ++ ": must be positive",
        "Capping SABLE_MAX_DEPTH=200 to 50 for recursion limit 300"] ∧
      Asked (some (String.ofList ([' '] ++ Nat.toDigits 10 70 ++ ['\n']))) 70 [] := by
  intro s
  have hceiling : max 1 ⌊(((300 : Int) : ℚ) - 100) / 4⌋ = 50 := by norm_num
  have hdenotes : Denotes "-0_7".toList (-7) := integer?_eq_some.1 (by decide)
  obtain ⟨-, hasked, -, -, hdigits⟩ := depth_limit_is_usable s
  obtain ⟨hmax, hrecords⟩ := hasked _ _ (.notPositive hdenotes (by decide))
  rw [hceiling] at hmax hrecords
  exact ⟨hmax, hrecords, hdigits 70 _ _ (by decide) (by decide) (List.forall_mem_singleton.2 rfl)
    (List.forall_mem_singleton.2 rfl)⟩

end Settings

end SchemeCore
