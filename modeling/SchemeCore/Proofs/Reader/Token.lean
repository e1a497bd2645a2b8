import SchemeCore.Proofs.Reader.Atmosphere
import Mathlib.Data.List.Induction
import Mathlib.Tactic.Ring

/-!
# Atoms and their layouts

For each reader of atoms: it reads every layout of an atom of its kind, and it reads nothing else.
Each statement comes in the two directions `read…_of_span`, from a layout to the reading, and
`span_of_read…`, back.
-/

namespace SchemeCore.Reader

/-! ## Runs of characters -/

theorem takeWhile_append_of_run {p : Char → Bool} {run rest : List Char}
    (hrun : ∀ c ∈ run, p c = true) (hrest : ∀ c ∈ rest.head?, p c = false) :
    (run ++ rest).takeWhile p = run := by
  rw [List.takeWhile_append_of_pos hrun]
  cases rest with
  | nil => simp
  | cons c rest => simp [hrest c rfl]

/-- The longest run of accepted characters, and what stops it. -/
theorem takeWhile_spec (p : Char → Bool) (cs : List Char) :
    ∃ rest, cs = cs.takeWhile p ++ rest ∧ (∀ c ∈ cs.takeWhile p, p c = true) ∧
      ∀ c ∈ rest.head?, p c = false := by
  refine ⟨cs.dropWhile p, List.takeWhile_append_dropWhile.symm, ?_, ?_⟩
  · intro c hc
    exact List.all_eq_true.1 List.all_takeWhile c hc
  · intro c hc
    have := List.head?_dropWhile_not p cs
    rw [Option.mem_def.1 hc] at this
    simpa using this

/-! ## Strings -/

theorem escaped_cons (c : Char) (contents : List Char) :
    escaped (c :: contents) = (if c = '"' then ['\\', '"'] else [c]) ++ escaped contents :=
  List.flatMap_cons

/-- No escaped text begins with a double quote. -/
theorem head?_escaped (contents : List Char) : (escaped contents).head? ≠ some '"' := by
  cases contents with
  | nil => simp [escaped]
  | cons c contents =>
    rw [escaped_cons]
    by_cases hc : c = '"'
    · simp [hc]
    · simp [hc]

theorem scanString_escaped {contents : List Char} (h : contents.getLast? ≠ some '\\') (pos : Nat)
    (rest : List Char) : scanString pos (escaped contents ++ '"' :: rest) =
      some (contents, ⟨pos + (escaped contents).length + 1, rest⟩) := by
  induction contents generalizing pos with
  | nil => rfl
  | cons c contents ih =>
    have hlast : contents.getLast? ≠ some '\\' := by
      intro hl
      apply h
      rw [List.getLast?_cons, hl]
      rfl
    rw [escaped_cons]
    by_cases hc : c = '"'
    · subst hc
      rw [if_pos rfl, List.append_assoc]
      show (scanString (pos + 2) (escaped contents ++ '"' :: rest)).map _ = _
      rw [ih hlast]
      simp only [Option.map_some, List.length_append, List.length_cons, List.length_nil]
      congr 3
      omega
    · rw [if_neg hc, List.append_assoc, List.singleton_append, scanString, ih hlast]
      · simp only [Option.map_some, List.length_append, List.length_cons, List.length_nil]
        congr 3
        omega
      · exact hc
      · -- a backslash is not the last character, and no escaped text begins with a double quote
        rintro cs rfl hcs
        cases contents with
        | nil => exact h rfl
        | cons d contents =>
          apply head?_escaped (d :: contents)
          have hne : escaped (d :: contents) ≠ [] := by
            rw [escaped_cons]
            by_cases hd : d = '"' <;> simp [hd]
          obtain ⟨e, es, he⟩ := List.exists_cons_of_ne_nil hne
          rw [he, List.cons_append, List.cons.injEq] at hcs
          rw [he, hcs.1]
          rfl

theorem getLast?_cons_ne {c d : Char} {cs : List Char} (hc : c ≠ d) (h : cs.getLast? ≠ some d) :
    (c :: cs).getLast? ≠ some d := by
  rw [List.getLast?_cons]
  cases hcs : cs.getLast? with
  | none => simpa using hc
  | some e => rwa [hcs] at h

theorem span_of_scanString {pos : Nat} {cs contents : List Char} {next : Cursor}
    (h : scanString pos cs = some (contents, next)) :
    contents.getLast? ≠ some '\\' ∧ cs = escaped contents ++ '"' :: next.rest ∧
      next.pos = pos + (escaped contents).length + 1 := by
  fun_induction scanString pos cs generalizing contents next with
  | case1 => cases h
  | case2 pos cs =>
    cases h
    exact ⟨by simp, rfl, rfl⟩
  | case3 pos cs ih =>
    obtain ⟨⟨s, n⟩, hs, he⟩ := Option.map_eq_some_iff.1 h
    cases he
    obtain ⟨hl, rfl, hp⟩ := ih hs
    refine ⟨?_, rfl, ?_⟩
    · exact getLast?_cons_ne (by decide) hl
    · rw [hp, escaped_cons, if_pos rfl]
      simp only [List.length_append, List.length_cons, List.length_nil]
      omega
  | case4 pos c cs hq hesc ih =>
    obtain ⟨⟨s, n⟩, hs, he⟩ := Option.map_eq_some_iff.1 h
    cases he
    obtain ⟨hl, rfl, hp⟩ := ih hs
    refine ⟨?_, ?_, ?_⟩
    · rw [List.getLast?_cons]
      cases s with
      | nil =>
        -- a backslash here would stand in front of the closing mark
        intro hc
        exact hesc _ (Option.some.inj hc) rfl
      | cons d s =>
        rw [List.getLast?_cons] at hl ⊢
        exact hl
    · rw [escaped_cons, if_neg hq]
      rfl
    · rw [hp, escaped_cons, if_neg hq]
      simp only [List.length_append, List.length_cons, List.length_nil]
      omega

theorem readString_of_span {c next : Cursor} {contents : List Char}
    (hc : contents.getLast? ≠ some '\\')
    (h : c.Span ('"' :: (escaped contents ++ ['"'])) next) :
    readString c = .ok (.string (String.ofList contents), next) := by
  obtain ⟨hr, hp⟩ := h
  have hscan : scanString (c.pos + 1) (c.rest.drop 1) = some (contents, next) := by
    rw [hr, List.cons_append, List.append_assoc, List.drop_one, List.tail_cons]
    rw [List.singleton_append, scanString_escaped hc]
    congr 2
    rw [← show next.pos = c.pos + 1 + (escaped contents).length + 1 by
      rw [hp, List.length_cons, List.length_append, List.length_singleton]
      omega]
  rw [readString, hscan]

theorem span_of_readString {c next : Cursor} {d : Datum} {cs : List Char}
    (h : readString c = .ok (d, next)) (hr : c.rest = '"' :: cs) :
    ∃ contents, contents.getLast? ≠ some '\\' ∧ d = .string (String.ofList contents) ∧
      c.Span ('"' :: (escaped contents ++ ['"'])) next := by
  unfold readString at h
  split at h
  · cases h
  · rename_i contents next' hs
    cases h
    obtain ⟨hl, hcs, hp⟩ := span_of_scanString hs
    rw [hr, List.drop_one, List.tail_cons] at hcs
    refine ⟨contents, hl, rfl, ?_, ?_⟩
    · rw [hr, hcs, List.cons_append, List.append_assoc, List.singleton_append]
    · rw [hp, List.length_cons, List.length_append, List.length_singleton]
      omega

/-! ## Numbers -/

/-- The steps of the reader from digit to digit count in positional notation. -/
theorem positional_eq (base : Nat) (ds : List Nat) :
    Text.positional base ds = (Nat.ofDigits base ds.reverse : Nat) := by
  induction ds using List.reverseRecOn with
  | nil => rfl
  | append_singleton ds d ih =>
    rw [Text.positional, List.foldl_append, List.reverse_append, List.reverse_singleton,
      List.singleton_append, Nat.ofDigits_cons]
    show Text.positional base ds * base + d = _
    rw [ih]
    push_cast
    ring

theorem value_eq (radix : Text.Radix) (digits : List Char) :
    radix.value digits =
      (Nat.ofDigits radix.base (digits.filterMap Text.digitValue?).reverse : Nat) :=
  positional_eq radix.base _

theorem readNumber_of_span {opened start next : Cursor} {radix : Text.Radix} {digits : List Char}
    {n : Nat} (hn : IsNumeral radix digits n) (hr : EndsNumeral radix next.rest)
    (h : start.Span digits next) : readNumber opened start radix = .ok (.integer n, next) := by
  obtain ⟨hne, hd, hv⟩ := hn
  have hrun : start.run radix.isDigit = digits := by
    rw [Cursor.run, h.1, takeWhile_append_of_run hd hr]
  unfold readNumber
  rw [hrun]
  cases digits with
  | nil => exact absurd rfl hne
  | cons d ds =>
    show Except.ok (Datum.integer (radix.value (d :: ds)), start.advance (d :: ds).length) = _
    rw [value_eq, hv, h.advance_eq]

theorem span_of_readNumber {opened start next : Cursor} {radix : Text.Radix} {d : Datum}
    (h : readNumber opened start radix = .ok (d, next)) :
    ∃ digits n, IsNumeral radix digits n ∧ EndsNumeral radix next.rest ∧ d = .integer n ∧
      start.Span digits next := by
  obtain ⟨rest, hr, hd, hstop⟩ := takeWhile_spec radix.isDigit start.rest
  unfold readNumber at h
  split at h
  · cases h
  · rename_i hne
    cases h
    have hspan : start.Span (start.run radix.isDigit) _ := Cursor.Span.advance hr
    refine ⟨_, _, ⟨hne, hd, rfl⟩, ?_, by rw [value_eq], hspan⟩
    have hrest : (start.advance (start.run radix.isDigit).length).rest = rest :=
      Cursor.Span.rest_advance_of hr
    rw [EndsNumeral, hrest]
    exact hstop

/-! ## Tokens -/

theorem token_append {tok rest : List Char} (ht : ∀ c ∈ tok, Cursor.isDelimiter c = false)
    (hr : Delimited rest) : token (tok ++ rest) = tok := by
  apply takeWhile_append_of_run
  · intro c hc
    simp [ht c hc]
  · intro c hc
    simp [hr c hc]

theorem token_spec (cs : List Char) : ∃ rest, cs = token cs ++ rest ∧
    (∀ c ∈ token cs, Cursor.isDelimiter c = false) ∧ Delimited rest := by
  obtain ⟨rest, hcs, ht, hr⟩ := takeWhile_spec (!Cursor.isDelimiter ·) cs
  refine ⟨rest, hcs, ?_, ?_⟩
  · intro c hc
    simpa using ht c hc
  · intro c hc
    simpa using hr c hc

theorem atDelimiter_iff (c : Cursor) : c.atDelimiter = true ↔ Delimited c.rest := by
  unfold Cursor.atDelimiter Delimited
  cases c.rest.head? <;> simp

theorem isDelimiter_iff {c : Char} : Cursor.isDelimiter c = true ↔
    Text.isBlank c = true ∨ c = '(' ∨ c = ')' ∨ c = '"' ∨ c = ';' ∨ c = '\'' ∨ c = '\x60' ∨
      c = ',' := by
  simp [Cursor.isDelimiter, Cursor.delimiters]

/-- No delimiter is a digit or a capital letter. -/
theorem toNat_of_isDelimiter {c : Char} (h : Cursor.isDelimiter c = true) :
    ¬ (48 ≤ c.toNat ∧ c.toNat ≤ 57) ∧ ¬ (65 ≤ c.toNat ∧ c.toNat ≤ 90) := by
  rcases isDelimiter_iff.1 h with hb | rfl | rfl | rfl | rfl | rfl | rfl | rfl
  · simp only [Text.isBlank, Bool.or_eq_true, Bool.and_eq_true, decide_eq_true_eq,
      beq_iff_eq] at hb
    omega
  all_goals decide

/-- Lower case changes capital letters only, and each into the letter 32 further on. -/
theorem toLower_cases (c : Char) :
    c.toLower = c ∨ (65 ≤ c.toNat ∧ c.toNat ≤ 90) ∧ c.toLower.toNat = c.toNat + 32 := by
  unfold Char.toLower
  split
  · rename_i hc
    simp only [ge_iff_le, UInt32.le_iff_toNat_le, Char.toNat_val, Char.reduceToNat] at hc
    refine .inr ⟨hc, ?_⟩
    show (c.val + _).toNat = _
    rw [UInt32.toNat_add, Char.toNat_val]
    simp only [UInt32.reduceToNat, Char.reduceVal, UInt32.reduceSub]
    omega
  · exact .inl rfl

theorem toLower_of_isDelimiter {c : Char} (h : Cursor.isDelimiter c = true) : c.toLower = c := by
  rcases toLower_cases c with hc | ⟨hcapital, -⟩
  · exact hc
  · exact absurd hcapital (toNat_of_isDelimiter h).2

theorem foldCase_of_isDelimiter {c : Char} (h : Cursor.isDelimiter c = true) :
    Text.foldCase c = c := by
  have hk : c ≠ '\u212a' := by
    rintro rfl
    exact absurd h (by decide)
  rw [Text.foldCase, if_neg hk, toLower_of_isDelimiter h]

/-- A spelling of a name without delimiters has none either. -/
theorem noDelimiter_of_spells {tok : List Char} {name : String} (hs : Text.spells tok name = true)
    (hn : ∀ c ∈ name.toList, Cursor.isDelimiter c = false) :
    ∀ c ∈ tok, Cursor.isDelimiter c = false := by
  intro c hc
  have hmem : Text.foldCase c ∈ name.toList := by
    rw [← eq_of_beq hs]
    exact List.mem_map_of_mem hc
  by_contra hd
  rw [Bool.not_eq_false] at hd
  rw [foldCase_of_isDelimiter hd] at hmem
  rw [hn c hmem] at hd
  cases hd

theorem length_of_spells {tok : List Char} {name : String} (hs : Text.spells tok name = true) :
    tok.length = name.length := by
  rw [← String.length_toList, ← eq_of_beq hs, List.length_map]

theorem eq_of_spells {tok : List Char} {name name' : String} (hs : Text.spells tok name = true)
    (hs' : Text.spells tok name' = true) : name = name' :=
  String.toList_inj.1 ((eq_of_beq hs).symm.trans (eq_of_beq hs'))

/-- In a table of names each spelling leads to its own entry. -/
theorem find?_spells {β : Type} {table : List (String × β)} {tok : List Char} {name : String}
    {b : β} (hu : ∀ e ∈ table, ∀ e' ∈ table, e.1 = e'.1 → e = e') (hm : (name, b) ∈ table)
    (hs : Text.spells tok name = true) :
    (table.find? fun e => Text.spells tok e.1) = some (name, b) := by
  cases hf : table.find? fun e => Text.spells tok e.1 with
  | none => exact absurd hs (List.find?_eq_none.1 hf _ hm)
  | some e =>
    have he : Text.spells tok e.1 = true := by simpa using List.find?_some hf
    rw [hu e (List.mem_of_find?_eq_some hf) _ hm (eq_of_spells he hs)]

theorem findSome?_ite {α β : Type} {l : List α} {p q : α → Bool} {g : α → β}
    (h : ∀ a ∈ l, p a = q a) :
    (l.findSome? fun a => if p a then some (g a) else none) = (l.find? q).map g := by
  induction l with
  | nil => rfl
  | cons a l ih =>
    rw [List.findSome?_cons, List.find?_cons, h a List.mem_cons_self]
    cases q a with
    | true => rfl
    | false => exact ih fun b hb => h b (List.mem_cons_of_mem a hb)

/-! ## Booleans -/

theorem booleanNames_unique :
    ∀ e ∈ booleanNames, ∀ e' ∈ booleanNames, e.1 = e'.1 → e = e' := by decide

theorem booleanNames_noDelimiter :
    ∀ e ∈ booleanNames, ∀ c ∈ e.1.toList, Cursor.isDelimiter c = false := by
  have h : ∀ e ∈ booleanNames, e.1.toList.all (!Cursor.isDelimiter ·) = true := by decide
  simpa only [List.all_eq_true, Bool.not_eq_true'] using h

theorem booleanNames_head :
    ∀ e ∈ booleanNames, e.1.toList.head? = some 't' ∨ e.1.toList.head? = some 'f' := by decide

/-- By its first letter a boolean is told from the other things behind `#`. -/
theorem head_of_boolean {tok : List Char} {name : String} {value : Bool}
    (hm : (name, value) ∈ booleanNames) (hs : Text.spells tok name = true) :
    ∃ c tok', tok = c :: tok' ∧ (Text.foldCase c = 't' ∨ Text.foldCase c = 'f') := by
  have hhead := booleanNames_head _ hm
  rw [← eq_of_beq hs, List.head?_map] at hhead
  cases tok with
  | nil => simp at hhead
  | cons c tok => exact ⟨c, tok, rfl, by simpa using hhead⟩

/-- A name and a delimiter stand here if and only if the token here is the name. -/
theorem spells_take_iff {cs : List Char} {name : String}
    (hn : ∀ c ∈ name.toList, Cursor.isDelimiter c = false) :
    Text.spells (cs.take name.length) name = true ∧ Delimited (cs.drop name.length) ↔
      Text.spells (token cs) name = true := by
  constructor
  · rintro ⟨hs, hd⟩
    have ht : token cs = cs.take name.length := by
      rw [← token_append (noDelimiter_of_spells hs hn) hd, List.take_append_drop]
    rwa [ht]
  · intro hs
    obtain ⟨rest, hcs, -, hd⟩ := token_spec cs
    have hlen : (token cs).length = name.length := length_of_spells hs
    rw [hcs, ← hlen, List.take_left, List.drop_left]
    exact ⟨hs, hd⟩

/-- Booleans are looked up by the token behind the `#`. -/
theorem readBoolean_eq (c : Cursor) :
    readBoolean c = (booleanNames.find? fun e => Text.spells (token (c.rest.drop 1)) e.1).map
      fun e => (.boolean e.2, c.advance (e.1.length + 1)) := by
  have hentry : ∀ e ∈ booleanNames,
      (Text.spells ((c.rest.drop 1).take e.1.length) e.1 &&
        (c.advance (e.1.length + 1)).atDelimiter) =
      Text.spells (token (c.rest.drop 1)) e.1 := by
    intro e he
    rw [Bool.eq_iff_iff, ← spells_take_iff (booleanNames_noDelimiter e he), Bool.and_eq_true,
      atDelimiter_iff, Cursor.rest_advance, List.drop_drop, Nat.add_comm]
  exact findSome?_ite hentry

theorem readBoolean_of_span {c next : Cursor} {tok : List Char} {name : String} {value : Bool}
    (hm : (name, value) ∈ booleanNames) (hs : Text.spells tok name = true)
    (hr : Delimited next.rest) (h : c.Span ('#' :: tok) next) :
    readBoolean c = some (.boolean value, next) := by
  have htok : token (c.rest.drop 1) = tok := by
    rw [h.1]
    exact token_append (noDelimiter_of_spells hs (booleanNames_noDelimiter _ hm)) hr
  have hnext : c.advance (name.length + 1) = next := by
    rw [← length_of_spells hs]
    exact h.advance_eq
  rw [readBoolean_eq, htok, find?_spells booleanNames_unique hm hs, ← hnext]
  rfl

theorem layout_of_readBoolean {c next : Cursor} {d : Datum} {cs : List Char}
    (h : readBoolean c = some (d, next)) (hr : c.rest = '#' :: cs) :
    ∃ s, Layout d s next.rest ∧ c.Span s next ∧ d.height = 0 := by
  rw [readBoolean_eq, Option.map_eq_some_iff] at h
  obtain ⟨⟨name, value⟩, hf, he⟩ := h
  cases he
  have hs : Text.spells (token (c.rest.drop 1)) name = true := by simpa using List.find?_some hf
  obtain ⟨rest, hcs, -, hd⟩ := token_spec (c.rest.drop 1)
  have hrest : c.rest = '#' :: token (c.rest.drop 1) ++ rest := by
    rw [List.cons_append, ← hcs, hr]
    rfl
  have hspan : c.Span ('#' :: token (c.rest.drop 1)) (c.advance (name.length + 1)) := by
    rw [← length_of_spells hs]
    exact Cursor.Span.advance hrest
  rw [show (c.advance (name.length + 1)).rest = rest by
    rw [← length_of_spells hs]
    exact Cursor.Span.rest_advance_of hrest]
  exact ⟨_, .boolean (List.mem_of_find?_eq_some hf) hs hd, hspan, rfl⟩

/-! ## Characters -/

theorem characterNames_unique :
    ∀ e ∈ characterNames, ∀ e' ∈ characterNames, e.1 = e'.1 → e = e' := by decide

theorem characterNames_noDelimiter :
    ∀ e ∈ characterNames, ∀ c ∈ e.1.toList, Cursor.isDelimiter c = false := by
  have h : ∀ e ∈ characterNames, e.1.toList.all (!Cursor.isDelimiter ·) = true := by decide
  simpa only [List.all_eq_true, Bool.not_eq_true'] using h

theorem characterNames_ne_empty : ∀ e ∈ characterNames, [] ≠ e.1.toList := by decide

theorem namedCharacter?_of_mem {tok : List Char} {name : String} {ch : Char}
    (hm : (name, ch) ∈ characterNames) (hs : Text.spells tok name = true) :
    namedCharacter? tok = some ch := by
  rw [namedCharacter?, find?_spells characterNames_unique hm hs]
  rfl

theorem namedCharacter?_eq_none {tok : List Char} :
    namedCharacter? tok = none ↔ ∀ e ∈ characterNames, Text.spells tok e.1 = false := by
  simp [namedCharacter?, List.find?_eq_none]

theorem readCharacter_eq {c : Cursor} {ch : Char} {cs : List Char}
    (hr : (c.advance 2).rest = ch :: cs) :
    readCharacter c = match namedCharacter? (token (ch :: cs)) with
      | some named => .ok (.char named, (c.advance 2).advance (token (ch :: cs)).length)
      | none => .ok (.char ch, (c.advance 2).advance 1) := by
  have htok : (c.advance 2).token = token (ch :: cs) := by rw [← hr]; rfl
  cases hn : namedCharacter? (token (ch :: cs)) with
  | none => simp only [readCharacter, hr, htok, hn]
  | some named => simp only [readCharacter, hr, Cursor.skipToken, htok, hn]

theorem readCharacter_of_layout {c next : Cursor} {ch : Char} {s : List Char}
    (hl : Layout (.char ch) ('#' :: '\\' :: s) next.rest)
    (h : c.Span ('#' :: '\\' :: s) next) : readCharacter c = .ok (.char ch, next) := by
  have hs : (c.advance 2).Span s next := Cursor.Span.behind (s := ['#', '\\']) h
  cases hl with
  | character hr =>
    have hrest : (c.advance 2).rest = ch :: next.rest := hs.1
    rw [readCharacter_eq hrest, namedCharacter?_eq_none.2 hr]
    show Except.ok (Datum.char ch, (c.advance 2).advance [ch].length) = _
    rw [hs.advance_eq]
  | characterName hm hn hr =>
    have hself := token_append (noDelimiter_of_spells hn (characterNames_noDelimiter _ hm)) hr
    have hne : s ≠ [] := by
      rintro rfl
      exact characterNames_ne_empty _ hm (eq_of_beq hn)
    obtain ⟨a, s, rfl⟩ := List.exists_cons_of_ne_nil hne
    have hrest : (c.advance 2).rest = a :: (s ++ next.rest) := hs.1
    rw [List.cons_append] at hself
    rw [readCharacter_eq hrest, hself, namedCharacter?_of_mem hm hn, hs.advance_eq]

theorem layout_of_readCharacter {c next : Cursor} {d : Datum} {cs : List Char}
    (h : readCharacter c = .ok (d, next)) (hr : c.rest = '#' :: '\\' :: cs) :
    ∃ s, Layout d s next.rest ∧ c.Span s next ∧ d.height = 0 := by
  have hr2 : (c.advance 2).rest = cs := by rw [Cursor.rest_advance, hr]; rfl
  cases cs with
  | nil =>
    rw [readCharacter, hr2] at h
    cases h
  | cons ch cs =>
    rw [readCharacter_eq hr2] at h
    cases hn : namedCharacter? (token (ch :: cs)) with
    | none =>
      rw [hn] at h
      cases h
      have hspan : c.Span ['#', '\\', ch] ((c.advance 2).advance 1) :=
        ⟨by rw [hr, Cursor.rest_advance, hr2]; rfl, rfl⟩
      refine ⟨_, .character ?_, hspan, rfl⟩
      rw [Cursor.rest_advance, hr2]
      exact namedCharacter?_eq_none.1 hn
    | some named =>
      rw [hn] at h
      cases h
      obtain ⟨⟨name, ch'⟩, hf, rfl⟩ := Option.map_eq_some_iff.1 hn
      obtain ⟨rest, hcs, -, hd⟩ := token_spec (ch :: cs)
      have hs : Text.spells (token (ch :: cs)) name = true := by simpa using List.find?_some hf
      have hrest : ((c.advance 2).advance (token (ch :: cs)).length).rest = rest :=
        Cursor.Span.rest_advance_of (hr2.trans hcs)
      have hspan : c.Span ('#' :: '\\' :: token (ch :: cs))
          ((c.advance 2).advance (token (ch :: cs)).length) := by
        constructor
        · rw [hrest, List.cons_append, List.cons_append, ← hcs, hr]
        · show c.pos + 2 + _ = _
          rw [List.length_cons, List.length_cons]
          omega
      refine ⟨_, .characterName (List.mem_of_find?_eq_some hf) hs ?_, hspan, rfl⟩
      rw [hrest]
      exact hd

/-! ## Symbols -/

theorem readSymbol_of_span {c next : Cursor} {name : List Char} (hn : IsName name)
    (hr : Delimited next.rest) (h : c.Span name next) :
    readSymbol c = .ok (.symbol (String.ofList name), next) := by
  have htok : c.token = name := by
    show token c.rest = name
    rw [h.1, token_append hn.noDelimiter hr]
  rw [readSymbol, htok, if_neg hn.ne_dot, Cursor.skipToken, htok, h.advance_eq]

theorem span_of_readSymbol {c next : Cursor} {d : Datum} (h : readSymbol c = .ok (d, next)) :
    ∃ name, d = .symbol (String.ofList name) ∧ (∀ ch ∈ name, Cursor.isDelimiter ch = false) ∧
      name ≠ ['.'] ∧ Delimited next.rest ∧ c.Span name next := by
  unfold readSymbol at h
  split at h
  · cases h
  · rename_i hdot
    cases h
    obtain ⟨rest, hcs, ht, hd⟩ := token_spec c.rest
    refine ⟨c.token, rfl, ht, hdot, ?_, Cursor.Span.advance hcs⟩
    rw [Cursor.skipToken, show (c.advance c.token.length).rest = rest from
      Cursor.Span.rest_advance_of hcs]
    exact hd

end SchemeCore.Reader
