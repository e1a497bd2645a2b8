import SchemeCore.Proofs.Evaluation.Totality
import SchemeCore.Proofs.Text.Quoted

/-!
# Reading displayed data

The text of a datum tells which datum it is, down to every character of its symbols, strings and
characters.

1. `Datum.spelled` is the text as characters, whether or not the integers in it are short enough to
   be shown (`Datum.toList_of_displayWith`).
2. It can be read back wherever it stands (`Datum.recoverable_spelled`): the kind from its name, an
   atom from the spelling of its content, and the elements of a list or vector one by one.
3. So messages that show different data differ.
-/

namespace SchemeCore

/-! ## Atoms -/

theorem Text.notMem_toDigits {c : Char} (hc : c.isDigit = false) (n : Nat) :
    c ∉ Nat.toDigits 10 n := by
  intro h
  rw [Nat.isDigit_of_mem_toDigits (by decide) (by decide) h] at hc
  cases hc

theorem Text.toDigits_injective : Function.Injective (Nat.toDigits 10) :=
  Function.LeftInverse.injective (g := (Nat.ofDigitChars 10 · 0)) fun _ =>
    Nat.ofDigitChars_ten_toDigits

theorem Text.decimalDigits_injective : Function.Injective Text.decimalDigits := by
  have hminus (n : Nat) (cs : List Char) : '-' :: cs ≠ Nat.toDigits 10 n := fun h =>
    notMem_toDigits (by decide) n (h ▸ List.mem_cons_self)
  intro m n h
  unfold decimalDigits at h
  split at h <;> split at h
  · have habs : m.natAbs = n.natAbs := toDigits_injective (List.cons.inj h).2
    omega
  · exact absurd h (hminus _ _)
  · exact absurd h.symm (hminus _ _)
  · have habs : m.natAbs = n.natAbs := toDigits_injective h
    omega

theorem Text.close_notMem_decimalDigits (n : Int) : ')' ∉ decimalDigits n := by
  have hdigits := notMem_toDigits (c := ')') (by decide) n.natAbs
  rw [decimalDigits]
  split <;> simp [hdigits]

theorem Kind.name_injective : Function.Injective Kind.name := by
  intro k k' h
  cases k <;> cases k' <;> first | rfl | exact absurd h (by decide)

theorem Kind.open_notMem_name (k : Kind) : '(' ∉ k.name.toList := by
  cases k <;> decide

namespace Datum

variable {printable : Char → Bool}

/-! ## Spellings -/

/-- The name of a kind, and a content in parentheses. -/
def bracketed (kind : Kind) (content : List Char) : List Char :=
  kind.name.toList ++ ['('] ++ (content ++ [')'])

theorem toList_inParens (kind : Kind) (content : String) :
    (inParens kind content).toList = bracketed kind content.toList := by
  simp [inParens, bracketed]

mutual

/-- The characters that show a datum. Integers may have any number of digits. -/
def spelled (printable : Char → Bool) : Datum → List Char
  | symbol name => bracketed .symbol (Text.quoteWith printable name.toList)
  | integer value => bracketed .integer (Text.decimalDigits value)
  | string text => bracketed .string (Text.quoteWith printable text.toList)
  | boolean value => bracketed .boolean (truthText value).toList
  | char value => bracketed .char (Text.quoteWith printable [value])
  | list items => bracketed .list ([',', ' '].intercalate (spelledItems printable items))
  | vector items => bracketed .vector ([',', ' '].intercalate (spelledItems printable items))

/-- The characters that show each of the elements of a list or vector. -/
def spelledItems (printable : Char → Bool) : List Datum → List (List Char)
  | [] => []
  | item :: items => spelled printable item :: spelledItems printable items

end

theorem spelledItems_eq_map (items : List Datum) :
    spelledItems printable items = items.map (spelled printable) := by
  induction items with
  | nil => rfl
  | cons item items ih => rw [spelledItems, ih, List.map_cons]

theorem toList_of_displayItemsWith {items : List Datum} {texts : List String}
    (hitems : ∀ item ∈ items, ∀ text, displayWith printable item = some text →
      text.toList = item.spelled printable)
    (h : displayItemsWith printable items = some texts) :
    texts.map String.toList = items.map (spelled printable) := by
  induction items generalizing texts with
  | nil =>
    cases h
    rfl
  | cons item items ih =>
    obtain ⟨hitem, hitems⟩ := List.forall_mem_cons.1 hitems
    rw [displayItemsWith] at h
    obtain ⟨text, htext, h⟩ := Option.bind_eq_some_iff.1 h
    obtain ⟨others, hothers, h⟩ := Option.bind_eq_some_iff.1 h
    cases h
    rw [List.map_cons, List.map_cons, hitem text htext, ih hitems hothers]

theorem toList_of_displayWith {d : Datum} {text : String}
    (h : displayWith printable d = some text) : text.toList = d.spelled printable := by
  induction d using Datum.induction generalizing text with
  | atom d hatom =>
    cases d with
    | list | vector => cases hatom
    | integer value =>
      obtain ⟨digits, hdigits, rfl⟩ := Option.map_eq_some_iff.1 h
      rw [Text.decimal?] at hdigits
      split at hdigits
      · cases hdigits
        rw [toList_inParens, String.toList_ofList, spelled]
      · cases hdigits
    | boolean value =>
      cases h
      exact toList_inParens ..
    | symbol | string =>
      cases h
      rw [toList_inParens, quotedWith, String.toList_ofList, spelled]
    | char value =>
      cases h
      rw [toList_inParens, quotedWith, String.toList_ofList, String.toList_singleton, spelled]
  | list items ih | vector items ih =>
    obtain ⟨texts, htexts, rfl⟩ := Option.map_eq_some_iff.1 h
    rw [toList_inParens, String.toList_intercalate, spelled, spelledItems_eq_map,
      toList_of_displayItemsWith (fun item hmem _ => ih item hmem) htexts]
    rfl

/-! ## Reading back -/

theorem recoverable_kind (k : Kind) : Text.Recoverable (fun k : Kind => k.name.toList ++ ['(']) k :=
  Text.recoverable_word (fun _ _ h => Kind.name_injective (String.toList_injective h))
    Kind.open_notMem_name k

theorem spelled_avoids : Text.Avoids (spelled printable) ')' := by
  intro d
  cases d <;> exact ⟨_, _, rfl, by decide⟩

/-- The kind can be told from what stands in front of the parenthesis, whatever follows it. -/
theorem eq_of_bracketed {k k' : Kind} {content content' rest rest' : List Char}
    (h : bracketed k content ++ rest = bracketed k' content' ++ rest') :
    k = k' ∧ content ++ [')'] ++ rest = content' ++ [')'] ++ rest' := by
  unfold bracketed at h
  rw [List.append_assoc _ (content ++ _), List.append_assoc _ (content' ++ _)] at h
  exact recoverable_kind k h

theorem spelled_eq_bracketed (d : Datum) :
    ∃ content, d.spelled printable = bracketed d.kind content := by
  cases d <;> exact ⟨_, rfl⟩

/-- A datum of a kind is made by its constructor. -/
theorem exists_of_kind (d : Datum) (k : Kind) (h : d.kind = k) : match k with
    | .symbol => ∃ name, d = symbol name
    | .integer => ∃ value, d = integer value
    | .string => ∃ text, d = string text
    | .boolean => ∃ value, d = boolean value
    | .char => ∃ value, d = char value
    | .list => ∃ items, d = list items
    | .vector => ∃ items, d = vector items := by
  subst h
  cases d <;> exact ⟨_, rfl⟩

/-- Data of one kind can be read back if what stands in their parentheses can. -/
theorem recoverable_of_content {α : Type} {k : Kind} {make : α → Datum} {content : α → List Char}
    (hmake : ∀ a, (make a).spelled printable = bracketed k (content a))
    (hkind : ∀ d : Datum, d.kind = k → ∃ a, d = make a) {a : α}
    (ha : Text.Recoverable (fun a => content a ++ [')']) a) :
    Text.Recoverable (spelled printable) (make a) := by
  intro b rest rest' heq
  obtain ⟨content', hb⟩ := @spelled_eq_bracketed printable b
  rw [hmake, hb] at heq
  obtain ⟨b, rfl⟩ := hkind b (eq_of_bracketed heq).1.symm
  rw [← hb, hmake] at heq
  obtain ⟨rfl, hrest⟩ := ha (eq_of_bracketed heq).2
  exact ⟨rfl, hrest⟩

theorem recoverable_quoted {α : Type} {text : α → List Char} (htext : Function.Injective text)
    (a : α) : Text.Recoverable (fun a => Text.quoteWith printable (text a) ++ [')']) a := by
  intro b rest rest' heq
  obtain ⟨hsame, hrest⟩ := (Text.recoverable_quoteWith (text a)).before [')'] heq
  exact ⟨htext hsame, hrest⟩

theorem recoverable_truthText (value : Bool) :
    Text.Recoverable (fun value => (truthText value).toList ++ [')']) value := by
  apply Text.recoverable_word
  · intro a b h
    cases a <;> cases b <;> first | rfl | exact absurd h (by decide)
  · intro a
    cases a <;> decide

theorem recoverable_items {items : List Datum}
    (h : ∀ item ∈ items, Text.Recoverable (spelled printable) item) :
    Text.Recoverable (fun items => [',', ' '].intercalate (spelledItems printable items) ++ [')'])
      items := by
  simp only [spelledItems_eq_map]
  exact Text.Recoverable.separated [' '] (by decide) spelled_avoids h

/-- The text of a datum tells which one it is, whatever follows. -/
theorem recoverable_spelled (d : Datum) : Text.Recoverable (spelled printable) d := by
  induction d using Datum.induction with
  | atom d hatom =>
    cases d with
    | list | vector => cases hatom
    | symbol name =>
      exact recoverable_of_content (fun _ => rfl) (exists_of_kind · .symbol)
        (recoverable_quoted (fun _ _ h => String.toList_injective h) name)
    | integer value =>
      exact recoverable_of_content (fun _ => rfl) (exists_of_kind · .integer)
        (Text.recoverable_word Text.decimalDigits_injective Text.close_notMem_decimalDigits value)
    | string text =>
      exact recoverable_of_content (fun _ => rfl) (exists_of_kind · .string)
        (recoverable_quoted (fun _ _ h => String.toList_injective h) text)
    | boolean value =>
      exact recoverable_of_content (fun _ => rfl) (exists_of_kind · .boolean)
        (recoverable_truthText value)
    | char value =>
      exact recoverable_of_content (fun _ => rfl) (exists_of_kind · .char)
        (recoverable_quoted (fun _ _ h => (List.cons.inj h).1) value)
  | list items ih =>
    exact recoverable_of_content (fun _ => rfl) (exists_of_kind · .list) (recoverable_items ih)
  | vector items ih =>
    exact recoverable_of_content (fun _ => rfl) (exists_of_kind · .vector) (recoverable_items ih)

theorem eq_of_displayWith {a b : Datum} {s t rest rest' : String}
    (ha : a.displayWith printable = some s) (hb : b.displayWith printable = some t)
    (h : s ++ rest = t ++ rest') : a = b ∧ rest = rest' := by
  have hchars := congrArg String.toList h
  rw [String.toList_append, String.toList_append, toList_of_displayWith ha,
    toList_of_displayWith hb] at hchars
  obtain ⟨hab, hrest⟩ := recoverable_spelled a hchars
  exact ⟨hab, String.toList_injective hrest⟩

theorem exists_texts (printable : Char → Bool) {a b : Datum}
    (h : ∀ n ∈ a.integers ++ b.integers, Text.IsShort n) :
    ∃ s t, a.displayWith printable = some s ∧ b.displayWith printable = some t ∧
      (s = t → a = b) ∧ ∀ rest rest', s ++ rest = t ++ rest' → a = b ∧ rest = rest' := by
  obtain ⟨ha, hb⟩ := List.forall_mem_append.1 h
  obtain ⟨s, hs⟩ := Option.isSome_iff_exists.1 ((a.isSome_displayWith printable).2 ha)
  obtain ⟨t, ht⟩ := Option.isSome_iff_exists.1 ((b.isSome_displayWith printable).2 hb)
  have hrecover (rest rest' : String) (hst : s ++ rest = t ++ rest') : a = b ∧ rest = rest' :=
    eq_of_displayWith hs ht hst
  exact ⟨s, t, hs, ht, fun hst => (hrecover "" "" (by rw [hst])).1, hrecover⟩

/-- Different data are worded differently, whatever is said about them. -/
theorem wordings_ne {a b : Datum} (h : ∀ n ∈ a.integers ++ b.integers, Text.IsShort n) (hab : a ≠ b)
    {word : String → String} (hword : Function.Injective word) :
    ∃ s t, a.display?.map word = some s ∧ b.display?.map word = some t ∧ s ≠ t := by
  obtain ⟨s, t, hs, ht, hst, -⟩ := exists_texts Text.isPrintable h
  refine ⟨word s, word t, ?_, ?_, fun hsame => hab (hst (hword hsame))⟩
  · rw [display?, hs, Option.map_some]
  · rw [display?, ht, Option.map_some]

end Datum

/-- The text of a datum tells which datum it is. Data without integers of more than 4300 digits have
texts, and equal texts belong to equal data, whichever characters count as printable. Even where
something follows, the datum and what follows can be told. So none of the messages that show a datum
is the same for two different ones. -/
theorem displayed_data_are_told_apart :
    (∀ (printable : Char → Bool) (a b : Datum),
      (∀ n ∈ a.integers ++ b.integers, Text.IsShort n) →
        ∃ s t, a.displayWith printable = some s ∧ b.displayWith printable = some t ∧
          (s = t → a = b) ∧ ∀ rest rest', s ++ rest = t ++ rest' → a = b ∧ rest = rest') ∧
    ∀ a b : Datum, (∀ n ∈ a.integers ++ b.integers, Text.IsShort n) → a ≠ b →
      ∀ fault ∈ [Fault.notAForm, fun d => .name (.cannotBind (.datum d)),
          fun d => .spliceNotList (.datum d)],
        ∃ s t, (fault a).message? = some s ∧ (fault b).message? = some t ∧ s ≠ t := by
  refine ⟨fun printable a b h => Datum.exists_texts printable h, fun a b h hab fault hfault => ?_⟩
  simp only [List.mem_cons, List.not_mem_nil, or_false] at hfault
  rcases hfault with rfl | rfl | rfl
  · exact Datum.wordings_ne h hab fun s t hst =>
      (String.append_right_inj _).1 ((String.append_left_inj _).1 hst)
  · exact Datum.wordings_ne h hab fun s t hst =>
      (String.append_right_inj _).1 ((String.append_left_inj _).1 hst)
  · exact Datum.wordings_ne h hab fun s t hst => (String.append_right_inj _).1 hst

theorem displayed_data_are_told_apart_quoted :
    let a : Datum := .list [.symbol "a'), Symbol('b", .integer (-12)]
    let b : Datum := .list [.symbol "a", .symbol "b", .integer (-12)]
    a.display? = some "List(Symbol(\"a'), Symbol('b\"), Integer(-12))" ∧
      b.display? = some "List(Symbol('a'), Symbol('b'), Integer(-12))" ∧
      (∃ s t, a.displayWith (fun _ => false) = some s ∧ b.displayWith (fun _ => false) = some t ∧
        (s = t → a = b) ∧ ∀ rest rest', s ++ rest = t ++ rest' → a = b ∧ rest = rest') ∧
      ∃ s t, (Fault.notAForm a).message? = some s ∧ (Fault.notAForm b).message? = some t ∧
        s ≠ t := by
  intro a b
  have hshort : Text.IsShort (-12) := (Text.isSome_decimal? (-12)).1 (by decide)
  have hintegers : ∀ n ∈ a.integers ++ b.integers, Text.IsShort n := by
    show ∀ n ∈ [-12, -12], Text.IsShort n
    simp [hshort]
  obtain ⟨htexts, hmessages⟩ := displayed_data_are_told_apart
  exact ⟨by decide, by decide, htexts (fun _ => false) a b hintegers,
    hmessages a b hintegers (by decide) Fault.notAForm (by simp)⟩

end SchemeCore
