import SchemeCore.Proofs.Reader.Soundness
import SchemeCore.Proofs.Text.Numeral
import SchemeCore.Text.Decimal

/-!
# Written data

`Datum.written` spells a datum in the plainest way: decimal digits, `#t` and `#f`, one space between
the elements of a list or vector, and every mark in its long form. Not every datum can be spelled at
all: a negative integer cannot, nor a string that ends in a backslash, nor a symbol whose name the
reader would take for something else. `Datum.Readable` holds of the others, and
`reads_exactly_readable` says that the reader answers with these and no others, and reads back what
is written.
-/

namespace SchemeCore

namespace Datum

mutual

/-- Whether the datum has a spelling. -/
def Readable : Datum → Prop
  | symbol name => Reader.IsName name.toList
  | integer value => 0 ≤ value
  | string text => text.toList.getLast? ≠ some '\\'
  | boolean _ | char _ => True
  | list items | vector items => AllReadable items

/-- Whether every element has a spelling. -/
def AllReadable : List Datum → Prop
  | [] => True
  | item :: items => item.Readable ∧ AllReadable items

end

theorem allReadable_iff (items : List Datum) :
    AllReadable items ↔ ∀ item ∈ items, item.Readable := by
  induction items with
  | nil => simp [AllReadable]
  | cons item items ih => simp [AllReadable, ih]

mutual

/-- The plain spelling of a datum. -/
def written : Datum → List Char
  | symbol name => name.toList
  | integer value => Text.decimalDigits value
  | string text => '"' :: (Reader.escaped text.toList ++ ['"'])
  | boolean value => ['#', if value then 't' else 'f']
  | char value => ['#', '\\', value]
  | list items => '(' :: (writtenItems items ++ [')'])
  | vector items => '#' :: '(' :: (writtenItems items ++ [')'])

/-- The plain spellings of data with a space between each two. -/
def writtenItems : List Datum → List Char
  | [] => []
  | [item] => item.written
  | item :: other :: items => item.written ++ ' ' :: writtenItems (other :: items)

end

/-- The plain spelling as a source text. -/
def toSource (d : Datum) : String := String.ofList d.written

end Datum

namespace Reader

/-! ## Everything that is spelled is readable -/

theorem isName_of_mark (mark : Mark) : IsName mark.name.toList := by
  cases mark <;> exact isName_of_all (by decide) (by decide) (by decide) (by decide)

mutual

theorem readable_of_layout {d : Datum} {s rest : List Char} (hl : Layout d s rest) : d.Readable :=
  match hl with
  | .decimal _ _ | .radix _ _ _ _ => Int.natCast_nonneg _
  | .boolean _ _ _ | .character _ | .characterName _ _ _ => True.intro
  | .string hc => by
    unfold Datum.Readable
    rwa [String.toList_ofList]
  | .symbol hn _ _ => by
    unfold Datum.Readable
    rwa [String.toList_ofList]
  | .list _ hs | .vector _ hs => allReadable_of_layouts hs
  | .marked mark _ hs _ => ⟨isName_of_mark mark, readable_of_layout hs, True.intro⟩

theorem allReadable_of_layouts {ds : List Datum} {s rest : List Char} (hl : LayoutItems ds s rest) :
    Datum.AllReadable ds :=
  match hl with
  | .nil => True.intro
  | .cons hs _ hss => ⟨readable_of_layout hs, allReadable_of_layouts hss⟩

end

/-! ## Everything readable is spelled as it is written -/

theorem isNumeral_toDigits (n : Nat) : IsNumeral .decimal (Nat.toDigits 10 n) n := by
  refine ⟨Nat.toDigits_ne_nil, ?_, ?_⟩
  · intro c hc
    rw [isDigit_decimal]
    exact Nat.isDigit_of_mem_toDigits (by decide) (by decide) hc
  · show Nat.ofDigits 10 _ = n
    induction n using Nat.strongRecOn with
    | ind n ih =>
      by_cases hn : n < 10
      · rw [Nat.toDigits_of_lt_base hn, List.filterMap_cons,
          Text.digitValue?_digitChar n (by omega)]
        simp
      · have hlast := Text.digitValue?_digitChar (n % 10) (by omega)
        rw [Nat.toDigits_of_base_le (by decide) (by omega), List.filterMap_append,
          List.filterMap_cons, hlast, List.filterMap_nil, List.reverse_append,
          List.reverse_singleton, List.singleton_append, Nat.ofDigits_cons,
          ih (n / 10) (by omega)]
        show n % 10 + 10 * (n / 10) = n
        omega

/-- What a spelling needs behind it to be read to its end and no further. -/
def Apart (rest : List Char) : Prop := Delimited rest ∧ rest.head? ≠ some '('

theorem apart_of_head {c : Char} {rest : List Char} (hd : Cursor.isDelimiter c = true)
    (hp : c ≠ '(') : Apart (c :: rest) := by
  constructor
  · rintro d ⟨⟩
    exact hd
  · rintro ⟨⟩
    exact hp rfl

theorem endsNumeral_of_delimited {rest : List Char} (hr : Delimited rest) :
    EndsNumeral .decimal rest := by
  intro c hc
  by_contra hd
  rw [Bool.not_eq_false, isDigit_decimal] at hd
  have hdel := hr c hc
  rw [isDelimiter_of_isDigit hd] at hdel
  cases hdel

theorem two_le_length_of_characterNames : ∀ e ∈ characterNames, 2 ≤ e.1.length := by decide

/-- No character in front of a delimiter makes a name of a character. -/
theorem spells_token_single {c : Char} {rest : List Char} (hr : Delimited rest) :
    ∀ e ∈ characterNames, Text.spells (token (c :: rest)) e.1 = false := by
  intro e he
  have hlen : (token (c :: rest)).length ≤ 1 := by
    have hrest : token rest = [] := by
      cases rest with
      | nil => rfl
      | cons d rest => simp [token, hr d rfl]
    unfold token at hrest ⊢
    rw [List.takeWhile_cons, hrest]
    split <;> simp
  by_contra hs
  rw [Bool.not_eq_false] at hs
  have h2 := two_le_length_of_characterNames e he
  rw [← length_of_spells hs] at h2
  omega

mutual

theorem layout_of_readable {d : Datum} (hd : d.Readable) {rest : List Char} (hr : Apart rest) :
    Layout d d.written rest :=
  match d, hd with
  | .symbol name, hd => by
    have hl : Layout (.symbol (String.ofList name.toList)) name.toList rest :=
      .symbol hd hr.1 fun _ => hr.2
    rwa [String.ofList_toList] at hl
  | .integer value, hd => by
    obtain ⟨n, rfl⟩ := Int.eq_ofNat_of_zero_le hd
    exact .decimal (isNumeral_toDigits n) (endsNumeral_of_delimited hr.1)
  | .string text, hd => by
    have hl : Layout (.string (String.ofList text.toList)) (Datum.written (.string text)) rest :=
      .string hd
    rwa [String.ofList_toList] at hl
  | .boolean true, _ => .boolean (show ("t", true) ∈ booleanNames by decide) (by decide) hr.1
  | .boolean false, _ => .boolean (show ("f", false) ∈ booleanNames by decide) (by decide) hr.1
  | .char value, _ => .character (spells_token_single hr.1)
  | .list items, hd =>
    .list .nil (layouts_of_allReadable hd (apart_of_head (by decide) (by decide)))
  | .vector items, hd =>
    .vector .nil (layouts_of_allReadable hd (apart_of_head (by decide) (by decide)))

theorem layouts_of_allReadable {ds : List Datum} (hd : Datum.AllReadable ds) {rest : List Char}
    (hr : Apart rest) : LayoutItems ds (Datum.writtenItems ds) rest :=
  match ds, hd with
  | [], _ => .nil
  | [d], hd => by
    have hitems : LayoutItems [d] (d.written ++ [] ++ []) rest :=
      .cons (layout_of_readable hd.1 hr) .nil .nil
    rwa [List.append_nil, List.append_nil] at hitems
  | d :: other :: ds, hd => by
    have hitems : LayoutItems (d :: other :: ds)
        (d.written ++ [' '] ++ Datum.writtenItems (other :: ds)) rest :=
      .cons (layout_of_readable hd.1 (apart_of_head (by decide) (by decide)))
        (.blank (by decide) .nil) (layouts_of_allReadable hd.2 hr)
    rwa [List.append_assoc] at hitems

end

/-! ## Round trip -/

theorem apart_nil : Apart [] := ⟨by simp [Delimited], by simp⟩

theorem readAll_writtenItems {limit : Int} {ds : List Datum}
    (hd : ∀ d ∈ ds, d.Readable ∧ (d.height : Int) ≤ limit) :
    readAll limit (String.ofList (Datum.writtenItems ds)) = .ok ds := by
  have hl : LayoutItems ds (Datum.writtenItems ds) [] := by
    apply layouts_of_allReadable _ apart_nil
    rw [Datum.allReadable_iff]
    exact fun d hmem => (hd d hmem).1
  rw [readAll, readEvery, String.toList_ofList,
    readRest_of_layouts hl .nil (fun d hmem => (hd d hmem).2) rfl]
  rfl

theorem readAll_toSource {limit : Int} {d : Datum} (hd : d.Readable)
    (hh : (d.height : Int) ≤ limit) : readAll limit d.toSource = .ok [d] := by
  have hall : readAll limit (String.ofList (Datum.writtenItems [d])) = .ok [d] :=
    readAll_writtenItems (by simp [hd, hh])
  rwa [Datum.writtenItems] at hall

theorem read_toSource {limit : Int} {d : Datum} (hd : d.Readable) (hh : (d.height : Int) ≤ limit) :
    read limit d.toSource = .ok d := by
  have hspan : (Cursor.ofPos d.written 0).Span ([] ++ d.written) ⟨d.written.length, []⟩ :=
    ⟨by rw [List.append_nil]; rfl, (Nat.zero_add _).symm⟩
  have hread : readDatum limit 0 (.ofPos d.written 0) = .ok (d, ⟨d.written.length, []⟩) :=
    readDatum_of_layout (layout_of_readable hd apart_nil) .nil (by simpa using hh) hspan
  rw [Datum.toSource, read, readFirst, String.toList_ofList, hread]
  rfl

/-- The reader answers with the readable data that nest no deeper than the limit and with no
others: all that it reads is of this kind, and each datum of this kind is read back from its plain
spelling, alone or among others. -/
theorem reads_exactly_readable (limit : Int) :
    (∀ text d, read limit text = .ok d → d.Readable ∧ (d.height : Int) ≤ limit) ∧
    (∀ text ds, readAll limit text = .ok ds → ∀ d ∈ ds, d.Readable ∧ (d.height : Int) ≤ limit) ∧
    (∀ d : Datum, d.Readable → (d.height : Int) ≤ limit →
      read limit d.toSource = .ok d ∧ readAll limit d.toSource = .ok [d]) ∧
    (∀ ds : List Datum, (∀ d ∈ ds, d.Readable ∧ (d.height : Int) ≤ limit) →
      readAll limit (String.ofList (Datum.writtenItems ds)) = .ok ds) := by
  refine ⟨?_, ?_, ?_, ?_⟩
  · intro text d h
    obtain ⟨⟨w, s, rest, -, hl, -⟩, hheight⟩ := layout_of_read h
    exact ⟨readable_of_layout hl, hheight⟩
  · intro text ds h d hd
    obtain ⟨⟨s, rest, hl⟩, hheight⟩ := layouts_of_readAll h d hd
    exact ⟨readable_of_layout hl, hheight⟩
  · intro d hd hh
    exact ⟨read_toSource hd hh, readAll_toSource hd hh⟩
  · intro ds hd
    exact readAll_writtenItems hd

theorem reads_exactly_readable_nested :
    (Datum.vector [.list [.symbol "#", .integer 10], .boolean false]).Readable ∧
      read 2 "#((# 10) #f)" = .ok (.vector [.list [.symbol "#", .integer 10], .boolean false]) ∧
      readAll 2 "#((# 10) #f)" =
        .ok [.vector [.list [.symbol "#", .integer 10], .boolean false]] ∧
      readAll 0 "#\\( #t" = .ok [.char '(', .boolean true] ∧
      ∀ d ∈ [Datum.char '(', .boolean true], d.Readable ∧ (d.height : Int) ≤ 0 := by
  have hname : IsName "#".toList := by
    refine ⟨by decide, List.forall_mem_singleton.2 (by decide), by decide, ?_, ?_⟩
    · rintro c ⟨⟩
      decide
    · rintro tail ⟨⟩
      exact ⟨by simp, by decide⟩
  have hd : (Datum.vector [.list [.symbol "#", .integer 10], .boolean false]).Readable :=
    ⟨⟨hname, show (0 : Int) ≤ 10 by decide, True.intro⟩, True.intro, True.intro⟩
  have hback := (reads_exactly_readable 2).2.2.1 _ hd (by decide)
  rw [show Datum.toSource _ = "#((# 10) #f)" by decide] at hback
  have hitems := (reads_exactly_readable 0).2.2.2 [.char '(', .boolean true]
    (by simp [Datum.Readable, Datum.height])
  rw [show String.ofList (Datum.writtenItems _) = "#\\( #t" by decide] at hitems
  exact ⟨((reads_exactly_readable 2).1 _ _ hback.1).1, hback.1, hback.2, hitems,
    (reads_exactly_readable 0).2.1 _ _ hitems⟩

end Reader

end SchemeCore
