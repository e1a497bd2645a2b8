import SchemeCore.Datum.Basic
import SchemeCore.Reader.Cursor
import SchemeCore.Reader.Failure

/-!
# Atoms in the source text

One reader for each kind of atom. Each starts at a cursor where the atom is supposed to stand and
answers with the datum and the cursor behind it. None of them looks at the character that told its
caller which one to use.
-/

namespace SchemeCore.Reader

/-- A datum and the cursor behind it, or a failure. -/
abbrev Reading := Except ReadFailure (Datum × Cursor)

/-! ## Strings -/

/-- The contents of a string up to its closing mark, from position `pos` on, and the cursor behind
that mark. A backslash in front of a double quote gives the double quote; every other backslash
stands for itself. -/
def scanString : (pos : Nat) → List Char → Option (List Char × Cursor)
  | _, [] => none
  | pos, '"' :: cs => some ([], ⟨pos + 1, cs⟩)
  | pos, '\\' :: '"' :: cs => (scanString (pos + 2) cs).map fun (s, next) => ('"' :: s, next)
  | pos, c :: cs => (scanString (pos + 1) cs).map fun (s, next) => (c :: s, next)

/-- The string whose opening mark stands at the cursor. -/
def readString (c : Cursor) : Reading :=
  match scanString (c.pos + 1) (c.rest.drop 1) with
  | none => .error ⟨c.pos, .openString⟩
  | some (contents, next) => .ok (.string (String.ofList contents), next)

/-! ## Numbers -/

/-- The integer whose digits start at `start`, in a literal that begins at `opened`. -/
def readNumber (opened start : Cursor) (radix : Text.Radix) : Reading :=
  match start.run radix.isDigit with
  | [] =>
    let introducer := opened.rest.take (start.pos - opened.pos)
    .error ⟨opened.pos, .missingDigits radix (String.ofList introducer)⟩
  | digits => .ok (.integer (radix.value digits), start.advance digits.length)

/-! ## Booleans -/

/-- The spellings of the booleans behind `#`, longest first. -/
def booleanNames : List (String × Bool) :=
  [("true", true), ("false", false), ("t", true), ("f", false)]

/-- The boolean whose `#` stands at the cursor, if a spelling in some letter case and then a
delimiter follow. -/
def readBoolean (c : Cursor) : Option (Datum × Cursor) :=
  booleanNames.findSome? fun (name, value) =>
    let next := c.advance (name.length + 1)
    if Text.spells ((c.rest.drop 1).take name.length) name && next.atDelimiter then
      some (.boolean value, next)
    else none

/-! ## Characters -/

/-- The characters that have names. -/
def characterNames : List (String × Char) :=
  [("space", ' '), ("newline", '\n'), ("linefeed", '\n'), ("tab", '\t'), ("return", '\r'),
    ("nul", '\x00'), ("null", '\x00'), ("alarm", '\x07'), ("backspace", '\x08'),
    ("page", '\x0c'), ("escape", '\x1b'), ("altmode", '\x1b'), ("delete", '\x7f'),
    ("rubout", '\x7f')]

/-- The character with a name, in some letter case. -/
def namedCharacter? (token : List Char) : Option Char :=
  (characterNames.find? fun entry => Text.spells token entry.1).map (·.2)

/-- The character whose `#\` stands at the cursor: a named one if the whole token behind is its
name, and the next character of the text, whatever it is, otherwise. -/
def readCharacter (c : Cursor) : Reading :=
  let start := c.advance 2
  match start.rest with
  | [] => .error ⟨c.pos, .missingCharacter⟩
  | ch :: _ =>
    match namedCharacter? start.token with
    | some named => .ok (.char named, start.skipToken)
    | none => .ok (.char ch, start.advance 1)

/-! ## Symbols -/

/-- The symbol at the cursor: everything up to the next delimiter. A single dot is refused. -/
def readSymbol (c : Cursor) : Reading :=
  if c.token = ['.'] then .error ⟨c.pos, .dottedList⟩
  else .ok (.symbol (String.ofList c.token), c.skipToken)

/-! ## Progress -/

theorem length_scanString {pos : Nat} {cs contents : List Char} {next : Cursor}
    (h : scanString pos cs = some (contents, next)) : next.rest.length < cs.length := by
  fun_induction scanString pos cs generalizing contents next with
  | case1 => simp at h
  | case2 => grind
  | case3 pos cs ih | case4 pos c cs _ _ ih =>
    obtain ⟨⟨s, n⟩, hs, he⟩ := Option.map_eq_some_iff.1 h
    have := ih hs
    grind

theorem length_readString {c next : Cursor} {d : Datum} (h : readString c = .ok (d, next))
    (hc : c.rest ≠ []) : next.rest.length < c.rest.length := by
  unfold readString at h
  split at h
  · simp at h
  · rename_i contents next' hs
    have := length_scanString hs
    have := List.length_pos_iff.2 hc
    grind

theorem length_readNumber {opened start next : Cursor} {radix : Text.Radix} {d : Datum}
    (h : readNumber opened start radix = .ok (d, next)) :
    next.rest.length < start.rest.length := by
  unfold readNumber at h
  split at h
  · simp at h
  · rename_i digits hne
    have hle : (start.run radix.isDigit).length ≤ start.rest.length :=
      (List.takeWhile_prefix _).length_le
    have hpos : 0 < (start.run radix.isDigit).length := List.length_pos_iff.2 hne
    simp only [Except.ok.injEq, Prod.mk.injEq] at h
    rw [← h.2, Cursor.rest_advance, List.length_drop]
    omega

theorem length_readBoolean {c next : Cursor} {d : Datum} (h : readBoolean c = some (d, next))
    (hc : c.rest ≠ []) : next.rest.length < c.rest.length := by
  have hpos := List.length_pos_iff.2 hc
  obtain ⟨⟨name, value⟩, -, hs⟩ := List.exists_of_findSome?_eq_some h
  simp only [Option.ite_none_right_eq_some, Option.some.injEq, Prod.mk.injEq] at hs
  rw [← hs.2.2, Cursor.rest_advance, List.length_drop]
  omega

theorem length_readCharacter {c next : Cursor} {d : Datum} (h : readCharacter c = .ok (d, next)) :
    next.rest.length < c.rest.length := by
  simp only [readCharacter] at h
  have hlen : (c.advance 2).rest.length = c.rest.length - 2 := List.length_drop
  split at h
  · simp at h
  · rename_i ch cs hr
    rw [hr] at hlen
    split at h <;> simp only [Except.ok.injEq, Prod.mk.injEq] at h <;>
      · rw [← h.2]
        simp only [Cursor.skipToken, Cursor.rest_advance, List.length_drop, List.length_cons] at *
        omega

theorem length_readSymbol {c next : Cursor} {d : Datum} (h : readSymbol c = .ok (d, next))
    {ch : Char} {rest : List Char} (hr : c.rest = ch :: rest)
    (hch : Cursor.isDelimiter ch = false) : next.rest.length < c.rest.length := by
  unfold readSymbol at h
  split at h
  · simp at h
  · simp only [Except.ok.injEq, Prod.mk.injEq] at h
    have htake : c.token = ch :: rest.takeWhile (!Cursor.isDelimiter ·) := by
      simp [Cursor.token, Cursor.run, hr, hch]
    rw [← h.2, Cursor.skipToken, Cursor.rest_advance, List.length_drop, hr, htake]
    simp only [List.length_cons]
    omega

end SchemeCore.Reader
