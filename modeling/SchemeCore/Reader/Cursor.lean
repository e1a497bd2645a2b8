import SchemeCore.Text.Blank

/-!
# Cursors

A cursor is a place in a source text: the position, and the characters from there on. A position
behind the end of the text has no characters.
-/

namespace SchemeCore

/-- A position in a text with the characters behind it. -/
structure Cursor where
  pos : Nat
  rest : List Char
  deriving DecidableEq, Repr

namespace Cursor

/-- The place `pos` of `text`. -/
def ofPos (text : List Char) (pos : Nat) : Cursor := ⟨pos, text.drop pos⟩

/-- The place `n` characters further on. -/
def advance (c : Cursor) (n : Nat) : Cursor := ⟨c.pos + n, c.rest.drop n⟩

@[simp] theorem rest_advance (c : Cursor) (n : Nat) : (c.advance n).rest = c.rest.drop n := rfl

@[simp] theorem pos_advance (c : Cursor) (n : Nat) : (c.advance n).pos = c.pos + n := rfl

/-- The longest run of characters at the cursor that are accepted. -/
def run (c : Cursor) (accept : Char → Bool) : List Char := c.rest.takeWhile accept

/-- The cursor behind the longest run of accepted characters. -/
def skipRun (c : Cursor) (accept : Char → Bool) : Cursor := c.advance (c.run accept).length

/-- The characters that end a token beside white space. -/
def delimiters : List Char := ['(', ')', '"', ';', '\'', '\x60', ',']

/-- Whether `ch` ends a token. -/
def isDelimiter (ch : Char) : Bool := Text.isBlank ch || delimiters.contains ch

/-- Whether a token ends at the cursor: at a delimiter or at the end of the text. -/
def atDelimiter (c : Cursor) : Bool := c.rest.head?.all isDelimiter

/-- The characters up to the next delimiter. -/
def token (c : Cursor) : List Char := c.run (!isDelimiter ·)

/-- The cursor at the next delimiter. -/
def skipToken (c : Cursor) : Cursor := c.advance c.token.length

end Cursor

end SchemeCore
