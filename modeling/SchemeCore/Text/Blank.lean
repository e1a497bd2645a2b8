/-!
# Blank characters

White space, as it separates data in a source text and surrounds the text of a setting.
-/

namespace SchemeCore.Text

/-- White space: the ASCII controls tab to carriage return and file to unit separator, the space,
and the separators of the other blocks. The zero-width space, the Mongolian vowel separator and
the byte order mark are no white space. -/
def isBlank (c : Char) : Bool :=
  let n := c.toNat
  (0x09 ≤ n && n ≤ 0x0D) || (0x1C ≤ n && n ≤ 0x20) || n == 0x85 || n == 0xA0 || n == 0x1680 ||
    (0x2000 ≤ n && n ≤ 0x200A) || n == 0x2028 || n == 0x2029 || n == 0x202F || n == 0x205F ||
    n == 0x3000

/-- The text without the white space at its two ends. -/
def trimBlank (text : List Char) : List Char :=
  ((text.dropWhile isBlank).reverse.dropWhile isBlank).reverse

end SchemeCore.Text
