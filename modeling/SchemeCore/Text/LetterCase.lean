/-!
# Letter case

Names in the source text (of booleans, characters and radixes) are compared without regard to
letter case. All of them are ASCII, so only the characters whose lower case is ASCII matter.
-/

namespace SchemeCore.Text

/-- The lower case of `c` where that is an ASCII letter, and `c` itself otherwise. Beside the
ASCII capitals this holds of the Kelvin sign alone. -/
def foldCase (c : Char) : Char :=
  if c = '\u212a' then 'k' else c.toLower

/-- Whether `token` is a spelling of `name` in some letter case. -/
def spells (token : List Char) (name : String) : Bool :=
  token.map foldCase == name.toList

end SchemeCore.Text
