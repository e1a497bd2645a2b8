import SchemeCore.Reader.Element

/-!
# Source texts

A source text holds data between atmosphere. `read` answers with the first datum and leaves the
rest unread; `readAll` answers with all of them, or with the first failure.
-/

namespace SchemeCore.Reader

/-- All data from the cursor to the end of the text, none of them nested in another. -/
def readRest (item : Element) (c : Cursor) : Except ReadFailure (List Datum) :=
  match hs : skipAtmosphere c with
  | .error f => .error f
  | .ok here =>
    if here.rest = [] then .ok []
    else
      match hd : item.read here with
      | .error f => .error f
      | .ok (d, next) =>
        have : next.rest.length < c.rest.length :=
          Nat.lt_of_lt_of_le (item.consumes hd) (length_skipAtmosphere hs)
        (readRest item next).map (d :: ·)
termination_by c.rest.length

/-- The first datum of a text whose data nest at most `limit` deep. -/
def readFirst (limit : Int) (text : List Char) : Except ReadFailure Datum :=
  (readDatum limit 0 (.ofPos text 0)).map (·.1)

/-- All data of a text whose data nest at most `limit` deep. -/
def readEvery (limit : Int) (text : List Char) : Except ReadFailure (List Datum) :=
  readRest (elementAt limit 0) (.ofPos text 0)

end SchemeCore.Reader

namespace SchemeCore

/-- The first datum of `text`. -/
def read (limit : Int) (text : String) : Except ParseFailure Datum :=
  (Reader.readFirst limit text.toList).mapError (·.inText text)

/-- All data of `text`. -/
def readAll (limit : Int) (text : String) : Except ParseFailure (List Datum) :=
  (Reader.readEvery limit text.toList).mapError (·.inText text)

end SchemeCore
