import SchemeCore.Proofs.Reader.Completeness

/-!
# Reading further on

No reader looks at the position it starts from: it hands positions on to its answer, to the place
behind what it read and to the place that a failure blames. The same characters `k` places further
on are therefore read in the same way, with all positions `k` greater. This passes from the scanner
of atmosphere and the readers of atoms to the readers of sequences, and from each level of nesting
to the one around it (`Element.Translates`).
-/

namespace SchemeCore

/-- The same characters, `k` places further on. -/
def Cursor.shift (k : Nat) (c : Cursor) : Cursor := ⟨k + c.pos, c.rest⟩

@[simp] theorem Cursor.rest_shift (k : Nat) (c : Cursor) : (c.shift k).rest = c.rest := rfl

@[simp] theorem Cursor.pos_shift (k : Nat) (c : Cursor) : (c.shift k).pos = k + c.pos := rfl

theorem Cursor.advance_shift (k n : Nat) (c : Cursor) :
    (c.shift k).advance n = (c.advance n).shift k := by
  rw [advance, advance, shift, shift, Nat.add_assoc]

/-- The same failure, `k` places further on. -/
def ReadFailure.shift (k : Nat) (f : ReadFailure) : ReadFailure := ⟨k + f.position, f.fault⟩

namespace Reader

variable {α β : Type}

/-- The same end of a reading, `k` places further on: failures are moved there, and results by
`move`. -/
def shiftEnd (k : Nat) (move : α → α) : Except ReadFailure α → Except ReadFailure α
  | .ok a => .ok (move a)
  | .error f => .error (f.shift k)

/-- The same result with the cursor behind it, `k` places further on. -/
def shiftNext (k : Nat) (p : α × Cursor) : α × Cursor := (p.1, p.2.shift k)

@[simp] theorem shiftEnd_ok (k : Nat) (move : α → α) (a : α) :
    shiftEnd k move (.ok a) = .ok (move a) := rfl

theorem shiftEnd_map {k : Nat} {move : α → α} {move' : β → β} {f : α → β}
    (hf : ∀ a, f (move a) = move' (f a)) (r : Except ReadFailure α) :
    (shiftEnd k move r).map f = shiftEnd k move' (r.map f) := by
  cases r with
  | error e => rfl
  | ok a => exact congrArg Except.ok (hf a)

/-- The reader does not look at the position. -/
def Translates (read : Cursor → Except ReadFailure (α × Cursor)) : Prop :=
  ∀ k c, read (c.shift k) = shiftEnd k (shiftNext k) (read c)

/-! ## Atmosphere -/

/-- The same state of the scan, `k` places further on. -/
def Atmosphere.shift (k : Nat) : Atmosphere → Atmosphere
  | between => between
  | lineComment => lineComment
  | blockComment start inner => blockComment (k + start) inner

theorem scanAtmosphere_shift (k : Nat) (mode : Atmosphere) (pos : Nat) (cs : List Char) :
    scanAtmosphere (mode.shift k) (k + pos) cs =
      shiftEnd k (Cursor.shift k) (scanAtmosphere mode pos cs) := by
  fun_induction scanAtmosphere mode pos cs with
  | case1 | case6 | case8 => rfl
  | case2 _ _ ih | case9 _ _ _ _ ih | case10 _ _ _ ih | case11 _ _ _ _ ih => exact ih
  | case3 pos c cs hmark hblank ih =>
    rw [Atmosphere.shift, scanAtmosphere, if_pos hblank]
    · exact ih
    · exact hmark
  | case4 pos cs hmark hblank ih =>
    rw [Atmosphere.shift, scanAtmosphere, if_neg hblank, if_pos rfl]
    · exact ih
    · exact hmark
  | case5 pos c cs hmark hblank hsemi =>
    rw [Atmosphere.shift, scanAtmosphere, if_neg hblank, if_neg hsemi]
    · rfl
    · exact hmark
  | case7 pos c cs ih =>
    rw [Atmosphere.shift, scanAtmosphere]
    by_cases hc : c = '\n'
    · rw [if_pos hc] at ih ⊢
      exact ih
    · rw [if_neg hc] at ih ⊢
      exact ih
  | case12 start inner pos c cs hopen hlast hclose ih =>
    rw [Atmosphere.shift, scanAtmosphere]
    · exact ih
    · exact hopen
    · exact hlast
    · exact hclose

theorem skipAtmosphere_shift (k : Nat) (c : Cursor) :
    skipAtmosphere (c.shift k) = shiftEnd k (Cursor.shift k) (skipAtmosphere c) :=
  scanAtmosphere_shift k .between c.pos c.rest

/-! ## Atoms -/

theorem scanString_shift (k pos : Nat) (cs : List Char) :
    scanString (k + pos) cs = (scanString pos cs).map (shiftNext k) := by
  fun_induction scanString pos cs with
  | case1 => rfl
  | case2 => rfl
  | case3 pos cs ih =>
    show (scanString (k + (pos + 2)) cs).map _ = _
    rw [ih, Option.map_map, Option.map_map]
    rfl
  | case4 pos c cs hquote hescape ih =>
    rw [scanString]
    · show (scanString (k + (pos + 1)) cs).map _ = _
      rw [ih, Option.map_map, Option.map_map]
      rfl
    · exact hquote
    · exact hescape

theorem readString_translates : Translates readString := by
  intro k c
  unfold readString
  rw [show (c.shift k).pos + 1 = k + (c.pos + 1) from Nat.add_assoc .., Cursor.rest_shift,
    scanString_shift]
  cases scanString (c.pos + 1) (c.rest.drop 1) <;> rfl

theorem readNumber_shift (k : Nat) (opened start : Cursor) (radix : Text.Radix) :
    readNumber (opened.shift k) (start.shift k) radix =
      shiftEnd k (shiftNext k) (readNumber opened start radix) := by
  have hrun : (start.shift k).run radix.isDigit = start.run radix.isDigit := rfl
  unfold readNumber
  rw [hrun, Cursor.pos_shift, Cursor.pos_shift, Nat.add_sub_add_left]
  cases start.run radix.isDigit with
  | nil => rfl
  | cons ch digits =>
    dsimp only
    rw [Cursor.advance_shift]
    rfl

theorem readBoolean_shift (k : Nat) (c : Cursor) :
    readBoolean (c.shift k) = (readBoolean c).map (shiftNext k) := by
  rw [readBoolean_eq, readBoolean_eq, Option.map_map]
  apply congrArg (Option.map · _)
  funext e
  rw [Cursor.advance_shift]
  rfl

theorem readCharacter_translates : Translates readCharacter := by
  intro k c
  simp only [readCharacter, Cursor.advance_shift, Cursor.rest_shift]
  split
  · rfl
  · have htoken : ((c.advance 2).shift k).token = (c.advance 2).token := rfl
    rw [htoken]
    cases namedCharacter? (c.advance 2).token with
    | none => rfl
    | some named =>
      dsimp only
      rw [Cursor.skipToken, htoken, Cursor.advance_shift]
      rfl

theorem readSymbol_translates : Translates readSymbol := by
  intro k c
  have htoken : (c.shift k).token = c.token := rfl
  unfold readSymbol
  rw [htoken, Cursor.skipToken, htoken, Cursor.advance_shift]
  split <;> rfl

/-! ## Elements -/

/-- The reader for single data does not look at the position. -/
def Element.Translates (item : Element) : Prop := Reader.Translates item.read

section Elements

variable {item : Element} (hi : item.Translates)

include hi

theorem readSequence_shift (k opened : Nat) (what : String) (c : Cursor) :
    readSequence item (k + opened) what (c.shift k) =
      shiftEnd k (shiftNext k) (readSequence item opened what c) := by
  induction hlen : c.rest.length using Nat.strongRecOn generalizing c with
  | ind n ih =>
    rw [readSequence_eq, readSequence_eq item opened, skipAtmosphere_shift]
    cases hs : skipAtmosphere c with
    | error f => rfl
    | ok here =>
      dsimp only [shiftEnd_ok]
      rw [Cursor.rest_shift, Cursor.advance_shift, hi]
      split_ifs
      · rfl
      · rfl
      · cases hd : item.read here with
        | error f => rfl
        | ok p =>
          have hlt : p.2.rest.length < n := by
            rw [← hlen]
            exact Nat.lt_of_lt_of_le (item.consumes hd) (length_skipAtmosphere hs)
          dsimp only [shiftEnd_ok, shiftNext]
          rw [ih _ hlt p.2 rfl]
          apply shiftEnd_map
          intro a
          rfl

theorem readList_translates : Reader.Translates (readList item) := by
  intro k c
  unfold readList
  rw [Cursor.pos_shift, Cursor.advance_shift, readSequence_shift hi]
  apply shiftEnd_map
  intro a
  rfl

theorem readVector_translates : Reader.Translates (readVector item) := by
  intro k c
  unfold readVector
  rw [Cursor.pos_shift, Cursor.advance_shift, readSequence_shift hi]
  apply shiftEnd_map
  intro a
  rfl

theorem readMarked_translates : Reader.Translates (readMarked item) := by
  intro k c
  unfold readMarked
  rw [Cursor.rest_shift]
  rcases shortMark c.rest with ⟨mark, width⟩
  dsimp only
  rw [Cursor.advance_shift, hi]
  apply shiftEnd_map
  intro a
  rfl

theorem readHash?_shift (k : Nat) (c : Cursor) :
    readHash? item (c.shift k) = (readHash? item c).map (shiftEnd k (shiftNext k)) := by
  unfold readHash?
  rw [Cursor.rest_shift]
  split
  · rfl
  · exact congrArg some (readVector_translates hi k c)
  · exact congrArg some (readCharacter_translates k c)
  · split
    · rw [Cursor.advance_shift, readNumber_shift]
      rfl
    · split
      · rw [readBoolean_shift, Option.map_map, Option.map_map]
        rfl
      · rfl

theorem readHere_translates : Reader.Translates (readHere item) := by
  intro k c
  unfold readHere
  rw [Cursor.rest_shift]
  split
  · exact readString_translates k c
  · exact readMarked_translates hi k c
  · exact readMarked_translates hi k c
  · exact readMarked_translates hi k c
  · exact readList_translates hi k c
  · rfl
  · rw [readHash?_shift hi, readSymbol_translates]
    cases readHash? item c <;> rfl
  · split
    · exact readNumber_shift k c c .decimal
    · exact readSymbol_translates k c
  · exact readSymbol_translates k c

theorem readRest_shift (k : Nat) (c : Cursor) :
    readRest item (c.shift k) = shiftEnd k id (readRest item c) := by
  induction hlen : c.rest.length using Nat.strongRecOn generalizing c with
  | ind n ih =>
    rw [readRest_eq, readRest_eq item c, skipAtmosphere_shift]
    cases hs : skipAtmosphere c with
    | error f => rfl
    | ok here =>
      dsimp only [shiftEnd_ok]
      rw [Cursor.rest_shift, hi]
      split_ifs
      · rfl
      · cases hd : item.read here with
        | error f => rfl
        | ok p =>
          have hlt : p.2.rest.length < n := by
            rw [← hlen]
            exact Nat.lt_of_lt_of_le (item.consumes hd) (length_skipAtmosphere hs)
          dsimp only [shiftEnd_ok, shiftNext]
          rw [ih _ hlt p.2 rfl]
          apply shiftEnd_map
          intro a
          rfl

end Elements

theorem readBehind_translates {here : Cursor → Reading} (h : Translates here) :
    Translates (readBehind here) := by
  intro k c
  unfold readBehind
  rw [skipAtmosphere_shift]
  cases skipAtmosphere c with
  | error f => rfl
  | ok start =>
    dsimp only [shiftEnd_ok]
    rw [Cursor.rest_shift, h]
    split <;> rfl

/-- No level of the reader looks at the position. -/
theorem element_translates (limit : Int) (levels : Nat) : (element limit levels).Translates := by
  induction levels with
  | zero => exact readBehind_translates fun k c => rfl
  | succ levels ih => exact readBehind_translates (readHere_translates ih)

end Reader

end SchemeCore
