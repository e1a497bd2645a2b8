import SchemeCore.Reader.Cursor
import SchemeCore.Reader.Failure

/-!
# Atmosphere

What may stand between data: white space, comments from `;` to the end of the line, and block
comments between `#|` and `|#`, which nest. The scan reads the text once from left to right, and
`skipAtmosphere_rest` says where it ends: at the end of the text or at a character that is neither
white space nor a semicolon.
-/

namespace SchemeCore.Reader

/-- Where a scan of atmosphere is. A block comment knows where the outermost one started, and how
many more are open inside that one. -/
inductive Atmosphere where
  | between
  | lineComment
  | blockComment (start inner : Nat)
  deriving DecidableEq, Repr

/-- Scans atmosphere from position `pos` on. A block comment without its end is blamed on the start
of the outermost one. -/
def scanAtmosphere : Atmosphere → (pos : Nat) → List Char → Except ReadFailure Cursor
  | .between, pos, [] => .ok ⟨pos, []⟩
  | .between, pos, '#' :: '|' :: cs => scanAtmosphere (.blockComment pos 0) (pos + 2) cs
  | .between, pos, c :: cs =>
    if Text.isBlank c then scanAtmosphere .between (pos + 1) cs
    else if c = ';' then scanAtmosphere .lineComment (pos + 1) cs
    else .ok ⟨pos, c :: cs⟩
  | .lineComment, pos, [] => .ok ⟨pos, []⟩
  | .lineComment, pos, c :: cs =>
    scanAtmosphere (if c = '\n' then .between else .lineComment) (pos + 1) cs
  | .blockComment start _, _, [] => .error ⟨start, .openBlockComment⟩
  | .blockComment start inner, pos, '#' :: '|' :: cs =>
    scanAtmosphere (.blockComment start (inner + 1)) (pos + 2) cs
  | .blockComment _ 0, pos, '|' :: '#' :: cs => scanAtmosphere .between (pos + 2) cs
  | .blockComment start (inner + 1), pos, '|' :: '#' :: cs =>
    scanAtmosphere (.blockComment start inner) (pos + 2) cs
  | .blockComment start inner, pos, _ :: cs =>
    scanAtmosphere (.blockComment start inner) (pos + 1) cs

/-- The cursor behind the atmosphere at `c`. -/
def skipAtmosphere (c : Cursor) : Except ReadFailure Cursor :=
  scanAtmosphere .between c.pos c.rest

theorem length_scanAtmosphere {mode : Atmosphere} {pos : Nat} {cs : List Char} {next : Cursor}
    (h : scanAtmosphere mode pos cs = .ok next) : next.rest.length ≤ cs.length := by
  fun_induction scanAtmosphere mode pos cs <;> grind

/-- Skipping atmosphere never lengthens what is left of the text. -/
theorem length_skipAtmosphere {c next : Cursor} (h : skipAtmosphere c = .ok next) :
    next.rest.length ≤ c.rest.length :=
  length_scanAtmosphere h

theorem head_scanAtmosphere {mode : Atmosphere} {pos : Nat} {cs : List Char} {next : Cursor}
    (h : scanAtmosphere mode pos cs = .ok next) {ch : Char} {rest : List Char}
    (hr : next.rest = ch :: rest) : Text.isBlank ch = false ∧ ch ≠ ';' := by
  fun_induction scanAtmosphere mode pos cs <;> grind

/-- Behind atmosphere stands neither white space nor a semicolon. -/
theorem head_skipAtmosphere {c next : Cursor} (h : skipAtmosphere c = .ok next) {ch : Char}
    {rest : List Char} (hr : next.rest = ch :: rest) : Text.isBlank ch = false ∧ ch ≠ ';' :=
  head_scanAtmosphere h hr

end SchemeCore.Reader
