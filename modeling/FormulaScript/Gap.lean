import FormulaScript.Lexeme.First

/-!
The gaps between tokens: line breaks, white space, comments, and characters that begin neither a
gap nor a lexeme.
-/

namespace FormulaScript.Gap

inductive Piece where
  | lineBreak (c : Char)
  | blank (c : Char)
  /-- A comment up to the end of its line. -/
  | lineComment (body : List Char)
  | blockComment (body : List Char)
  /-- A block comment that is never closed. -/
  | unclosedComment (body : List Char)
  | invalid (c : Char)
deriving DecidableEq, Repr

namespace Piece

def spelling : Piece → List Char
  | .lineBreak c => [c]
  | .blank c => [c]
  | .lineComment body => '/' :: '/' :: body
  | .blockComment body => '/' :: '*' :: (body ++ ['*', '/'])
  | .unclosedComment body => '/' :: '*' :: body
  | .invalid c => [c]

theorem spelling_ne_nil (piece : Piece) : piece.spelling ≠ [] := by
  cases piece <;> simp [spelling]

def byteLength (piece : Piece) : Nat :=
  Text.byteLength piece.spelling

/-- Lines are crossed at line breaks and within block comments. A comment up to the end of its line
leaves the line break there to the next piece. -/
def crossesLine : Piece → Bool
  | .lineBreak _ => true
  | .blockComment body | .unclosedComment body => body.any Text.endsLine
  | .blank _ | .lineComment _ | .invalid _ => false

/-- What is reported about a piece, with the arguments of the message. -/
def report? : Piece → Option (Message × List String)
  | .invalid c => some (.invalidCharacter, [.singleton c])
  | .unclosedComment _ => some (.unclosedComment, [])
  | _ => none

/-- The diagnostic of a piece that stands at an offset. -/
def diagnostic? (piece : Piece) (offset : Nat) : Option Diagnostic :=
  piece.report?.map fun (message, arguments) =>
    .ofMessage message arguments (some ⟨offset, offset + piece.byteLength⟩)

end Piece

/-- The text before the first `*/`, `none` when there is none. -/
def commentBody? : List Char → Option (List Char)
  | '*' :: '/' :: _ => some []
  | c :: rest => (commentBody? rest).map (c :: ·)
  | [] => none

/-- The line break, white space or comment at the front. -/
def trivia? : List Char → Option Piece
  | '/' :: '/' :: rest => some (.lineComment (rest.takeWhile (!Text.endsLine ·)))
  | '/' :: '*' :: rest =>
      match commentBody? rest with
      | some body => some (.blockComment body)
      | none => some (.unclosedComment rest)
  | c :: _ =>
      if Text.endsLine c then some (.lineBreak c)
      else if Text.isBlank c then some (.blank c)
      else none
  | [] => none

variable [Text.Letters]

/-- The piece of a gap at the front, `none` at a lexeme and at the end of the text. -/
def first? (options : Options) (characters : List Char) : Option Piece :=
  match trivia? characters with
  | some piece => some piece
  | none =>
      match characters, Lexeme.first? options characters with
      | c :: _, none => some (.invalid c)
      | _, _ => none

theorem ne_nil_of_first?_eq_some {options : Options} {characters : List Char} {piece : Piece}
    (hfirst : first? options characters = some piece) : characters ≠ [] := by
  rintro rfl
  simp [first?, trivia?] at hfirst

/-- The pieces up to the next lexeme or the end of the text. -/
def read (options : Options) (characters : List Char) : List Piece :=
  match _hfirst : first? options characters with
  | none => []
  | some piece => piece :: read options (characters.drop piece.spelling.length)
termination_by characters.length
decreasing_by
  have hcharacters := List.length_pos_iff.mpr (ne_nil_of_first?_eq_some _hfirst)
  have hpiece := List.length_pos_iff.mpr piece.spelling_ne_nil
  rw [List.length_drop]
  omega

def spelling (pieces : List Piece) : List Char :=
  pieces.flatMap Piece.spelling

def crossesLine (pieces : List Piece) : Bool :=
  pieces.any Piece.crossesLine

/-- The diagnostics of a gap that begins at an offset. -/
def diagnostics (offset : Nat) : List Piece → List Diagnostic
  | [] => []
  | piece :: rest =>
      (piece.diagnostic? offset).toList ++ diagnostics (offset + piece.byteLength) rest

end FormulaScript.Gap
