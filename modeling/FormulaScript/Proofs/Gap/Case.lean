import FormulaScript.Proofs.Gap.Boundary
import FormulaScript.Proofs.Lexeme.Case

/-!
# Gaps in either case

A gap ends at the same place in either case, and its pieces are the same up to the case of the
comments. A character that begins nothing is no letter, so it is reported with the same message.
-/

namespace FormulaScript.Gap

open Text

def Piece.lower : Piece → Piece
  | .lineBreak c => .lineBreak c.toLower
  | .blank c => .blank c.toLower
  | .lineComment body => .lineComment (Text.lower body)
  | .blockComment body => .blockComment (Text.lower body)
  | .unclosedComment body => .unclosedComment (Text.lower body)
  | .invalid c => .invalid c

/-! ### Reading a gap -/

theorem commentBody?_lower (characters : List Char) :
    commentBody? (Text.lower characters) = (commentBody? characters).map Text.lower := by
  induction characters with
  | nil => rfl
  | cons c rest ih =>
      by_cases hclosing : c = '*' ∧ rest.head? = some '/'
      · obtain ⟨rfl, hhead⟩ := hclosing
        obtain ⟨back, rfl⟩ := List.head?_eq_some_iff.mp hhead
        rfl
      · have hclosing' : ¬(c.toLower = '*' ∧ (Text.lower rest).head? = some '/') := by
          rwa [toLower_eq_iff (by decide), head?_lower_eq_some_iff (by decide)]
        rw [lower_cons, commentBody?_cons hclosing, commentBody?_cons hclosing', ih,
          Option.map_map, Option.map_map]
        rfl

theorem trivia?_lower (characters : List Char) :
    trivia? (Text.lower characters) = (trivia? characters).map Piece.lower := by
  cases characters with
  | nil => rfl
  | cons c rest =>
      by_cases hslash : c = '/' ∧ (rest.head? = some '/' ∨ rest.head? = some '*')
      · obtain ⟨rfl, hline | hblock⟩ := hslash
        · obtain ⟨back, rfl⟩ := List.head?_eq_some_iff.mp hline
          exact congrArg (some ∘ Piece.lineComment) (takeWhile_lower ignoresCase_endsLine.not back)
        · obtain ⟨back, rfl⟩ := List.head?_eq_some_iff.mp hblock
          have hbody := commentBody?_lower back
          have hlower : Text.lower ('/' :: '*' :: back) = '/' :: '*' :: Text.lower back := rfl
          rw [hlower, trivia?, trivia?, hbody]
          cases commentBody? back <;> rfl
      · have hslash' : ¬(c.toLower = '/' ∧
            ((Text.lower rest).head? = some '/' ∨ (Text.lower rest).head? = some '*')) := by
          rwa [toLower_eq_iff (by decide), head?_lower_eq_some_iff (by decide),
            head?_lower_eq_some_iff (by decide)]
        rw [lower_cons, trivia?_of_not_slash hslash, trivia?_of_not_slash hslash',
          ignoresCase_endsLine c, ignoresCase_isBlank c]
        split
        · rfl
        · split <;> rfl

theorem first?_lower (options : Options) (characters : List Char) :
    first? options (Text.lower characters) = (first? options characters).map Piece.lower := by
  have htrivia := trivia?_lower characters
  have hlexeme := Lexeme.first?_lower options characters
  cases hsome : trivia? characters with
  | some piece =>
      rw [hsome] at htrivia
      simp only [first?, htrivia, hsome, Option.map_some]
  | none =>
      rw [hsome] at htrivia
      cases characters with
      | nil => rfl
      | cons c rest =>
          rw [lower_cons] at hlexeme htrivia ⊢
          cases hfirst : Lexeme.first? options (c :: rest) with
          | some lexeme =>
              rw [hfirst] at hlexeme
              simp only [first?, htrivia, hsome, hlexeme, hfirst, Option.map_none, Option.map_some]
          | none =>
              have hbegins := Lexeme.first?_cons_eq_none_iff.mp hfirst
              have hletter : beginsIdentifier options.unicodeIdentifiers c = false :=
                Bool.eq_false_of_not_eq_true fun h => hbegins (.inr (.inr (.inr h)))
              rw [toLower_of_not_begins hletter] at hlexeme htrivia ⊢
              rw [hfirst] at hlexeme
              simp only [first?, htrivia, hsome, hlexeme, hfirst, Option.map_none, Option.map_some,
                Piece.lower]

/-- The one character that is not put in lower case has no other case. -/
theorem spelling_lower (piece : Piece) :
    piece.lower.spelling = Text.lower piece.spelling ∨ piece.lower.spelling = piece.spelling := by
  cases piece with
  | invalid c => exact .inr rfl
  | blockComment body => exact .inl (by simp [Piece.lower, Piece.spelling])
  | _ => exact .inl rfl

theorem length_spelling_lower (piece : Piece) :
    piece.lower.spelling.length = piece.spelling.length := by
  rcases spelling_lower piece with hlower | hsame
  · rw [hlower, length_lower]
  · rw [hsame]

theorem Piece.byteLength_lower (piece : Piece) : piece.lower.byteLength = piece.byteLength := by
  rw [byteLength, byteLength]
  rcases spelling_lower piece with hlower | hsame
  · rw [hlower, Text.byteLength_lower]
  · rw [hsame]

theorem Piece.crossesLine_lower (piece : Piece) : piece.lower.crossesLine = piece.crossesLine := by
  cases piece with
  | blockComment body => exact any_lower ignoresCase_endsLine body
  | unclosedComment body => exact any_lower ignoresCase_endsLine body
  | _ => rfl

theorem read_lower (options : Options) (characters : List Char) :
    read options (Text.lower characters) = (read options characters).map Piece.lower := by
  induction characters using read_induction options with
  | done characters hfirst =>
      have hfirst' := first?_lower options characters
      rw [hfirst] at hfirst'
      rw [read_of_first?_eq_none hfirst, read_of_first?_eq_none hfirst']
      rfl
  | step piece rest hfirst ih =>
      have hfirst' := first?_lower options (piece.spelling ++ rest)
      rw [hfirst] at hfirst'
      rw [read_of_first?_eq_some hfirst, read_of_first?_eq_some hfirst', length_spelling_lower,
        drop_lower, List.drop_left, ih, List.map_cons]

/-! ### What a gap says -/

theorem length_spelling_map_lower (pieces : List Piece) :
    (spelling (pieces.map Piece.lower)).length = (spelling pieces).length := by
  induction pieces with
  | nil => rfl
  | cons piece pieces ih =>
      rw [List.map_cons, spelling_cons, spelling_cons, List.length_append, List.length_append, ih,
        length_spelling_lower]

theorem byteLength_spelling_map_lower (pieces : List Piece) :
    Text.byteLength (spelling (pieces.map Piece.lower)) = Text.byteLength (spelling pieces) := by
  induction pieces with
  | nil => rfl
  | cons piece pieces ih =>
      have hpiece := piece.byteLength_lower
      rw [Piece.byteLength, Piece.byteLength] at hpiece
      rw [List.map_cons, spelling_cons, spelling_cons, Text.byteLength_append,
        Text.byteLength_append, ih, hpiece]

theorem crossesLine_map_lower (pieces : List Piece) :
    crossesLine (pieces.map Piece.lower) = crossesLine pieces := by
  have hsame : Piece.crossesLine ∘ Piece.lower = Piece.crossesLine :=
    funext Piece.crossesLine_lower
  rw [crossesLine, List.any_map, hsame, crossesLine]

theorem diagnostics_map_lower (offset : Nat) (pieces : List Piece) :
    diagnostics offset (pieces.map Piece.lower) = diagnostics offset pieces := by
  induction pieces generalizing offset with
  | nil => rfl
  | cons piece pieces ih =>
      have hreport : piece.lower.report? = piece.report? := by cases piece <;> rfl
      rw [List.map_cons, diagnostics, diagnostics, ih, Piece.byteLength_lower, Piece.diagnostic?,
        Piece.diagnostic?, hreport, Piece.byteLength_lower]

end FormulaScript.Gap
