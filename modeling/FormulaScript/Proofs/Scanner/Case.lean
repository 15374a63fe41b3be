import FormulaScript.Proofs.Gap.Case
import FormulaScript.Proofs.Scanner.Resumption

/-!
# Scanners of texts that differ in case

Two scanners at the same place of texts that differ in case only take the same step, up to the case
of the text that their tokens hold. After it they are at the same place again.
-/

namespace FormulaScript

open Text

def Token.lower (token : Token) : Token :=
  { token with content := token.content.lower }

namespace Scanner

/-- What stands ahead of the two is the same up to case, and all else that they go by is the
same. -/
structure Alike (left right : Scanner) : Prop where
  options : right.options = left.options
  part : right.part = left.part
  position : right.position = left.position
  remaining : Text.lower right.remaining = Text.lower left.remaining
  diagnostics : right.diagnostics.toList = left.diagnostics.toList

theorem templateText_lower (characters : List Char) :
    templateText (Text.lower characters) = Text.lower (templateText characters) := by
  induction characters with
  | nil => rfl
  | cons c rest ih =>
      by_cases hopens : c = '$' ∧ rest.head? = some '\x7b'
      · obtain ⟨rfl, hhead⟩ := hopens
        obtain ⟨back, rfl⟩ := List.head?_eq_some_iff.mp hhead
        rfl
      · have hopens' : ¬(c.toLower = '$' ∧ (Text.lower rest).head? = some '\x7b') := by
          rwa [toLower_eq_iff (by decide), head?_lower_eq_some_iff (by decide)]
        rw [lower_cons, templateText_cons hopens, templateText_cons hopens', ih, lower_cons]

theorem textLexeme_lower (text : List Char) :
    textLexeme (Text.lower text) = (textLexeme text).lower := by
  rw [textLexeme, ← Lexeme.lower_verbatim]
  rfl

variable {left right : Scanner}

/-! ### One step -/

theorem Alike.inTemplateText (halike : Alike left right) :
    right.inTemplateText = left.inTemplateText := by
  rw [Scanner.inTemplateText, halike.options, halike.part, Scanner.inTemplateText]

theorem Alike.gap (halike : Alike left right) :
    right.gap.map Gap.Piece.lower = left.gap.map Gap.Piece.lower := by
  rw [Scanner.gap, Scanner.gap, halike.inTemplateText, halike.options]
  split
  · rfl
  · rw [← Gap.read_lower, ← Gap.read_lower, halike.remaining]

theorem Alike.start (halike : Alike left right) : right.start = left.start := by
  rw [Scanner.start, Scanner.start, halike.position, ← Gap.byteLength_spelling_map_lower,
    halike.gap, Gap.byteLength_spelling_map_lower]

theorem Alike.crossesLine (halike : Alike left right) :
    Gap.crossesLine right.gap = Gap.crossesLine left.gap := by
  rw [← Gap.crossesLine_map_lower, halike.gap, Gap.crossesLine_map_lower]

theorem Alike.front (halike : Alike left right) :
    Text.lower right.front = Text.lower left.front := by
  have hlength : (Gap.spelling right.gap).length = (Gap.spelling left.gap).length := by
    rw [← Gap.length_spelling_map_lower, halike.gap, Gap.length_spelling_map_lower]
  rw [Scanner.front, Scanner.front, hlength, ← drop_lower, ← drop_lower, halike.remaining]

theorem Alike.lexeme? (halike : Alike left right) :
    right.lexeme?.map Lexeme.lower = left.lexeme?.map Lexeme.lower := by
  have hempty : right.front.isEmpty = left.front.isEmpty := by
    rw [← isEmpty_lower, halike.front, isEmpty_lower]
  rw [Scanner.lexeme?, Scanner.lexeme?, halike.inTemplateText, halike.options, hempty]
  split
  · split
    · rfl
    · rw [Option.map_some, Option.map_some, ← textLexeme_lower, ← textLexeme_lower,
        ← templateText_lower, ← templateText_lower, halike.front]
  · rw [← Lexeme.first?_lower, ← Lexeme.first?_lower, halike.front]

/-- Either both scanners have read all of the text, or they have the same lexeme ahead up to
case. -/
theorem Alike.cases (halike : Alike left right) :
    (left.lexeme? = none ∧ right.lexeme? = none) ∨
      ∃ lexeme lexeme', left.lexeme? = some lexeme ∧ right.lexeme? = some lexeme' ∧
        lexeme'.lower = lexeme.lower := by
  have hlexeme := halike.lexeme?
  cases hleft : left.lexeme? with
  | none =>
      rw [hleft, Option.map_none, Option.map_eq_none_iff] at hlexeme
      exact .inl ⟨rfl, hlexeme⟩
  | some lexeme =>
      rw [hleft, Option.map_some] at hlexeme
      obtain ⟨lexeme', hright, hlower⟩ := Option.map_eq_some_iff.mp hlexeme
      exact .inr ⟨lexeme, lexeme', rfl, hright, hlower⟩

theorem Alike.token (halike : Alike left right) : right.next.1.lower = left.next.1.lower := by
  rcases halike.cases with ⟨hleft, hright⟩ | ⟨lexeme, lexeme', hleft, hright, hlower⟩
  · rw [token_eq_endToken left hleft, token_eq_endToken right hright, endToken, endToken,
      halike.start, halike.crossesLine]
  · obtain ⟨hkind, hflags, -, hcontent, -, hlength⟩ := Lexeme.of_lower_eq hlower
    rw [token_eq_tokenOf left hleft, token_eq_tokenOf right hright, tokenOf, tokenOf, Token.lower,
      Token.lower, halike.start, halike.crossesLine, hkind, hflags, hcontent, hlength]

theorem Alike.reports (halike : Alike left right) : right.reports = left.reports := by
  have hgap : Gap.diagnostics right.position right.gap =
      Gap.diagnostics left.position left.gap := by
    rw [halike.position, ← Gap.diagnostics_map_lower, halike.gap, Gap.diagnostics_map_lower]
  have htoken : right.tokenReport? = left.tokenReport? := by
    rw [tokenReport?, tokenReport?]
    rcases halike.cases with ⟨hleft, hright⟩ | ⟨lexeme, lexeme', hleft, hright, hlower⟩
    · rw [hleft, hright]
      dsimp only
      rw [endReport?, endReport?, halike.part, halike.start]
    · obtain ⟨-, -, hproblem, -⟩ := Lexeme.of_lower_eq hlower
      rw [hleft, hright]
      dsimp only
      rw [problemReport?, problemReport?, hproblem, halike.start]
  rw [Scanner.reports, Scanner.reports, hgap, htoken]

theorem Alike.remaining_next (halike : Alike left right) :
    Text.lower right.next.2.remaining = Text.lower left.next.2.remaining := by
  have hlength : right.lexemeSpelling.length = left.lexemeSpelling.length := by
    rcases halike.cases with ⟨hleft, hright⟩ | ⟨lexeme, lexeme', hleft, hright, hlower⟩
    · rw [lexemeSpelling, lexemeSpelling, hleft, hright]
    · obtain ⟨-, -, -, -, hlength, -⟩ := Lexeme.of_lower_eq hlower
      rw [lexemeSpelling_of_lexeme left hleft, lexemeSpelling_of_lexeme right hright, hlength]
  rw [remaining_next_eq_drop, remaining_next_eq_drop, ← drop_lower, ← drop_lower, halike.front,
    hlength]

theorem Alike.part_next (halike : Alike left right) :
    right.next.2.part = left.next.2.part := by
  have hempty : right.next.2.remaining.isEmpty = left.next.2.remaining.isEmpty := by
    rw [← isEmpty_lower, halike.remaining_next, isEmpty_lower]
  rcases halike.cases with ⟨hleft, hright⟩ | ⟨lexeme, lexeme', hleft, hright, hlower⟩
  · rw [part_next_of_end left hleft, part_next_of_end right hright]
  · obtain ⟨hkind, -⟩ := Lexeme.of_lower_eq hlower
    rw [part_next_of_lexeme left hleft, part_next_of_lexeme right hright, partAfter, partAfter,
      halike.inTemplateText, halike.part, hempty, hkind]

theorem Alike.next (halike : Alike left right) : Alike left.next.2 right.next.2 := by
  have hspan : right.next.1.span = left.next.1.span := congrArg (·.span) halike.token
  constructor
  · rw [options_next, options_next, halike.options]
  · exact halike.part_next
  · rw [position_next, position_next, hspan]
  · exact halike.remaining_next
  · rw [diagnostics_next, diagnostics_next, halike.diagnostics, halike.reports]

/-! ### Runs -/

theorem Alike.after (halike : Alike left right) (count : Nat) :
    Alike (left.after count) (right.after count) := by
  induction count generalizing left right with
  | zero => exact halike
  | succ count ih => exact ih halike.next

theorem Alike.map_lower_firstTokens (halike : Alike left right) (count : Nat) :
    (right.firstTokens count).map Token.lower = (left.firstTokens count).map Token.lower := by
  induction count generalizing left right with
  | zero => rfl
  | succ count ih =>
      rw [firstTokens, firstTokens, List.map_cons, List.map_cons, halike.token, ih halike.next]

theorem Alike.length_body (halike : Alike left right) :
    right.body.length = left.body.length :=
  length_body_eq_of_kinds fun count => congrArg (·.kind) (halike.after count).token

theorem Alike.run (halike : Alike left right) :
    right.tokens.map Token.lower = left.tokens.map Token.lower ∧
      Alike left.run.2 right.run.2 := by
  rw [tokens, tokens, run_eq, run_eq, halike.length_body]
  exact ⟨halike.map_lower_firstTokens _, halike.after _⟩

section

variable {text text' : String}

theorem alike_ofText (hcase : Text.lower text'.toList = Text.lower text.toList)
    (options : Options) : Alike (ofText text options) (ofText text' options) := by
  refine ⟨rfl, rfl, rfl, ?_, rfl⟩
  rw [remaining_ofText, remaining_ofText, hcase]

theorem lines_after_ofText (hcase : Text.lower text'.toList = Text.lower text.toList)
    (options : Options) (count : Nat) :
    ((ofText text' options).after count).lines = ((ofText text options).after count).lines := by
  apply Cursor.Tracks.lines_eq ((charts_ofText text _).after count).cursor
    ((charts_ofText text' _).after count).cursor hcase
  exact ((alike_ofText hcase options).after count).remaining

end

end Scanner

end FormulaScript
