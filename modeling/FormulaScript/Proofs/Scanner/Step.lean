import FormulaScript.Proofs.Gap.Spelling
import FormulaScript.Proofs.Text.Cursor
import FormulaScript.Scanner.Run

/-!
# One step of a scanner

A scanner skips a gap and takes the lexeme behind it, or finds the end of the text there. In the
literal text of a template there are no gaps, and all of the text up to the next substitution is one
lexeme. What is said here about a step does not depend on where the scanner stands.
-/

namespace FormulaScript

namespace Scanner

theorem remaining_ofText (text : String) (options : Options) :
    (ofText text options).remaining = text.toList := by
  change text.toList.head?.elim [] (· :: ([] ++ text.toList.tail)) = text.toList
  cases text.toList <;> rfl

theorem position_ofText (text : String) (options : Options) :
    (ofText text options).position = 0 := rfl

theorem templateText_isPrefix (characters : List Char) :
    templateText characters <+: characters := by
  fun_induction templateText characters with
  | case1 => exact List.nil_prefix
  | case2 c rest _ ih => simpa using ih
  | case3 => exact List.nil_prefix

variable (scanner : Scanner)

@[simp]
theorem position_skip (gap : List Gap.Piece) :
    (scanner.skip gap).position =
      scanner.position + Text.byteLength (scanner.remaining.take (Gap.spelling gap).length) :=
  Cursor.position_advanceBy _ _

@[simp]
theorem position_take (lexeme : Lexeme) (afterLineBreak : Bool) :
    (scanner.take lexeme afterLineBreak).2.position =
      scanner.position + Text.byteLength (scanner.remaining.take lexeme.spelling.length) :=
  Cursor.position_advanceBy _ _

@[simp]
theorem skip_nil : scanner.skip [] = scanner := by
  obtain ⟨options, cursor, part, lineCrossed, diagnostics⟩ := scanner
  simp [skip, report, consume, Gap.diagnostics, Gap.spelling, Gap.crossesLine, Cursor.advanceBy]

variable {scanner} in
theorem inTemplateText_of_script (hmode : scanner.options.mode = .script) :
    scanner.inTemplateText = false := by
  rw [inTemplateText, hmode]
  rfl

variable [Text.Letters]

/-- What stands between the cursor and the next token. -/
def gap : List Gap.Piece :=
  if scanner.inTemplateText then [] else Gap.read scanner.options scanner.remaining

/-- The text from the next token on. -/
def front : List Char :=
  scanner.remaining.drop (Gap.spelling scanner.gap).length

def start : Nat :=
  scanner.position + Text.byteLength (Gap.spelling scanner.gap)

/-- The lexeme of the next token, `none` at the end of the text. -/
def lexeme? : Option Lexeme :=
  if scanner.inTemplateText then
    if scanner.front.isEmpty then none else some (textLexeme (templateText scanner.front))
  else Lexeme.first? scanner.options scanner.front

theorem spelling_gap_append_front :
    Gap.spelling scanner.gap ++ scanner.front = scanner.remaining := by
  have hpart : Gap.spelling scanner.gap <+: scanner.remaining := by
    unfold gap
    split
    · exact List.nil_prefix
    · exact Gap.spelling_read_isPrefix _ _
  obtain ⟨rest, hrest⟩ := hpart
  rw [front, ← hrest, List.drop_left]

variable {scanner}

theorem spelling_isPrefix_front {lexeme : Lexeme} (hlexeme : scanner.lexeme? = some lexeme) :
    lexeme.spelling <+: scanner.front := by
  unfold lexeme? at hlexeme
  split_ifs at hlexeme
  · obtain rfl := Option.some.inj hlexeme
    exact templateText_isPrefix _
  · exact Lexeme.spelling_isPrefix_of_first? hlexeme

theorem front_eq_nil_of_lexeme?_eq_none (hlexeme : scanner.lexeme? = none) :
    scanner.front = [] := by
  unfold lexeme? at hlexeme
  split_ifs at hlexeme with htext hempty
  · simpa using hempty
  · by_contra hfront
    have hgap : Gap.first? scanner.options scanner.front = none := by
      have hdrop := Gap.first?_drop_read scanner.options scanner.remaining
      rwa [front, gap, if_neg htext]
    obtain ⟨c, rest, hcons⟩ := List.exists_cons_of_ne_nil hfront
    rw [hcons] at hlexeme hgap
    unfold Gap.first? at hgap
    split at hgap <;> simp_all

variable (scanner)

theorem remaining_skip_gap : (scanner.skip scanner.gap).remaining = scanner.front :=
  remaining_skip _ _

theorem position_skip_gap : (scanner.skip scanner.gap).position = scanner.start := by
  have htake : scanner.remaining.take (Gap.spelling scanner.gap).length =
      Gap.spelling scanner.gap := by
    rw [← spelling_gap_append_front, List.take_left]
  rw [position_skip, htake, start]

/-- The section after the lexeme of the next token, given the text behind it. -/
def partAfter (lexeme : Lexeme) (rest : List Char) : Section :=
  if scanner.inTemplateText then if rest.isEmpty then .text else .substitution 0
  else scanner.part.after lexeme.kind

theorem next_of_lexeme {lexeme : Lexeme} (hlexeme : scanner.lexeme? = some lexeme) :
    scanner.next =
      (((scanner.skip scanner.gap).take lexeme (Gap.crossesLine scanner.gap)).1,
        { ((scanner.skip scanner.gap).take lexeme (Gap.crossesLine scanner.gap)).2 with
          part := scanner.partAfter lexeme (scanner.front.drop lexeme.spelling.length) }) := by
  unfold lexeme? at hlexeme
  unfold next
  split_ifs at hlexeme ⊢ with htext hempty
  · obtain rfl := Option.some.inj hlexeme
    have hgap : scanner.gap = [] := if_pos htext
    have hfront : scanner.front = scanner.remaining := by simp [front, hgap]
    rw [hfront] at hempty
    simp [nextInText, hempty, hgap, hfront, partAfter, htext, Gap.crossesLine]
  · have hgap : scanner.gap = Gap.read scanner.options scanner.remaining := if_neg htext
    rw [← remaining_skip_gap] at hlexeme
    have hoptions : (scanner.skip scanner.gap).options = scanner.options := rfl
    rw [nextInScript, ← hgap, hoptions, hlexeme]
    simp [partAfter, htext, take, report, consume, skip]

theorem next_of_end (hlexeme : scanner.lexeme? = none) :
    scanner.next = (scanner.skip scanner.gap).finish (Gap.crossesLine scanner.gap) := by
  unfold lexeme? at hlexeme
  unfold next
  split_ifs at hlexeme ⊢ with htext hempty
  · have hgap : scanner.gap = [] := if_pos htext
    have hfront : scanner.front = scanner.remaining := by simp [front, hgap]
    rw [hfront] at hempty
    simp [nextInText, hempty, hgap, Gap.crossesLine]
  · have hgap : scanner.gap = Gap.read scanner.options scanner.remaining := if_neg htext
    rw [← remaining_skip_gap] at hlexeme
    have hoptions : (scanner.skip scanner.gap).options = scanner.options := rfl
    rw [nextInScript, ← hgap, hoptions, hlexeme]

/-! ### The token of a step -/

def tokenOf (lexeme : Lexeme) : Token where
  kind := lexeme.kind
  span := ⟨scanner.start, scanner.start + lexeme.byteLength⟩
  content := lexeme.content
  flags := { lexeme.flags with afterLineBreak := Gap.crossesLine scanner.gap }

def endToken : Token where
  kind := .endOfText
  span := .empty scanner.start
  flags := { afterLineBreak := Gap.crossesLine scanner.gap }

theorem token_eq_tokenOf {lexeme : Lexeme} (hlexeme : scanner.lexeme? = some lexeme) :
    scanner.next.1 = scanner.tokenOf lexeme := by
  rw [next_of_lexeme scanner hlexeme, take, position_skip_gap, tokenOf]

theorem token_eq_endToken (hlexeme : scanner.lexeme? = none) :
    scanner.next.1 = scanner.endToken := by
  rw [next_of_end scanner hlexeme, finish, position_skip_gap, endToken]
  split <;> rfl

theorem start_token : scanner.next.1.span.start = scanner.start := by
  cases hlexeme : scanner.lexeme? with
  | none => rw [token_eq_endToken scanner hlexeme]; rfl
  | some lexeme => rw [token_eq_tokenOf scanner hlexeme]; rfl

theorem afterLineBreak_token :
    scanner.next.1.flags.afterLineBreak = Gap.crossesLine scanner.gap := by
  cases hlexeme : scanner.lexeme? with
  | none => rw [token_eq_endToken scanner hlexeme]; rfl
  | some lexeme => rw [token_eq_tokenOf scanner hlexeme]; rfl

/-! ### The scanner after a step -/

@[simp]
theorem options_next : scanner.next.2.options = scanner.options := by
  cases hlexeme : scanner.lexeme? with
  | none =>
      rw [next_of_end scanner hlexeme, finish]
      split <;> rfl
  | some lexeme => rw [next_of_lexeme scanner hlexeme]; rfl

theorem lineCrossed_next :
    scanner.next.2.lineCrossed =
      (scanner.lineCrossed || scanner.next.1.flags.afterLineBreak) := by
  rw [afterLineBreak_token]
  cases hlexeme : scanner.lexeme? with
  | none =>
      rw [next_of_end scanner hlexeme, finish]
      split <;> rfl
  | some lexeme => rw [next_of_lexeme scanner hlexeme]; rfl

theorem remaining_next_of_lexeme {lexeme : Lexeme} (hlexeme : scanner.lexeme? = some lexeme) :
    scanner.next.2.remaining = scanner.front.drop lexeme.spelling.length := by
  rw [next_of_lexeme scanner hlexeme, ← remaining_skip_gap]
  exact remaining_take _ lexeme (Gap.crossesLine scanner.gap)

theorem front_eq_append {lexeme : Lexeme} (hlexeme : scanner.lexeme? = some lexeme) :
    scanner.front = lexeme.spelling ++ scanner.next.2.remaining := by
  obtain ⟨rest, hrest⟩ := spelling_isPrefix_front hlexeme
  rw [remaining_next_of_lexeme scanner hlexeme, ← hrest, List.drop_left]

theorem remaining_next_of_end (hlexeme : scanner.lexeme? = none) :
    scanner.next.2.remaining = [] := by
  rw [next_of_end scanner hlexeme, finish]
  split <;> exact (remaining_skip_gap scanner).trans (front_eq_nil_of_lexeme?_eq_none hlexeme)

theorem position_next : scanner.next.2.position = scanner.next.1.span.stop := by
  cases hlexeme : scanner.lexeme? with
  | none =>
      rw [token_eq_endToken scanner hlexeme, next_of_end scanner hlexeme, finish]
      split <;> exact position_skip_gap scanner
  | some lexeme =>
      have htake : scanner.front.take lexeme.spelling.length = lexeme.spelling := by
        rw [front_eq_append scanner hlexeme, List.take_left]
      rw [token_eq_tokenOf scanner hlexeme, next_of_lexeme scanner hlexeme]
      change ((scanner.skip scanner.gap).take lexeme (Gap.crossesLine scanner.gap)).2.position = _
      rw [position_take, position_skip_gap, remaining_skip_gap, htake]
      rfl

theorem part_next_of_lexeme {lexeme : Lexeme} (hlexeme : scanner.lexeme? = some lexeme) :
    scanner.next.2.part = scanner.partAfter lexeme scanner.next.2.remaining := by
  rw [remaining_next_of_lexeme scanner hlexeme, next_of_lexeme scanner hlexeme]

theorem part_next_of_end (hlexeme : scanner.lexeme? = none) :
    scanner.next.2.part = .text := by
  rw [next_of_end scanner hlexeme, finish]
  split <;> simp_all [skip, report, consume]

/-- A token stands behind the cursor, and the cursor moves to its end. -/
theorem position_le_start_token : scanner.position ≤ scanner.next.1.span.start := by
  rw [start_token, start]
  exact Nat.le_add_right _ _

theorem start_le_stop_token : scanner.next.1.span.start ≤ scanner.next.1.span.stop := by
  cases hlexeme : scanner.lexeme? with
  | none => rw [token_eq_endToken scanner hlexeme]; exact Nat.le_refl _
  | some lexeme => rw [token_eq_tokenOf scanner hlexeme]; exact Nat.le_add_right _ _

theorem start_le_position_next : scanner.start ≤ scanner.next.2.position := by
  rw [position_next, ← start_token]
  exact start_le_stop_token scanner

/-- The end token stands at the end of the text. -/
theorem start_of_end (hlexeme : scanner.lexeme? = none) :
    scanner.start = scanner.position + Text.byteLength scanner.remaining := by
  rw [start, ← spelling_gap_append_front, front_eq_nil_of_lexeme?_eq_none hlexeme, List.append_nil]

/-! ### The spelling of the next token -/

/-- The spelling of the next token, empty at the end of the text. -/
def lexemeSpelling (scanner : Scanner) : List Char :=
  scanner.lexeme?.elim [] Lexeme.spelling

theorem lexemeSpelling_of_lexeme {lexeme : Lexeme} (hlexeme : scanner.lexeme? = some lexeme) :
    scanner.lexemeSpelling = lexeme.spelling := by
  rw [lexemeSpelling, hlexeme]
  rfl

theorem exists_lexeme_of_remaining_next (hremaining : scanner.next.2.remaining ≠ []) :
    ∃ lexeme, scanner.lexeme? = some lexeme := by
  rw [← Option.ne_none_iff_exists']
  intro hnone
  exact hremaining (remaining_next_of_end scanner hnone)

theorem front_eq_lexemeSpelling_append :
    scanner.front = scanner.lexemeSpelling ++ scanner.next.2.remaining := by
  rw [lexemeSpelling]
  cases hlexeme : scanner.lexeme? with
  | none =>
      rw [front_eq_nil_of_lexeme?_eq_none hlexeme, remaining_next_of_end scanner hlexeme]
      rfl
  | some lexeme => exact front_eq_append scanner hlexeme

theorem remaining_next_eq_drop :
    scanner.next.2.remaining = scanner.front.drop scanner.lexemeSpelling.length := by
  rw [front_eq_lexemeSpelling_append, List.drop_left]

theorem position_next_eq :
    scanner.next.2.position = scanner.start + Text.byteLength scanner.lexemeSpelling := by
  rw [position_next, lexemeSpelling]
  cases hlexeme : scanner.lexeme? with
  | none =>
      rw [token_eq_endToken scanner hlexeme]
      rfl
  | some lexeme =>
      rw [token_eq_tokenOf scanner hlexeme]
      rfl

theorem remaining_eq_append :
    scanner.remaining =
      Gap.spelling scanner.gap ++ (scanner.lexemeSpelling ++ scanner.next.2.remaining) := by
  rw [← front_eq_lexemeSpelling_append, spelling_gap_append_front]

/-- The end of the text stays where it is. -/
theorem position_add_byteLength_next :
    scanner.next.2.position + Text.byteLength scanner.next.2.remaining =
      scanner.position + Text.byteLength scanner.remaining := by
  rw [remaining_eq_append scanner, position_next_eq, start]
  simp only [Text.byteLength_append]
  omega

/-! ### Outside the literal text of a template -/

section

variable {scanner}

theorem gap_of_script (htext : scanner.inTemplateText = false) :
    scanner.gap = Gap.read scanner.options scanner.remaining := by
  simp [gap, htext]

theorem lexeme?_of_script (htext : scanner.inTemplateText = false) :
    scanner.lexeme? = Lexeme.first? scanner.options scanner.front := by
  simp [lexeme?, htext]

theorem first?_front_of_script (htext : scanner.inTemplateText = false) :
    Gap.first? scanner.options scanner.front = none := by
  rw [front, gap_of_script htext]
  exact Gap.first?_drop_read _ _

end

/-! ### The same step of two scanners -/

section

variable {left right : Scanner} {lexeme : Lexeme}

theorem token_eq_of_lexeme? (hposition : right.position = left.position)
    (hgap : right.gap = left.gap) (hlexeme : left.lexeme? = some lexeme)
    (hlexeme' : right.lexeme? = some lexeme) : right.next.1 = left.next.1 := by
  have hstart : right.start = left.start := by rw [start, start, hgap, hposition]
  rw [token_eq_tokenOf right hlexeme', token_eq_tokenOf left hlexeme, tokenOf, tokenOf, hstart,
    hgap]

/-- The section behind a lexeme does not depend on what follows, as long as something does. -/
theorem part_next_eq_of_lexeme? (hoptions : right.options = left.options)
    (hpart : right.part = left.part) (hlexeme : left.lexeme? = some lexeme)
    (hlexeme' : right.lexeme? = some lexeme) (hleft : left.next.2.remaining ≠ [])
    (hright : right.next.2.remaining ≠ []) : right.next.2.part = left.next.2.part := by
  have htext : right.inTemplateText = left.inTemplateText := by
    rw [inTemplateText, hoptions, hpart, inTemplateText]
  have hempty : right.next.2.remaining.isEmpty = left.next.2.remaining.isEmpty := by
    rw [List.isEmpty_eq_false_iff.mpr hleft, List.isEmpty_eq_false_iff.mpr hright]
  rw [part_next_of_lexeme right hlexeme', part_next_of_lexeme left hlexeme, partAfter, partAfter,
    htext, hpart, hempty]

end

end Scanner

end FormulaScript
