import FormulaScript.Lexeme.Spelling
import FormulaScript.Scanner.Basic

/-!
A whole run of a scanner. Every token before the end token lowers a measure of the work that is left,
so a run comes to the end of the text.
-/

namespace FormulaScript.Scanner

@[simp]
theorem remaining_skip (scanner : Scanner) (gap : List Gap.Piece) :
    (scanner.skip gap).remaining = scanner.remaining.drop (Gap.spelling gap).length :=
  Cursor.remaining_advanceBy _ _

@[simp]
theorem remaining_take (scanner : Scanner) (lexeme : Lexeme) (afterLineBreak : Bool) :
    (scanner.take lexeme afterLineBreak).2.remaining =
      scanner.remaining.drop lexeme.spelling.length :=
  Cursor.remaining_advanceBy _ _

theorem kind_finish (scanner : Scanner) (afterLineBreak : Bool) :
    (scanner.finish afterLineBreak).1.kind = .endOfText := by
  unfold finish
  cases scanner.part <;> rfl

/-- Twice the characters that are left, and one more where a text token may come without any. -/
def work (scanner : Scanner) : Nat :=
  2 * scanner.remaining.length + scanner.inTemplateText.toNat

theorem work_lt_of_remaining_lt {scanner next : Scanner}
    (hremaining : next.remaining.length < scanner.remaining.length) :
    next.work < scanner.work := by
  have hnext := Bool.toNat_le next.inTemplateText
  unfold work
  omega

variable [Text.Letters]

theorem work_nextInScript_lt (scanner : Scanner)
    (hkind : scanner.nextInScript.1.kind ≠ .endOfText) :
    scanner.nextInScript.2.work < scanner.work := by
  unfold nextInScript at hkind ⊢
  dsimp only at hkind ⊢
  split at hkind
  · rename_i lexeme hfirst
    refine work_lt_of_remaining_lt ?_
    have hspelling := List.length_pos_iff.mpr (Lexeme.spelling_ne_nil_of_first? hfirst)
    have hprefix := (Lexeme.spelling_isPrefix_of_first? hfirst).length_le
    rw [remaining_skip, List.length_drop] at hprefix
    rw [remaining_take, remaining_skip, List.length_drop, List.length_drop]
    omega
  · exact absurd (kind_finish _ _) hkind

omit [Text.Letters] in
theorem work_nextInText_lt (scanner : Scanner) (htext : scanner.inTemplateText)
    (hkind : scanner.nextInText.1.kind ≠ .endOfText) :
    scanner.nextInText.2.work < scanner.work := by
  unfold nextInText at hkind ⊢
  split at hkind
  · exact absurd (kind_finish _ _) hkind
  · rename_i hremaining
    rw [if_neg hremaining]
    by_cases hempty : templateText scanner.remaining = []
    · have hnext : (scanner.take (textLexeme []) false).2.remaining = scanner.remaining :=
        remaining_take _ _ _
      have hinside : (Section.substitution 0 == Section.text) = false := rfl
      dsimp only
      rw [hempty, hnext, if_neg hremaining]
      change 2 * (scanner.take (textLexeme []) false).2.remaining.length + _ < _
      rw [hnext]
      simp only [inTemplateText] at htext
      simp [work, inTemplateText, htext, hinside]
    · refine work_lt_of_remaining_lt ?_
      have hlength := List.length_pos_iff.mpr hempty
      have hpos : 0 < scanner.remaining.length := by
        simpa [List.length_pos_iff] using hremaining
      change ((scanner.take _ false).2.remaining).length < _
      rw [remaining_take, List.length_drop]
      simp only [textLexeme, Lexeme.verbatim]
      omega

theorem work_next_lt (scanner : Scanner) (hkind : scanner.next.1.kind ≠ .endOfText) :
    scanner.next.2.work < scanner.work := by
  unfold next at hkind ⊢
  split at hkind
  · rename_i htext
    rw [if_pos htext]
    exact scanner.work_nextInText_lt htext hkind
  · rename_i htext
    rw [if_neg htext]
    exact scanner.work_nextInScript_lt hkind

/-- The tokens up to and with the first end token, and the scanner after them. -/
def run (scanner : Scanner) : List Token × Scanner :=
  match _hnext : scanner.next with
  | (token, next) =>
      if _hkind : token.kind = .endOfText then ([token], next)
      else
        let (rest, last) := next.run
        (token :: rest, last)
termination_by scanner.work
decreasing_by
  have hlt := scanner.work_next_lt (by rwa [_hnext])
  rwa [_hnext] at hlt

def tokens (scanner : Scanner) : List Token :=
  scanner.run.1

end FormulaScript.Scanner
