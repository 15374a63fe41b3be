import FormulaScript.Proofs.Gap.Pieces
import FormulaScript.Proofs.Scanner.Calls
import Mathlib.Data.List.DropRight

/-!
# Line breaks in front of tokens

A token is marked when a line ends between the token before it and its own beginning. The lines that
end within tokens are no matter, since the gaps do not reach into them. A scanner remembers that it
marked a token until the mark is taken.
-/

namespace FormulaScript.Scanner

/-- The tokens that calls hand out, in order. -/
def returnedTokens (scanner : Scanner) : List Call → List Token
  | [] => []
  | call :: calls => (scanner.returned? call).toList ++ (scanner.perform call).returnedTokens calls

theorem position_perform (scanner : Scanner) (call : Call) :
    (scanner.perform call).position =
      (scanner.returned? call).elim scanner.position (·.span.stop) := by
  cases call with
  | next => exact position_next scanner
  | takeLineCrossed => rfl
  | flushDiagnostics => rfl

theorem performAll_append (scanner : Scanner) (calls later : List Call) :
    scanner.performAll (calls ++ later) = (scanner.performAll calls).performAll later :=
  List.foldl_append

/-- A scanner stands where the last token that was handed out ends. -/
theorem position_performAll (scanner : Scanner) (calls : List Call) :
    (scanner.performAll calls).position =
      (scanner.returnedTokens calls).getLast?.elim scanner.position (·.span.stop) := by
  induction calls generalizing scanner with
  | nil => rfl
  | cons call calls ih =>
      calc (scanner.performAll (call :: calls)).position
          = ((scanner.perform call).returnedTokens calls).getLast?.elim
              (scanner.perform call).position (·.span.stop) := ih _
        _ = (scanner.returnedTokens (call :: calls)).getLast?.elim scanner.position
              (·.span.stop) := by
            rw [returnedTokens, List.getLast?_append, position_perform]
            cases ((scanner.perform call).returnedTokens calls).getLast? <;>
              cases scanner.returned? call <;> rfl

theorem lineCrossed_perform (scanner : Scanner) {call : Call} (hcall : call ≠ .takeLineCrossed) :
    (scanner.perform call).lineCrossed =
      (scanner.lineCrossed || (scanner.returned? call).any Token.followsLineBreak) := by
  cases call with
  | next => exact lineCrossed_next scanner
  | takeLineCrossed => exact absurd rfl hcall
  | flushDiagnostics => exact (Bool.or_false _).symm

/-- As long as the mark is not taken, it is remembered. -/
theorem lineCrossed_performAll (scanner : Scanner) {calls : List Call}
    (hcalls : .takeLineCrossed ∉ calls) :
    (scanner.performAll calls).lineCrossed =
      (scanner.lineCrossed || (scanner.returnedTokens calls).any Token.followsLineBreak) := by
  induction calls generalizing scanner with
  | nil => exact (Bool.or_false _).symm
  | cons call calls ih =>
      obtain ⟨hcall, hrest⟩ := not_or.mp (List.mem_cons.not.mp hcalls)
      calc (scanner.performAll (call :: calls)).lineCrossed
          = ((scanner.perform call).lineCrossed ||
              ((scanner.perform call).returnedTokens calls).any Token.followsLineBreak) :=
            ih _ hrest
        _ = (scanner.lineCrossed ||
              (scanner.returnedTokens (call :: calls)).any Token.followsLineBreak) := by
            rw [lineCrossed_perform scanner (Ne.symm hcall), returnedTokens, List.any_append,
              Bool.or_assoc]
            cases scanner.returned? call <;> simp

/-- Nothing is remembered before the first call, or right after the mark was taken. -/
theorem lineCrossed_of_taken (text : String) (options : Options) {calls : List Call}
    (hlast : ∀ call ∈ calls.getLast?, call = .takeLineCrossed) :
    ((ofText text options).performAll calls).lineCrossed = false := by
  cases hcalls : calls.getLast? with
  | none =>
      rw [List.getLast?_eq_none_iff.mp hcalls]
      rfl
  | some call =>
      obtain ⟨front, rfl⟩ := List.getLast?_eq_some_iff.mp hcalls
      rw [hlast call hcalls, performAll_append]
      rfl

/-- The gap in front of the next token is cut out of the text by the places of its ends. -/
theorem slice_gap {text : String} {scanner : Scanner}
    (htracks : scanner.cursor.Tracks text.toList) :
    Text.slice text.toList scanner.position scanner.next.1.span.start =
      Gap.spelling scanner.gap := by
  rw [start_token]
  exact htracks.slice scanner.spelling_gap_append_front.symm

/-- **Line breaks.** Whatever was asked of a scanner before, the next token is marked when a line ends
in the text between the last token that was handed out and its own beginning. When the mark is asked
for, the answer tells of all tokens that were handed out since it was asked for last. -/
theorem line_breaks_noticed (text : String) (options : Options) (calls : List Call) :
    let fresh := ofText text options
    let scanner := fresh.performAll calls
    let token := scanner.next.1
    let previous := (fresh.returnedTokens calls).getLast?.elim 0 (·.span.stop)
    let answered := fresh.performAll (calls.rdropWhile (· ≠ .takeLineCrossed))
    let latest := calls.rtakeWhile (· ≠ .takeLineCrossed)
    previous ≤ token.span.start ∧
      (token.followsLineBreak ↔
        ∃ c ∈ Text.slice text.toList previous token.span.start, c = '\n' ∨ c = '\r') ∧
      (scanner.takeLineCrossed.1 = true ↔
        ∃ token ∈ answered.returnedTokens latest, token.followsLineBreak) := by
  intro fresh scanner token previous answered latest
  have hprevious : scanner.position = previous := position_performAll fresh calls
  have hcharts : scanner.Charts text := (charts_ofText text options).performAll calls
  refine ⟨?_, ?_, ?_⟩
  · rw [← hprevious]
    exact position_le_start_token scanner
  · rw [← hprevious, slice_gap hcharts.cursor, ← scanner.standsBefore_gap.crossesLine_iff,
      Token.followsLineBreak, afterLineBreak_token]
  · have hanswered : answered.lineCrossed = false := by
      apply lineCrossed_of_taken
      intro call hcall
      have hne : calls.rdropWhile (· ≠ .takeLineCrossed) ≠ [] := by
        rintro hnil
        rw [hnil] at hcall
        cases hcall
      rw [List.getLast?_eq_some_getLast hne] at hcall
      obtain rfl := Option.some.inj hcall
      simpa using List.rdropWhile_last_not _ _ hne
    have hlatest : .takeLineCrossed ∉ latest := by
      intro hmem
      simpa using List.mem_rtakeWhile_imp hmem
    have hscanner : scanner = answered.performAll latest := by
      rw [← performAll_append, List.rdropWhile_append_rtakeWhile]
    rw [takeLineCrossed, hscanner, lineCrossed_performAll answered hlatest, hanswered,
      Bool.false_or, List.any_eq_true]

end FormulaScript.Scanner
