import FormulaScript.Proofs.Layout.Refinement
import FormulaScript.Proofs.Scanner.Case

/-!
# Layout in either case

Layout goes by the kinds, the places and the flags of tokens. The case of the text that they hold
makes no difference to it.
-/

namespace FormulaScript.Layout

theorem map_lower_withInsertion (token : Token) (insertion? : Option Insertion) :
    (withInsertion token insertion?).map Token.lower = withInsertion token.lower insertion? := by
  rcases insertion? with _ | _ | _ <;> rfl

theorem State.map_lower_complete (state : State) (tokens : List Token) :
    (state.complete tokens).map Token.lower = state.complete (tokens.map Token.lower) := by
  induction tokens generalizing state with
  | nil => rfl
  | cons token rest ih =>
      rw [complete_cons, List.map_append, ih, chunk, map_lower_withInsertion, List.map_cons,
        complete_cons, chunk]
      rfl

namespace Stream

/-- **Case.** Two texts that differ in the case of letters only have the same tokens up to the case
of the text in them, with the same places, flags and numbers, and the same diagnostics and lines.
The layout of the two is the same as well. -/
theorem case_ignored {text text' : String}
    (hcase : Text.lower text'.toList = Text.lower text.toList) (options : Options) :
    let left := Scanner.ofText text options
    let right := Scanner.ofText text' options
    (∀ count,
      (right.firstTokens count).map Token.lower = (left.firstTokens count).map Token.lower ∧
        (right.after count).diagnostics = (left.after count).diagnostics ∧
        (right.after count).lines = (left.after count).lines) ∧
      right.tokens.map Token.lower = left.tokens.map Token.lower ∧
      right.run.2.diagnostics = left.run.2.diagnostics ∧
      right.run.2.lines = left.run.2.lines ∧
      (ofText text' options).tokens.map Token.lower =
        (ofText text options).tokens.map Token.lower := by
  intro left right
  have halike : Scanner.Alike left right := Scanner.alike_ofText hcase options
  obtain ⟨htokens, hlast⟩ := halike.run
  refine ⟨fun count => ⟨?_, ?_, ?_⟩, htokens, ?_, ?_, ?_⟩
  · exact halike.map_lower_firstTokens count
  · exact Array.toList_inj.mp (halike.after count).diagnostics
  · exact Scanner.lines_after_ofText hcase options count
  · exact Array.toList_inj.mp hlast.diagnostics
  · rw [Scanner.run_eq, Scanner.run_eq, halike.length_body]
    exact Scanner.lines_after_ofText hcase options _
  · rw [ofText_tokens, ofText_tokens, State.map_lower_complete, State.map_lower_complete, htokens]

/-- A keyword and a hexadecimal literal, with the letters of each in either case. -/
theorem case_ignored_keyword_hexadecimal :
    Text.lower ("iF 0xFl").toList = Text.lower ("If 0XfL").toList ∧
      (ofText "iF 0xFl" {}).tokens.map Token.lower =
        (ofText "If 0XfL" {}).tokens.map Token.lower := by
  have hcase : Text.lower ("iF 0xFl").toList = Text.lower ("If 0XfL").toList := by decide
  exact ⟨hcase, (case_ignored hcase {}).2.2.2.2⟩

end Stream

end FormulaScript.Layout
