import FormulaScript.Proofs.Layout.Pulls
import FormulaScript.Proofs.Layout.Wrapping
import FormulaScript.Proofs.Scanner.Splice

/-!
# An inserted semicolon is as good as a written one

Where a stream inserts a semicolon in front of a token, it may be written into the text instead: the
stream over the new text hands out tokens of the same kinds.
-/

namespace FormulaScript.Layout

/-! ### Completing tokens by their kinds -/

namespace State

variable {state : State} {kind : Token.Kind} {lineCrossed : Bool}

theorem map_kind_complete_cons (state : State) (token : Token) (rest : List Token) :
    (state.complete (token :: rest)).map Token.kind =
      withMark token.kind
          ((state.rule? token.kind token.flags.afterLineBreak).map Rule.insertion) ++
        ((state.follow token.kind token.flags.afterLineBreak).complete rest).map Token.kind := by
  rw [complete_cons, List.map_append, chunk, map_kind_withInsertion]

theorem map_kind_complete_shift (state : State) (offset : Nat) (tokens : List Token) :
    (state.complete (tokens.map (·.shift offset))).map Token.kind =
      (state.complete tokens).map Token.kind := by
  induction tokens generalizing state with
  | nil => rfl
  | cons token rest ih =>
      rw [List.map_cons, map_kind_complete_cons, map_kind_complete_cons, ih]
      rfl

theorem follow_semicolon (state : State) (lineCrossed : Bool) :
    state.follow (.punctuation .semicolon) lineCrossed =
      { state with last := .punctuation .semicolon } := by
  simp [follow, count, countParen, Nesting.countBrace, Nesting.countBracket, lastAfter]

/-- Once a semicolon stands in front of it, a token that called for one calls for nothing. -/
theorem rule?_after_semicolon
    (hrule : state.rule? kind lineCrossed = some .separator ∨
      state.rule? kind lineCrossed = some .exportBoundary) :
    { state with last := .punctuation .semicolon : State }.rule? kind false = none := by
  have hkind : kind ≠ .punctuation .closeBrace ∧ kind ≠ .punctuation .closeParen ∧
      kind ≠ .punctuation .closeBracket := by
    rcases hrule with hrule | hrule
    · have hbegins := ((separates_eq_true_iff _ _ _).mp (applies_of_rule? hrule)).2.2.1
      refine ⟨?_, ?_, ?_⟩ <;> rintro rfl <;> cases hbegins
    · obtain ⟨rfl, -⟩ : kind = _ ∧ _ := applies_of_rule? hrule
      decide
  simp [rule?, separates, hkind]

theorem follow_after_semicolon
    (hrule : state.rule? kind lineCrossed = some .separator ∨
      state.rule? kind lineCrossed = some .exportBoundary) :
    { state with last := .punctuation .semicolon : State }.follow kind false =
      state.follow kind lineCrossed := by
  obtain ⟨rule, hsome, hcount, hlast⟩ : ∃ rule, state.rule? kind lineCrossed = some rule ∧
      state.count (some rule) kind = state.count none kind ∧
        lastAfter kind (some rule.insertion) = kind := by
    rcases hrule with hrule | hrule
    · exact ⟨.separator, hrule, count_eq_count_none state kind rfl, rfl⟩
    · exact ⟨.exportBoundary, hrule, count_eq_count_none state kind rfl, rfl⟩
  rw [follow, rule?_after_semicolon hrule, follow, hsome, hcount, Option.map_some, hlast]
  rfl

/-- A semicolon in front of a token that called for one, which then stands on the line of the
semicolon. -/
theorem map_kind_complete_semicolon {semicolon token token' : Token} {rest : List Token}
    {offset : Nat}
    (hrule : state.rule? token.kind token.flags.afterLineBreak = some .separator ∨
      state.rule? token.kind token.flags.afterLineBreak = some .exportBoundary)
    (hsemicolon : semicolon.kind = .punctuation .semicolon) (hkind : token'.kind = token.kind)
    (hline : token'.flags.afterLineBreak = false) :
    (state.complete (semicolon :: token' :: rest.map (·.shift offset))).map Token.kind =
      (state.complete (token :: rest)).map Token.kind := by
  have hmarks : withMark token.kind
      ((state.rule? token.kind token.flags.afterLineBreak).map Rule.insertion) =
        [.punctuation .semicolon, token.kind] := by
    rcases hrule with hrule | hrule <;> rw [hrule] <;> rfl
  rw [map_kind_complete_cons, map_kind_complete_cons, map_kind_complete_cons, hsemicolon, hkind,
    hline, follow_semicolon, rule?_after_semicolon hrule, follow_after_semicolon hrule, hmarks,
    map_kind_complete_shift, rule?_semicolon]
  rfl

/-- No semicolon is called for in the literal text of a template, or in front of a substitution. -/
theorem inScript_of_rule? {scanner : Scanner}
    (hrule : state.rule? scanner.next.1.kind scanner.next.1.flags.afterLineBreak =
        some .separator ∨
      state.rule? scanner.next.1.kind scanner.next.1.flags.afterLineBreak =
        some .exportBoundary) :
    scanner.InScript := by
  have hlexeme : scanner.lexeme? ≠ none := by
    rw [Ne, ← Scanner.kind_token_eq_endOfText_iff]
    intro hkind
    simp [hkind] at hrule
  have happlies := hrule.imp applies_of_rule? applies_of_rule?
  simp only [Applies, separates_eq_true_iff] at happlies
  refine ⟨hlexeme, ?_, ?_⟩
  · by_contra htext
    rw [Bool.not_eq_false] at htext
    obtain ⟨hgap, -, hsome⟩ := Scanner.lexeme?_of_text htext hlexeme
    rcases happlies with ⟨hline, -⟩ | ⟨hkind, -⟩
    · rw [Scanner.afterLineBreak_token, hgap] at hline
      cases hline
    · rw [Scanner.token_eq_tokenOf scanner hsome] at hkind
      cases hkind
  · intro hkind
    rw [hkind] at happlies
    rcases happlies with ⟨-, -, hbegins, -⟩ | ⟨hexport, -⟩
    · cases hbegins
    · cases hexport

end State

/-! ### The tokens of a stream -/

namespace Stream

/-- **A written semicolon.** Where a stream inserts a semicolon between statements on different
lines or in front of an export, a semicolon in the text leads to tokens of the same kinds. While the
text with the semicolon has less than `2 ^ 31` bytes, words hold all of both streams as it is. -/
theorem written_semicolon {text : String} {options : Options} {count : Nat}
    (hwaiting : ((ofText text options).after count).waiting = none)
    (hrule : ((ofText text options).after count).rule? = some .separator ∨
      ((ofText text options).after count).rule? = some .exportBoundary) :
    let offset := ((ofText text options).after count).upcoming.span.start
    ((ofText text options).after count).pull.1 = .inserted (.punctuation .semicolon) offset ∧
      (ofText (Scanner.withSemicolon text offset) options).tokens.map Token.kind =
        (ofText text options).tokens.map Token.kind ∧
      (Text.byteLength text.toList + 1 < 2 ^ 31 →
        (ofText text options).HeldInWords ∧
          (ofText (Scanner.withSemicolon text offset) options).HeldInWords) := by
  intro offset
  obtain ⟨steps, hcompletes⟩ : ∃ steps,
      (ofText text options).Completes (.ofText text options) count steps :=
    ofScanner_exists_completes _ count
  obtain ⟨hstate, hsettled⟩ := hcompletes.state hwaiting
  have hupcoming : ((ofText text options).after count).upcoming =
      ((Scanner.ofText text options).after steps).next.1 := hcompletes.agree.token
  have hoffset : offset = ((Scanner.ofText text options).after steps).start :=
    (congrArg (·.span.start) hupcoming).trans (Scanner.start_token _)
  refine ⟨?_, ?_, fun hlength => ?_⟩
  · rw [pull_of_not_waiting hwaiting]
    rcases hrule with hrule | hrule <;> rw [hrule] <;> rfl
  · rw [rule?_eq hsettled, hupcoming, hstate] at hrule
    obtain ⟨semicolon, token, htokens, htokens', hsemicolon, hkind, hline⟩ :=
      Scanner.exists_tokens_withSemicolon (State.inScript_of_rule? hrule)
    rw [ofText_tokens, ofText_tokens, hoffset, htokens, htokens', State.complete_append,
      State.complete_append, List.map_append, List.map_append]
    congr 1
    exact State.map_kind_complete_semicolon hrule hsemicolon hkind hline
  · exact ⟨heldInWords_ofText options (Nat.lt_of_succ_lt hlength), heldInWords_ofText options
      ((Scanner.byteLength_withSemicolon text offset).trans_lt hlength)⟩

/-- Two names on different lines. -/
theorem written_semicolon_between_names :
    (ofText (Scanner.withSemicolon "a\nb" 2) {}).tokens.map Token.kind =
        (ofText "a\nb" {}).tokens.map Token.kind ∧
      (ofText (Scanner.withSemicolon "a\nb" 2) {}).HeldInWords := by
  have hwaiting : ((ofText "a\nb" {}).after 1).waiting = none := by decide +kernel
  have hrule : ((ofText "a\nb" {}).after 1).rule? = some .separator := by decide +kernel
  have hoffset : ((ofText "a\nb" {}).after 1).upcoming.span.start = 2 := by decide +kernel
  obtain ⟨-, hkinds, hheld⟩ := written_semicolon hwaiting (.inl hrule)
  obtain ⟨-, hheld⟩ := hheld (by decide)
  rw [hoffset] at hkinds hheld
  exact ⟨hkinds, hheld⟩

end Stream

end FormulaScript.Layout
