import FormulaScript.Proofs.Lexeme.WellFormed
import FormulaScript.Proofs.Scanner.Ends
import FormulaScript.Proofs.Scanner.Wrapping

/-!
# What goes with the kind of a token

A token has the kind, the content and the flags of a lexeme, so these go together as they do there.
The places of its ends tell the rest: what the text has between them, whether it runs to the end,
and whether it takes any room at all.
-/

namespace FormulaScript

/-- A token of a text. -/
structure Token.WellFormed (source : List Char) (mode : Mode) (token : Token) : Prop where
  kind_ne_unknown : token.kind ≠ .unknown
  content : token.content.Suits token.kind
  flags : token.flags.Suit token.kind
  verbatim :
    token.kind.isVerbatim ∨ token.flags.templateText →
      token.content = .text (.ofList (Text.slice source token.span.start token.span.stop))
  ends : token.flags.unterminated → token.span.stop = Text.byteLength source
  template :
    token.flags.templateText ∨ token.kind = .punctuation .dollarOpenBrace → mode = .template
  empty :
    token.span.start = token.span.stop → token.kind = .endOfText ∨ token.flags.templateText

namespace Scanner

variable {scanner : Scanner} {source : List Char}

/-! ### The lexeme ahead -/

theorem wellFormed_textLexeme {mode : Mode} (hmode : mode = .template) (text front : List Char) :
    (textLexeme text).WellFormed mode front := by
  constructor
  · exact ⟨Token.Kind.noConfusion, rfl⟩
  · exact Token.Flags.suit_of_plain rfl rfl (by simp [textLexeme, Lexeme.verbatim]) Bool.noConfusion
  · exact fun _ => rfl
  · exact Bool.noConfusion
  · exact fun _ => hmode

theorem wellFormed_of_lexeme? {lexeme : Lexeme} (hlexeme : scanner.lexeme? = some lexeme) :
    lexeme.WellFormed scanner.options.mode scanner.front := by
  cases htext : scanner.inTemplateText with
  | true =>
      obtain ⟨-, -, hsome⟩ := lexeme?_of_text htext (by simp [hlexeme])
      obtain rfl := Option.some.inj (hlexeme.symm.trans hsome)
      exact wellFormed_textLexeme (mode_of_inTemplateText htext).1 _ _
  | false =>
      rw [lexeme?_of_script htext] at hlexeme
      exact Lexeme.wellFormed_of_first? hlexeme

/-- Only the literal text of a template may be empty. -/
theorem templateText_of_spelling_eq_nil {lexeme : Lexeme}
    (hlexeme : scanner.lexeme? = some lexeme) (hspelling : lexeme.spelling = []) :
    lexeme.flags.templateText := by
  cases htext : scanner.inTemplateText with
  | true =>
      obtain ⟨-, -, hsome⟩ := lexeme?_of_text htext (by simp [hlexeme])
      obtain rfl := Option.some.inj (hlexeme.symm.trans hsome)
      rfl
  | false =>
      rw [lexeme?_of_script htext] at hlexeme
      exact absurd hspelling (Lexeme.spelling_ne_nil_of_first? hlexeme)

/-! ### The token ahead -/

theorem slice_front (htracks : scanner.cursor.Tracks source) {middle back : List Char}
    (hfront : scanner.front = middle ++ back) :
    Text.slice source scanner.start (scanner.start + Text.byteLength middle) = middle := by
  have hskip : (scanner.skip scanner.gap).cursor.Tracks source := htracks.advanceBy _
  rw [← position_skip_gap]
  apply hskip.slice
  rw [← hfront]
  exact scanner.remaining_skip_gap

theorem start_add_front (htracks : scanner.cursor.Tracks source) :
    scanner.start + Text.byteLength scanner.front = Text.byteLength source := by
  have hskip : (scanner.skip scanner.gap).cursor.Tracks source := htracks.advanceBy _
  rw [← position_skip_gap, ← remaining_skip_gap]
  exact hskip.position_add_remaining

theorem wellFormed_tokenOf (htracks : scanner.cursor.Tracks source) {lexeme : Lexeme}
    (hlexeme : scanner.lexeme? = some lexeme) :
    (scanner.tokenOf lexeme).WellFormed source scanner.options.mode := by
  have hform := wellFormed_of_lexeme? hlexeme
  constructor
  · exact (stands_of_lexeme? hlexeme).kind_ne_unknown
  · exact hform.content
  · obtain ⟨hinserted, hlong, hhexadecimal, hone, hnotation, hquoted⟩ := hform.flags
    exact ⟨hinserted, hlong, hhexadecimal, hone, hnotation, hquoted⟩
  · intro hverbatim
    have hslice : Text.slice source (scanner.tokenOf lexeme).span.start
        (scanner.tokenOf lexeme).span.stop = lexeme.spelling :=
      slice_front htracks (front_eq_append scanner hlexeme)
    rw [hslice]
    exact hform.verbatim hverbatim
  · intro hunterminated
    have hall : lexeme.spelling = scanner.front := hform.ends hunterminated
    rw [← start_add_front htracks, ← hall]
    rfl
  · exact hform.template
  · intro hempty
    have hzero : lexeme.byteLength = 0 := Nat.add_eq_left.mp hempty.symm
    exact .inr (templateText_of_spelling_eq_nil hlexeme (Text.eq_nil_of_byteLength_eq_zero hzero))

theorem wellFormed_endToken (scanner : Scanner) :
    scanner.endToken.WellFormed source scanner.options.mode := by
  constructor
  · exact Token.Kind.noConfusion
  · exact (rfl : Token.Kind.endOfText = .endOfText)
  · exact Token.Flags.suit_of_plain rfl rfl Token.Kind.noConfusion Bool.noConfusion
  · rintro (hkind | htemplate)
    · cases hkind
    · cases htemplate
  · exact Bool.noConfusion
  · rintro (htemplate | hopening)
    · cases htemplate
    · cases hopening
  · exact fun _ => .inl rfl

theorem wellFormed_next (htracks : scanner.cursor.Tracks source) :
    scanner.next.1.WellFormed source scanner.options.mode := by
  cases hlexeme : scanner.lexeme? with
  | none =>
      rw [token_eq_endToken scanner hlexeme]
      exact wellFormed_endToken scanner
  | some lexeme =>
      rw [token_eq_tokenOf scanner hlexeme]
      exact wellFormed_tokenOf htracks hlexeme

/-! ### The front of a step -/

/-- The front is the text from the start of the token on. -/
theorem dropBytes_start_token (htracks : scanner.cursor.Tracks source) :
    Text.dropBytes scanner.next.1.span.start source = scanner.front := by
  have hskip : (scanner.skip scanner.gap).cursor.Tracks source := htracks.advanceBy _
  obtain ⟨passed, hsource, hposition, -⟩ := hskip
  have hstart : scanner.start = Text.byteLength passed :=
    (position_skip_gap scanner).symm.trans hposition
  have hfront : (scanner.skip scanner.gap).cursor.remaining = scanner.front :=
    remaining_skip_gap scanner
  rw [start_token, hstart, hsource, hfront, Text.dropBytes_byteLength_append]

/-- A token that is neither the end of the text nor text in quotation marks or outside of
substitutions comes from the lexeme at the front. -/
theorem exists_first?_of_kind (hend : scanner.next.1.kind ≠ .endOfText)
    (hstring : scanner.next.1.kind ≠ .literal .string) :
    scanner.inTemplateText = false ∧ ∃ lexeme, scanner.lexeme? = some lexeme ∧
      Lexeme.first? scanner.options scanner.front = some lexeme := by
  cases hlexeme : scanner.lexeme? with
  | none =>
      rw [token_eq_endToken scanner hlexeme] at hend
      exact absurd rfl hend
  | some lexeme =>
      cases htext : scanner.inTemplateText with
      | true =>
          obtain ⟨-, -, hsome⟩ := lexeme?_of_text htext (by simp [hlexeme])
          rw [token_eq_tokenOf scanner hsome] at hstring
          exact absurd rfl hstring
      | false => exact ⟨rfl, lexeme, rfl, (lexeme?_of_script htext).symm.trans hlexeme⟩

/-! ### All the tokens -/

theorem options_performAll (scanner : Scanner) (calls : List Call) :
    (scanner.performAll calls).options = scanner.options := by
  induction calls generalizing scanner with
  | nil => rfl
  | cons call calls ih =>
      refine (ih (scanner.perform call)).trans ?_
      cases call with
      | next => exact scanner.options_next
      | takeLineCrossed | flushDiagnostics => rfl

theorem kind_next_performAll (hremaining : scanner.remaining = []) (calls : List Call) :
    (scanner.performAll calls).next.1.kind = .endOfText := by
  have hlength := scanner.length_remaining_performAll_le calls
  rw [hremaining] at hlength
  apply (kind_token_eq_endOfText_iff _).mpr
  exact lexeme?_eq_none_of_remaining_eq_nil (List.length_eq_zero_iff.mp (Nat.le_zero.mp hlength))

theorem remaining_next_of_stop {text : String} (htracks : scanner.cursor.Tracks text.toList)
    (hstop : scanner.next.1.span.stop = Text.byteLength text.toList) :
    scanner.next.2.remaining = [] := by
  have htotal := (tracks_next htracks).position_add_remaining
  have hposition : scanner.next.2.cursor.position = Text.byteLength text.toList :=
    (position_next scanner).trans hstop
  apply Text.eq_nil_of_byteLength_eq_zero
  change Text.byteLength scanner.next.2.cursor.remaining = 0
  omega

/-- **Well-formed tokens.** Whatever was asked of a scanner before, the kind, the content, the flags
and the place of the next token go together. Behind a token that is not closed there is nothing but
the end. The text fits, so that words hold the place as it is. -/
theorem tokens_wellFormed {text : String} (hfits : Text.Fits text) (options : Options)
    (calls : List Call) :
    let scanner := (ofText text options).performAll calls
    scanner.next.1.WellFormed text.toList options.mode ∧
      (scanner.next.1.isUnterminated →
        ∀ later, (scanner.next.2.performAll later).next.1.kind = .endOfText) ∧
      scanner.next.1.wrap = scanner.next.1 ∧ scanner.HeldInWords := by
  intro scanner
  have hcharts : scanner.Charts text := (charts_ofText text options).performAll calls
  have hform : scanner.next.1.WellFormed text.toList options.mode := by
    have hnext := wellFormed_next hcharts.cursor
    rwa [options_performAll] at hnext
  refine ⟨hform, fun hunterminated => ?_, hcharts.wrap_token hfits, hcharts.heldInWords hfits⟩
  exact kind_next_performAll (remaining_next_of_stop hcharts.cursor (hform.ends hunterminated))

/-- A template literal that is never closed, behind a mark. -/
theorem tokens_wellFormed_unterminated :
    let text := "(`a"
    let scanner := (ofText text {}).performAll [.next, .takeLineCrossed]
    Text.Fits text ∧ scanner.next.1.WellFormed text.toList .script ∧
      scanner.next.1.isUnterminated ∧
      (scanner.next.2.performAll [.flushDiagnostics]).next.1.kind = .endOfText ∧
      scanner.next.1.wrap = scanner.next.1 := by
  intro text scanner
  have hfits : Text.Fits text := by decide +kernel
  have hunterminated : scanner.next.1.isUnterminated := by decide +kernel
  obtain ⟨hform, hends, hwords, -⟩ := tokens_wellFormed hfits {} [.next, .takeLineCrossed]
  exact ⟨hfits, hform, hunterminated, hends hunterminated [.flushDiagnostics], hwords⟩

end Scanner

end FormulaScript
