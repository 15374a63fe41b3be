import FormulaScript.Proofs.Lexeme.Quoted
import FormulaScript.Proofs.Scanner.WellFormed

/-!
# Quoted text in a scanner

Between the ends of a literal in quotation marks the text has its value with the marks and escapes
put back in, and a scanner that is given such a text in front of some more reads the value again.
-/

namespace FormulaScript

/-- A literal in quotation marks, which the literal text of a template is not. -/
def Token.IsQuoted (token : Token) : Prop :=
  (token.kind = .literal .string ∧ token.flags.templateText = false) ∨
    token.kind = .literal .template

/-- The token is what a text has between two offsets: a value between two marks, or behind one of
them up to the end of the text. -/
structure Token.Quotes (source : List Char) (quote : Quote) (value : List Char) (token : Token) :
    Prop where
  kind : token.kind = .literal quote.literal
  content : token.content = .text (.ofList value)
  slice :
    Text.slice source token.span.start token.span.stop =
      quote.mark :: quote.encode value ++ if token.isUnterminated then [] else [quote.mark]
  ends : token.isUnterminated → token.span.stop = Text.byteLength source
  single : quote = .single → quote.mark ∉ value

namespace Scanner

variable {scanner : Scanner} {source : List Char}

theorem exists_quote_of_lexeme? {lexeme : Lexeme} (hlexeme : scanner.lexeme? = some lexeme)
    (hquoted : (scanner.tokenOf lexeme).IsQuoted) :
    ∃ quote rest, scanner.front = quote.mark :: rest ∧
      lexeme = (Quoted.read quote rest).lexeme quote := by
  cases htext : scanner.inTemplateText with
  | true =>
      obtain ⟨-, -, hsome⟩ := lexeme?_of_text htext (by simp [hlexeme])
      obtain rfl := Option.some.inj (hlexeme.symm.trans hsome)
      rcases hquoted with ⟨-, hplain⟩ | hkind
      · cases hplain
      · cases hkind
  | false =>
      rw [lexeme?_of_script htext] at hlexeme
      apply Quoted.exists_of_first?
      exact Lexeme.quoted_first?_of_isQuoted hlexeme (hquoted.imp And.left id)

theorem quotes_next (htracks : scanner.cursor.Tracks source) (hquoted : scanner.next.1.IsQuoted) :
    ∃ quote value, scanner.next.1.Quotes source quote value := by
  cases hlexeme : scanner.lexeme? with
  | none =>
      rw [token_eq_endToken scanner hlexeme] at hquoted
      rcases hquoted with ⟨hkind, -⟩ | hkind <;> cases hkind
  | some lexeme =>
      have hends := (wellFormed_tokenOf htracks hlexeme).ends
      rw [token_eq_tokenOf scanner hlexeme] at hquoted ⊢
      obtain ⟨quote, rest, -, rfl⟩ := exists_quote_of_lexeme? hlexeme hquoted
      refine ⟨quote, (Quoted.read quote rest).contents, rfl, rfl, ?_, hends, ?_⟩
      · have hslice := slice_front htracks (front_eq_append scanner hlexeme)
        refine hslice.trans (congrArg (quote.mark :: ·) ?_)
        rw [Quoted.spelling_read]
        change _ = _ ++ if !(Quoted.read quote rest).closed then [] else [quote.mark]
        cases (Quoted.read quote rest).closed <;> rfl
      · rintro rfl
        exact Quoted.mark_notMem_contents_of_single rest

/-! ### Text that begins with a mark -/

theorem front_of_mark {quote : Quote} {rest : List Char} (hmode : scanner.options.mode = .script)
    (hremaining : scanner.remaining = quote.mark :: rest) :
    scanner.gap = [] ∧ scanner.front = quote.mark :: rest ∧
      scanner.lexeme? = some ((Quoted.read quote rest).lexeme quote) := by
  have htext := inTemplateText_of_script hmode
  have htrivia : Gap.trivia? (quote.mark :: rest) = none := by
    cases quote <;> rfl
  have hfirst : Gap.first? scanner.options scanner.remaining = none := by
    unfold Gap.first?
    rw [hremaining, htrivia, Lexeme.first?_mark]
  obtain ⟨hgap, hfront⟩ := front_of_first?_eq_none htext hfirst
  refine ⟨hgap, hfront.trans hremaining, ?_⟩
  rw [lexeme?_of_script htext, hfront, hremaining, Lexeme.first?_mark]

/-- Quoted text that is closed gives a token with its contents, and nothing to report. -/
theorem next_of_mark {quote : Quote} {rest : List Char} (hmode : scanner.options.mode = .script)
    (hremaining : scanner.remaining = quote.mark :: rest)
    (hclosed : (Quoted.read quote rest).closed) :
    scanner.next.1 =
        { kind := .literal quote.literal
          span := ⟨scanner.position,
            scanner.position + Text.byteLength (quote.mark :: (Quoted.read quote rest).spelling)⟩
          content := .text (.ofList (Quoted.read quote rest).contents) } ∧
      scanner.reports = [] := by
  obtain ⟨hgap, -, hlexeme⟩ := front_of_mark hmode hremaining
  have hstart : scanner.start = scanner.position := by rw [start, hgap]; rfl
  constructor
  · rw [token_eq_tokenOf scanner hlexeme, tokenOf, hstart, hgap]
    simp [Quoted.lexeme, hclosed, Lexeme.byteLength, Gap.crossesLine]
  · rw [reports, tokenReport?, hlexeme, hgap]
    simp [problemReport?, Quoted.lexeme, hclosed, Gap.diagnostics]

/-- **Writing and reading quoted text.** The text of a literal in quotation marks is its value
between marks, with the escapes that its marks call for; without a closing mark it runs to the end.
A value that is written between marks is read back up to the closing mark, without a report. In a
text that fits, words hold the places as they are. -/
theorem quoted_text_roundtrip :
    (∀ (text : String) (options : Options) (calls : List Call),
        let token := ((ofText text options).performAll calls).next.1
        token.IsQuoted →
          (∃ quote value, token.Quotes text.toList quote value) ∧
            (Text.Fits text → token.wrap = token)) ∧
      ∀ (options : Options) (quote : Quote) (value rest : List Char),
        options.mode = .script → quote.Writes value rest →
          let literal := quote.mark :: quote.encode value ++ [quote.mark]
          let text := String.ofList (literal ++ rest)
          let scanner := ofText text options
          scanner.next.1 =
              { kind := .literal quote.literal
                span := ⟨0, Text.byteLength literal⟩
                content := .text (.ofList value) } ∧
            scanner.next.2.diagnostics = #[] ∧
            (Text.Fits text → scanner.next.1.wrap = scanner.next.1) := by
  constructor
  · intro text options calls token hquoted
    have hcharts := (charts_ofText text options).performAll calls
    exact ⟨quotes_next hcharts.cursor hquoted, hcharts.wrap_token⟩
  · intro options quote value rest hmode hwrites literal text scanner
    have hremaining : scanner.remaining =
        quote.mark :: (quote.encode value ++ quote.mark :: rest) := by
      rw [remaining_ofText, String.toList_ofList]
      simp [literal]
    have hread := Quoted.read_encode hwrites
    obtain ⟨htoken, hreports⟩ := next_of_mark hmode hremaining (by rw [hread])
    refine ⟨?_, ?_, (charts_ofText text options).wrap_token⟩
    · rw [htoken, hread, position_ofText, Nat.zero_add]
      rfl
    · apply Array.toList_inj.mp
      rw [diagnostics_next, hreports]
      rfl

/-- A backslash and a backtick are written with one more backslash, and read back. -/
theorem quoted_text_roundtrip_backtick :
    let value := ['\\', '\x60']
    let source := ['\x60', '\\', '\\', '\x60', '\x60', ';']
    let scanner := ofText (.ofList source) {}
    let token : Token :=
      { kind := .literal .template, span := ⟨0, 5⟩, content := .text (.ofList value) }
    Quote.backtick.Writes value [';'] ∧ scanner.next.1 = token ∧ scanner.next.2.diagnostics = #[] ∧
      token.IsQuoted ∧ (∃ quote value, token.Quotes source quote value) ∧ token.wrap = token := by
  intro value source scanner token
  obtain ⟨hspelled, hread⟩ := quoted_text_roundtrip
  have hwrites : Quote.backtick.Writes value [';'] :=
    ⟨Quote.noConfusion, Quote.noConfusion, fun _ => by decide⟩
  obtain ⟨hnext, hdiagnostics, hwords⟩ := hread {} .backtick value [';'] rfl hwrites
  change scanner.next.1 = token at hnext
  have hquoted : token.IsQuoted := .inr rfl
  have hquotes : scanner.next.1.IsQuoted →
      (∃ quote value, scanner.next.1.Quotes (String.ofList source).toList quote value) ∧
        (Text.Fits (.ofList source) → scanner.next.1.wrap = scanner.next.1) :=
    hspelled (.ofList source) {} []
  rw [hnext, String.toList_ofList] at hquotes
  obtain ⟨hspelling, hwords⟩ := hquotes hquoted
  exact ⟨hwrites, hnext, hdiagnostics, hquoted, hspelling, hwords (by decide)⟩

end Scanner

end FormulaScript
