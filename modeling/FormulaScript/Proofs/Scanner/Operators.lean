import FormulaScript.Proofs.Lexeme.Operator
import FormulaScript.Proofs.Lexeme.Quoted
import FormulaScript.Proofs.Scanner.WellFormed

/-!
# Operators in a text

A token that is punctuation is the longest operator or delimiter that stands at its start. The colon
behind `default` is the one exception, since it belongs to a word.
-/

namespace FormulaScript

/-- The token is the operator or delimiter that stands at its start. -/
structure Token.IsOperator (mode : Mode) (ahead : List Char) (mark : Punctuation)
    (spelling : List Char) (token : Token) : Prop where
  stop : token.span.stop = token.span.start + Text.byteLength spelling
  content : token.content = .text (.ofList spelling)
  text_mark : mark.text = Operator.canonical spelling
  isLongest : ¬Operator.StandsBeforeFraction ahead →
    Text.IsLongest (Operator.Spells mode) ahead spelling
  question : Operator.StandsBeforeFraction ahead → spelling = ['?']
  dispatch : Operator.dispatch mode ahead = some (mark, spelling.length)

theorem Word.mark_classify {run rest : List Char} {mark : Punctuation}
    (hkind : (classify run rest).kind = .punctuation mark) : mark = .defaultColon := by
  unfold classify at hkind
  split at hkind
  · cases hkind
  · split at hkind
    · exact (Token.Kind.punctuation.inj hkind).symm
    · cases hkind

namespace Lexeme

variable {options : Options} {front : List Char} {lexeme : Lexeme}

theorem beginsNumber_eq_false (hfirst : first? options front = some lexeme)
    (hkind : lexeme.kind.isNumeric = false) : beginsNumber front = false := by
  rcases first?_eq_some_iff.mp hfirst with hnumber | ⟨hnumber, -⟩
  · rw [isNumeric_of_number? hnumber] at hkind
    cases hkind
  · exact number?_eq_none_iff.mp hnumber

/-- Apart from words, only operators are punctuation. -/
theorem exists_operator {mark : Punctuation} (hfirst : first? options front = some lexeme)
    (hkind : lexeme.kind = .punctuation mark) (hmark : mark ≠ .defaultColon) :
    ∃ operator : Operator, operator.lexeme = lexeme ∧ operator.mark = mark ∧
      Operator.first? options.mode front = some operator := by
  rcases first?_cases hfirst with hnumber | hquoted | ⟨operator, hoperator, rfl⟩ | hword
  · have hnumeric := isNumeric_of_number? hnumber
    rw [hkind] at hnumeric
    cases hnumeric
  · obtain ⟨quote, rest, -, rfl⟩ := Quoted.exists_of_first? hquoted
    cases quote <;> cases hkind
  · exact ⟨operator, rfl, Token.Kind.punctuation.inj hkind, hoperator⟩
  · obtain ⟨run, -, rfl⟩ := Option.map_eq_some_iff.mp hword
    exact absurd (Word.mark_classify hkind) hmark

end Lexeme

/-- A comment is no operator. -/
theorem Gap.not_comment_of_first?_eq_none {options : Options} {characters : List Char}
    (hfirst : first? options characters = none) {c : Char} {back : List Char}
    (hslash : characters = '/' :: c :: back) : c ≠ '/' ∧ c ≠ '*' := by
  have htrivia := (first?_eq_none_iff.mp hfirst).1
  rw [hslash] at htrivia
  constructor
  · rintro rfl
    cases htrivia
  · rintro rfl
    rw [trivia?] at htrivia
    split at htrivia <;> cases htrivia

namespace Scanner

variable {scanner : Scanner}

theorem isOperator_next {operator : Operator} (hlexeme : scanner.lexeme? = some operator.lexeme)
    (hoperator : Operator.first? scanner.options.mode scanner.front = some operator)
    (hnumber : Lexeme.beginsNumber scanner.front = false) :
    scanner.next.1.IsOperator scanner.options.mode scanner.front operator.mark
      operator.spelling := by
  rw [token_eq_tokenOf scanner hlexeme]
  refine ⟨rfl, rfl, Operator.text_mark (List.mem_of_find?_eq_some hoperator),
    Operator.isLongest_of_first? hoperator, Operator.spelling_eq_of_standsBeforeFraction hoperator,
    ?_⟩
  rw [Operator.dispatch_eq hnumber, Operator.taken?, hoperator]
  rfl

/-- **Operators.** Punctuation is the longest operator or delimiter at its start, but a question mark
stays on its own in front of a fraction. A mark has the same text for all its spellings. Neither a
fraction nor a comment begins with punctuation. If the text fits, words hold the place as it is. -/
theorem operators_longest (text : String) (options : Options) (calls : List Call) :
    let token := ((ofText text options).performAll calls).next.1
    let ahead := Text.dropBytes token.span.start text.toList
    ∀ mark, token.kind = .punctuation mark →
      (mark ≠ .defaultColon → ∃ spelling, token.IsOperator options.mode ahead mark spelling) ∧
        (∀ c back, ahead = '.' :: c :: back → Text.isDigit c = false) ∧
        (∀ c back, ahead = '/' :: c :: back → c ≠ '/' ∧ c ≠ '*') ∧
        (Text.Fits text → token.wrap = token) := by
  intro token ahead mark hkind
  set scanner := (ofText text options).performAll calls
  have hcharts : scanner.Charts text := (charts_ofText text options).performAll calls
  have hoptions : scanner.options = options := options_performAll _ calls
  have hahead : ahead = scanner.front := dropBytes_start_token hcharts.cursor
  obtain ⟨htext, lexeme, hlexeme, hfirst⟩ := exists_first?_of_kind
    (show scanner.next.1.kind ≠ .endOfText by rw [hkind]; exact Token.Kind.noConfusion)
    (show scanner.next.1.kind ≠ .literal .string by rw [hkind]; exact Token.Kind.noConfusion)
  have hpunctuation : lexeme.kind = .punctuation mark := by
    rw [← hkind, show token = _ from token_eq_tokenOf scanner hlexeme]
    rfl
  have hnumber : Lexeme.beginsNumber scanner.front = false :=
    Lexeme.beginsNumber_eq_false hfirst (by rw [hpunctuation]; rfl)
  rw [hahead, ← hoptions]
  refine ⟨fun hmark => ?_, fun c back hpoint => ?_, fun c back hslash => ?_, hcharts.wrap_token⟩
  · obtain ⟨operator, rfl, rfl, hoperator⟩ := Lexeme.exists_operator hfirst hpunctuation hmark
    exact ⟨operator.spelling, isOperator_next hlexeme hoperator hnumber⟩
  · rw [hpoint] at hnumber
    exact hnumber
  · exact Gap.not_comment_of_first?_eq_none (first?_front_of_script htext) hslash

/-- The condition of a fraction, and an inequality that is spelled in a way of its own. -/
theorem operators_longest_fraction :
    let text := "a?.5<>b"
    let first := ((ofText text {}).performAll [.next]).next.1
    let second := ((ofText text {}).performAll [.next, .next, .next]).next.1
    first.kind = .punctuation .question ∧ first.span = ⟨1, 2⟩ ∧
      (∃ spelling, first.IsOperator .script (Text.dropBytes 1 text.toList) .question spelling) ∧
      first.wrap = first ∧ second.kind = .punctuation .exclamationEquals ∧ second.span = ⟨4, 6⟩ ∧
      ∃ spelling, second.IsOperator .script (Text.dropBytes 4 text.toList) .exclamationEquals
        spelling := by
  intro text first second
  have hfirst : first.kind = .punctuation .question := by decide +kernel
  have hfirstSpan : first.span = ⟨1, 2⟩ := by decide +kernel
  have hsecond : second.kind = .punctuation .exclamationEquals := by decide +kernel
  have hsecondSpan : second.span = ⟨4, 6⟩ := by decide +kernel
  obtain ⟨hone, -, -, hwords⟩ := operators_longest text {} [.next] _ hfirst
  have hone : ∃ spelling, first.IsOperator .script
      (Text.dropBytes first.span.start text.toList) .question spelling := hone (by decide)
  have htwo : ∃ spelling, second.IsOperator .script
      (Text.dropBytes second.span.start text.toList) .exclamationEquals spelling :=
    (operators_longest text {} [.next, .next, .next] _ hsecond).1 (by decide)
  rw [hfirstSpan] at hone
  rw [hsecondSpan] at htwo
  exact ⟨hfirst, hfirstSpan, hone, hwords (by decide), hsecond, hsecondSpan, htwo⟩

end Scanner

end FormulaScript
