import FormulaScript.Proofs.Lexeme.Quoted
import FormulaScript.Proofs.Lexeme.Word
import FormulaScript.Proofs.Scanner.WellFormed

/-!
# Words in a text

A word is the longest run of identifier characters at its start, and the tables tell whether it is
reserved. Only the colon behind `default` may belong to a word as well.
-/

namespace FormulaScript

/-- Identifiers, keywords, and the keyword that takes a colon in. -/
def Token.Kind.isWord : Kind → Bool
  | .identifier | .keyword _ | .punctuation .defaultColon => true
  | _ => false

/-- The token is the run of identifier characters at its start, with a colon if it takes one. -/
structure Token.IsWord (unicode : Bool) (ahead run : List Char) (token : Token) : Prop where
  begins : ∃ c ∈ run.head?, Text.beginsIdentifier unicode c
  run_eq : run = ahead.takeWhile (Text.continuesIdentifier unicode)
  takesColon_iff : token.kind = .punctuation .defaultColon ↔
    (String.ofList run).toLower = "default" ∧ (ahead.drop run.length).head? = some ':'
  stop : token.span.stop = token.span.start + Text.byteLength run +
    if token.kind = .punctuation .defaultColon then 1 else 0
  content : token.content =
    .text (.ofList (run ++ if token.kind = .punctuation .defaultColon then [':'] else []))
  kind : token.kind ≠ .punctuation .defaultColon →
    token.kind = ((Keyword.lookup? (.ofList run)).map .keyword).getD .identifier
  not_reserved : token.kind = .identifier → ∀ (kind : Token.Kind) (text : String),
    kind.keywordText? = some text → (String.ofList run).toLower ≠ text.toLower

namespace Lexeme

variable {options : Options} {front : List Char} {lexeme : Lexeme}

theorem first?_of_isWord (hfirst : first? options front = some lexeme)
    (hword : lexeme.kind.isWord) :
    ∃ c back, front = c :: back ∧ Text.beginsIdentifier options.unicodeIdentifiers c ∧
      lexeme = Word.classify
        (c :: back.takeWhile (Text.continuesIdentifier options.unicodeIdentifiers))
        (back.dropWhile (Text.continuesIdentifier options.unicodeIdentifiers)) := by
  rcases first?_cases hfirst with hnumber | hquoted | ⟨operator, hoperator, rfl⟩ | hfirst
  · have hnumeric := isNumeric_of_number? hnumber
    unfold Token.Kind.isWord at hword
    split at hword <;> simp_all [Token.Kind.isNumeric]
  · obtain ⟨quote, rest, -, rfl⟩ := Quoted.exists_of_first? hquoted
    cases quote <;> cases hword
  · have hnone : ∀ mode, ∀ operator ∈ Operator.spellings mode,
        operator.lexeme.kind.isWord = false := by
      intro mode
      cases mode <;> decide
    rw [hnone _ operator (List.mem_of_find?_eq_some hoperator)] at hword
    cases hword
  · cases front with
    | nil => cases hfirst
    | cons c back =>
        by_cases hbegins : Text.beginsIdentifier options.unicodeIdentifiers c
        · rw [Word.first?_of_begins hbegins] at hfirst
          exact ⟨c, back, rfl, hbegins, (Option.some.inj hfirst).symm⟩
        · rw [Word.first?_cons_eq_none_iff.mpr (by simpa using hbegins)] at hfirst
          cases hfirst

end Lexeme

namespace Scanner

variable {scanner : Scanner}

theorem isWord_next {unicode : Bool} {c : Char} {back : List Char}
    (hbegins : Text.beginsIdentifier unicode c)
    (hlexeme : scanner.lexeme? = some (Word.classify
      (c :: back.takeWhile (Text.continuesIdentifier unicode))
      (back.dropWhile (Text.continuesIdentifier unicode)))) :
    scanner.next.1.IsWord unicode (c :: back)
      (c :: back.takeWhile (Text.continuesIdentifier unicode)) := by
  set run := c :: back.takeWhile (Text.continuesIdentifier unicode)
  set rest := back.dropWhile (Text.continuesIdentifier unicode)
  have hsplit : c :: back = run ++ rest :=
    congrArg (c :: ·) List.takeWhile_append_dropWhile.symm
  have hrest : (c :: back).drop run.length = rest := by rw [hsplit, List.drop_left]
  have hrun : run = (c :: back).takeWhile (Text.continuesIdentifier unicode) :=
    (List.takeWhile_cons_of_pos (Text.continuesIdentifier_of_begins hbegins)).symm
  have hverbatim := Word.classify_eq_verbatim run rest
  set lexeme := Word.classify run rest with hword
  rw [token_eq_tokenOf scanner hlexeme]
  refine ⟨⟨c, rfl, hbegins⟩, hrun, ?_, ?_, ?_, ?_, ?_⟩
  · rw [hrest]
    exact Word.kind_classify_eq_defaultColon_iff
  · have hlength : lexeme.byteLength = Text.byteLength run +
        if lexeme.kind = .punctuation .defaultColon then 1 else 0 := by
      rw [Lexeme.byteLength, hverbatim, Lexeme.verbatim, Text.byteLength_append]
      split_ifs <;> rfl
    change scanner.start + lexeme.byteLength = _
    rw [hlength, ← Nat.add_assoc]
    rfl
  · change lexeme.content = _
    rw [hverbatim]
    rfl
  · intro hkind
    have htakes := mt Word.kind_classify_eq_defaultColon_iff.mpr hkind
    change lexeme.kind = _
    rw [hword, Word.classify_of_not_takesColon htakes]
    rfl
  · intro hkind kind text htext
    cases kind with
    | keyword word =>
        obtain rfl : word.text = text := Option.some.inj htext
        exact Word.toLower_ne_of_kind_eq_identifier hkind word
    | _ => cases htext

/-- **Words.** A lexeme is looked up as the kind whose text it is, up to case. And in a text a word is
the longest run of identifier characters at its start, which is reserved if it can be looked up. Only
`default` in front of a colon takes more. If the text fits, words hold the place as it is. -/
theorem words_longest :
    (∀ (lexeme : String) (kind : Token.Kind),
      (Keyword.lookup? lexeme).map .keyword = some kind ↔
        ∃ text, kind.keywordText? = some text ∧ text.toLower = lexeme.toLower) ∧
    ∀ (text : String) (options : Options) (calls : List Call),
      let token := ((ofText text options).performAll calls).next.1
      let ahead := Text.dropBytes token.span.start text.toList
      token.kind.isWord →
        (∃ run, token.IsWord options.unicodeIdentifiers ahead run) ∧
          (Text.Fits text → token.wrap = token) := by
  refine ⟨fun lexeme kind => Keyword.map_lookup?_eq_some_iff, ?_⟩
  intro text options calls token ahead hword
  set scanner := (ofText text options).performAll calls
  have hcharts : scanner.Charts text := (charts_ofText text options).performAll calls
  have hoptions : scanner.options = options := options_performAll _ calls
  have hahead : ahead = scanner.front := dropBytes_start_token hcharts.cursor
  have hother : token.kind ≠ .endOfText ∧ token.kind ≠ .literal .string := by
    constructor <;> intro hkind <;> rw [hkind] at hword <;> cases hword
  obtain ⟨-, lexeme, hlexeme, hfirst⟩ := exists_first?_of_kind hother.1 hother.2
  rw [show token = _ from token_eq_tokenOf scanner hlexeme] at hword
  obtain ⟨c, back, hfront, hbegins, rfl⟩ := Lexeme.first?_of_isWord hfirst hword
  rw [hahead, hfront, ← hoptions]
  exact ⟨⟨_, isWord_next hbegins hlexeme⟩, hcharts.wrap_token⟩

/-- The word in front of a colon takes it in, and the one behind it is an identifier. -/
theorem words_longest_default :
    let text := "Default:defaults"
    let first := (ofText text {}).next.1
    let second := ((ofText text {}).performAll [.next]).next.1
    first.kind = .punctuation .defaultColon ∧ first.span = ⟨0, 8⟩ ∧
      (∃ run, first.IsWord false text.toList run) ∧ first.wrap = first ∧
      second.kind = .identifier ∧ second.span = ⟨8, 16⟩ ∧
      ∃ run, second.IsWord false (Text.dropBytes 8 text.toList) run := by
  intro text first second
  have hfirst : first.kind = .punctuation .defaultColon := by decide +kernel
  have hfirstSpan : first.span = ⟨0, 8⟩ := by decide +kernel
  have hsecond : second.kind = .identifier := by decide +kernel
  have hsecondSpan : second.span = ⟨8, 16⟩ := by decide +kernel
  obtain ⟨hone, hwords⟩ :=
    words_longest.2 text {} [] (show first.kind.isWord by rw [hfirst]; rfl)
  have hone : ∃ run, first.IsWord false (Text.dropBytes first.span.start text.toList) run := hone
  have htwo : ∃ run, second.IsWord false (Text.dropBytes second.span.start text.toList) run :=
    (words_longest.2 text {} [.next] (show second.kind.isWord by rw [hsecond]; rfl)).1
  rw [hfirstSpan, Text.dropBytes_zero] at hone
  rw [hsecondSpan] at htwo
  exact ⟨hfirst, hfirstSpan, hone, hwords (by decide), hsecond, hsecondSpan, htwo⟩

end Scanner

end FormulaScript
