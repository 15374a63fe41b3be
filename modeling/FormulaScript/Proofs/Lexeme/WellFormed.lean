import FormulaScript.Proofs.Lexeme.Shape

/-!
# What goes with the kind of a lexeme

The recognisers set the kind of a lexeme, its content and its flags each on their own. Together
these make sense: numbers are the contents of numeric literals, the flags of a notation stand on
numeric literals too, and words and marks mean their spelling. A literal that is not closed takes
all of the text ahead.
-/

namespace FormulaScript

namespace Token

def Kind.isNumeric : Kind → Bool
  | .literal .numeric | .literal .long => true
  | _ => false

/-- The kinds of tokens that mean what is written. -/
def Kind.isVerbatim : Kind → Bool
  | .identifier | .keyword _ | .punctuation _ => true
  | _ => false

/-- Each kind has contents of one form: none at the end of the text, a number in a numeric literal,
and text in any other token. -/
def Content.Suits (kind : Kind) : Content → Prop
  | .none => kind = .endOfText
  | .text _ => kind ≠ .endOfText ∧ kind.isNumeric = false
  | .number (.float _) => kind.isNumeric
  | .number (.integer value) => kind = .literal .numeric ∧ 0 ≤ value
  | .number (.long value) => kind = .literal .long ∧ 0 ≤ value

structure Flags.Suit (flags : Flags) (kind : Kind) : Prop where
  not_inserted : flags.inserted = false
  long_iff : flags.long ↔ kind = .literal .long
  hexadecimal_of_long : flags.long → flags.hexadecimal
  one_notation : ¬(flags.hexadecimal ∧ flags.scientific)
  numeric_of_notation : flags.hexadecimal ∨ flags.scientific → kind.isNumeric
  quoted_of_unterminated :
    flags.unterminated → kind = .literal .string ∨ kind = .literal .template

variable {kind : Kind}

theorem Kind.ne_of_isVerbatim (hkind : kind.isVerbatim) :
    kind ≠ .endOfText ∧ kind.isNumeric = false ∧ kind ≠ .literal .long := by
  cases kind with
  | unknown | endOfText | literal => cases hkind
  | identifier | punctuation | keyword =>
      exact ⟨Kind.noConfusion, rfl, Kind.noConfusion⟩

/-- Without a flag of a notation. -/
theorem Flags.suit_of_plain {flags : Flags} (hinserted : flags.inserted = false)
    (hnumeric : flags.isNumeric = false) (hlong : kind ≠ .literal .long)
    (hquoted : flags.unterminated → kind = .literal .string ∨ kind = .literal .template) :
    flags.Suit kind := by
  rw [isNumeric, Bool.or_eq_false_iff, Bool.or_eq_false_iff] at hnumeric
  obtain ⟨⟨hhexadecimal, hscientific⟩, hflag⟩ := hnumeric
  constructor
  · exact hinserted
  · exact iff_of_false (by simp [hflag]) hlong
  · simp [hflag]
  · simp [hhexadecimal]
  · simp [hhexadecimal, hscientific]
  · exact hquoted

end Token

/-- A lexeme at the front of a text. -/
structure Lexeme.WellFormed (mode : Mode) (front : List Char) (lexeme : Lexeme) : Prop where
  content : lexeme.content.Suits lexeme.kind
  flags : lexeme.flags.Suit lexeme.kind
  verbatim :
    lexeme.kind.isVerbatim ∨ lexeme.flags.templateText →
      lexeme.content = .text (.ofList lexeme.spelling)
  ends : lexeme.flags.unterminated → lexeme.spelling = front
  template :
    lexeme.flags.templateText ∨ lexeme.kind = .punctuation .dollarOpenBrace → mode = .template

variable {mode : Mode} {front : List Char} {lexeme : Lexeme}

theorem Lexeme.wellFormed_verbatim {kind : Token.Kind} {spelling : List Char}
    (hkind : kind.isVerbatim)
    (hmode : kind = .punctuation .dollarOpenBrace → mode = .template) :
    (verbatim kind spelling).WellFormed mode front := by
  obtain ⟨hend, hnumeric, hlong⟩ := Token.Kind.ne_of_isVerbatim hkind
  constructor
  · exact ⟨hend, hnumeric⟩
  · exact Token.Flags.suit_of_plain rfl rfl hlong Bool.noConfusion
  · exact fun _ => rfl
  · exact Bool.noConfusion
  · rintro (htemplate | hopening)
    · cases htemplate
    · exact hmode hopening

/-- Literals are neither words nor marks, so it is their contents and flags that matter. -/
theorem Lexeme.wellFormed_of_literal {form : Literal} (hkind : lexeme.kind = .literal form)
    (hcontent : lexeme.content.Suits lexeme.kind) (hflags : lexeme.flags.Suit lexeme.kind)
    (htemplate : lexeme.flags.templateText = false)
    (hends : lexeme.flags.unterminated → lexeme.spelling = front) :
    lexeme.WellFormed mode front := by
  refine ⟨hcontent, hflags, ?_, hends, ?_⟩
  · rw [hkind, htemplate]
    rintro (hverbatim | htext)
    · cases hverbatim
    · cases htext
  · rw [hkind, htemplate]
    rintro (htext | hopening)
    · cases htext
    · cases hopening

/-! ### Numbers -/

theorem DecimalLiteral.suits_number (literal : DecimalLiteral) :
    (Token.Content.number literal.number).Suits (.literal .numeric) := by
  rw [number, numberOf]
  cases integer? (Text.digitsValue 10 literal.digits) literal.exponent
    literal.fraction?.isSome with
  | none => rfl
  | some value => exact ⟨rfl, Int.natCast_nonneg value⟩

theorem DecimalLiteral.suit_flags (literal : DecimalLiteral) :
    literal.lexeme.flags.Suit literal.lexeme.kind := by
  constructor
  · rfl
  · exact iff_of_false Bool.noConfusion (by simp [lexeme])
  · exact Bool.noConfusion
  · exact fun hboth => Bool.noConfusion hboth.1
  · exact fun _ => rfl
  · exact Bool.noConfusion

theorem HexLiteral.kind_lexeme (literal : HexLiteral) :
    literal.lexeme.kind = .literal (if literal.isLong then .long else .numeric) := rfl

theorem HexLiteral.isNumeric_kind (literal : HexLiteral) : literal.lexeme.kind.isNumeric := by
  rw [kind_lexeme]
  cases literal.isLong <;> rfl

theorem Lexeme.isNumeric_of_number? (hnumber : number? front = some lexeme) :
    lexeme.kind.isNumeric := by
  unfold number? at hnumber
  split_ifs at hnumber
  split at hnumber
  · obtain rfl := Option.some.inj hnumber
    exact HexLiteral.isNumeric_kind _
  · obtain rfl := Option.some.inj hnumber
    rfl

theorem HexLiteral.suits_number (literal : HexLiteral) :
    (Token.Content.number literal.number).Suits literal.lexeme.kind := by
  rw [number]
  split
  · exact literal.isNumeric_kind
  · rw [kind_lexeme]
    cases literal.isLong with
    | true => exact ⟨rfl, Int.natCast_nonneg _⟩
    | false => exact ⟨rfl, Int.natCast_nonneg _⟩

theorem HexLiteral.suit_flags (literal : HexLiteral) :
    literal.lexeme.flags.Suit literal.lexeme.kind := by
  constructor
  · rfl
  · cases hlong : literal.isLong <;> simp [lexeme, hlong]
  · exact fun _ => rfl
  · exact fun hboth => Bool.noConfusion hboth.2
  · exact fun _ => literal.isNumeric_kind
  · exact Bool.noConfusion

theorem Lexeme.wellFormed_of_number? (hnumber : number? front = some lexeme) :
    lexeme.WellFormed mode front := by
  unfold number? at hnumber
  split_ifs at hnumber
  split at hnumber
  · rename_i literal _
    obtain rfl := Option.some.inj hnumber
    exact wellFormed_of_literal literal.kind_lexeme literal.suits_number literal.suit_flags rfl
      Bool.noConfusion
  · obtain rfl := Option.some.inj hnumber
    let literal := DecimalLiteral.first front
    have hkind : literal.lexeme.kind = .literal .numeric := rfl
    exact wellFormed_of_literal hkind literal.suits_number literal.suit_flags rfl
      Bool.noConfusion

/-! ### Quoted text -/

/-- Without a closing mark all of the text belongs to the literal. -/
theorem Quoted.spelling_read_of_not_closed (quote : Quote) (rest : List Char)
    (hclosed : (read quote rest).closed = false) : (read quote rest).spelling = rest := by
  fun_induction read quote rest with
  | case1 => rfl
  | case2 => cases hclosed
  | case3 => rfl
  | case4 c next rest hescape ih => exact congrArg ([c, next] ++ ·) (ih hclosed)
  | case5 => cases hclosed
  | case6 c next rest hescape hmark ih => exact congrArg (c :: ·) (ih hclosed)

theorem Quoted.wellFormed_of_first? (hfirst : first? front = some lexeme) :
    lexeme.WellFormed mode front := by
  match front with
  | [] => cases hfirst
  | c :: rest =>
      obtain ⟨quote, hquote, rfl⟩ := Option.map_eq_some_iff.mp hfirst
      have hmark : quote.mark = c := by simpa using List.find?_some hquote
      have hliteral : quote.literal = .string ∨ quote.literal = .template := by
        cases quote <;> decide
      have hkind : ((read quote rest).lexeme quote).kind = .literal .string ∨
          ((read quote rest).lexeme quote).kind = .literal .template :=
        hliteral.imp (congrArg Token.Kind.literal) (congrArg Token.Kind.literal)
      have hform : ((read quote rest).lexeme quote).kind = .literal quote.literal := rfl
      apply Lexeme.wellFormed_of_literal hform
      · rcases hkind with hkind | hkind <;> rw [hkind] <;> exact ⟨Token.Kind.noConfusion, rfl⟩
      · refine Token.Flags.suit_of_plain rfl rfl ?_ fun _ => hkind
        rcases hkind with hkind | hkind <;> rw [hkind] <;> decide
      · rfl
      · intro hunterminated
        have hclosed : (read quote rest).closed = false := by simpa [lexeme] using hunterminated
        rw [lexeme, hmark]
        exact congrArg (c :: ·) (spelling_read_of_not_closed quote rest hclosed)

/-! ### Words and marks -/

theorem Operator.mark_ne_dollarOpenBrace {operator : Operator}
    (hmem : operator ∈ spellings .script) : operator.mark ≠ .dollarOpenBrace := by
  have hall : ∀ operator ∈ spellings .script, operator.mark ≠ .dollarOpenBrace := by decide
  exact hall operator hmem

theorem Operator.wellFormed_of_first? {operator : Operator}
    (hfirst : first? mode front = some operator) : operator.lexeme.WellFormed mode front := by
  apply Lexeme.wellFormed_verbatim rfl
  intro hopening
  cases mode with
  | template => rfl
  | script =>
      have hmark := mark_ne_dollarOpenBrace (List.mem_of_find?_eq_some hfirst)
      exact absurd (Token.Kind.punctuation.inj hopening) hmark

theorem Word.wellFormed_classify (run rest : List Char) :
    (classify run rest).WellFormed mode front := by
  unfold classify
  split
  · exact Lexeme.wellFormed_verbatim rfl Token.Kind.noConfusion
  · split
    · exact Lexeme.wellFormed_verbatim rfl fun hopening => by cases hopening
    · exact Lexeme.wellFormed_verbatim rfl Token.Kind.noConfusion

theorem Lexeme.wellFormed_of_first? {options : Options}
    (hfirst : first? options front = some lexeme) : lexeme.WellFormed options.mode front := by
  rcases first?_cases hfirst with hnumber | hquoted | ⟨operator, hoperator, rfl⟩ | hword
  · exact wellFormed_of_number? hnumber
  · exact Quoted.wellFormed_of_first? hquoted
  · exact Operator.wellFormed_of_first? hoperator
  · obtain ⟨run, -, rfl⟩ := Option.map_eq_some_iff.mp hword
    exact Word.wellFormed_classify _ _

end FormulaScript
