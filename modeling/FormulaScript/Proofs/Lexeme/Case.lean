import FormulaScript.Proofs.Lexeme.Boundary
import FormulaScript.Proofs.Text.Case
import Mathlib.Data.List.Find

/-!
# Lexemes in either case

Each recogniser finds the same in a text and in the text in lower case, up to the case of what it
found: it asks about classes of characters that have both cases of a letter, or about characters
that are no letters, and it takes the same value from a digit in either case.
-/

namespace FormulaScript

open Text

/-! ### Numbers -/

namespace Exponent

theorem ignoresCase_isMark : IgnoresCase isMark :=
  ignoresCase_of_letters (by decide)

theorem ignoresCase_isSign : IgnoresCase isSign :=
  ignoresCase_of_letters (by decide)

def lower (exponent : Exponent) : Exponent :=
  ⟨exponent.mark.toLower, Text.lower exponent.signs, Text.lower exponent.digits⟩

theorem first?_lower (characters : List Char) :
    first? (Text.lower characters) = (first? characters).map lower := by
  cases characters with
  | nil => rfl
  | cons c rest =>
      rw [lower_cons, first?, first?, ignoresCase_isMark c, dropWhile_lower ignoresCase_isSign,
        takeWhile_lower ignoresCase_isSign, takeWhile_lower ignoresCase_isDigit]
      split <;> rfl

theorem value_lower (exponent : Exponent) : exponent.lower.value = exponent.value := by
  have hnegative : exponent.lower.isNegative = exponent.isNegative := by
    rw [isNegative, isNegative, lower, count_lower (by decide)]
  have hmagnitude : exponent.lower.magnitude = exponent.magnitude :=
    foldl_lower (fun value c => by rw [digitValue_toLower]) 0 exponent.digits
  rw [value, value, hnegative, hmagnitude]

theorem spelling_lower (exponent : Exponent) :
    exponent.lower.spelling = Text.lower exponent.spelling := by
  rw [spelling, spelling, lower, lower_cons, lower_append]

end Exponent

def Token.Content.lower : Token.Content → Token.Content
  | .text spelling => .text spelling.toLower
  | content => content

/-- The lexeme in lower case. What is reported about it counts bytes, so it stays the same. -/
def Lexeme.lower (lexeme : Lexeme) : Lexeme :=
  { lexeme with
    spelling := Text.lower lexeme.spelling
    content := lexeme.content.lower }

theorem Lexeme.lower_verbatim (kind : Token.Kind) (spelling : List Char) :
    (verbatim kind spelling).lower = verbatim kind (Text.lower spelling) := by
  rw [verbatim, verbatim, lower, Token.Content.lower, toLower_ofList]

namespace DecimalLiteral

def lower (literal : DecimalLiteral) : DecimalLiteral where
  whole := Text.lower literal.whole
  fraction? := literal.fraction?.map Text.lower
  exponent? := literal.exponent?.map Exponent.lower

theorem first_lower (characters : List Char) :
    first (Text.lower characters) = (first characters).lower := by
  have hdrop := dropWhile_lower ignoresCase_isDigit characters
  by_cases hpoint : (characters.dropWhile Text.isDigit).head? = some '.'
  · obtain ⟨fraction, hfraction⟩ := List.head?_eq_some_iff.mp hpoint
    rw [hfraction, lower_cons] at hdrop
    rw [first_of_point hfraction, first_of_point hdrop, takeWhile_lower ignoresCase_isDigit,
      takeWhile_lower ignoresCase_isDigit, dropWhile_lower ignoresCase_isDigit,
      Exponent.first?_lower]
    rfl
  · have hpoint' : (Text.lower (characters.dropWhile Text.isDigit)).head? ≠ some '.' := by
      rwa [Ne, head?_lower_eq_some_iff (by decide)]
    rw [first_of_no_point rfl hpoint, first_of_no_point hdrop hpoint',
      takeWhile_lower ignoresCase_isDigit, Exponent.first?_lower]
    rfl

theorem number_lower (literal : DecimalLiteral) : literal.lower.number = literal.number := by
  have hfraction : literal.lower.fractionDigits = Text.lower literal.fractionDigits := by
    rw [fractionDigits, fractionDigits, lower]
    cases literal.fraction? <;> rfl
  have hdigits : literal.lower.digits = Text.lower literal.digits := by
    rw [digits, digits, hfraction, lower_append]
    rfl
  have hexponent : literal.lower.exponent = literal.exponent := by
    rw [exponent, exponent, lower]
    cases literal.exponent? with
    | none => rfl
    | some exponent => exact exponent.value_lower
  have hpointed : literal.lower.fraction?.isSome = literal.fraction?.isSome := Option.isSome_map
  rw [number, number, numberOf, numberOf, hfraction, hdigits, hexponent, hpointed, length_lower,
    digitsValue_lower]

theorem spelling_lower (literal : DecimalLiteral) :
    literal.lower.spelling = Text.lower literal.spelling := by
  have hexponent : (literal.exponent?.map Exponent.lower).elim [] Exponent.spelling =
      Text.lower (literal.exponent?.elim [] Exponent.spelling) := by
    cases literal.exponent? with
    | none => rfl
    | some exponent => exact exponent.spelling_lower
  rw [spelling, spelling, lower_append, lower_append, lower, hexponent]
  cases literal.fraction? <;> rfl

theorem lexeme_lower (literal : DecimalLiteral) : literal.lower.lexeme = literal.lexeme.lower := by
  have hscientific : literal.lower.exponent?.isSome = literal.exponent?.isSome := Option.isSome_map
  rw [lexeme, number_lower, spelling_lower, hscientific]
  rfl

end DecimalLiteral

namespace HexLiteral

theorem ignoresCase_isMark : IgnoresCase isMark :=
  ignoresCase_of_letters (by decide)

theorem ignoresCase_isSuffix : IgnoresCase isSuffix :=
  ignoresCase_of_letters (by decide)

def lower (literal : HexLiteral) : HexLiteral where
  mark := literal.mark.toLower
  digits := Text.lower literal.digits
  suffix? := literal.suffix?.map Char.toLower

theorem first?_lower (characters : List Char) :
    first? (Text.lower characters) = (first? characters).map lower := by
  by_cases hzero : ∃ mark back, characters = '0' :: mark :: back
  · obtain ⟨mark, back, rfl⟩ := hzero
    have hsuffix : isSuffix ∘ Char.toLower = isSuffix := funext ignoresCase_isSuffix
    have hdigit : ('0').toLower = '0' := rfl
    rw [lower_cons, lower_cons, hdigit, first?_zero, first?_zero, ignoresCase_isMark mark,
      takeWhile_lower ignoresCase_isHexDigit, dropWhile_lower ignoresCase_isHexDigit, head?_lower,
      Option.filter_map, hsuffix]
    split <;> rfl
  · have hnone : first? characters = none := by
      rw [first?_eq_none_iff]
      exact fun mark back hcharacters => absurd ⟨mark, back, hcharacters⟩ hzero
    have hnone' : first? (Text.lower characters) = none := by
      rw [first?_eq_none_iff]
      intro mark back hlower
      obtain ⟨zero, rest, rfl, hdigit, hrest⟩ := List.map_eq_cons_iff.mp hlower
      obtain ⟨mark', back', rfl, -, -⟩ := List.map_eq_cons_iff.mp hrest
      rw [toLower_eq_iff (by decide)] at hdigit
      exact absurd ⟨mark', back', by rw [hdigit]⟩ hzero
    rw [hnone, hnone']
    rfl

theorem lexeme_lower (literal : HexLiteral) : literal.lower.lexeme = literal.lexeme.lower := by
  have hlong : literal.lower.isLong = literal.isLong := Option.isSome_map
  have happroximate : approximate literal.lower.digits = approximate literal.digits :=
    foldl_lower (fun value c => by rw [digitValue_toLower]) _ literal.digits
  have hnumber : literal.lower.number = literal.number := by
    rw [number, number, hlong, happroximate, lower, digitsValue_lower]
  have hspelling : literal.lower.spelling = Text.lower literal.spelling := by
    rw [spelling, spelling, lower]
    cases literal.suffix? <;> simp
  have hempty : literal.lower.digits.isEmpty = literal.digits.isEmpty := isEmpty_lower _
  rw [lexeme, lexeme, Lexeme.lower, hlong, hnumber, hspelling, hempty]
  rfl

end HexLiteral

theorem Lexeme.beginsNumber_lower (characters : List Char) :
    beginsNumber (Text.lower characters) = beginsNumber characters := by
  rcases characters with _ | ⟨c, _ | ⟨next, rest⟩⟩
  · rfl
  · simpa [beginsNumber] using ignoresCase_isDigit c
  · by_cases hpoint : c = '.'
    · rw [hpoint]
      exact ignoresCase_isDigit next
    · have hpoint' : c.toLower ≠ '.' := by rwa [Ne, toLower_eq_iff (by decide)]
      rw [lower_cons, lower_cons, beginsNumber.eq_def, beginsNumber.eq_def]
      simp [hpoint, hpoint', ignoresCase_isDigit c]

theorem Lexeme.number?_lower (characters : List Char) :
    number? (Text.lower characters) = (number? characters).map Lexeme.lower := by
  rw [number?, number?, beginsNumber_lower, HexLiteral.first?_lower, DecimalLiteral.first_lower]
  split
  · cases HexLiteral.first? characters with
    | none => exact congrArg some (DecimalLiteral.lexeme_lower _)
    | some literal => exact congrArg some literal.lexeme_lower
  · rfl

/-! ### Quoted text -/

namespace Quoted

def lower (quoted : Quoted) : Quoted :=
  { quoted with
    contents := Text.lower quoted.contents
    spelling := Text.lower quoted.spelling }

theorem toLower_mark (quote : Quote) : quote.mark.toLower = quote.mark := by
  cases quote <;> rfl

theorem toLower_eq_mark_iff (quote : Quote) (c : Char) :
    c.toLower = quote.mark ↔ c = quote.mark :=
  toLower_eq_iff (by cases quote <;> rfl) c

theorem escape?_eq_some_toLower_iff (quote : Quote) (c : Char) :
    quote.escape? = some c.toLower ↔ quote.escape? = some c := by
  cases quote with
  | double | backtick =>
      rw [Quote.escape?, Option.some_inj, Option.some_inj, eq_comm, toLower_eq_iff (by decide),
        eq_comm]
  | single => simp [Quote.escape?]

theorem cons_lower (content : Char) (spelling : List Char) (quoted : Quoted) :
    (cons content spelling quoted).lower =
      cons content.toLower (Text.lower spelling) quoted.lower := by
  rw [cons, cons, lower, lower, lower_append, lower_cons]

theorem read_lower (quote : Quote) (characters : List Char) :
    read quote (Text.lower characters) = (read quote characters).lower := by
  fun_induction read quote characters with
  | case1 => rfl
  | case2 =>
      rw [lower_cons, lower_nil, toLower_mark, read, if_pos rfl, lower, lower_cons, toLower_mark]
      rfl
  | case3 c hmark =>
      rw [lower_cons, lower_nil, read, if_neg (mt (toLower_eq_mark_iff quote c).mp hmark)]
      rfl
  | case4 c next rest hescape ih =>
      have hescape' : quote.escape? = some c.toLower ∧ next.toLower = quote.mark :=
        ⟨(escape?_eq_some_toLower_iff quote c).mpr hescape.1,
          (toLower_eq_mark_iff quote next).mpr hescape.2⟩
      rw [lower_cons, lower_cons, read, if_pos hescape', ih, cons_lower, toLower_mark]
      rfl
  | case5 next rest hescape =>
      have hescape' : ¬(quote.escape? = some quote.mark ∧ next.toLower = quote.mark) := by
        rwa [toLower_eq_mark_iff]
      rw [lower_cons, lower_cons, toLower_mark, read, if_neg hescape', if_pos rfl, lower,
        lower_cons, toLower_mark]
      rfl
  | case6 c next rest hescape hmark ih =>
      have hescape' : ¬(quote.escape? = some c.toLower ∧ next.toLower = quote.mark) := by
        rwa [toLower_eq_mark_iff, escape?_eq_some_toLower_iff]
      rw [lower_cons] at ih
      rw [lower_cons, lower_cons, read, if_neg hescape',
        if_neg (mt (toLower_eq_mark_iff quote c).mp hmark), ih, cons_lower]
      rfl

theorem lexeme_lower (quote : Quote) (quoted : Quoted) :
    quoted.lower.lexeme quote = (quoted.lexeme quote).lower := by
  have hspelling : quote.mark :: Text.lower quoted.spelling =
      Text.lower (quote.mark :: quoted.spelling) := by rw [lower_cons, toLower_mark]
  rw [lexeme, lexeme, lower, Lexeme.lower, Token.Content.lower, toLower_ofList, hspelling,
    byteLength_lower]

theorem first?_lower (characters : List Char) :
    first? (Text.lower characters) = (first? characters).map Lexeme.lower := by
  cases characters with
  | nil => rfl
  | cons c rest =>
      have hmark (quote : Quote) : (quote.mark == c.toLower) = (quote.mark == c) := by
        rw [Bool.eq_iff_iff, beq_iff_eq, beq_iff_eq, eq_comm, toLower_eq_mark_iff, eq_comm]
      rw [lower_cons, first?, first?, Option.map_map]
      simp only [hmark, read_lower, lexeme_lower]
      rfl

end Quoted

/-! ### Words and marks -/

theorem Operator.isPrefixOf_lower {spelling : List Char}
    (hspelling : ∀ c ∈ spelling, c.isAlpha = false) (characters : List Char) :
    spelling.isPrefixOf (Text.lower characters) = spelling.isPrefixOf characters := by
  induction spelling generalizing characters with
  | nil => rfl
  | cons mark spelling ih =>
      obtain ⟨hmark, hrest⟩ := List.forall_mem_cons.mp hspelling
      cases characters with
      | nil => rfl
      | cons c characters =>
          have hhead : (mark == c.toLower) = (mark == c) := by
            rw [Bool.eq_iff_iff, beq_iff_eq, beq_iff_eq, eq_comm, toLower_eq_iff hmark, eq_comm]
          rw [lower_cons, List.isPrefixOf_cons_cons, List.isPrefixOf_cons_cons, hhead, ih hrest]

theorem Operator.isAlpha_of_mem_spelling {mode : Mode} {operator : Operator}
    (hmem : operator ∈ spellings mode) : ∀ c ∈ operator.spelling, c.isAlpha = false := by
  have hall : (spellings mode).all fun operator => operator.spelling.all (!·.isAlpha) := by
    cases mode <;> decide
  simpa using List.all_eq_true.mp hall operator hmem

theorem Operator.first?_lower (mode : Mode) (characters : List Char) :
    first? mode (Text.lower characters) = first? mode characters := by
  apply List.find?_congr
  intro operator hmem
  have hdigit : ((Text.lower characters).drop 2).head?.any Text.isDigit =
      (characters.drop 2).head?.any Text.isDigit := by
    rw [drop_lower, head?_lower, Option.any_map, funext ignoresCase_isDigit]
  rw [begins, begins, isPrefixOf_lower (isAlpha_of_mem_spelling hmem), hdigit]

theorem Operator.lexeme_lower {mode : Mode} {operator : Operator}
    (hmem : operator ∈ spellings mode) : operator.lexeme.lower = operator.lexeme := by
  rw [lexeme, Lexeme.lower_verbatim, lower_eq_self (isAlpha_of_mem_spelling hmem)]

theorem Word.run?_lower (unicode : Bool) (characters : List Char) :
    run? unicode (Text.lower characters) = (run? unicode characters).map Text.lower := by
  cases characters with
  | nil => rfl
  | cons c rest =>
      rw [lower_cons, run?, run?, ignoresCase_beginsIdentifier unicode c,
        takeWhile_lower (ignoresCase_continuesIdentifier unicode)]
      split <;> rfl

theorem Keyword.ofLexeme?_lower (run : List Char) :
    ofLexeme? (.ofList (Text.lower run)) = ofLexeme? (.ofList run) := by
  rw [ofLexeme?, ofLexeme?, utf8ByteSize_lower, toLower_ofList, toLower_ofList, lower_lower]

theorem Word.classify_lower (run rest : List Char) :
    classify (Text.lower run) (Text.lower rest) = (classify run rest).lower := by
  have hcolon : (Text.lower rest).head? = some ':' ↔ rest.head? = some ':' :=
    head?_lower_eq_some_iff (by decide)
  rw [classify, classify, Keyword.ofLexeme?_lower]
  cases Keyword.ofLexeme? (.ofList run) with
  | none => exact (Lexeme.lower_verbatim _ _).symm
  | some word =>
      simp only [hcolon]
      split
      · rw [Lexeme.lower_verbatim, lower_append]
        rfl
      · rw [Lexeme.lower_verbatim]

theorem Word.first?_lower (unicode : Bool) (characters : List Char) :
    first? unicode (Text.lower characters) = (first? unicode characters).map Lexeme.lower := by
  rw [first?, first?, run?_lower, Option.map_map, Option.map_map]
  congr 1
  funext run
  rw [Function.comp_apply, Function.comp_apply, length_lower, drop_lower, classify_lower]

/-- What stands at the front of a text stands at the front of it in either case. -/
theorem Lexeme.first?_lower (options : Options) (characters : List Char) :
    first? options (Text.lower characters) = (first? options characters).map Lexeme.lower := by
  have hoperator : ((Operator.first? options.mode characters).map Operator.lexeme).map
      Lexeme.lower = (Operator.first? options.mode characters).map Operator.lexeme := by
    cases hfirst : Operator.first? options.mode characters with
    | none => rfl
    | some operator =>
        exact congrArg some (Operator.lexeme_lower (List.mem_of_find?_eq_some hfirst))
  simp only [first?, Option.orElse_eq_orElse, Option.orElse_eq_or, Option.map_or]
  rw [number?_lower, Quoted.first?_lower, Operator.first?_lower, Word.first?_lower, hoperator]

/-- What two lexemes have in common that are the same in lower case. -/
theorem Lexeme.of_lower_eq {lexeme lexeme' : Lexeme} (hlower : lexeme'.lower = lexeme.lower) :
    lexeme'.kind = lexeme.kind ∧ lexeme'.flags = lexeme.flags ∧
      lexeme'.problem? = lexeme.problem? ∧ lexeme'.content.lower = lexeme.content.lower ∧
      lexeme'.spelling.length = lexeme.spelling.length ∧
      lexeme'.byteLength = lexeme.byteLength := by
  obtain ⟨hkind, hspelling, hcontent, hflags, hproblem⟩ := Lexeme.mk.inj hlower
  refine ⟨hkind, hflags, hproblem, hcontent, ?_, ?_⟩
  · rw [← length_lower, hspelling, length_lower]
  · rw [byteLength, byteLength, ← byteLength_lower, hspelling, byteLength_lower]

end FormulaScript
