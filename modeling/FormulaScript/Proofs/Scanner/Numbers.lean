import FormulaScript.Proofs.Checked.Number
import FormulaScript.Proofs.Lexeme.HexValue
import FormulaScript.Proofs.Scanner.WellFormed

/-!
# Numbers in a text

A numeric token is the longest literal from its start on, and its value is the number that the
literal denotes: an integer while that fits, and otherwise, in decimal notation, the nearest number
with a floating point. In hexadecimal notation it is the nearest one without the digits that are lost.
-/

namespace FormulaScript

/-- The token is the longest text of a kind that stands in the source at its start. -/
structure Token.IsLongest (source : List Char) (kind : List Char → Prop) (spelling : List Char)
    (token : Token) : Prop where
  stop : token.span.stop = token.span.start + Text.byteLength spelling
  longest : Text.IsLongest kind (Text.dropBytes token.span.start source) spelling

/-- The token is a decimal literal, whose parts its text determines. -/
structure Token.IsDecimalLiteral (source : List Char) (literal : DecimalLiteral) (token : Token) :
    Prop where
  wellFormed : literal.WellFormed
  isLongest : token.IsLongest source DecimalLiteral.Spells literal.spelling
  determined : ∀ other : DecimalLiteral, other.WellFormed → other.spelling = literal.spelling →
    other = literal

/-- The token is made of what one pass over the characters of a decimal literal has counted. -/
structure Token.ReadsDecimal (ahead : List Char) (literal : DecimalLiteral) (token : Token) :
    Prop where
  kind : token.kind = .literal .numeric
  flags :
    token.flags =
      { scientific := literal.exponent?.isSome, afterLineBreak := token.flags.afterLineBreak }
  reading :
    ∃ reading left, ({} : DecimalLiteral.Reading).read ahead = .ok (reading, left) ∧
      ahead = literal.spelling ++ left ∧ reading.Sees literal ∧ reading.digits ≠ [] ∧
      ∃ number, reading.number = .ok number ∧ token.content = .number number

/-- The token is a hexadecimal literal, whose parts its text determines. -/
structure Token.IsHexLiteral (source : List Char) (literal : HexLiteral) (token : Token) :
    Prop where
  wellFormed : literal.WellFormed
  isLongest : token.IsLongest source HexLiteral.Spells literal.spelling
  determined : ∀ other : HexLiteral, other.WellFormed → other.spelling = literal.spelling →
    other = literal

/-- The token is made of what one pass over the digits of a hexadecimal literal has gathered. -/
structure Token.ReadsHex (ahead : List Char) (literal : HexLiteral) (token : Token) : Prop where
  kind : token.kind = .literal (if literal.isLong then .long else .numeric)
  flags :
    token.flags =
      { hexadecimal := true
        long := literal.isLong
        afterLineBreak := token.flags.afterLineBreak }
  reading :
    ∃ reading back, ({} : HexLiteral.Reading).read (ahead.drop 2) = (reading, back) ∧
      ahead = '0' :: literal.mark :: (literal.digits ++ back) ∧
      literal.suffix? = back.head?.filter HexLiteral.isSuffix ∧
      token.content = .number (reading.number literal.isLong)
  exact_of_le :
    let value := Text.digitsValue 16 literal.digits
    value ≤ 2 ^ 63 - 1 →
      token.content = .number (if literal.isLong then .long value else .integer value)
  rounded_of_lt :
    2 ^ 63 - 1 < Text.digitsValue 16 literal.digits → ∃ x, token.content = .number (.float x)

/-- The token has a number in decimal notation. -/
def Token.IsDecimal (token : Token) : Prop :=
  token.kind = .literal .numeric ∧ token.flags.hexadecimal = false

theorem Word.isNumeric_kind_classify (run rest : List Char) :
    (classify run rest).kind.isNumeric = false := by
  unfold classify
  split
  · rfl
  · split <;> rfl

namespace Lexeme

variable {options : Options} {front : List Char} {lexeme : Lexeme}

theorem first?_of_number? (hnumber : number? front = some lexeme) :
    first? options front = some lexeme := by
  rw [first?, hnumber]
  rfl

theorem number?_of_isNumeric (hfirst : first? options front = some lexeme)
    (hnumeric : lexeme.kind.isNumeric) : number? front = some lexeme := by
  rcases first?_cases hfirst with hnumber | hquoted | ⟨operator, -, rfl⟩ | hword
  · exact hnumber
  · obtain ⟨quote, rest, -, rfl⟩ := Quoted.exists_of_first? hquoted
    cases quote <;> cases hnumeric
  · cases hnumeric
  · obtain ⟨run, -, rfl⟩ := Option.map_eq_some_iff.mp hword
    rw [Word.isNumeric_kind_classify] at hnumeric
    cases hnumeric

end Lexeme

namespace Scanner

variable {scanner : Scanner} {source : List Char}

theorem lexeme?_of_number? (htext : scanner.inTemplateText = false) {lexeme : Lexeme}
    (hnumber : Lexeme.number? scanner.front = some lexeme) : scanner.lexeme? = some lexeme := by
  rw [lexeme?_of_script htext]
  exact Lexeme.first?_of_number? hnumber

/-- A numeric token comes from a numeric lexeme. -/
theorem exists_number?_of_isNumeric (hnumeric : scanner.next.1.kind.isNumeric) :
    ∃ lexeme, Lexeme.number? scanner.front = some lexeme ∧ scanner.lexeme? = some lexeme := by
  have hother : scanner.next.1.kind ≠ .endOfText ∧ scanner.next.1.kind ≠ .literal .string := by
    constructor <;> intro hkind <;> rw [hkind] at hnumeric <;> cases hnumeric
  obtain ⟨-, lexeme, hlexeme, hfirst⟩ := exists_first?_of_kind hother.1 hother.2
  rw [token_eq_tokenOf scanner hlexeme] at hnumeric
  exact ⟨lexeme, Lexeme.number?_of_isNumeric hfirst hnumeric, hlexeme⟩

/-! ### Decimal literals -/

theorem isDecimalLiteral_next (htracks : scanner.cursor.Tracks source)
    (hlexeme : scanner.lexeme? = some (DecimalLiteral.first scanner.front).lexeme) :
    scanner.next.1.IsDecimalLiteral source (DecimalLiteral.first scanner.front) := by
  have hform := DecimalLiteral.wellFormed_first scanner.front
  refine ⟨hform, ⟨?_, ?_⟩, fun other hother => hform.eq_of_spelling_eq hother⟩
  · rw [token_eq_tokenOf scanner hlexeme]
    rfl
  · rw [dropBytes_start_token htracks]
    exact DecimalLiteral.isLongest_first scanner.front

theorem lexeme?_of_isDecimal (hdecimal : scanner.next.1.IsDecimal) :
    scanner.lexeme? = some (DecimalLiteral.first scanner.front).lexeme := by
  obtain ⟨hkind, hflag⟩ := hdecimal
  have hnumeric : scanner.next.1.kind.isNumeric := by
    rw [hkind]
    rfl
  obtain ⟨lexeme, hnumber, hlexeme⟩ := exists_number?_of_isNumeric hnumeric
  rw [token_eq_tokenOf scanner hlexeme] at hflag
  rw [hlexeme, DecimalLiteral.eq_lexeme_first_of_number? hnumber hflag]

theorem length_front_lt (htracks : scanner.cursor.Tracks source) {limit : Nat}
    (hlength : Text.byteLength source < limit) : scanner.front.length < limit := by
  have htotal := start_add_front htracks
  have hfront := Text.length_le_byteLength scanner.front
  omega

theorem readsDecimal_next (htracks : scanner.cursor.Tracks source)
    (hlength : Text.byteLength source < 2 ^ 31)
    (hdigits : (DecimalLiteral.first scanner.front).digits ≠ [])
    (hlexeme : scanner.lexeme? = some (DecimalLiteral.first scanner.front).lexeme) :
    scanner.next.1.ReadsDecimal scanner.front (DecimalLiteral.first scanner.front) := by
  have hsees := DecimalLiteral.Reading.sees_ofLiteral (DecimalLiteral.first scanner.front)
  obtain ⟨left, hleft, hread⟩ :=
    DecimalLiteral.Reading.exists_read_first (length_front_lt htracks hlength)
  rw [token_eq_tokenOf scanner hlexeme]
  refine ⟨rfl, rfl, _, left, hread, hleft, hsees, ?_, _,
    DecimalLiteral.Reading.number_ofLiteral _, rfl⟩
  rwa [hsees.digits]

/-- **The extent of a decimal literal.** Where a decimal literal begins, the token is the longest one,
and it is made of what one pass over its characters has counted in words. -/
theorem decimal_literals_read (text : String) (options : Options) (calls : List Call)
    (hlength : Text.byteLength text.toList < 2 ^ 31) :
    let scanner := (ofText text options).performAll calls
    let token := scanner.next.1
    let ahead := Text.dropBytes token.span.start text.toList
    scanner.inTemplateText = false → DecimalLiteral.Begins ahead →
      ∃ literal, token.IsDecimalLiteral text.toList literal ∧ token.ReadsDecimal ahead literal := by
  intro scanner token ahead htext hbegins
  have htracks : scanner.cursor.Tracks text.toList :=
    ((charts_ofText text options).performAll calls).cursor
  have hahead : ahead = scanner.front := dropBytes_start_token htracks
  rw [hahead] at hbegins ⊢
  have hlexeme := lexeme?_of_number? htext hbegins.number?
  exact ⟨_, isDecimalLiteral_next htracks hlexeme,
    readsDecimal_next htracks hlength hbegins.digits_first_ne_nil hlexeme⟩

/-- Signs in front of the digits of an exponent all belong to it, and a second point does not. -/
theorem decimal_literals_read_signs :
    let text := ".5e-+2.3"
    let scanner := ofText text {}
    let token := scanner.next.1
    let ahead := Text.dropBytes token.span.start text.toList
    Text.byteLength text.toList < 2 ^ 31 ∧ scanner.inTemplateText = false ∧
      DecimalLiteral.Begins ahead ∧ token.span = ⟨0, 6⟩ ∧
      token.content = .number (.float (.signed false (.ofDecimal 5 (-3)))) ∧
      ∃ literal, token.IsDecimalLiteral text.toList literal ∧ token.ReadsDecimal ahead literal := by
  intro text scanner token ahead
  have hlength : Text.byteLength text.toList < 2 ^ 31 := by decide +kernel
  have htext : scanner.inTemplateText = false := by decide
  have hahead : ahead = ['.', '5', 'e', '-', '+', '2', '.', '3'] := by decide +kernel
  have hbegins : DecimalLiteral.Begins ahead := by
    rw [hahead]
    exact .point (by decide)
  exact ⟨hlength, htext, hbegins, by decide +kernel, by decide +kernel,
    decimal_literals_read text {} [] hlength htext hbegins⟩

/-- **Integers.** A literal without a point and without a negative exponent is an integer while that
fits. A zero is one only with a power of ten that fits as well. -/
theorem integer_literals_fit (text : String) (options : Options) (calls : List Call) :
    let token := ((ofText text options).performAll calls).next.1
    token.IsDecimal → ∃ literal, token.IsDecimalLiteral text.toList literal ∧
      (literal.fraction? = none → 0 ≤ literal.writtenExponent →
        let value := literal.significand * 10 ^ literal.writtenExponent.toNat
        (literal.FitsInteger ∧ token.content = .number (.integer value)) ∨
          ¬literal.FitsInteger ∧ ∃ x, token.content = .number (.float x)) := by
  intro token hdecimal
  have htracks := ((charts_ofText text options).performAll calls).cursor
  have hlexeme := lexeme?_of_isDecimal hdecimal
  refine ⟨_, isDecimalLiteral_next htracks hlexeme, fun hfraction hexponent => ?_⟩
  rw [show token = _ from token_eq_tokenOf _ hlexeme]
  rcases DecimalLiteral.number_of_unpointed _ hfraction hexponent with
    ⟨hfits, hnumber⟩ | ⟨hfits, x, hnumber⟩
  · exact .inl ⟨hfits, congrArg Token.Content.number hnumber⟩
  · exact .inr ⟨hfits, x, congrArg Token.Content.number hnumber⟩

/-- An integer that just fits may be written with zeros in front and with a power of ten. -/
theorem integer_literals_fit_power :
    let text := "0092233720368547758e+2"
    let token := (ofText text {}).next.1
    token.IsDecimal ∧ token.content = .number (.integer 9223372036854775800) ∧
      ∃ literal, token.IsDecimalLiteral text.toList literal ∧
        (literal.fraction? = none → 0 ≤ literal.writtenExponent →
          let value := literal.significand * 10 ^ literal.writtenExponent.toNat
          (literal.FitsInteger ∧ token.content = .number (.integer value)) ∨
            ¬literal.FitsInteger ∧ ∃ x, token.content = .number (.float x)) := by
  intro text token
  have hdecimal : token.IsDecimal := ⟨by decide +kernel, by decide +kernel⟩
  exact ⟨hdecimal, by decide +kernel, integer_literals_fit text {} [] hdecimal⟩

/-- A zero fits with any power of ten, but it is no integer where that power is too large. -/
theorem integer_literals_unfit_zero :
    let text := "0e19"
    let token := (ofText text {}).next.1
    let literal : DecimalLiteral := ⟨['0'], none, some ⟨'e', [], ['1', '9']⟩⟩
    token.IsDecimal ∧ token.IsDecimalLiteral text.toList literal ∧
      literal.fraction? = none ∧ literal.writtenExponent = 19 ∧
      literal.significand * 10 ^ literal.writtenExponent.toNat ≤ 2 ^ 63 - 1 ∧
      token.content ≠ .number (.integer 0) ∧
      token.content = .number (.float (.signed false .zero)) := by
  intro text token literal
  have hdecimal : token.IsDecimal := ⟨by decide +kernel, by decide +kernel⟩
  have hcontent : token.content = .number (.float (.signed false .zero)) := by decide +kernel
  have hfirst : DecimalLiteral.first (ofText text {}).front = literal := by decide +kernel
  have hliteral := isDecimalLiteral_next (charts_ofText text {}).cursor
    (lexeme?_of_isDecimal hdecimal)
  rw [hfirst] at hliteral
  refine ⟨hdecimal, hliteral, rfl, by decide, by decide, ?_, hcontent⟩
  rw [hcontent]
  decide

/-- **Floating-point numbers.** What is not an integer is the number nearest to the decimal that is
written, however large its exponent is. -/
theorem float_literals_nearest (text : String) (options : Options) (calls : List Call)
    (hlength : Text.byteLength text.toList < 2 ^ 30) :
    let token := ((ofText text options).performAll calls).next.1
    ∀ x, token.IsDecimal → token.content = .number (.float x) →
      ∃ literal, token.IsDecimalLiteral text.toList literal ∧
        let value : ℚ := literal.significand *
          10 ^ (literal.writtenExponent - literal.fractionDigits.length)
        (∃ magnitude, x = .signed false magnitude) ∧ x.IsNearest value ∧
          ∀ other : Number.Binary64, other.IsNearest value → other.toRat? = x.toRat? := by
  intro token x hdecimal hcontent
  have htracks := ((charts_ofText text options).performAll calls).cursor
  have hlexeme := lexeme?_of_isDecimal hdecimal
  set literal := DecimalLiteral.first ((ofText text options).performAll calls).front
  have hnumber : literal.number = .float x := by
    rw [show token = _ from token_eq_tokenOf _ hlexeme] at hcontent
    exact Token.Content.number.inj hcontent
  have hdigits : literal.digits.length < 2 ^ 30 :=
    (DecimalLiteral.length_digits_first_le _).trans_lt (length_front_lt htracks hlength)
  have hnearest := DecimalLiteral.isNearest_number
    (DecimalLiteral.wellFormed_first _).digits hdigits hnumber
  refine ⟨literal, isDecimalLiteral_next htracks hlexeme, ?_, hnearest, fun other hother => ?_⟩
  · exact ⟨_, literal.number_eq_float hnumber⟩
  · exact hother.toRat?_eq (by positivity) hnearest

/-- An exponent that does not fit into a word is read as if it did. -/
theorem float_literals_nearest_beyond :
    let text := "1.5e-99999999999"
    let token := (ofText text {}).next.1
    let x : Number.Binary64 := .signed false .zero
    Text.byteLength text.toList < 2 ^ 30 ∧ token.IsDecimal ∧ token.content = .number (.float x) ∧
      ∃ literal, token.IsDecimalLiteral text.toList literal ∧
        let value : ℚ := literal.significand *
          10 ^ (literal.writtenExponent - literal.fractionDigits.length)
        (∃ magnitude, x = .signed false magnitude) ∧ x.IsNearest value ∧
          ∀ other : Number.Binary64, other.IsNearest value → other.toRat? = x.toRat? := by
  intro text token x
  have hlength : Text.byteLength text.toList < 2 ^ 30 := by decide +kernel
  have hdecimal : token.IsDecimal := ⟨by decide +kernel, by decide +kernel⟩
  have hcontent : token.content = .number (.float x) := by decide +kernel
  exact ⟨hlength, hdecimal, hcontent,
    float_literals_nearest text {} [] hlength x hdecimal hcontent⟩

/-! ### Hexadecimal literals -/

theorem isHexLiteral_next (htracks : scanner.cursor.Tracks source) {literal : HexLiteral}
    (hfirst : HexLiteral.first? scanner.front = some literal)
    (hlexeme : scanner.lexeme? = some literal.lexeme) :
    scanner.next.1.IsHexLiteral source literal := by
  have hform := HexLiteral.wellFormed_of_first? hfirst
  refine ⟨hform, ⟨?_, ?_⟩, fun other hother => hform.eq_of_spelling_eq hother⟩
  · rw [token_eq_tokenOf scanner hlexeme]
    rfl
  · rw [dropBytes_start_token htracks]
    exact HexLiteral.isLongest_of_first? hfirst

theorem readsHex_next {literal : HexLiteral}
    (hfirst : HexLiteral.first? scanner.front = some literal)
    (hlexeme : scanner.lexeme? = some literal.lexeme) :
    scanner.next.1.ReadsHex scanner.front literal := by
  have hmax : maxInteger = 2 ^ 63 - 1 := rfl
  obtain ⟨reading, back, hread, hfront, hsuffix, hnumber, -⟩ :=
    HexLiteral.Reading.exists_read_first? hfirst
  rw [token_eq_tokenOf scanner hlexeme]
  refine ⟨rfl, rfl, ⟨reading, back, hread, hfront, hsuffix, ?_⟩, fun hfits => ?_, fun hlarge => ?_⟩
  · rw [hnumber]
    rfl
  · have hvalue : literal.number = if literal.isLong then
        .long (Text.digitsValue 16 literal.digits)
        else .integer (Text.digitsValue 16 literal.digits) :=
      if_neg (Nat.not_lt.mpr (hmax ▸ hfits))
    exact congrArg Token.Content.number hvalue
  · have hvalue : literal.number =
        .float (.signed false (HexLiteral.approximate literal.digits)) :=
      if_pos (hmax ▸ hlarge)
    exact ⟨_, congrArg Token.Content.number hvalue⟩

/-- Nothing else in a step reports that digits are missing. -/
theorem filter_missingHexDigits_reports {literal : HexLiteral}
    (hlexeme : scanner.lexeme? = some literal.lexeme) :
    scanner.reports.filter (·.message = .missingHexDigits) =
      if literal.digits = [] then
        [.ofMessage .missingHexDigits [] (some ⟨scanner.start, scanner.start + 2⟩)]
      else [] := by
  have hgap : (Gap.diagnostics scanner.position scanner.gap).filter
      (·.message = .missingHexDigits) = [] := by
    rw [List.filter_eq_nil_iff]
    intro diagnostic hmem
    rcases Gap.message_of_mem_diagnostics hmem with hmessage | hmessage <;> simp [hmessage]
  have htoken : scanner.tokenReport? = problemReport? literal.lexeme scanner.start := by
    rw [tokenReport?, hlexeme]
  rw [reports, List.filter_append, hgap, List.nil_append, htoken, problemReport?,
    HexLiteral.lexeme]
  by_cases hdigits : literal.digits = []
  · simp [hdigits, Diagnostic.ofMessage, HexLiteral.markLength]
  · simp [hdigits]

/-- **Hexadecimal literals.** Behind a zero and a mark the token takes all the digits and a suffix,
and its value is exact while it fits. That there are no digits is reported. -/
theorem hex_literals_read (text : String) (options : Options) (calls : List Call) :
    let scanner := (ofText text options).performAll calls
    let token := scanner.next.1
    let ahead := Text.dropBytes token.span.start text.toList
    scanner.inTemplateText = false → HexLiteral.Begins ahead →
      ∃ literal, token.IsHexLiteral text.toList literal ∧ token.ReadsHex ahead literal ∧
        ∃ reports,
          scanner.next.2.diagnostics.toList = scanner.diagnostics.toList ++ reports ∧
            reports.filter (·.message = .missingHexDigits) =
              if literal.digits = [] then
                [.ofMessage .missingHexDigits []
                  (some ⟨token.span.start, token.span.start + 2⟩)]
              else [] := by
  intro scanner token ahead htext hbegins
  have htracks : scanner.cursor.Tracks text.toList :=
    ((charts_ofText text options).performAll calls).cursor
  have hahead : ahead = scanner.front := dropBytes_start_token htracks
  have hstart : token.span.start = scanner.start := start_token scanner
  rw [hahead] at hbegins ⊢
  obtain ⟨literal, hfirst⟩ := HexLiteral.exists_first?_of_begins hbegins
  have hlexeme := lexeme?_of_number? htext (HexLiteral.number?_of_first? hfirst)
  rw [hstart]
  exact ⟨literal, isHexLiteral_next htracks hfirst hlexeme, readsHex_next hfirst hlexeme,
    scanner.reports, diagnostics_next scanner, filter_missingHexDigits_reports hlexeme⟩

/-- The greatest integer of 64 bits, which a suffix makes long. -/
theorem hex_literals_read_suffix :
    let text := "0x7fffffffffffffffL"
    let scanner := ofText text {}
    let token := scanner.next.1
    let ahead := Text.dropBytes token.span.start text.toList
    scanner.inTemplateText = false ∧ HexLiteral.Begins ahead ∧ token.span = ⟨0, 19⟩ ∧
      token.content = .number (.long (2 ^ 63 - 1)) ∧
      ∃ literal, token.IsHexLiteral text.toList literal ∧ token.ReadsHex ahead literal ∧
        ∃ reports,
          scanner.next.2.diagnostics.toList = scanner.diagnostics.toList ++ reports ∧
            reports.filter (·.message = .missingHexDigits) =
              if literal.digits = [] then
                [.ofMessage .missingHexDigits []
                  (some ⟨token.span.start, token.span.start + 2⟩)]
              else [] := by
  intro text scanner token ahead
  have htext : scanner.inTemplateText = false := by decide
  have hahead : ahead = '0' :: 'x' :: "7fffffffffffffffL".toList := by decide +kernel
  have hbegins : HexLiteral.Begins ahead := ⟨'x', _, hahead, by decide⟩
  exact ⟨htext, hbegins, by decide +kernel, by decide +kernel,
    hex_literals_read text {} [] htext hbegins⟩

/-- **Large hexadecimal literals.** The value is the number nearest to the literal with zeros in place
of the digits behind `2 ^ 53`. It is nearest to the literal itself, and equal to what its decimal
notation denotes, unless digits are lost at a tie. -/
theorem hex_literals_rounded (text : String) (options : Options) (calls : List Call) :
    let scanner := (ofText text options).performAll calls
    let token := scanner.next.1
    let ahead := Text.dropBytes token.span.start text.toList
    scanner.inTemplateText = false → HexLiteral.Begins ahead →
      ∃ literal, token.IsHexLiteral text.toList literal ∧
        let value := Text.digitsValue 16 literal.digits
        (2 ^ 63 - 1 < value → ∃ kept dropped magnitude,
          HexLiteral.Keeps literal.digits kept dropped ∧
            let cut := HexLiteral.cut kept dropped
            let x : Number.Binary64 := .signed false magnitude
            token.content = .number (.float x) ∧ x.IsNearest cut ∧
              (x.IsNearest value ↔ ¬(cut < value ∧ x.TiesBelow cut)) ∧
              ∀ decimal : DecimalLiteral, decimal.fraction? = none → decimal.exponent? = none →
                decimal.significand = value → (decimal.number = .float x ↔ x.IsNearest value)) := by
  intro scanner token ahead htext hbegins
  have htracks : scanner.cursor.Tracks text.toList :=
    ((charts_ofText text options).performAll calls).cursor
  have hahead : ahead = scanner.front := dropBytes_start_token htracks
  rw [hahead] at hbegins
  obtain ⟨literal, hfirst⟩ := HexLiteral.exists_first?_of_begins hbegins
  have hlexeme := lexeme?_of_number? htext (HexLiteral.number?_of_first? hfirst)
  have hdigits := (HexLiteral.wellFormed_of_first? hfirst).digits
  refine ⟨literal, isHexLiteral_next htracks hfirst hlexeme, fun hlarge => ?_⟩
  have hvalue : 2 ^ 53 ≤ Text.digitsValue 16 literal.digits := by omega
  obtain ⟨kept, dropped, hkeeps⟩ := HexLiteral.exists_keeps hvalue
  have hcontent : token.content =
      .number (.float (.signed false (HexLiteral.approximate literal.digits))) := by
    rw [show token = _ from token_eq_tokenOf scanner hlexeme]
    exact congrArg Token.Content.number (if_pos hlarge)
  refine ⟨kept, dropped, _, hkeeps, hcontent, ?_, ?_, fun decimal hfraction hexponent hsame => ?_⟩
  · exact (hkeeps.isNearest_approximate hdigits).signed (Nat.cast_nonneg _)
  · rw [Number.Binary64.isNearest_signed_iff (Nat.cast_nonneg _),
      Number.Binary64.tiesBelow_signed_iff (Nat.cast_nonneg _)]
    exact hkeeps.isNearest_value_iff hdigits
  · rw [Number.Binary64.isNearest_signed_iff (Nat.cast_nonneg _), ← hsame]
    exact decimal.number_eq_float_iff hfraction hexponent (hsame ▸ hlarge) _

/-- The last digit is lost, but there is no tie without it. -/
theorem hex_literals_rounded_above :
    let text := "0xFFFFFFFFFFFFFFFF1L"
    let scanner := ofText text {}
    let token := scanner.next.1
    let ahead := Text.dropBytes token.span.start text.toList
    scanner.inTemplateText = false ∧ HexLiteral.Begins ahead ∧ token.span = ⟨0, 20⟩ ∧
      token.content = .number (.float (.signed false (.ofDecimal (2 ^ 68) 0))) ∧
      ∃ literal, token.IsHexLiteral text.toList literal ∧
        let value := Text.digitsValue 16 literal.digits
        (2 ^ 63 - 1 < value → ∃ kept dropped magnitude,
          HexLiteral.Keeps literal.digits kept dropped ∧
            let cut := HexLiteral.cut kept dropped
            let x : Number.Binary64 := .signed false magnitude
            token.content = .number (.float x) ∧ x.IsNearest cut ∧
              (x.IsNearest value ↔ ¬(cut < value ∧ x.TiesBelow cut)) ∧
              ∀ decimal : DecimalLiteral, decimal.fraction? = none → decimal.exponent? = none →
                decimal.significand = value →
                  (decimal.number = .float x ↔ x.IsNearest value)) := by
  intro text scanner token ahead
  have htext : scanner.inTemplateText = false := by decide
  have hahead : ahead = '0' :: 'x' :: text.toList.drop 2 := by decide +kernel
  have hbegins : HexLiteral.Begins ahead := ⟨'x', text.toList.drop 2, hahead, by decide⟩
  exact ⟨htext, hbegins, by decide +kernel, by decide +kernel,
    hex_literals_rounded text {} [] htext hbegins⟩

/-- Here the number without its last two digits is midway between two numbers with a floating point. It
goes to the even one, and nothing is left of the one that stands behind it. -/
theorem hex_literals_rounded_midway :
    let hex := (ofText "0x8000000000000401" {}).next.1
    let decimal := (ofText "9223372036854776833" {}).next.1
    let value := 9223372036854776833
    let x : Number.Binary64 := .signed false (.ofDecimal 9223372036854775808 0)
    let y : Number.Binary64 := .signed false (.ofDecimal 9223372036854777856 0)
    Text.digitsValue 16 "8000000000000401".toList = value ∧ 2 ^ 63 - 1 < value ∧
      hex.span = ⟨0, 18⟩ ∧ hex.content = .number (.float x) ∧ ¬x.IsNearest value ∧
      decimal.span = ⟨0, 19⟩ ∧ decimal.content = .number (.float y) ∧ y.IsNearest value ∧
      x ≠ y := by
  intro hex decimal value x y
  have hvalue : (0 : ℚ) ≤ value := by norm_num [value]
  have hnearest := Number.Magnitude.isNearest_ofDecimal 9223372036854776833 0
  have hsame : Number.Magnitude.ofDecimal 9223372036854776833 0 =
      .ofDecimal 9223372036854777856 0 := by decide +kernel
  rw [hsame, zpow_zero, mul_one] at hnearest
  have hdistinct : Number.Magnitude.ofDecimal 9223372036854775808 0 ≠
      .ofDecimal 9223372036854777856 0 := by decide +kernel
  refine ⟨by decide +kernel, by decide, by decide +kernel, by decide +kernel, ?_, by decide +kernel,
    by decide +kernel, hnearest.signed hvalue, by decide +kernel⟩
  rw [Number.Binary64.isNearest_signed_iff hvalue]
  exact fun hother => hdistinct (hother.unique hnearest)

end Scanner

end FormulaScript
