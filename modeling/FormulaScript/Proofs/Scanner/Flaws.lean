import FormulaScript.Proofs.Scanner.Blocks
import FormulaScript.Proofs.Scanner.Tiles

/-!
# Flaws

The tiles of a text tell what is wrong with it: the characters that are skipped, the comment that is
never closed, and the tokens that run into the end of the text or have no digits. The diagnostics of
a run are these, in the order of the text, and one more where a substitution is open at its end.
-/

namespace FormulaScript

namespace Diagnostic

/-- A diagnostic whose message takes no arguments. -/
def plain (message : Message) (span : Span) : Diagnostic :=
  ⟨message, some span, message.template⟩

theorem ofMessage_nil (message : Message) (span : Span) :
    ofMessage message [] (some span) = plain message span := by
  simp [ofMessage, plain, Template.format, Template.fill]

/-- What goes on to the limit without being empty is reported once. -/
theorem Ascend.length_filter_le_one {limit offset : Nat} {diagnostics : List Diagnostic}
    (hascend : Ascend limit offset diagnostics) {select : Diagnostic → Bool}
    (hselect : ∀ diagnostic ∈ diagnostics, select diagnostic →
      ∃ start < limit, diagnostic.span? = some ⟨start, limit⟩) :
    (diagnostics.filter select).length ≤ 1 := by
  induction diagnostics generalizing offset with
  | nil => exact Nat.zero_le _
  | cons diagnostic rest ih =>
      obtain ⟨span, hspan, -, -, hrest⟩ := hascend
      obtain ⟨hhere, hlater⟩ := List.forall_mem_cons.mp hselect
      by_cases hdiagnostic : select diagnostic
      · obtain ⟨start, -, hstart⟩ := hhere hdiagnostic
        obtain rfl : span = ⟨start, limit⟩ := Option.some.inj (hspan.symm.trans hstart)
        -- Nothing begins behind the limit, so nothing more is selected.
        have hnone : rest.filter select = [] := by
          rw [List.filter_eq_nil_iff]
          intro other hmem hother
          obtain ⟨start', hlt, hstart'⟩ := hlater other hmem hother
          obtain ⟨span, hspan, hle, -⟩ := hrest.span_of_mem hmem
          obtain rfl := Option.some.inj (hstart'.symm.trans hspan)
          exact Nat.not_le.mpr hlt hle
        rw [List.filter_cons_of_pos hdiagnostic, hnone]
        rfl
      · rw [List.filter_cons_of_neg hdiagnostic]
        exact ih hrest hlater

end Diagnostic

/-! ### What is wrong with a gap -/

namespace Gap

/-- What is wrong with a piece at an offset, in a text of some length. -/
def Piece.flaw? (length offset : Nat) : Piece → Option Diagnostic
  | .invalid c => some (.ofInvalid (offset, c))
  | .unclosedComment _ => some (.plain .unclosedComment ⟨offset, length⟩)
  | _ => none

def flaws (length : Nat) : Nat → List Piece → List Diagnostic
  | _, [] => []
  | offset, piece :: pieces =>
      (piece.flaw? length offset).toList ++ flaws length (offset + piece.byteLength) pieces

variable {options : Options} {length offset : Nat} {rest : List Char}

theorem diagnostic?_eq_flaw? {piece : Piece} (hstands : piece.StandsBefore options rest)
    (hlength : length = offset + piece.byteLength + Text.byteLength rest) :
    piece.diagnostic? offset = piece.flaw? length offset := by
  cases piece with
  | invalid c => exact diagnostic?_invalid c offset
  | unclosedComment body =>
      obtain ⟨-, rfl⟩ := hstands
      rw [hlength]
      exact congrArg some (Diagnostic.ofMessage_nil _ _)
  | _ => rfl

theorem diagnostics_eq_flaws {pieces : List Piece} (hstands : StandsBefore options rest pieces)
    (hlength : length = offset + Text.byteLength (spelling pieces) + Text.byteLength rest) :
    diagnostics offset pieces = flaws length offset pieces := by
  induction pieces generalizing offset with
  | nil => rfl
  | cons piece pieces ih =>
      obtain ⟨hpiece, hrest⟩ := hstands
      rw [byteLength_spelling_cons, ← Nat.add_assoc] at hlength
      rw [diagnostics, flaws, ih hrest hlength, diagnostic?_eq_flaw? hpiece]
      rw [hlength, Text.byteLength_append, Nat.add_assoc]

/-- A comment that is never closed is not empty, since its mark is part of it. -/
theorem span_of_unclosed_mem_flaws {pieces : List Piece} {diagnostic : Diagnostic}
    (hmem : diagnostic ∈ flaws length offset pieces)
    (hmessage : diagnostic.message = .unclosedComment)
    (hlength : offset + Text.byteLength (spelling pieces) ≤ length) :
    ∃ start < length, diagnostic.span? = some ⟨start, length⟩ := by
  induction pieces generalizing offset with
  | nil => cases hmem
  | cons piece pieces ih =>
      rw [byteLength_spelling_cons, ← Nat.add_assoc] at hlength
      rw [flaws, List.mem_append, Option.mem_toList] at hmem
      rcases hmem with hhere | hlater
      · have hpos : piece.byteLength ≠ 0 := fun hzero =>
          piece.spelling_ne_nil (Text.eq_nil_of_byteLength_eq_zero hzero)
        cases piece with
        | unclosedComment body =>
            obtain rfl := Option.some.inj hhere
            exact ⟨offset, by omega, rfl⟩
        | invalid c =>
            obtain rfl := Option.some.inj hhere
            cases hmessage
        | _ => cases hhere
      · exact ih hlater hlength

theorem exists_unclosed_mem_flaws_iff (pieces : List Piece) :
    (∃ diagnostic ∈ flaws length offset pieces, diagnostic.message = .unclosedComment) ↔
      ∃ body, .unclosedComment body ∈ pieces := by
  induction pieces generalizing offset with
  | nil => simp [flaws]
  | cons piece pieces ih =>
      simp only [flaws, List.mem_append, or_and_right, exists_or, ih, List.mem_cons]
      apply or_congr_left
      cases piece <;> simp [Piece.flaw?, Diagnostic.plain, Diagnostic.ofInvalid]

end Gap

/-! ### What is wrong with a token -/

/-- What is wrong with a token that is spelled so. -/
def Token.flaws (spelling : List Char) (token : Token) : List Diagnostic :=
  let message : Message :=
    if token.kind = .literal .template then .unterminatedTemplate else .unterminatedString
  let start := token.span.start
  (if token.isUnterminated then [.plain message token.span] else []) ++
    if token.flags.hexadecimal && !(spelling.drop 2).any Text.isHexDigit then
      [.plain .missingHexDigits ⟨start, start + 2⟩]
    else []

theorem Token.message_ne_of_mem_flaws {spelling : List Char} {token : Token}
    {diagnostic : Diagnostic} (hmem : diagnostic ∈ token.flaws spelling) :
    diagnostic.message ≠ .unclosedComment := by
  rcases List.mem_append.mp hmem with hunterminated | hdigits
  · split_ifs at hunterminated <;> simp_all [Diagnostic.plain]
  · split_ifs at hdigits <;> simp_all [Diagnostic.plain]

/-- The digits of a literal are all there are behind its mark. -/
theorem HexLiteral.any_isHexDigit_spelling {characters : List Char} {literal : HexLiteral}
    (hfirst : first? characters = some literal) :
    (literal.spelling.drop 2).any Text.isHexDigit = !literal.digits.isEmpty := by
  obtain ⟨mark, rest, rfl, hmark⟩ := exists_of_first? hfirst
  rw [first?_zero, if_pos hmark] at hfirst
  obtain rfl := Option.some.inj hfirst
  have hsuffix : ((rest.dropWhile Text.isHexDigit).head?.filter isSuffix).toList.any
      Text.isHexDigit = false := by
    rw [List.any_eq_false]
    intro c hc
    have hletter := (Option.filter_eq_some_iff.mp (Option.mem_toList.mp hc)).2
    rcases (by simpa [isSuffix] using hletter : c = 'l' ∨ c = 'L') with rfl | rfl <;> decide
  simp only [spelling, List.drop_succ_cons, List.drop_zero, List.any_append, hsuffix,
    Bool.or_false]
  cases hdigits : rest.takeWhile Text.isHexDigit with
  | nil => rfl
  | cons c digits =>
      have hdigit : Text.isHexDigit c = true :=
        List.mem_takeWhile_imp (hdigits ▸ List.mem_cons_self)
      rw [List.any_cons, hdigit]
      rfl

namespace Scanner

variable (scanner : Scanner)

theorem toList_problemReport?_of_plain {lexeme : Lexeme} (hproblem : lexeme.problem? = none)
    (hunterminated : lexeme.flags.unterminated = false)
    (hhexadecimal : lexeme.flags.hexadecimal = false) (offset : Nat) :
    (problemReport? lexeme offset).toList = (scanner.tokenOf lexeme).flaws lexeme.spelling := by
  simp [problemReport?, hproblem, Token.flaws, tokenOf, Token.isUnterminated, hunterminated,
    hhexadecimal]

theorem toList_problemReport?_of_number? {characters : List Char} {lexeme : Lexeme}
    (hnumber : Lexeme.number? characters = some lexeme) :
    (problemReport? lexeme scanner.start).toList =
      (scanner.tokenOf lexeme).flaws lexeme.spelling := by
  unfold Lexeme.number? at hnumber
  split_ifs at hnumber
  split at hnumber
  · rename_i literal hliteral
    obtain rfl := Option.some.inj hnumber
    have hclosed : (scanner.tokenOf literal.lexeme).isUnterminated ≠ true := Bool.false_ne_true
    have hdigits : (literal.lexeme.spelling.drop 2).any Text.isHexDigit = !literal.digits.isEmpty :=
      literal.any_isHexDigit_spelling hliteral
    rw [Token.flaws, if_neg hclosed, List.nil_append, hdigits, Bool.not_not]
    by_cases hempty : literal.digits.isEmpty
    · simp [problemReport?, HexLiteral.lexeme, hempty, tokenOf, Diagnostic.ofMessage_nil,
        HexLiteral.markLength]
    · simp [problemReport?, HexLiteral.lexeme, hempty]
  · obtain rfl := Option.some.inj hnumber
    exact scanner.toList_problemReport?_of_plain rfl rfl rfl _

theorem toList_problemReport?_of_quoted {characters : List Char} {lexeme : Lexeme}
    (hquoted : Quoted.first? characters = some lexeme) :
    (problemReport? lexeme scanner.start).toList =
      (scanner.tokenOf lexeme).flaws lexeme.spelling := by
  match characters with
  | [] => cases hquoted
  | c :: rest =>
      obtain ⟨quote, -, rfl⟩ := Option.map_eq_some_iff.mp hquoted
      cases hclosed : (Quoted.read quote rest).closed with
      | true =>
          apply toList_problemReport?_of_plain
          · simp [Quoted.lexeme, hclosed]
          · simp [Quoted.lexeme, hclosed]
          · rfl
      | false =>
          cases quote <;>
            simp [problemReport?, Token.flaws, tokenOf, Quoted.lexeme, hclosed,
              Token.isUnterminated, Diagnostic.ofMessage_nil, Quote.literal, Quote.unterminated,
              Lexeme.byteLength]

/-- What is reported about a lexeme can be told from its token. -/
theorem toList_problemReport? {lexeme : Lexeme} (hlexeme : scanner.lexeme? = some lexeme) :
    (problemReport? lexeme scanner.start).toList =
      (scanner.tokenOf lexeme).flaws lexeme.spelling := by
  unfold lexeme? at hlexeme
  split_ifs at hlexeme
  · obtain rfl := Option.some.inj hlexeme
    exact scanner.toList_problemReport?_of_plain rfl rfl rfl _
  · rcases Lexeme.first?_cases hlexeme with hnumber | hquoted | ⟨operator, -, rfl⟩ | hword
    · exact scanner.toList_problemReport?_of_number? hnumber
    · exact scanner.toList_problemReport?_of_quoted hquoted
    · exact scanner.toList_problemReport?_of_plain rfl rfl rfl _
    · obtain ⟨run, -, rfl⟩ := Option.map_eq_some_iff.mp hword
      apply scanner.toList_problemReport?_of_plain (Word.problem?_classify _ _)
      · rw [Word.flags_classify]
      · rw [Word.flags_classify]

end Scanner

/-! ### What is wrong with a text -/

namespace Tile

def flaws (length offset : Nat) (tile : Tile) : List Diagnostic :=
  Gap.flaws length offset tile.gap ++ tile.token.flaws tile.spelling

/-- What is wrong with tiles that lie one behind the other, in a text of some length. -/
def flawsOf (length : Nat) : Nat → List Tile → List Diagnostic
  | _, [] => []
  | offset, tile :: tiles =>
      tile.flaws length offset ++ flawsOf length (offset + Text.byteLength tile.text) tiles

variable {length offset : Nat}

theorem span_of_unclosed_mem_flawsOf {tiles : List Tile} {diagnostic : Diagnostic}
    (hmem : diagnostic ∈ flawsOf length offset tiles)
    (hmessage : diagnostic.message = .unclosedComment)
    (hlength : offset + Text.byteLength (textOf tiles) ≤ length) :
    ∃ start < length, diagnostic.span? = some ⟨start, length⟩ := by
  induction tiles generalizing offset with
  | nil => cases hmem
  | cons tile tiles ih =>
      rw [textOf_cons, Text.byteLength_append, ← Nat.add_assoc] at hlength
      rw [flawsOf, flaws, List.mem_append, List.mem_append] at hmem
      rcases hmem with (hgap | htoken) | hlater
      · refine Gap.span_of_unclosed_mem_flaws hgap hmessage ?_
        rw [text, Text.byteLength_append] at hlength
        omega
      · exact absurd hmessage (Token.message_ne_of_mem_flaws htoken)
      · exact ih hlater hlength

theorem exists_unclosed_mem_flawsOf_iff (tiles : List Tile) :
    (∃ diagnostic ∈ flawsOf length offset tiles, diagnostic.message = .unclosedComment) ↔
      ∃ tile ∈ tiles, ∃ body, .unclosedComment body ∈ tile.gap := by
  induction tiles generalizing offset with
  | nil => simp [flawsOf]
  | cons tile tiles ih =>
      have htoken : ¬∃ diagnostic ∈ tile.token.flaws tile.spelling,
          diagnostic.message = .unclosedComment := by
        rintro ⟨diagnostic, hmem, hmessage⟩
        exact Token.message_ne_of_mem_flaws hmem hmessage
      simp only [flawsOf, flaws, List.mem_append, or_and_right, exists_or, ih, htoken, or_false,
        Gap.exists_unclosed_mem_flaws_iff, List.mem_cons, exists_eq_left]

end Tile

namespace Scanner

variable (scanner : Scanner)

/-- Where the text ends. -/
def textEnd : Nat :=
  scanner.position + Text.byteLength scanner.remaining

theorem textEnd_next : scanner.next.2.textEnd = scanner.textEnd :=
  scanner.position_add_byteLength_next

theorem gap_diagnostics_eq_flaws :
    Gap.diagnostics scanner.position scanner.gap =
      Gap.flaws scanner.textEnd scanner.position scanner.gap := by
  apply Gap.diagnostics_eq_flaws scanner.standsBefore_gap
  rw [textEnd, ← spelling_gap_append_front, Text.byteLength_append, Nat.add_assoc]

theorem reports_of_lexeme {lexeme : Lexeme} (hlexeme : scanner.lexeme? = some lexeme) :
    scanner.reports = scanner.tile.flaws scanner.textEnd scanner.position := by
  have htoken : scanner.tokenReport?.toList = scanner.tile.token.flaws scanner.tile.spelling := by
    rw [tokenReport?, hlexeme, tile, lexemeSpelling, hlexeme, token_eq_tokenOf scanner hlexeme]
    exact toList_problemReport? scanner hlexeme
  rw [reports, gap_diagnostics_eq_flaws, htoken]
  rfl

theorem reports_of_end (hlexeme : scanner.lexeme? = none) :
    scanner.reports =
      scanner.tile.flaws scanner.textEnd scanner.position ++
        unclosedReport scanner.part scanner.textEnd := by
  have hstart : scanner.start = scanner.textEnd := scanner.start_of_end hlexeme
  have htoken : scanner.tile.token.flaws scanner.tile.spelling = [] := by
    rw [tile, token_eq_endToken scanner hlexeme]
    rfl
  have hreport : scanner.tokenReport?.toList = unclosedReport scanner.part scanner.textEnd := by
    rw [tokenReport?, hlexeme, unclosedReport, ← hstart, endReport?]
    cases scanner.part <;> rfl
  rw [reports, gap_diagnostics_eq_flaws, hreport, Tile.flaws, htoken, List.append_nil]
  rfl

theorem message_of_mem_unclosedReport {part : Section} {offset : Nat} {diagnostic : Diagnostic}
    (hmem : diagnostic ∈ unclosedReport part offset) :
    diagnostic.message = .unterminatedSubstitution := by
  unfold unclosedReport at hmem
  split_ifs at hmem
  · cases hmem
  · obtain rfl := List.mem_singleton.mp hmem
    rfl

theorem exists_tiledBy_flawsOf :
    ∃ tiles, scanner.TiledBy tiles ∧
      scanner.firstReports (scanner.body.length + 1) =
        Tile.flawsOf scanner.textEnd scanner.position tiles ++
          unclosedReport (scanner.after scanner.body.length).part scanner.textEnd := by
  induction scanner using run_induction with
  | last scanner hkind =>
      refine ⟨[scanner.tile], tiledBy_of_end hkind, ?_⟩
      have hlexeme := (kind_token_eq_endOfText_iff scanner).mp hkind
      rw [body_of_end hkind]
      calc scanner.firstReports 1
          = scanner.reports := List.append_nil _
        _ = _ := by
            rw [reports_of_end scanner hlexeme, Tile.flawsOf, Tile.flawsOf, List.append_nil]
            rfl
  | step scanner hkind ih =>
      obtain ⟨tiles, htiled, hreports⟩ := ih
      refine ⟨scanner.tile :: tiles, htiled.cons hkind, ?_⟩
      obtain ⟨lexeme, hlexeme⟩ := exists_lexeme_of_kind_ne hkind
      rw [body_of_token hkind, List.length_cons, firstReports, hreports,
        reports_of_lexeme scanner hlexeme, textEnd_next, position_next_eq_tile, Tile.flawsOf,
        List.append_assoc]
      rfl

theorem ascend_firstReports (count : Nat) :
    Diagnostic.Ascend (scanner.after count).position scanner.position
      (scanner.firstReports count) := by
  induction count generalizing scanner with
  | zero => exact Nat.le_refl _
  | succ count ih => exact scanner.ascend_reports.append (ih scanner.next.2)

theorem textEnd_after (count : Nat) : (scanner.after count).textEnd = scanner.textEnd := by
  induction count generalizing scanner with
  | zero => rfl
  | succ count ih => exact (ih scanner.next.2).trans scanner.textEnd_next

/-- **Flaws.** The diagnostics of a run are what is wrong with the tiles of the text, one by one in the
order of the text, and behind them that a substitution is open at the end, if one is. A comment that
is never closed is reported once. The text fits, so that words hold the places as they are. -/
theorem diagnostics_accounted {text : String} (hfits : Text.Fits text) (options : Options) :
    let scanner := ofText text options
    let length := Text.byteLength text.toList
    let diagnostics := scanner.run.2.diagnostics.toList
    let ending := (scanner.after scanner.body.length).part
    (∃ tiles : List Tile,
        tiles.map Tile.token = scanner.tokens ∧
          Tile.textOf tiles = text.toList ∧
          Tile.Laid options 0 tiles ∧
          diagnostics = Tile.flawsOf length 0 tiles ++ unclosedReport ending length ∧
          ((∃ diagnostic ∈ diagnostics, diagnostic.message = .unclosedComment) ↔
            ∃ tile ∈ tiles, ∃ body, .unclosedComment body ∈ tile.gap)) ∧
      Diagnostic.Ascend length 0 diagnostics ∧
      (diagnostics.filter (·.message = .unclosedComment)).length ≤ 1 ∧
      diagnostics.filter (·.message = .unterminatedSubstitution) =
        unclosedReport ending length ∧
      diagnostics.map Diagnostic.wrap = diagnostics ∧ scanner.HeldInWords := by
  intro scanner length diagnostics ending
  have hheld : scanner.HeldInWords := (charts_ofText text options).heldInWords hfits
  have hend : scanner.textEnd = length := by
    rw [textEnd, remaining_ofText, position_ofText, Nat.zero_add]
  have hafter : diagnostics = (scanner.after (scanner.body.length + 1)).diagnostics.toList := by
    change scanner.run.2.diagnostics.toList = _
    rw [run_eq]
  have hrun : diagnostics = scanner.firstReports (scanner.body.length + 1) :=
    hafter.trans (diagnostics_after scanner _)
  obtain ⟨tiles, htiled, hreports⟩ := scanner.exists_tiledBy_flawsOf
  rw [← hrun, hend] at hreports
  have htext : Tile.textOf tiles = text.toList := htiled.text.trans (remaining_ofText text options)
  have hunclosed : ∀ diagnostic, diagnostic ∈ diagnostics ∧ diagnostic.message = .unclosedComment ↔
      diagnostic ∈ Tile.flawsOf length 0 tiles ∧ diagnostic.message = .unclosedComment := by
    intro diagnostic
    rw [hreports, List.mem_append, and_congr_left_iff]
    intro hmessage
    apply or_iff_left
    intro hmem
    rw [message_of_mem_unclosedReport hmem] at hmessage
    cases hmessage
  have hascend : Diagnostic.Ascend length 0 diagnostics := by
    rw [hrun, ← hend, ← scanner.textEnd_after (scanner.body.length + 1)]
    exact (scanner.ascend_firstReports _).mono (Nat.le_add_right _ _)
  refine ⟨⟨tiles, htiled.tokens, htext, htiled.laid, hreports, ?_⟩, hascend, ?_, ?_, ?_,
    hheld⟩
  · rw [← Tile.exists_unclosed_mem_flawsOf_iff tiles]
    exact exists_congr hunclosed
  · apply hascend.length_filter_le_one
    intro diagnostic hmem hselect
    have hmessage : diagnostic.message = .unclosedComment := of_decide_eq_true hselect
    obtain ⟨hflaw, -⟩ := (hunclosed diagnostic).mp ⟨hmem, hmessage⟩
    apply Tile.span_of_unclosed_mem_flawsOf hflaw hmessage
    rw [htext, Nat.zero_add]
  · calc diagnostics.filter (·.message = .unterminatedSubstitution)
        = (scanner.after (scanner.body.length + 1)).unclosedReports := by
          rw [hafter, unclosedReports]
      _ = unclosedReport ending scanner.textEnd := by
          rw [unclosedReports_after, if_pos (Nat.lt_succ_self _)]
          rfl
      _ = unclosedReport ending length := by rw [hend]
  · have hlast : scanner.run.2.wrap = scanner.run.2 := congrArg Prod.snd hheld.run
    have hwrapped : scanner.run.2.wrap.diagnostics.toList = diagnostics :=
      congrArg (·.diagnostics.toList) hlast
    rwa [wrap, Array.toList_map] at hwrapped

/-- A character that begins nothing, a number without digits, and a comment that is never closed. -/
theorem diagnostics_accounted_unclosed :
    let text := "\\0x /*"
    let diagnostics := (ofText text {}).run.2.diagnostics.toList
    Text.Fits text ∧ diagnostics.map Diagnostic.message =
        [.invalidCharacter, .missingHexDigits, .unclosedComment] ∧
      Diagnostic.Ascend (Text.byteLength text.toList) 0 diagnostics ∧
      (diagnostics.filter (·.message = .unclosedComment)).length ≤ 1 ∧
      diagnostics.map Diagnostic.wrap = diagnostics := by
  intro text diagnostics
  have hfits : Text.Fits text := by decide +kernel
  obtain ⟨-, hascend, hunclosed, -, hwords, -⟩ := diagnostics_accounted hfits {}
  exact ⟨hfits, by decide +kernel, hascend, hunclosed, hwords⟩

end Scanner

end FormulaScript
