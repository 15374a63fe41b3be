import FormulaScript.Proofs.Scanner.Blocks
import Mathlib.Data.List.Infix

/-!
# A substitution is read as a script

A script between `$\x7b` and a closing brace on the next line is read as by itself, if its braces are
balanced and nothing in it goes on beyond its end. What is read before the script only moves the
spans by the two bytes of the opening mark, and what stands behind it is kept apart by a line feed.
-/

namespace FormulaScript

/-- The diagnostic, so many bytes later. -/
def Diagnostic.shift (diagnostic : Diagnostic) (offset : Nat) : Diagnostic :=
  { diagnostic with span? := diagnostic.span?.map (·.shift offset) }

namespace Gap

theorem diagnostic?_shift (piece : Piece) (offset distance : Nat) :
    piece.diagnostic? (offset + distance) =
      (piece.diagnostic? offset).map (·.shift distance) := by
  rw [Piece.diagnostic?, Piece.diagnostic?, Option.map_map]
  cases piece.report? with
  | none => rfl
  | some report =>
      simp [Diagnostic.shift, Diagnostic.ofMessage, Span.shift]
      omega

theorem diagnostics_shift (offset distance : Nat) (pieces : List Piece) :
    diagnostics (offset + distance) pieces =
      (diagnostics offset pieces).map (·.shift distance) := by
  induction pieces generalizing offset with
  | nil => rfl
  | cons piece pieces ih =>
      rw [diagnostics, diagnostics, List.map_append, diagnostic?_shift, Nat.add_right_comm, ih]
      cases piece.diagnostic? offset <;> rfl

theorem diagnostics_append (offset : Nat) (front back : List Piece) :
    diagnostics offset (front ++ back) =
      diagnostics offset front ++
        diagnostics (offset + Text.byteLength (spelling front)) back := by
  induction front generalizing offset with
  | nil => rfl
  | cons piece front ih =>
      rw [List.cons_append, diagnostics, diagnostics, ih, byteLength_spelling_cons, Nat.add_assoc,
        List.append_assoc]

/-- A comment that is never closed is reported. -/
theorem exists_mem_diagnostics_of_unclosed {body : List Char} {pieces : List Piece}
    (hmem : .unclosedComment body ∈ pieces) (offset : Nat) :
    ∃ diagnostic ∈ diagnostics offset pieces, diagnostic.message = .unclosedComment := by
  induction pieces generalizing offset with
  | nil => cases hmem
  | cons piece pieces ih =>
      rw [diagnostics]
      rcases List.mem_cons.mp hmem with rfl | hrest
      · exact ⟨_, List.mem_append_left _ (List.mem_singleton_self _), rfl⟩
      · obtain ⟨diagnostic, hdiagnostic, hmessage⟩ := ih hrest (offset + piece.byteLength)
        exact ⟨diagnostic, List.mem_append_right _ hdiagnostic, hmessage⟩

end Gap

namespace Scanner

/-- What closes a substitution, on a line of its own. -/
def closing : List Char :=
  ['\n', '\x7d']

theorem separated_closing : Separated closing :=
  separated_cons (by decide) _

def closeBrace : Lexeme :=
  Operator.lexeme ⟨['\x7d'], .closeBrace⟩

theorem first?_closeBrace (options : Options) :
    Lexeme.first? options ['\x7d'] = some closeBrace := by
  obtain ⟨mode, unicode⟩ := options
  cases mode <;> rfl

theorem read_closing (options : Options) : Gap.read options closing = [.lineBreak '\n'] := by
  have hfirst : Gap.first? options closing = some (.lineBreak '\n') := rfl
  have hrest : Gap.first? options ['\x7d'] = none :=
    Gap.first?_eq_none_iff.mpr ⟨rfl, .inr (by simp [first?_closeBrace])⟩
  rw [Gap.read_of_first?_eq_some hfirst]
  exact congrArg _ (Gap.read_of_first?_eq_none hrest)

/-- One scanner has a script ahead, and the other one has the same script ahead in a substitution
with so many open braces besides its own. -/
structure Embeds (depth : Nat) (left right : Scanner) : Prop where
  script : left.options.mode = .script
  template : right.options.mode = .template
  unicode : right.options.unicodeIdentifiers = left.options.unicodeIdentifiers
  outside : left.part = .text
  part : right.part = .substitution (depth + 1)
  remaining : right.remaining = left.remaining ++ closing
  position : right.position = left.position + 2
  diagnostics : right.diagnostics.toList = left.diagnostics.toList.map (·.shift 2)

section

variable {depth : Nat} {left right : Scanner} {lexeme : Lexeme}

theorem Embeds.read (hembeds : Embeds depth left right)
    (hcomments : ∀ body, .unclosedComment body ∉ left.gap) :
    right.gap = left.gap ++ Gap.read right.options (left.front ++ closing) := by
  have hgap := gap_of_script (inTemplateText_of_script hembeds.script)
  have hfront := left.spelling_gap_append_front
  rw [hgap] at hfront hcomments
  rw [gap_of_script (inTemplateText_of_substitution hembeds.part), hembeds.remaining, hgap]
  exact Gap.read_lineFeed hembeds.unicode hfront hcomments ['\x7d']

theorem Embeds.front (hembeds : Embeds depth left right) {back : List Gap.Piece}
    (hgap : right.gap = left.gap ++ back) :
    Gap.spelling back ++ right.front = left.front ++ closing := by
  have hright := right.spelling_gap_append_front
  rw [hgap, hembeds.remaining, ← left.spelling_gap_append_front, Gap.spelling,
    List.flatMap_append, List.append_assoc, List.append_assoc] at hright
  exact List.append_cancel_left hright

/-- No substitution opens within the script. -/
theorem Embeds.first?_front (hembeds : Embeds depth left right)
    (hopening : ¬['$', '\x7b'] <+: left.front) :
    Lexeme.first? right.options (left.front ++ closing) =
      Lexeme.first? left.options (left.front ++ closing) := by
  have hmem : ∀ c ∈ separators, c ∉ ['$', '\x7b'] := by simp [separators]
  have hopening' : ¬['$', '\x7b'] <+: left.front ++ closing := fun hprefix =>
    hopening (isPrefix_of_separated separated_closing hmem hprefix)
  have hleft : left.options = ⟨.script, left.options.unicodeIdentifiers⟩ := by
    rw [← hembeds.script]
  have hright : right.options = ⟨.template, left.options.unicodeIdentifiers⟩ := by
    rw [← hembeds.template, ← hembeds.unicode]
  rw [hright, hleft]
  exact Lexeme.first?_template hopening' _

theorem Embeds.lexeme? (hembeds : Embeds depth left right)
    (hlexeme : left.lexeme? = some lexeme) (hclosed : lexeme.flags.unterminated = false)
    (hcomments : ∀ body, .unclosedComment body ∉ left.gap)
    (hopening : ¬['$', '\x7b'] <+: left.front) :
    right.gap = left.gap ∧ right.front = left.front ++ closing ∧ right.lexeme? = some lexeme := by
  have hscript := inTemplateText_of_script hembeds.script
  have hsplit := front_eq_append left hlexeme
  have hne : left.front ≠ [] := front_ne_nil (by simp [hlexeme])
  have hfirst : Lexeme.first? right.options (left.front ++ closing) = some lexeme := by
    have hleft := hlexeme
    rw [lexeme?_of_script hscript, hsplit, ← List.append_nil left.next.2.remaining] at hleft
    rw [hembeds.first?_front hopening, hsplit, List.append_assoc]
    exact Lexeme.first?_splice hleft rfl (fun _ => hclosed) separated_closing fun _ c hc => by
      cases hc
  have hnone : Gap.first? right.options (left.front ++ closing) = none := by
    have htrivia := (Gap.first?_eq_none_iff.mp (first?_front_of_script hscript)).1
    rw [← List.append_nil left.front] at htrivia
    have hstops : StopsAlike [] closing := .inr separated_closing
    exact Gap.first?_eq_none_iff.mpr
      ⟨Gap.trivia?_stable_none hstops hne htrivia, .inr (by simp [hfirst])⟩
  have hgap : right.gap = left.gap ++ [] := by
    rw [hembeds.read hcomments, Gap.read_of_first?_eq_none hnone]
  have hfront : right.front = left.front ++ closing := hembeds.front hgap
  rw [List.append_nil] at hgap
  refine ⟨hgap, hfront, ?_⟩
  rw [lexeme?_of_script (inTemplateText_of_substitution hembeds.part), hfront, hfirst]

/-! ### A step -/

theorem problemReport?_shift (lexeme : Lexeme) (offset distance : Nat) :
    problemReport? lexeme (offset + distance) =
      (problemReport? lexeme offset).map (·.shift distance) := by
  rw [problemReport?, problemReport?, Option.map_map]
  cases lexeme.problem? with
  | none => rfl
  | some problem =>
      simp [Diagnostic.shift, Diagnostic.ofMessage, Span.shift]
      omega

/-- A step so many bytes later, over the same gap, reports the same so many bytes later. -/
theorem reports_shift {offset : Nat} (hposition : right.position = left.position + offset)
    (hgap : right.gap = left.gap)
    (htoken : right.tokenReport? = left.tokenReport?.map (·.shift offset)) :
    right.reports = left.reports.map (·.shift offset) := by
  rw [Scanner.reports, Scanner.reports, hgap, hposition, Gap.diagnostics_shift, htoken,
    List.map_append]
  cases left.tokenReport? <;> rfl

theorem Embeds.reports (hembeds : Embeds depth left right) (hgap : right.gap = left.gap)
    (hlexeme : left.lexeme? = some lexeme) (hlexeme' : right.lexeme? = some lexeme) :
    right.reports = left.reports.map (·.shift 2) := by
  have hstart : right.start = left.start + 2 := by
    rw [start, hgap, hembeds.position, start, Nat.add_right_comm]
  apply reports_shift hembeds.position hgap
  rw [tokenReport?, tokenReport?, hlexeme, hlexeme', hstart]
  exact problemReport?_shift lexeme left.start 2

theorem Embeds.next (hembeds : Embeds depth left right)
    (hlexeme : left.lexeme? = some lexeme) (hclosed : lexeme.flags.unterminated = false)
    (hcomments : ∀ body, .unclosedComment body ∉ left.gap)
    (hopening : ¬['$', '\x7b'] <+: left.front)
    (hbalanced : 0 ≤ (depth : Int) + left.next.1.kind.braceStep) :
    right.next.1 = left.next.1.shift 2 ∧
      Embeds (depth + left.next.1.kind.braceStep).toNat left.next.2 right.next.2 := by
  obtain ⟨hgap, hfront, hlexeme'⟩ := hembeds.lexeme? hlexeme hclosed hcomments hopening
  have htoken : right.next.1 = left.next.1.shift 2 := by
    rw [token_eq_tokenOf left hlexeme, token_eq_tokenOf right hlexeme', tokenOf, start, hgap,
      hembeds.position, Nat.add_right_comm left.position, ← start, Nat.add_right_comm left.start]
    rfl
  have hkind : left.next.1.kind = lexeme.kind := by
    rw [token_eq_tokenOf left hlexeme, tokenOf]
  rw [hkind] at hbalanced ⊢
  refine ⟨htoken, ?_⟩
  constructor
  · rw [options_next, hembeds.script]
  · rw [options_next, hembeds.template]
  · rw [options_next, options_next, hembeds.unicode]
  · rw [part_next_of_script (inTemplateText_of_script hembeds.script) hlexeme, hembeds.outside,
      Section.after_text]
  · rw [part_next_of_script (inTemplateText_of_substitution hembeds.part) hlexeme', hembeds.part,
      Section.after_substitution (Nat.succ_pos depth), Block.sectionOf_of_pos (by omega)]
    congr 1
    omega
  · have hright := front_eq_append right hlexeme'
    rw [hfront, front_eq_append left hlexeme, List.append_assoc] at hright
    exact (List.append_cancel_left hright).symm
  · rw [position_next, position_next, htoken]
    rfl
  · rw [diagnostics_next, diagnostics_next, hembeds.diagnostics,
      hembeds.reports hgap hlexeme hlexeme', List.map_append]

/-! ### The closing brace -/

/-- The token of the closing brace, on a line of its own behind an offset. -/
def closingToken (offset : Nat) : Token where
  kind := .punctuation .closeBrace
  span := ⟨offset + 1, offset + 2⟩
  content := .text "\x7d"
  flags := { afterLineBreak := true }

theorem Embeds.next_of_end (hembeds : Embeds 0 left right) (hend : left.lexeme? = none)
    (hcomments : ∀ body, .unclosedComment body ∉ left.gap) :
    right.next.1 = closingToken (left.start + 2) ∧ right.next.2.AtRest ∧
      right.next.2.position = left.start + 4 ∧
      right.next.2.diagnostics.toList = left.next.2.diagnostics.toList.map (·.shift 2) := by
  have hgap : right.gap = left.gap ++ [.lineBreak '\n'] := by
    rw [hembeds.read hcomments, front_eq_nil_of_lexeme?_eq_none hend, List.nil_append, read_closing]
  have hfront : right.front = ['\x7d'] := by
    have hsplit := hembeds.front hgap
    rw [front_eq_nil_of_lexeme?_eq_none hend, List.nil_append] at hsplit
    exact (List.cons.inj hsplit).2
  have hlexeme : right.lexeme? = some closeBrace := by
    rw [lexeme?_of_script (inTemplateText_of_substitution hembeds.part), hfront, first?_closeBrace]
  have hstart : right.start = left.start + 3 := by
    rw [start, hgap, hembeds.position, start, Gap.spelling, List.flatMap_append,
      Text.byteLength_append]
    have hline : Text.byteLength ([Gap.Piece.lineBreak '\n'].flatMap Gap.Piece.spelling) = 1 := by
      decide
    rw [hline, Gap.spelling]
    omega
  have htoken : right.next.1 = closingToken (left.start + 2) := by
    have hlength : closeBrace.byteLength = 1 := by decide
    have hline : Gap.crossesLine right.gap = true := by
      rw [hgap, Gap.crossesLine, List.any_append]
      simp [Gap.Piece.crossesLine]
    rw [token_eq_tokenOf right hlexeme, tokenOf, hstart, hlength, hline]
    rfl
  have hremaining : right.next.2.remaining = [] := by
    rw [remaining_next_of_lexeme right hlexeme, hfront]
    rfl
  have hpart : right.next.2.part = .text := by
    rw [part_next_of_script (inTemplateText_of_substitution hembeds.part) hlexeme, hembeds.part]
    rfl
  refine ⟨htoken, ⟨hremaining, hpart⟩, ?_, ?_⟩
  · rw [position_next, htoken]
    rfl
  · have hleft : left.reports = Gap.diagnostics left.position left.gap := by
      simp [Scanner.reports, tokenReport?, hend, endReport?, hembeds.outside]
    have hright : right.reports = Gap.diagnostics right.position left.gap := by
      rw [Scanner.reports, tokenReport?, hlexeme, hgap, Gap.diagnostics_append]
      exact (List.append_nil _).trans (List.append_nil _)
    rw [diagnostics_next, diagnostics_next, hembeds.diagnostics, hleft, hright, hembeds.position,
      Gap.diagnostics_shift, List.map_append]

end

/-! ### A whole script -/

/-- What is left of a script closes as many braces as are open, never more than that, and leaves no
string, template or comment open. No `$` in it stands right before a brace as a word of its own. -/
structure Enclosable (source : List Char) (depth : Int) (scanner : Scanner) : Prop where
  balanced : ∀ front, front <+: scanner.body → 0 ≤ Token.openBraces depth front
  closed : Token.openBraces depth scanner.body = 0
  terminated : ∀ token ∈ scanner.tokens, token.isUnterminated = false
  comments : ∀ diagnostic ∈ scanner.run.2.diagnostics.toList,
    diagnostic.message ≠ .unclosedComment
  opening : ∀ token ∈ scanner.body, token.kind = .identifier →
    Text.slice source token.span.start token.span.stop = ['$'] →
      (Text.dropBytes token.span.stop source).head? ≠ some '\x7b'

theorem mem_diagnostics_run {scanner : Scanner} {diagnostic : Diagnostic}
    (hmem : diagnostic ∈ scanner.diagnostics.toList) :
    diagnostic ∈ scanner.run.2.diagnostics.toList := by
  induction scanner using run_induction with
  | last scanner hkind =>
      rw [run_of_end hkind, diagnostics_next]
      exact List.mem_append_left _ hmem
  | step scanner hkind ih =>
      rw [run_of_token hkind]
      apply ih
      rw [diagnostics_next]
      exact List.mem_append_left _ hmem

section

variable {source : List Char} {depth : Int} {scanner : Scanner} {lexeme : Lexeme}

theorem Enclosable.not_mem_gap (henclosable : scanner.Enclosable source depth) :
    ∀ body, .unclosedComment body ∉ scanner.gap := by
  intro body hmem
  obtain ⟨diagnostic, hdiagnostic, hmessage⟩ :=
    Gap.exists_mem_diagnostics_of_unclosed hmem scanner.position
  have hnext : diagnostic ∈ scanner.next.2.diagnostics.toList := by
    rw [diagnostics_next, reports]
    exact List.mem_append_right _ (List.mem_append_left _ hdiagnostic)
  refine henclosable.comments diagnostic ?_ hmessage
  by_cases hkind : scanner.next.1.kind = .endOfText
  · rwa [run_of_end hkind]
  · rw [run_of_token hkind]
    exact mem_diagnostics_run hnext

theorem Enclosable.unterminated (henclosable : scanner.Enclosable source depth)
    (hlexeme : scanner.lexeme? = some lexeme) : lexeme.flags.unterminated = false := by
  have hkind : scanner.next.1.kind ≠ .endOfText := by simp [kind_token_eq_endOfText_iff, hlexeme]
  have hterminated := henclosable.terminated scanner.next.1
    (by rw [tokens_of_token hkind]; exact List.mem_cons_self)
  rwa [token_eq_tokenOf scanner hlexeme] at hterminated

theorem Enclosable.balanced_next (henclosable : scanner.Enclosable source depth)
    (hkind : scanner.next.1.kind ≠ .endOfText) :
    0 ≤ depth + scanner.next.1.kind.braceStep := by
  refine henclosable.balanced [scanner.next.1] ?_
  rw [body_of_token hkind]
  exact ⟨_, rfl⟩

theorem Enclosable.next (henclosable : scanner.Enclosable source depth)
    (hkind : scanner.next.1.kind ≠ .endOfText) :
    scanner.next.2.Enclosable source (depth + scanner.next.1.kind.braceStep) := by
  obtain ⟨hbalanced, hclosed, hterminated, hcomments, hopening⟩ := henclosable
  rw [body_of_token hkind] at hbalanced hclosed hopening
  rw [tokens_of_token hkind] at hterminated
  rw [run_of_token hkind] at hcomments
  constructor
  · intro front hfront
    exact hbalanced (scanner.next.1 :: front) (List.cons_prefix_cons.mpr ⟨rfl, hfront⟩)
  · exact hclosed
  · exact fun token hmem => hterminated token (List.mem_cons_of_mem _ hmem)
  · exact hcomments
  · exact fun token hmem => hopening token (List.mem_cons_of_mem _ hmem)

/-- A script whose next token is the word `$` before a brace is none that can be enclosed. -/
theorem Enclosable.not_opening {text : String} (henclosable : scanner.Enclosable text.toList depth)
    (htracks : scanner.cursor.Tracks text.toList) (hmode : scanner.options.mode = .script) :
    ¬['$', '\x7b'] <+: scanner.front := by
  rintro ⟨inner, hinner⟩
  have hfront : scanner.front = '$' :: '\x7b' :: inner := hinner.symm
  have hoptions : scanner.options = ⟨.script, scanner.options.unicodeIdentifiers⟩ := by rw [← hmode]
  have hlexeme : scanner.lexeme? = some (.verbatim .identifier ['$']) := by
    rw [lexeme?_of_script (inTemplateText_of_script hmode), hfront, hoptions, Lexeme.first?_opening]
  obtain ⟨passed, hsource, hposition, -⟩ := htracks
  have hpassed : text.toList = (passed ++ Gap.spelling scanner.gap) ++ (['$'] ++ '\x7b' :: inner) := by
    rw [hsource, show scanner.cursor.remaining = scanner.remaining from rfl,
      ← spelling_gap_append_front, hfront, List.append_assoc]
    rfl
  have hstart : scanner.start = Text.byteLength (passed ++ Gap.spelling scanner.gap) := by
    rw [start, Text.byteLength_append]
    exact congrArg (· + _) hposition
  have hstop : scanner.next.1.span = ⟨scanner.start, scanner.start + Text.byteLength ['$']⟩ := by
    rw [token_eq_tokenOf scanner hlexeme]
    rfl
  have hkind : scanner.next.1.kind ≠ .endOfText := by simp [kind_token_eq_endOfText_iff, hlexeme]
  refine henclosable.opening scanner.next.1 ?_ ?_ ?_ ?_
  · rw [body_of_token hkind]
    exact List.mem_cons_self
  · rw [token_eq_tokenOf scanner hlexeme]
    rfl
  · rw [hstop, hstart, hpassed]
    exact Text.slice_append _ _ _
  · rw [hstop, hstart, hpassed, ← Text.byteLength_append, ← List.append_assoc,
      Text.dropBytes_byteLength_append]
    rfl

theorem tokens_of_atRest (hrest : scanner.AtRest) :
    scanner.tokens = [.endAt scanner.position] ∧ scanner.run.2 = scanner := by
  have hkind : scanner.next.1.kind = .endOfText := by
    rw [hrest.next]
    rfl
  rw [tokens_of_end hkind, run_of_end hkind, hrest.next]
  exact ⟨rfl, rfl⟩

end

theorem Embeds.tokens {text : String} {depth : Nat} {left right : Scanner}
    (hembeds : Embeds depth left right) (htracks : left.cursor.Tracks text.toList)
    (henclosable : left.Enclosable text.toList depth) :
    let stop := left.position + Text.byteLength left.remaining
    right.tokens = left.body.map (·.shift 2) ++ [closingToken (stop + 2), .endAt (stop + 4)] ∧
      right.run.2.diagnostics.toList = left.run.2.diagnostics.toList.map (·.shift 2) := by
  induction left using run_induction generalizing depth right with
  | last left hkind =>
      have hlexeme := (kind_token_eq_endOfText_iff left).mp hkind
      have hstop := left.start_of_end hlexeme
      obtain rfl : depth = 0 := by
        have hclosed := henclosable.closed
        rw [body_of_end hkind] at hclosed
        exact Int.ofNat_eq_zero.mp hclosed
      obtain ⟨htoken, hrest, hposition, hdiagnostics⟩ :=
        hembeds.next_of_end hlexeme henclosable.not_mem_gap
      obtain ⟨htokens, hrun⟩ := tokens_of_atRest hrest
      have hkind' : right.next.1.kind ≠ .endOfText := by simp [htoken, closingToken]
      intro stop
      rw [tokens_of_token hkind', run_of_token hkind', htokens, hrun, htoken, hposition, hstop,
        body_of_end hkind, run_of_end hkind]
      exact ⟨rfl, hdiagnostics⟩
  | step left hkind ih =>
      obtain ⟨lexeme, hlexeme⟩ := exists_lexeme_of_kind_ne hkind
      have hbalanced := henclosable.balanced_next hkind
      obtain ⟨htoken, hnext⟩ := hembeds.next hlexeme (henclosable.unterminated hlexeme)
        henclosable.not_mem_gap (henclosable.not_opening htracks hembeds.script) hbalanced
      have henclosable' := henclosable.next hkind
      rw [← Int.toNat_of_nonneg hbalanced] at henclosable'
      obtain ⟨htokens, hdiagnostics⟩ := ih hnext (tracks_next htracks) henclosable'
      rw [position_add_byteLength_next] at htokens
      have hkind' : right.next.1.kind ≠ .endOfText := by rwa [htoken]
      intro stop
      rw [tokens_of_token hkind', run_of_token hkind', body_of_token hkind, run_of_token hkind,
        htokens, htoken]
      exact ⟨rfl, hdiagnostics⟩

/-- The text with a substitution around it, which is closed on a line of its own. -/
def enclosed (text : String) : String :=
  "$\x7b" ++ text ++ "\n\x7d"

theorem byteLength_le_enclosed (text : String) :
    Text.byteLength text.toList ≤ Text.byteLength (enclosed text).toList := by
  simp only [enclosed, String.toList_append, Text.byteLength_append]
  omega

/-- The two tokens in front of a substitution that a template begins with. -/
def openingTokens : List Token :=
  [{ kind := .literal .string, span := .empty 0, content := .text ""
     flags := { templateText := true } },
    { kind := .punctuation .dollarOpenBrace, span := ⟨0, 2⟩, content := .text "$\x7b" }]

theorem embeds_enclosed (text : String) (unicode : Bool) :
    let template := ofText (enclosed text) ⟨.template, unicode⟩
    [template.next.1, template.next.2.next.1] = openingTokens ∧
      Embeds 0 (ofText text ⟨.script, unicode⟩) template.next.2.next.2 := by
  intro template
  have hremaining : template.remaining = '$' :: '\x7b' :: (text.toList ++ closing) := by
    rw [remaining_ofText, enclosed]
    simp [closing]
  have htext : template.inTemplateText = true := rfl
  have hlexeme : template.lexeme? = some (textLexeme []) := by
    have hne : template.lexeme? ≠ none := by
      intro hnone
      have hnil := front_eq_nil_of_lexeme?_eq_none hnone
      rw [front, show template.gap = [] from rfl, hremaining] at hnil
      cases hnil
    obtain ⟨-, -, hsome⟩ := lexeme?_of_text htext hne
    rwa [hremaining] at hsome
  have hgap : template.gap = [] := rfl
  have hafter : template.next.2.remaining = '$' :: '\x7b' :: (text.toList ++ closing) := by
    have hsplit := front_eq_append template hlexeme
    rw [front, hgap, hremaining] at hsplit
    exact hsplit.symm
  have hfirst : template.next.1 = template.tokenOf (textLexeme []) :=
    token_eq_tokenOf template hlexeme
  have hpart : template.next.2.part = .substitution 0 := by
    rw [part_next_of_text htext (by simp [hlexeme]), hafter]
    rfl
  obtain ⟨hgap', hlexeme'⟩ := opening_of_text htext (by simp [hafter])
  have hposition : template.next.2.position = 0 := by
    rw [position_next, hfirst]
    rfl
  have hsecond : template.next.2.next.1 =
      { kind := .punctuation .dollarOpenBrace, span := ⟨0, 2⟩, content := .text "$\x7b" } := by
    rw [token_eq_tokenOf _ hlexeme', tokenOf, start, hgap', hposition]
    rfl
  have hreports : template.reports = [] := by
    rw [reports, tokenReport?, hlexeme, hgap]
    rfl
  have hreports' : template.next.2.reports = [] := by
    rw [reports, tokenReport?, hlexeme', hgap']
    rfl
  refine ⟨by rw [hsecond, hfirst]; rfl, ?_⟩
  constructor
  · rfl
  · rw [options_next, options_next]
    rfl
  · rw [options_next, options_next]
    rfl
  · rfl
  · rw [part_next_of_script (inTemplateText_of_substitution hpart) hlexeme', hpart]
    rfl
  · have hsplit := front_eq_append template.next.2 hlexeme'
    rw [front, hgap', hafter] at hsplit
    rw [remaining_ofText]
    exact (List.cons.inj (List.cons.inj hsplit).2).2.symm
  · rw [position_next, hsecond]
    rfl
  · rw [diagnostics_next, diagnostics_next, hreports, hreports']
    rfl

/-- **Substitutions.** A script that can be enclosed has the same tokens and diagnostics in a
substitution as by itself, so many bytes later as the opening mark takes. If the text fits with the
substitution around it, words hold all of both as it is. -/
theorem substitution_as_script (text : String) (unicode : Bool)
    (henclosable : (ofText text ⟨.script, unicode⟩).Enclosable text.toList 0) :
    let script := ofText text ⟨.script, unicode⟩
    let template := ofText (enclosed text) ⟨.template, unicode⟩
    let stop := Text.byteLength text.toList + 2
    template.tokens =
        openingTokens ++ script.body.map (·.shift 2) ++ [closingToken stop, .endAt (stop + 2)] ∧
      template.run.2.diagnostics.toList = script.run.2.diagnostics.toList.map (·.shift 2) ∧
      (Text.Fits (enclosed text) → script.HeldInWords ∧ template.HeldInWords) := by
  intro script template stop
  obtain ⟨hopening, hembeds⟩ := embeds_enclosed text unicode
  obtain ⟨htokens, hdiagnostics⟩ := hembeds.tokens (Cursor.tracks_ofText text) henclosable
  rw [remaining_ofText, position_ofText, Nat.zero_add] at htokens
  have hkinds : [template.next.1.kind, template.next.2.next.1.kind] =
      [.literal .string, .punctuation .dollarOpenBrace] := congrArg (List.map Token.kind) hopening
  simp only [List.cons.injEq, and_true] at hkinds
  have hfirst : template.next.1.kind ≠ .endOfText := by simp [hkinds.1]
  have hsecond : template.next.2.next.1.kind ≠ .endOfText := by simp [hkinds.2]
  rw [tokens_of_token hfirst, tokens_of_token hsecond, run_of_token hfirst, run_of_token hsecond,
    htokens, ← hopening]
  refine ⟨rfl, hdiagnostics, fun hfits => ⟨?_, (charts_ofText _ _).heldInWords hfits⟩⟩
  exact (charts_ofText text _).heldInWords
    (Nat.lt_of_le_of_lt (byteLength_le_enclosed text) hfits)

/-- Braces in a block, in a string and in a comment up to the end of the text. -/
theorem substitution_as_script_braces :
    let text := "\x7b'\x7d'\x7d#\\ // \x7d"
    let script := ofText text ⟨.script, false⟩
    let template := ofText (enclosed text) ⟨.template, false⟩
    script.Enclosable text.toList 0 ∧
      template.tokens =
        openingTokens ++ script.body.map (·.shift 2) ++ [closingToken 14, .endAt 16] ∧
      template.run.2.diagnostics.toList = script.run.2.diagnostics.toList.map (·.shift 2) ∧
      script.HeldInWords ∧ template.HeldInWords := by
  intro text script template
  have henclosable : script.Enclosable text.toList 0 :=
    { balanced := by
        have hall : ∀ front ∈ script.body.inits, 0 ≤ Token.openBraces 0 front := by decide +kernel
        exact fun front hfront => hall front ((List.mem_inits _ _).mpr hfront)
      closed := by decide +kernel
      terminated := by decide +kernel
      comments := by decide +kernel
      opening := by decide +kernel }
  have hlength : Text.byteLength text.toList = 12 := by decide
  obtain ⟨htokens, hdiagnostics, hheld⟩ := substitution_as_script text false henclosable
  rw [hlength] at htokens
  exact ⟨henclosable, htokens, hdiagnostics, hheld (by decide)⟩

end Scanner

end FormulaScript
