import FormulaScript.Proofs.Scanner.Ends
import FormulaScript.Proofs.Scanner.Wrapping

/-!
# The blocks of a template

A template is literal text and substitutions by turns. In a substitution the section of a scanner is
the count of the braces that are open, so the text goes on behind the brace that closes the first of
them, and a substitution that is never closed goes on to the end of the text.
-/

namespace FormulaScript

/-- How a token changes the count of open braces. -/
def Token.Kind.braceStep : Token.Kind → Int
  | .punctuation .dollarOpenBrace | .punctuation .openBrace => 1
  | .punctuation .closeBrace => -1
  | _ => 0

/-- The count of open braces behind some tokens. -/
def Token.openBraces (depth : Int) : List Token → Int
  | [] => depth
  | token :: rest => openBraces (depth + token.kind.braceStep) rest

/-- A brace is open behind each token but the last one. -/
def Token.StayOpen (depth : Int) : List Token → Prop
  | [] => True
  | [_] => True
  | token :: next :: rest =>
      1 ≤ depth + token.kind.braceStep ∧ StayOpen (depth + token.kind.braceStep) (next :: rest)

/-- Literal text and the substitution behind it, which has no tokens when there is none. -/
structure Block where
  text : Token
  substitution : List Token

namespace Block

def tokens (block : Block) : List Token :=
  block.text :: block.substitution

/-- The section in front of each token of a substitution. -/
def sectionsFrom (depth : Int) : List Token → List Section
  | [] => []
  | token :: rest =>
      .substitution depth.toNat :: sectionsFrom (depth + token.kind.braceStep) rest

/-- The section in front of each token. -/
def sections (block : Block) : List Section :=
  .text :: sectionsFrom 0 block.substitution

/-- The section that a count of open braces stands for. -/
def sectionOf (depth : Int) : Section :=
  if 1 ≤ depth then .substitution depth.toNat else .text

/-- The section behind the last token. -/
def sectionAfter (block : Block) : Section :=
  sectionOf (Token.openBraces 0 block.substitution)

/-- The section at the end of a template. -/
def sectionAtEnd (blocks : List Block) : Section :=
  blocks.getLast?.elim .text sectionAfter

/-- The literal text goes on to the end of the text, or to a mark that opens a substitution. -/
structure StandsAt (source : List Char) (offset : Nat) (block : Block) : Prop where
  kind : block.text.kind = .literal .string
  flags : block.text.flags = { templateText := true }
  start : block.text.span.start = offset
  content : block.text.content = .text (.ofList (Text.slice source offset block.text.span.stop))
  literal : ¬['$', '\x7b'] <:+: Text.slice source offset block.text.span.stop
  ends :
    (block.substitution = [] ∧ offset < block.text.span.stop ∧
        block.text.span.stop = Text.byteLength source) ∨
      ∃ opening ∈ block.substitution.head?, opening.kind = .punctuation .dollarOpenBrace ∧
        opening.span = ⟨block.text.span.stop, block.text.span.stop + 2⟩ ∧
        Text.slice source opening.span.start opening.span.stop = ['$', '\x7b']
  outside : ∀ token ∈ block.substitution, token.flags.templateText = false
  stayOpen : Token.StayOpen 0 block.substitution

end Block

/-- Blocks that lie one behind the other from an offset to the end of a text. Only the last
substitution may be open there. -/
inductive Blocks (source : List Char) : Nat → List Block → Prop
  | nil : Blocks source (Text.byteLength source) []
  | text {offset : Nat} {block : Block} (hstands : block.StandsAt source offset)
      (htext : block.substitution = []) : Blocks source offset [block]
  | opened {offset : Nat} {block : Block} (hstands : block.StandsAt source offset)
      (hopen : 1 ≤ Token.openBraces 0 block.substitution) : Blocks source offset [block]
  | closed {offset : Nat} {block : Block} {rest : List Block} {last : Token}
      (hstands : block.StandsAt source offset)
      (hlast : block.substitution.getLast? = some last)
      (hkind : last.kind = .punctuation .closeBrace)
      (hclosed : Token.openBraces 0 block.substitution = 0)
      (hrest : Blocks source last.span.stop rest) : Blocks source offset (block :: rest)

theorem Token.Kind.braceStep_openBrace : braceStep (.punctuation .openBrace) = 1 := rfl

theorem Token.Kind.braceStep_closeBrace : braceStep (.punctuation .closeBrace) = -1 := rfl

theorem Token.Kind.braceStep_of_ne {kind : Kind} (hopening : kind ≠ .punctuation .dollarOpenBrace)
    (hopen : kind ≠ .punctuation .openBrace) (hclose : kind ≠ .punctuation .closeBrace) :
    kind.braceStep = 0 := by
  rw [braceStep.eq_def]
  split
  · exact absurd rfl hopening
  · exact absurd rfl hopen
  · exact absurd rfl hclose
  · rfl

theorem Token.Kind.eq_closeBrace_of_braceStep {kind : Kind} (hstep : kind.braceStep < 0) :
    kind = .punctuation .closeBrace := by
  unfold braceStep at hstep
  split at hstep <;> simp_all

/-- In a substitution a token leads to the section of the new count. -/
theorem Section.after_substitution {depth : Nat} (hdepth : 0 < depth) (kind : Token.Kind) :
    (Section.substitution depth).after kind = Block.sectionOf (depth + kind.braceStep) := by
  have hopen : Block.sectionOf ((depth : Int) + 1) = .substitution (depth + 1) := by
    rw [Block.sectionOf, if_pos (by omega)]
    rfl
  have hclose : Block.sectionOf ((depth : Int) + -1) =
      if depth ≤ 1 then .text else .substitution (depth - 1) := by
    rw [Block.sectionOf]
    split_ifs
    · omega
    · congr 1
      omega
    · rfl
    · omega
  have hother : Block.sectionOf ((depth : Int) + 0) = .substitution depth := by
    rw [Block.sectionOf, if_pos (by omega), Int.add_zero, Int.toNat_natCast]
  unfold after Token.Kind.braceStep
  split <;> simp_all

theorem Token.Kind.neg_one_le_braceStep (kind : Kind) : -1 ≤ kind.braceStep := by
  unfold braceStep
  split <;> decide

namespace Block

theorem sectionOf_of_pos {depth : Int} (hdepth : 1 ≤ depth) :
    sectionOf depth = .substitution depth.toNat :=
  if_pos hdepth

theorem sectionOf_of_not_pos {depth : Int} (hdepth : ¬1 ≤ depth) : sectionOf depth = .text :=
  if_neg hdepth

theorem sectionAtEnd_cons (block : Block) (rest : List Block) :
    sectionAtEnd (block :: rest) = rest.getLast?.elim block.sectionAfter sectionAfter := by
  rw [sectionAtEnd, List.getLast?_cons]
  cases rest.getLast? <;> rfl

end Block

namespace Scanner

/-- The section in front of each of so many tokens. -/
def sections (scanner : Scanner) : Nat → List Section
  | 0 => []
  | count + 1 => scanner.part :: scanner.next.2.sections count

/-- A run from literal text on. -/
structure ReadsText (source : List Char) (scanner : Scanner) (blocks : List Block) : Prop where
  body : scanner.body = blocks.flatMap Block.tokens
  laid : Blocks source scanner.position blocks
  sections : scanner.sections scanner.body.length = blocks.flatMap Block.sections
  atEnd : (scanner.after scanner.body.length).part = Block.sectionAtEnd blocks

/-- A run from within a substitution on, in which some braces are open. -/
structure ReadsSubstitution (source : List Char) (scanner : Scanner) (depth : Int)
    (tokens : List Token) (blocks : List Block) : Prop where
  body : scanner.body = tokens ++ blocks.flatMap Block.tokens
  outside : ∀ token ∈ tokens, token.flags.templateText = false
  stayOpen : Token.StayOpen depth tokens
  ends :
    (1 ≤ Token.openBraces depth tokens ∧ blocks = []) ∨
      ∃ last, tokens.getLast? = some last ∧ last.kind = .punctuation .closeBrace ∧
        Token.openBraces depth tokens = 0 ∧ Blocks source last.span.stop blocks
  sections : scanner.sections scanner.body.length =
    Block.sectionsFrom depth tokens ++ blocks.flatMap Block.sections
  atEnd : (scanner.after scanner.body.length).part =
    blocks.getLast?.elim (Block.sectionOf (Token.openBraces depth tokens)) Block.sectionAfter

section

variable {scanner : Scanner} {source : List Char}

/-! ### In a substitution -/

theorem WellPlaced.part_next_of_substitution (hplaced : scanner.WellPlaced) {depth : Nat}
    (hpart : scanner.part = .substitution depth) (hkind : scanner.next.1.kind ≠ .endOfText) :
    scanner.next.2.part = Block.sectionOf (depth + scanner.next.1.kind.braceStep) ∧
      0 ≤ depth + scanner.next.1.kind.braceStep := by
  obtain ⟨lexeme, hlexeme⟩ := exists_lexeme_of_kind_ne hkind
  have hsame : scanner.next.1.kind = lexeme.kind := by
    rw [token_eq_tokenOf scanner hlexeme, tokenOf]
  rw [part_next_of_script (inTemplateText_of_substitution hpart) hlexeme, hpart, hsame]
  rcases Nat.eq_zero_or_pos depth with rfl | hdepth
  · obtain rfl := Option.some.inj (hlexeme.symm.trans (hplaced.lexeme?_of_zero hpart).2)
    exact ⟨rfl, by decide⟩
  · have hstep := lexeme.kind.neg_one_le_braceStep
    exact ⟨Section.after_substitution hdepth lexeme.kind, by omega⟩

theorem WellPlaced.part_next_of_pos (hplaced : scanner.WellPlaced) {depth next : Nat}
    (hpart : scanner.part = .substitution depth) (hend : scanner.next.1.kind ≠ .endOfText)
    (hpos : 1 ≤ next) (hstep : (depth : Int) + scanner.next.1.kind.braceStep = next) :
    scanner.next.2.part = .substitution next := by
  rw [(hplaced.part_next_of_substitution hpart hend).1, hstep, Block.sectionOf_of_pos (by omega)]
  rfl

/-- Only the mark that opens a substitution stands where no brace is open. -/
theorem WellPlaced.ne_zero_of_closing (hplaced : scanner.WellPlaced) {depth : Nat}
    (hpart : scanner.part = .substitution depth) (hstep : scanner.next.1.kind.braceStep ≤ 0) :
    depth ≠ 0 := by
  rintro rfl
  rw [token_eq_tokenOf scanner (hplaced.lexeme?_of_zero hpart).2] at hstep
  exact absurd (show (1 : Int) ≤ 0 from hstep) (by decide)

theorem templateText_token_of_substitution {depth : Nat}
    (hpart : scanner.part = .substitution depth) :
    scanner.next.1.flags.templateText = false := by
  cases hlexeme : scanner.lexeme? with
  | none =>
      rw [token_eq_endToken scanner hlexeme]
      rfl
  | some lexeme =>
      rw [token_eq_tokenOf scanner hlexeme]
      rw [lexeme?_of_script (inTemplateText_of_substitution hpart)] at hlexeme
      exact Lexeme.templateText_of_first? hlexeme

theorem ReadsSubstitution.of_end {depth : Nat} (hpart : scanner.part = .substitution depth)
    (hplaced : scanner.WellPlaced) (hkind : scanner.next.1.kind = .endOfText) :
    scanner.ReadsSubstitution source depth [] [] := by
  have hdepth : 1 ≤ (depth : Int) := by
    have hne := hplaced.ne_zero_of_closing hpart (by simp [hkind, Token.Kind.braceStep])
    omega
  have hsection : Block.sectionOf depth = .substitution depth :=
    Block.sectionOf_of_pos hdepth
  rw [← hpart] at hsection
  have hbody := body_of_end hkind
  exact
    { body := hbody
      outside := by simp
      stayOpen := trivial
      ends := .inl ⟨hdepth, rfl⟩
      sections := by rw [hbody]; rfl
      atEnd := by rw [hbody]; exact hsection.symm }

theorem ReadsSubstitution.cons {depth : Nat} (hpart : scanner.part = .substitution depth)
    (hkind : scanner.next.1.kind ≠ .endOfText)
    (hopen : 1 ≤ depth + scanner.next.1.kind.braceStep) {tokens : List Token} {blocks : List Block}
    (hreads : scanner.next.2.ReadsSubstitution source (depth + scanner.next.1.kind.braceStep)
      tokens blocks) :
    scanner.ReadsSubstitution source depth (scanner.next.1 :: tokens) blocks := by
  obtain ⟨hbody, hrest, hstay, hends, hsections, hatEnd⟩ := hreads
  have hself := body_of_token hkind
  constructor
  · rw [hself, hbody, List.cons_append]
  · exact List.forall_mem_cons.mpr ⟨templateText_token_of_substitution hpart, hrest⟩
  · cases tokens with
    | nil => trivial
    | cons token tokens => exact ⟨hopen, hstay⟩
  · rcases hends with hopened | ⟨last, hlast, hclosing⟩
    · exact .inl hopened
    · exact .inr ⟨last, by rw [List.getLast?_cons, hlast]; rfl, hclosing⟩
  · rw [hself, List.length_cons, Scanner.sections, hsections, hpart, Block.sectionsFrom,
      List.cons_append, Int.toNat_natCast]
  · rw [hself, List.length_cons, after, hatEnd, Token.openBraces]

theorem ReadsSubstitution.close {depth : Nat} (hpart : scanner.part = .substitution depth)
    (hkind : scanner.next.1.kind = .punctuation .closeBrace)
    (hclosed : depth + scanner.next.1.kind.braceStep = 0) {blocks : List Block}
    (hreads : scanner.next.2.ReadsText source blocks) :
    scanner.ReadsSubstitution source depth [scanner.next.1] blocks := by
  obtain ⟨hbody, hblocks, hsections, hatEnd⟩ := hreads
  have hne : scanner.next.1.kind ≠ .endOfText := by simp [hkind]
  have hself := body_of_token hne
  have hopen : Token.openBraces depth [scanner.next.1] = 0 := hclosed
  constructor
  · rw [hself, hbody]
    rfl
  · simpa using templateText_token_of_substitution hpart
  · trivial
  · rw [position_next] at hblocks
    exact .inr ⟨scanner.next.1, rfl, hkind, hopen, hblocks⟩
  · rw [hself, List.length_cons, Scanner.sections, hsections, hpart]
    simp [Block.sectionsFrom]
  · rw [hself, List.length_cons, after, hatEnd, hopen]
    rfl

/-! ### In literal text -/

theorem ReadsText.of_end {text : String} (htracks : scanner.cursor.Tracks text.toList)
    (hpart : scanner.part = .text) (hremaining : scanner.remaining = []) :
    scanner.ReadsText text.toList [] := by
  have hbody := body_of_remaining_eq_nil hremaining
  have htotal := htracks.position_add_remaining
  rw [show scanner.cursor.remaining = [] from hremaining] at htotal
  have hposition : scanner.position = Text.byteLength text.toList := htotal
  exact
    { body := hbody
      laid := hposition ▸ .nil
      sections := by rw [hbody]; rfl
      atEnd := by rw [hbody]; exact hpart }

/-- The token of literal text, as the text has it. -/
theorem slice_of_text {text : String} (htracks : scanner.cursor.Tracks text.toList)
    (htext : scanner.inTemplateText = true) (hlexeme : scanner.lexeme? ≠ none) :
    scanner.next.1.kind = .literal .string ∧ scanner.next.1.flags = { templateText := true } ∧
      scanner.next.1.span.start = scanner.position ∧
      Text.slice text.toList scanner.position scanner.next.1.span.stop =
        templateText scanner.remaining ∧
      scanner.next.1.content = .text (.ofList (templateText scanner.remaining)) := by
  obtain ⟨hgap, hfront, hsome⟩ := lexeme?_of_text htext hlexeme
  have hstart : scanner.start = scanner.position := by simp [start, hgap]
  have hrest : scanner.remaining = templateText scanner.remaining ++ scanner.next.2.remaining :=
    hfront.symm.trans (front_eq_append scanner hsome)
  have hslice := htracks.slice hrest
  rw [token_eq_tokenOf scanner hsome, tokenOf, hstart, hgap]
  exact ⟨rfl, rfl, rfl, hslice, rfl⟩

/-- The mark behind literal text that does not go on to the end. -/
theorem opening_behind_text {text : String} (htracks : scanner.cursor.Tracks text.toList)
    (htext : scanner.inTemplateText = true) (hremaining : scanner.next.2.remaining ≠ []) :
    scanner.next.2.next.1.kind = .punctuation .dollarOpenBrace ∧
      scanner.next.2.next.1.span =
        ⟨scanner.next.1.span.stop, scanner.next.1.span.stop + 2⟩ ∧
      Text.slice text.toList scanner.next.1.span.stop (scanner.next.1.span.stop + 2) =
        ['$', '\x7b'] := by
  obtain ⟨hgap, hlexeme⟩ := opening_of_text htext hremaining
  obtain ⟨-, inner, hinner⟩ := next_of_text htext hremaining
  have hmark : scanner.next.2.remaining = ['$', '\x7b'] ++ inner := hinner
  have hstart : scanner.next.2.start = scanner.next.1.span.stop := by
    rw [← position_next]
    simp [start, hgap]
  have hlength : opening.byteLength = 2 := by decide
  rw [token_eq_tokenOf _ hlexeme, tokenOf, hstart, hlength]
  refine ⟨rfl, rfl, ?_⟩
  rw [← position_next]
  exact (tracks_next htracks).slice hmark

theorem ReadsText.of_text_to_end {text : String} (htracks : scanner.cursor.Tracks text.toList)
    (htext : scanner.inTemplateText = true) (hkind : scanner.next.1.kind ≠ .endOfText)
    (hremaining : scanner.next.2.remaining = []) :
    scanner.ReadsText text.toList [⟨scanner.next.1, []⟩] := by
  have hlexeme := (kind_token_eq_endOfText_iff scanner).not.mp hkind
  obtain ⟨hliteral, hflags, hstart, hslice, hcontent⟩ := slice_of_text htracks htext hlexeme
  obtain ⟨-, hfront, hsome⟩ := lexeme?_of_text htext hlexeme
  have hbody : scanner.body = [scanner.next.1] := by
    rw [body_of_token hkind, body_of_remaining_eq_nil hremaining]
  have hstop : scanner.next.1.span.stop = Text.byteLength text.toList := by
    have htotal := (tracks_next htracks).position_add_remaining
    rw [show scanner.next.2.cursor.remaining = [] from hremaining] at htotal
    exact (position_next scanner).symm.trans htotal
  have hlong : scanner.position < scanner.next.1.span.stop := by
    have htotal := htracks.position_add_remaining
    have hlength : Text.byteLength scanner.remaining ≠ 0 := fun hzero =>
      front_ne_nil hlexeme (hfront.trans (Text.eq_nil_of_byteLength_eq_zero hzero))
    rw [show scanner.cursor.remaining = scanner.remaining from rfl, ← hstop] at htotal
    change scanner.position + _ = _ at htotal
    omega
  have hpart : scanner.next.2.part = .text := by
    rw [part_next_of_text htext hlexeme, hremaining]
    rfl
  refine ⟨hbody, .text ?_ rfl, ?_, ?_⟩
  · exact
      { kind := hliteral
        flags := hflags
        start := hstart
        content := by rw [hslice]; exact hcontent
        literal := by rw [hslice]; exact not_opening_isInfix_templateText _
        ends := .inl ⟨rfl, hlong, hstop⟩
        outside := by simp
        stayOpen := trivial }
  · rw [hbody, List.length_singleton, Scanner.sections, (mode_of_inTemplateText htext).2]
    rfl
  · rw [hbody]
    exact hpart

theorem ReadsText.of_text {text : String} (htracks : scanner.cursor.Tracks text.toList)
    (htext : scanner.inTemplateText = true) (hkind : scanner.next.1.kind ≠ .endOfText)
    (hremaining : scanner.next.2.remaining ≠ []) {tokens : List Token} {blocks : List Block}
    (hreads : scanner.next.2.ReadsSubstitution text.toList 0 tokens blocks) :
    scanner.ReadsText text.toList (⟨scanner.next.1, tokens⟩ :: blocks) := by
  have hlexeme := (kind_token_eq_endOfText_iff scanner).not.mp hkind
  obtain ⟨hliteral, hflags, hstart, hslice, hcontent⟩ := slice_of_text htracks htext hlexeme
  obtain ⟨hopening, hspan, hmark⟩ := opening_behind_text htracks htext hremaining
  obtain ⟨hrest, houtside, hstay, hends, hsections, hatEnd⟩ := hreads
  have hbody : scanner.body = scanner.next.1 :: scanner.next.2.body := body_of_token hkind
  have hhead : tokens.head? = some scanner.next.2.next.1 := by
    have hne : scanner.next.2.next.1.kind ≠ .endOfText := by simp [hopening]
    have hnext := body_of_token hne
    cases tokens with
    | nil =>
        -- The count is nothing behind no tokens, so some token has to open the substitution.
        rcases hends with ⟨hopen, -⟩ | ⟨last, hlast, -⟩
        · simp [Token.openBraces] at hopen
        · cases hlast
    | cons token tokens =>
        rw [hnext, List.cons_append] at hrest
        rw [List.head?_cons, (List.cons.inj hrest).1]
  have hstands : Block.StandsAt text.toList scanner.position ⟨scanner.next.1, tokens⟩ :=
    { kind := hliteral
      flags := hflags
      start := hstart
      content := by rw [hslice]; exact hcontent
      literal := by rw [hslice]; exact not_opening_isInfix_templateText _
      ends := .inr ⟨_, hhead, hopening, hspan, by rw [hspan]; exact hmark⟩
      outside := houtside
      stayOpen := hstay }
  refine ⟨?_, ?_, ?_, ?_⟩
  · rw [hbody, hrest]
    rfl
  · rcases hends with ⟨hopen, rfl⟩ | ⟨last, hlast, hclosing, hclosed, hlaid⟩
    · exact .opened hstands hopen
    · exact .closed hstands hlast hclosing hclosed hlaid
  · rw [hbody, List.length_cons, Scanner.sections, hsections, (mode_of_inTemplateText htext).2]
    rfl
  · rw [hbody, List.length_cons, after, hatEnd, Block.sectionAtEnd_cons]
    rfl

end

/-! ### A whole run -/

/-- A run from literal text on, or from a substitution on. -/
theorem exists_reads {text : String} {scanner : Scanner} (hplaced : scanner.WellPlaced)
    (htracks : scanner.cursor.Tracks text.toList) (hmode : scanner.options.mode = .template) :
    (scanner.part = .text → ∃ blocks, scanner.ReadsText text.toList blocks) ∧
      ∀ depth, scanner.part = .substitution depth →
        ∃ tokens blocks, scanner.ReadsSubstitution text.toList depth tokens blocks := by
  induction scanner using run_induction with
  | last scanner hkind =>
      refine ⟨fun hpart => ?_, fun depth hpart => ⟨[], [], .of_end hpart hplaced hkind⟩⟩
      have hlexeme := (kind_token_eq_endOfText_iff scanner).mp hkind
      have hgap : scanner.gap = [] := by simp [gap, inTemplateText, hmode, hpart]
      have hremaining : scanner.remaining = [] := by
        rw [← spelling_gap_append_front, hgap, front_eq_nil_of_lexeme?_eq_none hlexeme]
        rfl
      exact ⟨[], .of_end htracks hpart hremaining⟩
  | step scanner hkind ih =>
      obtain ⟨ihText, ihSubstitution⟩ :=
        ih hplaced.next (tracks_next htracks) (by rw [options_next, hmode])
      refine ⟨fun hpart => ?_, fun depth hpart => ?_⟩
      · have htext : scanner.inTemplateText = true := by simp [inTemplateText, hmode, hpart]
        by_cases hremaining : scanner.next.2.remaining = []
        · exact ⟨_, .of_text_to_end htracks htext hkind hremaining⟩
        · have hlexeme := (kind_token_eq_endOfText_iff scanner).not.mp hkind
          have hnext : scanner.next.2.part = .substitution 0 := by
            rw [part_next_of_text htext hlexeme, if_neg (by simpa using hremaining)]
          obtain ⟨tokens, blocks, hreads⟩ := ihSubstitution 0 hnext
          exact ⟨_, .of_text htracks htext hkind hremaining hreads⟩
      · obtain ⟨hnext, hcount⟩ := hplaced.part_next_of_substitution hpart hkind
        by_cases hopen : 1 ≤ depth + scanner.next.1.kind.braceStep
        · obtain ⟨tokens, blocks, hreads⟩ :=
            ihSubstitution _ (hnext.trans (Block.sectionOf_of_pos hopen))
          rw [Int.toNat_of_nonneg hcount] at hreads
          exact ⟨_, _, .cons hpart hkind hopen hreads⟩
        · obtain ⟨blocks, hreads⟩ := ihText (hnext.trans (Block.sectionOf_of_not_pos hopen))
          have hdepth := hplaced.ne_zero_of_closing hpart (by omega)
          have hclosing := Token.Kind.eq_closeBrace_of_braceStep
            (show scanner.next.1.kind.braceStep < 0 by omega)
          exact ⟨_, _, .close hpart hclosing (by omega) hreads⟩

/-- A closing brace is met in a substitution with an open brace only. -/
theorem WellPlaced.part_of_closeBrace {scanner : Scanner} (hplaced : scanner.WellPlaced)
    (hmode : scanner.options.mode = .template)
    (hkind : scanner.next.1.kind = .punctuation .closeBrace) :
    ∃ depth, scanner.part = .substitution (depth + 1) := by
  cases hpart : scanner.part with
  | text =>
      have hne : scanner.next.1.kind ≠ .endOfText := by simp [hkind]
      obtain ⟨lexeme, hlexeme⟩ := exists_lexeme_of_kind_ne hne
      have htext : scanner.inTemplateText = true := by simp [inTemplateText, hmode, hpart]
      obtain ⟨-, -, hsome⟩ := lexeme?_of_text htext (by simp [hlexeme])
      rw [token_eq_tokenOf scanner hsome] at hkind
      cases hkind
  | substitution depth =>
      have hne := hplaced.ne_zero_of_closing hpart (by rw [hkind]; decide)
      exact ⟨depth - 1, by rw [Nat.sub_add_cancel (Nat.pos_of_ne_zero hne)]⟩

/-! ### Substitutions that are never closed -/

def unclosedReports (scanner : Scanner) : List Diagnostic :=
  scanner.diagnostics.toList.filter (·.message = .unterminatedSubstitution)

/-- What is reported where a text ends in a section. -/
def unclosedReport (part : Section) (offset : Nat) : List Diagnostic :=
  if part = .text then []
  else [.ofMessage .unterminatedSubstitution [] (some (.empty offset))]

theorem filter_gap_diagnostics (offset : Nat) (pieces : List Gap.Piece) :
    (Gap.diagnostics offset pieces).filter (·.message = .unterminatedSubstitution) = [] := by
  induction pieces generalizing offset with
  | nil => rfl
  | cons piece pieces ih =>
      rw [Gap.diagnostics, List.filter_append, ih, List.append_nil]
      cases piece <;> rfl

theorem filter_tokenReport? (scanner : Scanner) :
    scanner.tokenReport?.toList.filter (·.message = .unterminatedSubstitution) =
      if scanner.lexeme? = none then unclosedReport scanner.part scanner.start else [] := by
  rw [tokenReport?]
  cases hlexeme : scanner.lexeme? with
  | none =>
      rw [if_pos rfl, endReport?, unclosedReport]
      cases scanner.part <;> rfl
  | some lexeme =>
      rw [if_neg (by simp)]
      simp only [problemReport?, List.filter_eq_nil_iff, Option.mem_toList, Option.map_eq_some_iff]
      rintro diagnostic ⟨problem, hproblem, rfl⟩
      have hwithin := problem_within_of_lexeme? hlexeme problem hproblem
      simp [Diagnostic.ofMessage, hwithin.message_ne_unterminatedSubstitution]

theorem unclosedReports_next (scanner : Scanner) :
    scanner.next.2.unclosedReports =
      scanner.unclosedReports ++
        if scanner.lexeme? = none then unclosedReport scanner.part scanner.start else [] := by
  rw [unclosedReports, diagnostics_next, List.filter_append, reports, List.filter_append,
    filter_gap_diagnostics, filter_tokenReport?, List.nil_append]
  rfl

/-- The report is made with the first end token, and only there. -/
theorem unclosedReports_after (scanner : Scanner) (count : Nat) :
    (scanner.after count).unclosedReports =
      scanner.unclosedReports ++
        if scanner.body.length < count then
          unclosedReport (scanner.after scanner.body.length).part
            (scanner.position + Text.byteLength scanner.remaining)
        else [] := by
  induction scanner using run_induction generalizing count with
  | last scanner hkind =>
      have hlexeme := (kind_token_eq_endOfText_iff scanner).mp hkind
      have hstart := scanner.start_of_end hlexeme
      rw [body_of_end hkind]
      cases count with
      | zero => simp [after]
      | succ count =>
          rw [after, (atRest_next_of_end hkind).after, unclosedReports_next, if_pos hlexeme, hstart,
            if_pos (by simp)]
          rfl
  | step scanner hkind ih =>
      obtain ⟨lexeme, hlexeme⟩ := exists_lexeme_of_kind_ne hkind
      have hnext : scanner.next.2.unclosedReports = scanner.unclosedReports := by
        rw [unclosedReports_next, if_neg (by simp [hlexeme]), List.append_nil]
      rw [body_of_token hkind, List.length_cons]
      cases count with
      | zero => simp [after]
      | succ count =>
          rw [after, ih, hnext, position_add_byteLength_next, after]
          simp only [Nat.add_lt_add_iff_right]

theorem WellPlaced.after {scanner : Scanner} (hplaced : scanner.WellPlaced) (count : Nat) :
    (scanner.after count).WellPlaced ∧ (scanner.after count).options = scanner.options := by
  induction count generalizing scanner with
  | zero => exact ⟨hplaced, rfl⟩
  | succ count ih =>
      obtain ⟨hlast, hoptions⟩ := ih hplaced.next
      exact ⟨hlast, hoptions.trans (options_next scanner)⟩

/-- **Blocks.** The tokens of a template before its end are literal texts, each with a substitution
behind it or the end of the template. In front of every token, and at the end, the section is the
count of the braces that are open. So no closing brace is read without an open one, and a
substitution is reported as unterminated, once, when the template ends in it. The template fits, so
that words hold the count as it is, and the places of the tokens. -/
theorem template_blocks {text : String} (hfits : Text.Fits text) (unicode : Bool) :
    let scanner := ofText text ⟨.template, unicode⟩
    ∃ blocks : List Block,
      scanner.body = blocks.flatMap Block.tokens ∧
        Blocks text.toList 0 blocks ∧
        scanner.sections scanner.body.length = blocks.flatMap Block.sections ∧
        (scanner.after scanner.body.length).part = Block.sectionAtEnd blocks ∧
        (∀ count, (scanner.after count).next.1.kind = .punctuation .closeBrace →
          ∃ depth, (scanner.after count).part = .substitution (depth + 1)) ∧
        (∀ count, (scanner.after count).unclosedReports =
          if scanner.body.length < count then
            unclosedReport (Block.sectionAtEnd blocks) (Text.byteLength text.toList)
          else []) ∧
        scanner.HeldInWords ∧
        ∀ count, (scanner.after count).part.wrap = (scanner.after count).part := by
  intro scanner
  have hcharts : scanner.Charts text := charts_ofText text _
  have hplaced : scanner.WellPlaced := wellPlaced_ofText text _
  obtain ⟨hreads, -⟩ := exists_reads hplaced (Cursor.tracks_ofText text) rfl
  obtain ⟨blocks, hbody, hlaid, hsections, hatEnd⟩ := hreads rfl
  refine ⟨blocks, hbody, hlaid, hsections, hatEnd, fun count hkind => ?_, fun count => ?_,
    hcharts.heldInWords hfits, fun count => (hcharts.after count).wrap_part hfits⟩
  · obtain ⟨hafter, hoptions⟩ := hplaced.after count
    exact hafter.part_of_closeBrace (congrArg Options.mode hoptions) hkind
  · rw [unclosedReports_after, hatEnd, remaining_ofText, position_ofText, Nat.zero_add]
    rfl

/-- The brace that closes an inner one leaves the substitution open. -/
theorem template_blocks_nested :
    let text := "a$\x7b\x7b\x7d"
    let scanner := ofText text ⟨.template, false⟩
    Text.Fits text ∧ (scanner.after 3).next.1.kind = .punctuation .closeBrace ∧
      ∃ depth, (scanner.after 3).part = .substitution (depth + 1) := by
  intro text scanner
  have hfits : Text.Fits text := by decide +kernel
  have hkind : (scanner.after 3).next.1.kind = .punctuation .closeBrace := by decide +kernel
  obtain ⟨blocks, -, -, -, -, hclosing, -⟩ := template_blocks hfits false
  exact ⟨hfits, hkind, hclosing 3 hkind⟩

end Scanner

end FormulaScript
