import FormulaScript.Proofs.Checked.Lexeme
import FormulaScript.Proofs.Checked.Text
import FormulaScript.Proofs.Gap.Boundary
import FormulaScript.Proofs.Scanner.Calls
import FormulaScript.Proofs.Scanner.Sections

/-!
# Checked scanning

A scanner whose cursor, lexemes and spans are checked, and which counts the braces of a substitution
in words. Each brace takes a byte of the text, so there are never more of them than fit.
-/

namespace FormulaScript

open Checked

def Section.afterChecked : Section → Token.Kind → Except Fault Section
  | .substitution depth, .punctuation .openBrace => do
      let depth ← uint32 ((depth : Int) + 1)
      .ok (.substitution depth)
  | .substitution depth, .punctuation .dollarOpenBrace => do
      let depth ← uint32 ((depth : Int) + 1)
      .ok (.substitution depth)
  | .substitution depth, .punctuation .closeBrace =>
      if depth ≤ 1 then .ok .text
      else do
        let depth ← uint32 ((depth : Int) - 1)
        .ok (.substitution depth)
  | part, _ => .ok part

theorem Section.afterChecked_eq_ok {part : Section}
    (hdepth : ∀ depth, part = .substitution depth → depth + 1 < 2 ^ 32) (kind : Token.Kind) :
    part.afterChecked kind = .ok (part.after kind) := by
  fun_cases after part kind with
  | case1 depth => exact bind_ok (uint32_add_eq_ok (hdepth depth rfl)) _
  | case2 depth => exact bind_ok (uint32_add_eq_ok (hdepth depth rfl)) _
  | case3 depth hone => rw [afterChecked, if_pos hone]
  | case4 depth hone =>
      have hlt := hdepth depth rfl
      have hword : uint32 ((depth : Int) - 1) = .ok (depth - 1) :=
        uint32_sub_eq_ok (show 1 ≤ depth by omega) (by omega)
      rw [afterChecked, if_neg hone, bind_ok hword]
  | case5 hopenBrace hopening hcloseBrace =>
      unfold afterChecked
      split <;> simp_all

namespace Gap.Piece

/-- Consumes a piece. What is left of a line behind the mark of a comment is consumed at once. -/
def consumeChecked (piece : Piece) (cursor : Cursor) : Except Fault Cursor :=
  match piece with
  | .lineComment _ => do
      let inside ← cursor.advanceByChecked 2
      inside.toLineEndChecked
  | piece => cursor.advanceByChecked piece.spelling.length

def reportChecked (piece : Piece) (start stop : Nat) : Except Fault (List Diagnostic) :=
  match piece.report? with
  | none => .ok []
  | some (message, arguments) => do
      let span ← Span.checked start stop
      .ok [.ofMessage message arguments (some span)]

theorem consumeChecked_eq_ok {options : Options} {piece : Piece} {cursor : Cursor}
    (hreads : cursor.Reads) (hfirst : first? options cursor.remaining = some piece) :
    piece.consumeChecked cursor = .ok (cursor.advanceBy piece.spelling.length) := by
  cases piece with
  | lineComment body =>
      obtain ⟨rest, hremaining, hbody⟩ : (lineComment body).ReadFrom cursor.remaining := by
        rcases first?_eq_some_iff.mp hfirst with htrivia | ⟨-, -, c, back, -, hinvalid⟩
        · exact trivia?_eq_some_iff.mp htrivia
        · cases hinvalid
      have hinside : (cursor.advanceBy 2).remaining = rest := by
        rw [Cursor.remaining_advanceBy, hremaining]
        rfl
      rw [consumeChecked, bind_ok (Cursor.advanceByChecked_eq_ok hreads 2),
        Cursor.toLineEndChecked_eq_ok (hreads.advanceBy 2), Cursor.toLineEnd_eq_advanceBy, hinside,
        hbody, ← Cursor.advanceBy_add, Nat.add_comm]
      rfl
  | _ => exact Cursor.advanceByChecked_eq_ok hreads _

theorem reportChecked_eq_ok (piece : Piece) {start : Nat}
    (hstop : start + piece.byteLength < 2 ^ 32) :
    piece.reportChecked start (start + piece.byteLength) =
      .ok (piece.diagnostic? start).toList := by
  rw [reportChecked, diagnostic?]
  cases piece.report? with
  | none => rfl
  | some report => exact bind_ok (Span.checked_eq_ok (Nat.le_add_right _ _) hstop) _

end Gap.Piece

namespace Scanner

def skipPieceChecked (scanner : Scanner) (piece : Gap.Piece) : Except Fault Scanner := do
  let cursor ← piece.consumeChecked scanner.cursor
  let diagnostics ← piece.reportChecked scanner.position cursor.position
  .ok
    { scanner.report diagnostics with
      cursor := cursor
      lineCrossed := scanner.lineCrossed || piece.crossesLine }

def skipChecked (scanner : Scanner) (gap : List Gap.Piece) : Except Fault Scanner :=
  gap.foldlM skipPieceChecked scanner

def takeChecked (scanner : Scanner) (lexeme : Lexeme) (afterLineBreak : Bool) :
    Except Fault (Token × Scanner) := do
  let start := scanner.position
  let cursor ← scanner.cursor.advanceByChecked lexeme.spelling.length
  let span ← Span.checked start cursor.position
  let part ← scanner.part.afterChecked lexeme.kind
  let token : Token :=
    { kind := lexeme.kind
      span := span
      content := lexeme.content
      flags := { lexeme.flags with afterLineBreak := afterLineBreak } }
  match lexeme.problem? with
  | none => .ok (token, { scanner with cursor := cursor, part := part })
  | some problem => do
      let span ← Span.checked start (start + problem.length)
      let diagnostic := .ofMessage problem.message [] (some span)
      .ok (token, { scanner.report [diagnostic] with cursor := cursor, part := part })

def finishChecked (scanner : Scanner) (afterLineBreak : Bool) : Except Fault (Token × Scanner) := do
  let span ← Span.checked scanner.position scanner.position
  let token : Token :=
    { kind := .endOfText, span := span, flags := { afterLineBreak := afterLineBreak } }
  match scanner.part with
  | .text => .ok (token, scanner)
  | .substitution _ =>
      let diagnostic := .ofMessage .unterminatedSubstitution [] (some span)
      .ok (token, { scanner.report [diagnostic] with part := .text })

def nextInScriptChecked (scanner : Scanner) : Except Fault (Token × Scanner) := do
  let gap := Gap.read scanner.options scanner.remaining
  let next ← scanner.skipChecked gap
  match ← Lexeme.firstChecked? next.options next.cursor.source next.position next.remaining with
  | some lexeme => next.takeChecked lexeme (Gap.crossesLine gap)
  | none => next.finishChecked (Gap.crossesLine gap)

def nextInTextChecked (scanner : Scanner) : Except Fault (Token × Scanner) :=
  if scanner.remaining.isEmpty then scanner.finishChecked false
  else do
    let text := textLexeme (templateText scanner.remaining)
    let lexeme ← text.cutOut scanner.cursor.source scanner.position
    let (token, next) ← scanner.takeChecked lexeme false
    .ok (token, { next with part := if next.remaining.isEmpty then .text else .substitution 0 })

def nextChecked (scanner : Scanner) : Except Fault (Token × Scanner) :=
  if scanner.inTemplateText then scanner.nextInTextChecked else scanner.nextInScriptChecked

/-! ### What a scanner relies on -/

/-- The scanner reads a text, and has met a byte for each brace of a substitution that is open. -/
structure Reads (scanner : Scanner) : Prop where
  cursor : scanner.cursor.Reads
  depth_le : ∀ depth, scanner.part = .substitution depth → depth ≤ scanner.position

variable {scanner : Scanner}

theorem reads_ofText {text : String} (options : Options)
    (hlength : Text.byteLength text.toList < 2 ^ 31) : (ofText text options).Reads :=
  ⟨Cursor.reads_ofText hlength, fun _ hpart => by cases hpart⟩

theorem Reads.suffixAt (hreads : scanner.Reads) :
    Text.SuffixAt scanner.cursor.source scanner.position scanner.remaining :=
  hreads.cursor.suffixAt

theorem Reads.position_lt (hreads : scanner.Reads) : scanner.position < 2 ^ 31 :=
  hreads.cursor.position_lt

theorem Reads.skip (hreads : scanner.Reads) (gap : List Gap.Piece) : (scanner.skip gap).Reads := by
  refine ⟨hreads.cursor.advanceBy _, fun depth hpart => ?_⟩
  rw [position_skip]
  exact Nat.le_trans (hreads.depth_le depth hpart) (Nat.le_add_right _ _)

theorem cursor_next (scanner : Scanner) :
    ∃ count, scanner.next.2.cursor = scanner.cursor.advanceBy count := by
  cases hlexeme : scanner.lexeme? with
  | none =>
      refine ⟨(Gap.spelling scanner.gap).length, ?_⟩
      rw [next_of_end scanner hlexeme, finish]
      split <;> rfl
  | some lexeme =>
      refine ⟨(Gap.spelling scanner.gap).length + lexeme.spelling.length, ?_⟩
      rw [next_of_lexeme scanner hlexeme, Cursor.advanceBy_add]
      rfl

theorem position_lt_next_of_mark {mark : Punctuation}
    (hmark : scanner.next.1.kind = .punctuation mark) :
    scanner.position < scanner.next.2.position := by
  cases hlexeme : scanner.lexeme? with
  | none =>
      rw [token_eq_endToken scanner hlexeme] at hmark
      cases hmark
  | some lexeme =>
      refine position_lt_next ?_ hlexeme
      rw [token_eq_tokenOf scanner hlexeme] at hmark
      by_contra htext
      rw [Bool.not_eq_false] at htext
      -- The literal text of a template is no mark.
      have hsome := (lexeme?_of_text htext (by simp [hlexeme])).2.2
      obtain rfl := Option.some.inj (hlexeme.symm.trans hsome)
      cases hmark

/-- In front of a token there is room for a byte more. -/
theorem Reads.position_add_one_lt (hreads : scanner.Reads)
    (hkind : scanner.next.1.kind ≠ .endOfText) : scanner.position + 1 < 2 ^ 31 := by
  have hfront := front_ne_nil ((kind_token_eq_endOfText_iff scanner).not.mp hkind)
  have hremaining : scanner.remaining ≠ [] := by
    intro hnil
    exact hfront (by rw [front, hnil, List.drop_nil])
  have hpos := List.length_pos_iff.mpr hremaining
  have hlength := Text.length_le_byteLength scanner.remaining
  have htotal := hreads.suffixAt.add_byteLength
  have hlt := hreads.cursor.length_lt
  omega

theorem Reads.next (hreads : scanner.Reads) : scanner.next.2.Reads := by
  refine ⟨?_, fun depth hpart => ?_⟩
  · obtain ⟨count, hcursor⟩ := cursor_next scanner
    rw [hcursor]
    exact hreads.cursor.advanceBy count
  · exact depth_le_next hreads.depth_le depth hpart

theorem Reads.perform (hreads : scanner.Reads) (call : Call) : (scanner.perform call).Reads := by
  cases call with
  | next => exact hreads.next
  | takeLineCrossed => exact ⟨hreads.cursor, hreads.depth_le⟩
  | flushDiagnostics => exact ⟨hreads.cursor, hreads.depth_le⟩

theorem Reads.performAll (hreads : scanner.Reads) (calls : List Call) :
    (scanner.performAll calls).Reads := by
  induction calls generalizing scanner with
  | nil => exact hreads
  | cons call calls ih => exact ih (hreads.perform call)

/-! ### No faults -/

theorem position_advanceBy_of_isPrefix {spelling : List Char}
    (hspelling : spelling <+: scanner.remaining) :
    (scanner.cursor.advanceBy spelling.length).position =
      scanner.position + Text.byteLength spelling := by
  have htake : scanner.remaining.take spelling.length = spelling :=
    (List.prefix_iff_eq_take.mp hspelling).symm
  rw [Cursor.position_advanceBy]
  exact congrArg (scanner.position + Text.byteLength ·) htake

theorem skip_cons (scanner : Scanner) {piece : Gap.Piece} (gap : List Gap.Piece)
    (hpiece : piece.spelling <+: scanner.remaining) :
    scanner.skip (piece :: gap) = (scanner.skip [piece]).skip gap := by
  have hposition : (scanner.skip [piece]).position = scanner.position + piece.byteLength := by
    rw [Gap.Piece.byteLength, ← position_advanceBy_of_isPrefix hpiece]
    simp [skip, consume, report, position]
  rw [skip, skip, hposition]
  simp [skip, report, consume, Gap.diagnostics, Gap.crossesLine, Cursor.advanceBy_add,
    Bool.or_assoc, ← Array.toList_inj]

theorem skipPieceChecked_eq_ok (hreads : scanner.Reads) {piece : Gap.Piece}
    (hfirst : Gap.first? scanner.options scanner.remaining = some piece) :
    scanner.skipPieceChecked piece = .ok (scanner.skip [piece]) := by
  have hposition : (scanner.cursor.advanceBy piece.spelling.length).position =
      scanner.position + piece.byteLength :=
    position_advanceBy_of_isPrefix (Gap.spelling_isPrefix_of_first? hfirst)
  have hlt := (hreads.cursor.advanceBy piece.spelling.length).position_lt
  have hword : scanner.position + piece.byteLength < 2 ^ 32 := by omega
  rw [skipPieceChecked, bind_ok (Gap.Piece.consumeChecked_eq_ok hreads.cursor hfirst), hposition,
    bind_ok (piece.reportChecked_eq_ok hword)]
  simp [skip, report, consume, Gap.diagnostics, Gap.crossesLine]

theorem skipChecked_eq_ok (hreads : scanner.Reads) :
    scanner.skipChecked (Gap.read scanner.options scanner.remaining) =
      .ok (scanner.skip (Gap.read scanner.options scanner.remaining)) := by
  generalize hoptions : scanner.options = options
  generalize hremaining : scanner.remaining = characters
  induction characters using Gap.read_induction options generalizing scanner with
  | done characters hfirst =>
      rw [Gap.read_of_first?_eq_none hfirst, skip_nil]
      rfl
  | step piece rest hfirst ih =>
      have hpiece : piece.spelling <+: scanner.remaining := by
        rw [hremaining]
        exact List.prefix_append _ _
      have hrest : (scanner.skip [piece]).remaining = rest := by
        rw [remaining_skip, hremaining]
        simp
      have hread : Gap.read options (piece.spelling ++ rest) = piece :: Gap.read options rest := by
        rw [Gap.read_of_first?_eq_some hfirst, List.drop_left]
      have hskip := ih (hreads.skip [piece]) hoptions hrest
      rw [← hoptions, ← hremaining] at hfirst
      rw [hread, skipChecked, List.foldlM_cons, bind_ok (skipPieceChecked_eq_ok hreads hfirst),
        skip_cons scanner (Gap.read options rest) hpiece]
      exact hskip

theorem takeChecked_eq_ok (hreads : scanner.Reads) {lexeme : Lexeme} (afterLineBreak : Bool)
    (hspelling : lexeme.spelling <+: scanner.remaining)
    (hproblem : ∀ problem ∈ lexeme.problem?, problem.length ≤ lexeme.byteLength) :
    scanner.takeChecked lexeme afterLineBreak = .ok (scanner.take lexeme afterLineBreak) := by
  have hposition : (scanner.cursor.advanceBy lexeme.spelling.length).position =
      scanner.position + lexeme.byteLength :=
    position_advanceBy_of_isPrefix hspelling
  have hlt := (hreads.cursor.advanceBy lexeme.spelling.length).position_lt
  have hdepth (depth : Nat) (hpart : scanner.part = .substitution depth) : depth + 1 < 2 ^ 32 := by
    have hdepth := hreads.depth_le depth hpart
    omega
  rw [takeChecked, bind_ok (Cursor.advanceByChecked_eq_ok hreads.cursor _), hposition,
    bind_ok (Span.checked_eq_ok (Nat.le_add_right _ _) (by omega)),
    bind_ok (Section.afterChecked_eq_ok hdepth lexeme.kind)]
  cases hproblem? : lexeme.problem? with
  | none => simp [take, report, consume, hproblem?]
  | some problem =>
      have hwithin := hproblem problem hproblem?
      dsimp only
      rw [bind_ok (Span.checked_eq_ok (Nat.le_add_right _ _) (by omega))]
      simp [take, report, consume, hproblem?]

theorem finishChecked_eq_ok (hreads : scanner.Reads) (afterLineBreak : Bool) :
    scanner.finishChecked afterLineBreak = .ok (scanner.finish afterLineBreak) := by
  have hlt := hreads.position_lt
  rw [finishChecked, finish, bind_ok (Span.checked_eq_ok (Nat.le_refl _) (by omega))]
  cases scanner.part <;> rfl

theorem nextInScriptChecked_eq_ok (hreads : scanner.Reads) :
    scanner.nextInScriptChecked = .ok scanner.nextInScript := by
  rw [nextInScriptChecked, nextInScript, bind_ok (skipChecked_eq_ok hreads)]
  set next := scanner.skip (Gap.read scanner.options scanner.remaining)
  have hnext : next.Reads := hreads.skip _
  rw [bind_ok (Lexeme.firstChecked?_eq_ok next.options hnext.suffixAt hnext.cursor.length_lt)]
  cases hfirst : Lexeme.first? next.options next.remaining with
  | none => exact finishChecked_eq_ok hnext _
  | some lexeme =>
      have hproblem (problem : Lexeme.Problem) (hmem : problem ∈ lexeme.problem?) :
          problem.length ≤ lexeme.byteLength :=
        (Lexeme.problem_within_of_first? hfirst problem hmem).length_le
      exact takeChecked_eq_ok hnext _ (Lexeme.spelling_isPrefix_of_first? hfirst) hproblem

theorem nextInTextChecked_eq_ok (hreads : scanner.Reads) :
    scanner.nextInTextChecked = .ok scanner.nextInText := by
  have hspelling : (textLexeme (templateText scanner.remaining)).spelling <+: scanner.remaining :=
    templateText_isPrefix _
  rw [nextInTextChecked, nextInText]
  split_ifs with hremaining
  · exact finishChecked_eq_ok hreads false
  · dsimp only
    rw [bind_ok (Lexeme.cutOut_eq_ok hreads.suffixAt hspelling rfl),
      bind_ok (takeChecked_eq_ok hreads false hspelling fun problem hmem => by cases hmem)]

theorem nextChecked_eq_ok (hreads : scanner.Reads) : scanner.nextChecked = .ok scanner.next := by
  rw [nextChecked, next]
  split_ifs
  · exact nextInTextChecked_eq_ok hreads
  · exact nextInScriptChecked_eq_ok hreads

/-! ### Any calls -/

def ofTextChecked (text : String) (options : Options) : Except Fault Scanner := do
  let cursor ← Cursor.ofTextChecked text
  .ok { options := options, cursor := cursor }

def performChecked (scanner : Scanner) : Call → Except Fault (Option Token × Scanner)
  | .next => do
      let (token, next) ← scanner.nextChecked
      .ok (some token, next)
  | .takeLineCrossed => .ok (none, scanner.takeLineCrossed.2)
  | .flushDiagnostics => .ok (none, scanner.flushDiagnostics.2)

def performAllChecked (scanner : Scanner) (calls : List Call) : Except Fault Scanner :=
  calls.foldlM (fun scanner call => Prod.snd <$> scanner.performChecked call) scanner

theorem ofTextChecked_eq_ok (text : String) (options : Options) :
    ofTextChecked text options = .ok (ofText text options) :=
  bind_ok (Cursor.ofTextChecked_eq_ok text) _

theorem performChecked_eq_ok (hreads : scanner.Reads) (call : Call) :
    scanner.performChecked call = .ok (scanner.returned? call, scanner.perform call) := by
  cases call with
  | next => exact bind_ok (nextChecked_eq_ok hreads) _
  | takeLineCrossed => rfl
  | flushDiagnostics => rfl

theorem performAllChecked_eq_ok (hreads : scanner.Reads) (calls : List Call) :
    scanner.performAllChecked calls = .ok (scanner.performAll calls) := by
  have hstep (scanner : Scanner) (call : Call) (hreads : scanner.Reads) :
      Prod.snd <$> scanner.performChecked call = .ok (scanner.perform call) := by
    rw [performChecked_eq_ok hreads]
    rfl
  exact foldlM_eq_ok hstep (fun _ call hreads => hreads.perform call) calls hreads

end Scanner

end FormulaScript
