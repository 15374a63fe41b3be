import FormulaScript.Proofs.Gap.Pieces
import FormulaScript.Proofs.Scanner.Runs

/-!
# What a step reports

A step of a scanner reports what it finds in the gap, then what it finds about the token. All of it
lies between the place where the cursor was and the place where it comes to stand.
-/

namespace FormulaScript

namespace Diagnostic

/-- Diagnostics of places that follow one another without overlap, from an offset to a limit. -/
def Ascend (limit : Nat) : Nat → List Diagnostic → Prop
  | offset, [] => offset ≤ limit
  | offset, diagnostic :: rest =>
      ∃ span, diagnostic.span? = some span ∧ offset ≤ span.start ∧ span.start ≤ span.stop ∧
        Ascend limit span.stop rest

section

variable {limit limit' offset offset' : Nat} {diagnostics : List Diagnostic}

theorem Ascend.le (hascend : Ascend limit offset diagnostics) : offset ≤ limit := by
  induction diagnostics generalizing offset with
  | nil => exact hascend
  | cons diagnostic rest ih =>
      obtain ⟨span, -, hstart, hordered, hrest⟩ := hascend
      exact hstart.trans (hordered.trans (ih hrest))

theorem Ascend.of_le (hascend : Ascend limit offset diagnostics) (hle : offset' ≤ offset) :
    Ascend limit offset' diagnostics := by
  cases diagnostics with
  | nil => exact hle.trans hascend
  | cons diagnostic rest =>
      obtain ⟨span, hspan, hstart, hrest⟩ := hascend
      exact ⟨span, hspan, hle.trans hstart, hrest⟩

theorem Ascend.append {later : List Diagnostic} (hascend : Ascend limit offset diagnostics)
    (hlater : Ascend limit' limit later) : Ascend limit' offset (diagnostics ++ later) := by
  induction diagnostics generalizing offset with
  | nil => exact hlater.of_le hascend
  | cons diagnostic rest ih =>
      obtain ⟨span, hspan, hstart, hordered, hrest⟩ := hascend
      exact ⟨span, hspan, hstart, hordered, ih hrest⟩

theorem Ascend.mono (hascend : Ascend limit offset diagnostics) (hle : limit ≤ limit') :
    Ascend limit' offset diagnostics := by
  rw [← List.append_nil diagnostics]
  exact hascend.append hle

theorem Ascend.span_of_mem (hascend : Ascend limit offset diagnostics) {diagnostic : Diagnostic}
    (hmem : diagnostic ∈ diagnostics) :
    ∃ span, diagnostic.span? = some span ∧ offset ≤ span.start ∧ span.start ≤ span.stop ∧
      span.stop ≤ limit := by
  induction diagnostics generalizing offset with
  | nil => cases hmem
  | cons head rest ih =>
      obtain ⟨span, hspan, hstart, hordered, hrest⟩ := hascend
      rcases List.mem_cons.mp hmem with rfl | hlater
      · exact ⟨span, hspan, hstart, hordered, hrest.le⟩
      · exact ih (hrest.of_le (hstart.trans hordered)) hlater

end

end Diagnostic

namespace Gap

theorem diagnostic?_eq_some {piece : Piece} {offset : Nat} {diagnostic : Diagnostic}
    (hdiagnostic : piece.diagnostic? offset = some diagnostic) :
    diagnostic.span? = some ⟨offset, offset + piece.byteLength⟩ := by
  obtain ⟨report, -, rfl⟩ := Option.map_eq_some_iff.mp hdiagnostic
  rfl

theorem message_of_mem_diagnostics {pieces : List Piece} {offset : Nat} {diagnostic : Diagnostic}
    (hmem : diagnostic ∈ diagnostics offset pieces) :
    diagnostic.message = .invalidCharacter ∨ diagnostic.message = .unclosedComment := by
  induction pieces generalizing offset with
  | nil => cases hmem
  | cons piece pieces ih =>
      rcases List.mem_append.mp hmem with hhere | hlater
      · obtain ⟨report, hreport, rfl⟩ := Option.map_eq_some_iff.mp (Option.mem_toList.mp hhere)
        cases piece with
        | invalid c =>
            obtain rfl := Option.some.inj hreport
            exact .inl rfl
        | unclosedComment body =>
            obtain rfl := Option.some.inj hreport
            exact .inr rfl
        | _ => cases hreport
      · exact ih hlater

theorem byteLength_spelling_cons (piece : Piece) (pieces : List Piece) :
    Text.byteLength (spelling (piece :: pieces)) =
      piece.byteLength + Text.byteLength (spelling pieces) := by
  rw [spelling_cons, Text.byteLength_append, Piece.byteLength]

/-- What is reported about a gap lies within the gap, in the order of its pieces. -/
theorem ascend_diagnostics (offset : Nat) (pieces : List Piece) :
    Diagnostic.Ascend (offset + Text.byteLength (spelling pieces)) offset
      (diagnostics offset pieces) := by
  induction pieces generalizing offset with
  | nil => exact Nat.le_add_right _ _
  | cons piece pieces ih =>
      have hrest := ih (offset + piece.byteLength)
      rw [byteLength_spelling_cons, ← Nat.add_assoc, diagnostics]
      cases hpiece : piece.diagnostic? offset with
      | none => exact hrest.of_le (Nat.le_add_right _ _)
      | some diagnostic =>
          exact ⟨_, diagnostic?_eq_some hpiece, Nat.le_refl _, Nat.le_add_right _ _, hrest⟩

end Gap

namespace Scanner

theorem standsBefore_gap (scanner : Scanner) :
    Gap.StandsBefore scanner.options scanner.front scanner.gap := by
  cases htext : scanner.inTemplateText with
  | true => simp [gap, htext, Gap.StandsBefore]
  | false =>
      rw [front, gap_of_script htext]
      exact Gap.standsBefore_read _ _

variable [Text.Letters]

theorem problem_within_of_lexeme? {scanner : Scanner} {lexeme : Lexeme}
    (hlexeme : scanner.lexeme? = some lexeme) :
    ∀ problem ∈ lexeme.problem?, problem.Within lexeme := by
  unfold lexeme? at hlexeme
  split_ifs at hlexeme
  · obtain rfl := Option.some.inj hlexeme
    intro problem hproblem
    cases hproblem
  · exact Lexeme.problem_within_of_first? hlexeme

variable (scanner : Scanner)

/-- What is reported about a lexeme that stands at an offset. -/
def problemReport? (lexeme : Lexeme) (offset : Nat) : Option Diagnostic :=
  lexeme.problem?.map fun problem =>
    .ofMessage problem.message [] (some ⟨offset, offset + problem.length⟩)

/-- What is reported at the end of the text, when a substitution is open there. -/
def endReport? : Option Diagnostic :=
  match scanner.part with
  | .text => none
  | .substitution _ => some (.ofMessage .unterminatedSubstitution [] (some (.empty scanner.start)))

/-- What is reported about the next token. -/
def tokenReport? : Option Diagnostic :=
  match scanner.lexeme? with
  | some lexeme => problemReport? lexeme scanner.start
  | none => scanner.endReport?

def reports : List Diagnostic :=
  Gap.diagnostics scanner.position scanner.gap ++ scanner.tokenReport?.toList

theorem diagnostics_skip_gap :
    (scanner.skip scanner.gap).diagnostics.toList =
      scanner.diagnostics.toList ++ Gap.diagnostics scanner.position scanner.gap := by
  simp [skip, report, consume]

theorem diagnostics_finish (afterLineBreak : Bool) :
    ((scanner.skip scanner.gap).finish afterLineBreak).2.diagnostics.toList =
      (scanner.skip scanner.gap).diagnostics.toList ++ scanner.endReport?.toList := by
  have hpart : (scanner.skip scanner.gap).part = scanner.part := rfl
  rw [finish, position_skip_gap, endReport?, hpart]
  cases scanner.part with
  | text => simp
  | substitution depth => simp [report]

/-- A step adds its reports to the ones before it. -/
theorem diagnostics_next :
    scanner.next.2.diagnostics.toList = scanner.diagnostics.toList ++ scanner.reports := by
  rw [reports, ← List.append_assoc, ← diagnostics_skip_gap, tokenReport?]
  cases hlexeme : scanner.lexeme? with
  | none => rw [next_of_end scanner hlexeme, diagnostics_finish]
  | some lexeme =>
      rw [next_of_lexeme scanner hlexeme]
      dsimp only
      rw [take, position_skip_gap]
      simp [report, consume, problemReport?]

/-- What so many steps report. -/
def firstReports (scanner : Scanner) : Nat → List Diagnostic
  | 0 => []
  | count + 1 => scanner.reports ++ scanner.next.2.firstReports count

theorem diagnostics_after (count : Nat) :
    (scanner.after count).diagnostics.toList =
      scanner.diagnostics.toList ++ scanner.firstReports count := by
  induction count generalizing scanner with
  | zero => simp [after, firstReports]
  | succ count ih => rw [after, ih, diagnostics_next, firstReports, List.append_assoc]

variable {scanner}

theorem span_of_tokenReport? {diagnostic : Diagnostic}
    (hreport : scanner.tokenReport? = some diagnostic) :
    ∃ span, diagnostic.span? = some span ∧ scanner.start ≤ span.start ∧ span.start ≤ span.stop ∧
      span.stop ≤ scanner.next.2.position := by
  rw [position_next]
  rw [tokenReport?] at hreport
  cases hlexeme : scanner.lexeme? with
  | none =>
      rw [hlexeme] at hreport
      rw [token_eq_endToken scanner hlexeme]
      dsimp only at hreport
      unfold endReport? at hreport
      split at hreport
      · cases hreport
      · obtain rfl := Option.some.inj hreport
        exact ⟨_, rfl, Nat.le_refl _, Nat.le_refl _, Nat.le_refl _⟩
  | some lexeme =>
      rw [hlexeme] at hreport
      obtain ⟨problem, hproblem, rfl⟩ := Option.map_eq_some_iff.mp hreport
      have hwithin := problem_within_of_lexeme? hlexeme problem hproblem
      rw [token_eq_tokenOf scanner hlexeme]
      exact ⟨_, rfl, Nat.le_refl _, Nat.le_add_right _ _, Nat.add_le_add_left hwithin.length_le _⟩

variable (scanner)

theorem ascend_reports :
    Diagnostic.Ascend scanner.next.2.position scanner.position scanner.reports := by
  apply (Gap.ascend_diagnostics _ _).append
  cases hreport : scanner.tokenReport? with
  | none => exact scanner.start_le_position_next
  | some diagnostic => exact span_of_tokenReport? hreport

end Scanner

end FormulaScript
