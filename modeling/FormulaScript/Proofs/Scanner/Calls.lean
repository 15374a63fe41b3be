import FormulaScript.Proofs.Scanner.Reports
import FormulaScript.Proofs.Scanner.Sections

/-!
# Calls on a scanner

Whatever is asked of a scanner, and in whatever order, its cursor goes forward in the text with the
line feeds up to where it stands, and what was reported lies behind it.
-/

namespace FormulaScript

def Diagnostic.EndsBy (diagnostic : Diagnostic) (limit : Nat) : Prop :=
  ∃ span, diagnostic.span? = some span ∧ span.EndsBy limit

theorem Diagnostic.EndsBy.mono {diagnostic : Diagnostic} {limit offset : Nat}
    (hends : diagnostic.EndsBy limit) (hle : limit ≤ offset) : diagnostic.EndsBy offset := by
  obtain ⟨span, hspan, hspanEnds⟩ := hends
  exact ⟨span, hspan, hspanEnds.mono hle⟩

namespace Scanner

/-- What a scanner can be asked for. -/
inductive Call where
  | next | takeLineCrossed | flushDiagnostics
deriving DecidableEq, Repr

variable (scanner : Scanner)

def perform : Call → Scanner
  | .next => scanner.next.2
  | .takeLineCrossed => scanner.takeLineCrossed.2
  | .flushDiagnostics => scanner.flushDiagnostics.2

/-- The token that a call hands out. -/
def returned? : Call → Option Token
  | .next => some scanner.next.1
  | .takeLineCrossed | .flushDiagnostics => none

def performAll (calls : List Call) : Scanner :=
  calls.foldl perform scanner

theorem position_le_next [Text.Letters] : scanner.position ≤ scanner.next.2.position := by
  rw [position_next]
  exact Nat.le_trans (position_le_start_token scanner) (start_le_stop_token scanner)

theorem endsBy_next [Text.Letters] : scanner.next.1.span.EndsBy scanner.next.2.position := by
  rw [position_next]
  exact ⟨start_le_stop_token scanner, Nat.le_refl _⟩

theorem position_le_perform (call : Call) : scanner.position ≤ (scanner.perform call).position := by
  cases call with
  | next => exact scanner.position_le_next
  | takeLineCrossed => exact Nat.le_refl _
  | flushDiagnostics => exact Nat.le_refl _

theorem position_le_performAll (calls : List Call) :
    scanner.position ≤ (scanner.performAll calls).position := by
  induction calls generalizing scanner with
  | nil => exact Nat.le_refl _
  | cons call calls ih => exact Nat.le_trans (scanner.position_le_perform call) (ih _)

/-- The scanner stands in a text. What it has reported lies behind it, and so do the braces that are
open. -/
structure Charts (text : String) (scanner : Scanner) : Prop where
  cursor : scanner.cursor.Tracks text.toList
  depth_le : ∀ depth, scanner.part = .substitution depth → depth ≤ scanner.position
  diagnostics : ∀ diagnostic ∈ scanner.diagnostics.toList, diagnostic.EndsBy scanner.position

theorem charts_ofText (text : String) (options : Options) : (ofText text options).Charts text where
  cursor := Cursor.tracks_ofText text
  depth_le depth hpart := by cases hpart
  diagnostics diagnostic hmem := by cases hmem

variable {text : String} {scanner}

theorem Charts.le_position_of_end (hcharts : scanner.Charts text)
    (hremaining : scanner.remaining = []) :
    Text.byteLength text.toList ≤ scanner.position := by
  have htotal := hcharts.cursor.position_add_remaining
  rw [show scanner.cursor.remaining = [] from hremaining] at htotal
  exact Nat.le_of_eq htotal.symm

theorem tracks_next [Text.Letters] (htracks : scanner.cursor.Tracks text.toList) :
    scanner.next.2.cursor.Tracks text.toList := by
  cases hlexeme : scanner.lexeme? with
  | none =>
      rw [next_of_end scanner hlexeme, finish]
      split <;> exact htracks.advanceBy _
  | some lexeme =>
      rw [next_of_lexeme scanner hlexeme]
      exact (htracks.advanceBy _).advanceBy _

theorem Charts.next [Text.Letters] (hcharts : scanner.Charts text) : scanner.next.2.Charts text := by
  refine ⟨tracks_next hcharts.cursor, depth_le_next hcharts.depth_le, fun diagnostic hmem => ?_⟩
  rw [diagnostics_next, List.mem_append] at hmem
  rcases hmem with hbefore | hreport
  · exact (hcharts.diagnostics diagnostic hbefore).mono scanner.position_le_next
  · obtain ⟨span, hspan, -, hordered, hstop⟩ := scanner.ascend_reports.span_of_mem hreport
    exact ⟨span, hspan, Nat.le_trans hordered hstop, hstop⟩

theorem Charts.perform (hcharts : scanner.Charts text) (call : Call) :
    (scanner.perform call).Charts text := by
  cases call with
  | next => exact hcharts.next
  | takeLineCrossed => exact ⟨hcharts.cursor, hcharts.depth_le, hcharts.diagnostics⟩
  | flushDiagnostics =>
      exact ⟨hcharts.cursor, hcharts.depth_le, fun diagnostic hmem => by cases hmem⟩

theorem Charts.performAll (hcharts : scanner.Charts text) (calls : List Call) :
    (scanner.performAll calls).Charts text := by
  induction calls generalizing scanner with
  | nil => exact hcharts
  | cons call calls ih => exact ih (hcharts.perform call)

theorem Charts.after [Text.Letters] (hcharts : scanner.Charts text) (count : Nat) :
    (scanner.after count).Charts text := by
  induction count generalizing scanner with
  | zero => exact hcharts
  | succ count ih => exact ih hcharts.next

/-- A token that was handed out lies behind the cursor, and the end token comes at the end. -/
theorem Charts.endsBy_of_returned? (hcharts : scanner.Charts text) {call : Call} {token : Token}
    (htoken : scanner.returned? call = some token) :
    token.span.EndsBy (scanner.perform call).position ∧
      (token.kind = .endOfText →
        Text.byteLength text.toList ≤ (scanner.perform call).position) := by
  cases call with
  | next =>
      obtain rfl := Option.some.inj htoken
      refine ⟨endsBy_next scanner, fun hkind => ?_⟩
      exact hcharts.next.le_position_of_end (remaining_next_of_end scanner
        ((kind_token_eq_endOfText_iff scanner).mp hkind))
  | takeLineCrossed => cases htoken
  | flushDiagnostics => cases htoken

end Scanner

/-! ### Settled places -/

/-- The token is resolved as in the whole text, all of which is known at its end. -/
def LineBreaks.SettlesToken (lines whole : LineBreaks) (token : Token) : Prop :=
  lines.region token.span = whole.region token.span ∧ (token.kind = .endOfText → lines = whole)

/-- The diagnostic is resolved, and written down, as in the whole text. -/
def LineBreaks.SettlesDiagnostic (lines whole : LineBreaks) (diagnostic : Diagnostic) : Prop :=
  (∃ span, diagnostic.span? = some span ∧ lines.region span = whole.region span) ∧
    diagnostic.render lines = diagnostic.render whole

namespace Scanner

variable {text : String} {scanner later : Scanner}

theorem Charts.settlesToken (hcharts : later.Charts text) {token : Token} {limit : Nat}
    (hends : token.span.EndsBy limit) (hle : limit ≤ later.position)
    (hkind : token.kind = .endOfText → Text.byteLength text.toList ≤ limit) :
    later.lines.SettlesToken (.ofText text) token :=
  ⟨hcharts.cursor.completeUpTo.region (hends.mono hle), fun hend =>
    hcharts.cursor.lines_of_le (Nat.le_trans (hkind hend) hle)⟩

theorem Charts.settlesDiagnostic (hcharts : later.Charts text) {diagnostic : Diagnostic}
    {limit : Nat} (hends : diagnostic.EndsBy limit) (hle : limit ≤ later.position) :
    later.lines.SettlesDiagnostic (.ofText text) diagnostic := by
  obtain ⟨span, hspan, hspanEnds⟩ := hends
  have hregion : later.lines.region span = (LineBreaks.ofText text).region span :=
    hcharts.cursor.completeUpTo.region (hspanEnds.mono hle)
  refine ⟨⟨span, hspan, hregion⟩, ?_⟩
  rw [Diagnostic.render, Diagnostic.render, hspan]
  dsimp only
  rw [hregion]

end Scanner

end FormulaScript
