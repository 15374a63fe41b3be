import FormulaScript.Proofs.Layout.Refinement
import FormulaScript.Proofs.Scanner.Wrapping

/-!
# Places are settled when they are handed out

A token or a diagnostic is resolved by the line feeds met so far as it is by all of them, from the
moment it is handed out on: nothing that is read later moves it.
-/

namespace FormulaScript

namespace Layout

theorem endsBy_of_mem_withInsertion {token other : Token} {insertion? : Option Insertion}
    (hmem : other ∈ withInsertion token insertion?)
    (htoken : token.span.start ≤ token.span.stop) : other.span.EndsBy token.span.stop := by
  rcases insertion? with _ | mark | mark
  · obtain rfl := List.mem_singleton.mp hmem
    exact ⟨htoken, Nat.le_refl _⟩
  · rcases List.mem_cons.mp hmem with rfl | hmem
    · exact ⟨htoken, htoken⟩
    · obtain rfl := List.mem_singleton.mp hmem
      exact ⟨htoken, Nat.le_refl _⟩
  · rcases List.mem_cons.mp hmem with rfl | hmem
    · exact ⟨htoken, Nat.le_refl _⟩
    · obtain rfl := List.mem_singleton.mp hmem
      exact ⟨Nat.le_refl _, Nat.le_refl _⟩

namespace Stream

/-- What a stream can be asked for. -/
inductive Call where
  | pull | next? | flushDiagnostics
deriving DecidableEq, Repr

variable (stream : Stream)

def perform : Call → Stream
  | .pull => stream.pull.2
  | .next? => stream.next?.2
  | .flushDiagnostics => stream.flushDiagnostics.2

/-- The token that a call hands out. -/
def returned? : Call → Option Token
  | .pull => some stream.pull.1
  | .next? => stream.next?.1
  | .flushDiagnostics => none

def performAll (calls : List Call) : Stream :=
  calls.foldl perform stream

variable {stream}

theorem next?_of_ended (hended : stream.ended = true) : stream.next? = (none, stream) := by
  rw [next?, if_pos hended]

theorem next?_of_not_ended (hended : stream.ended = false) :
    stream.next? =
      (some stream.pull.1, { stream.pull.2 with ended := stream.pull.1.kind == .endOfText }) := by
  rw [next?, if_neg (by simp [hended])]

/-- A pull that reads a token hands out one of its chunk, and lets another one wait at most. -/
theorem pull_of_none (hwaiting : stream.waiting = none) :
    stream.pull.2.scanner = stream.scanner.next.2.takeLineCrossed.2 ∧
      stream.pull.1 ∈ stream.chunk ∧
      ∀ token ∈ stream.pull.2.waiting,
        token ∈ stream.chunk ∧ stream.upcoming.kind ≠ .endOfText := by
  rcases pull_cases hwaiting with ⟨hchunk, hpull⟩ | ⟨first, second, hchunk, rfl, hsecond, hpull⟩
  · rw [hpull, hchunk]
    refine ⟨rfl, List.mem_singleton_self _, fun token htoken => ?_⟩
    cases htoken
  · have hemit := (pull_of_waiting hsecond).symm.trans hpull
    refine ⟨congrArg (·.2.scanner) hemit, by simp [hchunk], fun token htoken => ?_⟩
    obtain rfl : second = token := by simpa [hsecond] using htoken
    refine ⟨by simp [hchunk], fun hkind => ?_⟩
    rw [chunk_of_end hkind] at hchunk
    simp at hchunk

/-- The stream stands in a text, and the token that waits lies behind its scanner. -/
structure Charts (text : String) (stream : Stream) : Prop where
  scanner : stream.scanner.Charts text
  waiting : ∀ token ∈ stream.waiting,
    token.span.EndsBy stream.scanner.position ∧ token.kind ≠ .endOfText

variable {text : String}

theorem endsBy_of_mem_chunk {token : Token} (hmem : token ∈ stream.chunk) :
    token.span.EndsBy stream.scanner.next.2.position := by
  rw [Scanner.position_next]
  exact endsBy_of_mem_withInsertion hmem (Scanner.start_le_stop_token stream.scanner)

theorem position_le_pull (stream : Stream) :
    stream.scanner.position ≤ stream.pull.2.scanner.position := by
  cases hwaiting : stream.waiting with
  | some token =>
      rw [pull_of_waiting hwaiting]
      exact Nat.le_refl _
  | none =>
      rw [(pull_of_none hwaiting).1]
      exact stream.scanner.position_le_next

theorem Charts.pull (hcharts : stream.Charts text) : stream.pull.2.Charts text := by
  cases hwaiting : stream.waiting with
  | some token =>
      rw [pull_of_waiting hwaiting]
      exact ⟨hcharts.scanner, fun token htoken => by cases htoken⟩
  | none =>
      obtain ⟨hscanner, -, hwaits⟩ := pull_of_none hwaiting
      constructor
      · rw [hscanner]
        exact hcharts.scanner.next.perform .takeLineCrossed
      · intro token htoken
        obtain ⟨hmem, hkind⟩ := hwaits token htoken
        rw [hscanner]
        exact ⟨endsBy_of_mem_chunk hmem, kind_ne_endOfText_of_mem_chunk hkind hmem⟩

/-- The token of a pull lies behind the scanner, and the end token comes at the end. -/
theorem Charts.endsBy_pull (hcharts : stream.Charts text) :
    stream.pull.1.span.EndsBy stream.pull.2.scanner.position ∧
      (stream.pull.1.kind = .endOfText →
        Text.byteLength text.toList ≤ stream.pull.2.scanner.position) := by
  cases hwaiting : stream.waiting with
  | some token =>
      obtain ⟨hends, hkind⟩ := hcharts.waiting token hwaiting
      rw [pull_of_waiting hwaiting]
      exact ⟨hends, fun hend => absurd hend hkind⟩
  | none =>
      obtain ⟨hscanner, hmem, -⟩ := pull_of_none hwaiting
      rw [hscanner]
      refine ⟨endsBy_of_mem_chunk hmem, fun hkind => ?_⟩
      -- No mark that is inserted is an end token, so it was the scanner that came to the end.
      have hupcoming : stream.upcoming.kind = .endOfText := by
        by_contra hupcoming
        exact kind_ne_endOfText_of_mem_chunk hupcoming hmem hkind
      exact hcharts.scanner.next.le_position_of_end (Scanner.remaining_next_of_end stream.scanner
        ((Scanner.kind_token_eq_endOfText_iff stream.scanner).mp hupcoming))

/-! ### Any calls -/

theorem position_le_perform (stream : Stream) (call : Call) :
    stream.scanner.position ≤ (stream.perform call).scanner.position := by
  cases call with
  | pull => exact position_le_pull stream
  | flushDiagnostics => exact Nat.le_refl _
  | next? =>
      rw [perform]
      cases hended : stream.ended with
      | true =>
          rw [next?_of_ended hended]
      | false =>
          rw [next?_of_not_ended hended]
          exact position_le_pull stream

theorem position_le_performAll (stream : Stream) (calls : List Call) :
    stream.scanner.position ≤ (stream.performAll calls).scanner.position := by
  induction calls generalizing stream with
  | nil => exact Nat.le_refl _
  | cons call calls ih => exact Nat.le_trans (position_le_perform stream call) (ih _)

theorem Charts.perform (hcharts : stream.Charts text) (call : Call) :
    (stream.perform call).Charts text := by
  cases call with
  | pull => exact hcharts.pull
  | flushDiagnostics => exact ⟨hcharts.scanner.perform .flushDiagnostics, hcharts.waiting⟩
  | next? =>
      rw [Stream.perform]
      cases hended : stream.ended with
      | true =>
          rw [next?_of_ended hended]
          exact hcharts
      | false =>
          rw [next?_of_not_ended hended]
          exact ⟨hcharts.pull.scanner, hcharts.pull.waiting⟩

theorem Charts.performAll (hcharts : stream.Charts text) (calls : List Call) :
    (stream.performAll calls).Charts text := by
  induction calls generalizing stream with
  | nil => exact hcharts
  | cons call calls ih => exact ih (hcharts.perform call)

theorem Charts.endsBy_of_returned? (hcharts : stream.Charts text) {call : Call} {token : Token}
    (htoken : stream.returned? call = some token) :
    token.span.EndsBy (stream.perform call).scanner.position ∧
      (token.kind = .endOfText →
        Text.byteLength text.toList ≤ (stream.perform call).scanner.position) := by
  cases call with
  | pull =>
      obtain rfl := Option.some.inj htoken
      exact hcharts.endsBy_pull
  | flushDiagnostics => cases htoken
  | next? =>
      rw [returned?] at htoken
      rw [Stream.perform]
      cases hended : stream.ended with
      | true =>
          rw [next?_of_ended hended] at htoken
          cases htoken
      | false =>
          rw [next?_of_not_ended hended] at htoken ⊢
          obtain rfl := Option.some.inj htoken
          exact hcharts.endsBy_pull

/-- A token that is handed out is held in words as it is. -/
theorem Charts.wrap_of_returned? (hcharts : stream.Charts text) (hfits : Text.Fits text)
    {call : Call} {token : Token} (htoken : stream.returned? call = some token) :
    token.wrap = token :=
  Token.wrap_eq_self (hcharts.endsBy_of_returned? htoken).1
    ((hcharts.perform call).scanner.position_lt_wordSize hfits)

theorem charts_ofScanner {scanner : Scanner} (hcharts : scanner.Charts text) :
    (ofScanner scanner).Charts text :=
  ⟨hcharts, fun token htoken => by cases htoken⟩

/-- **Settled places.** After any calls on a scanner, and on a stream of what it has left, a token
that a call hands out is resolved as in the whole text at every later moment. So is every diagnostic
that has been recorded, and behind the end token all line feeds of the text are known. -/
theorem regions_settled (text : String) (options : Options) (scannerCalls : List Scanner.Call)
    (streamCalls : List Call) :
    let whole := LineBreaks.ofText text
    let scanner := (Scanner.ofText text options).performAll scannerCalls
    let stream := (ofScanner scanner).performAll streamCalls
    (∀ call, ∀ token ∈ scanner.returned? call, ∀ later,
        (scanner.performAll (call :: later)).lines.SettlesToken whole token) ∧
      (∀ diagnostic ∈ scanner.diagnostics.toList, ∀ later,
        (scanner.performAll later).lines.SettlesDiagnostic whole diagnostic) ∧
      (∀ call, ∀ token ∈ stream.returned? call, ∀ later,
        (stream.performAll (call :: later)).lines.SettlesToken whole token) ∧
      ∀ diagnostic ∈ stream.diagnostics.toList, ∀ later,
        (stream.performAll later).lines.SettlesDiagnostic whole diagnostic := by
  intro whole scanner stream
  have hscanner : scanner.Charts text := (Scanner.charts_ofText text options).performAll _
  have hstream : stream.Charts text := (charts_ofScanner hscanner).performAll streamCalls
  refine ⟨?_, ?_, ?_, ?_⟩
  · intro call token htoken later
    obtain ⟨hends, hkind⟩ := hscanner.endsBy_of_returned? htoken
    exact (hscanner.performAll (call :: later)).settlesToken hends
      (Scanner.position_le_performAll _ later) hkind
  · intro diagnostic hmem later
    exact (hscanner.performAll later).settlesDiagnostic (hscanner.diagnostics diagnostic hmem)
      (Scanner.position_le_performAll _ later)
  · intro call token htoken later
    obtain ⟨hends, hkind⟩ := hstream.endsBy_of_returned? htoken
    exact (hstream.performAll (call :: later)).scanner.settlesToken hends
      (position_le_performAll _ later) hkind
  · intro diagnostic hmem later
    exact (hstream.performAll later).scanner.settlesDiagnostic
      (hstream.scanner.diagnostics diagnostic hmem) (position_le_performAll _ later)

/-- A semicolon that is inserted behind a line break, a comment that is never closed, and the end of
the text. -/
theorem regions_settled_unclosed :
    let text := "a\nb /*\n"
    let whole := LineBreaks.ofText text
    let read := (Scanner.ofText text {}).performAll [.next, .next, .next]
    let begun := (ofScanner (.ofText text {})).performAll [.pull]
    let unclosed : Diagnostic := .ofMessage .unclosedComment [] (some ⟨4, 7⟩)
    let semicolon : Token := .inserted (.punctuation .semicolon) 2
    (read.diagnostics.toList = [unclosed] ∧
        (read.performAll [.flushDiagnostics, .next]).lines.SettlesDiagnostic whole unclosed) ∧
      (read.next.1.kind = .endOfText ∧ (read.performAll [.next]).lines = whole) ∧
      ((ofScanner read).diagnostics.toList = [unclosed] ∧
        ((ofScanner read).performAll [.pull]).lines.SettlesDiagnostic whole unclosed) ∧
      begun.returned? .next? = some semicolon ∧
        (begun.performAll [.next?, .pull]).lines.SettlesToken whole semicolon := by
  intro text whole read begun unclosed semicolon
  obtain ⟨hreturned, hreported, -, hstream⟩ :=
    regions_settled text {} [.next, .next, .next] []
  obtain ⟨-, -, hinserted, -⟩ := regions_settled text {} [] [.pull]
  have hunclosed : read.diagnostics.toList = [unclosed] := by decide +kernel
  have hend : read.next.1.kind = .endOfText := by decide +kernel
  have hsemicolon : begun.returned? .next? = some semicolon := by decide +kernel
  have hmem : unclosed ∈ read.diagnostics.toList := hunclosed ▸ List.mem_singleton_self unclosed
  exact ⟨⟨hunclosed, hreported unclosed hmem [.flushDiagnostics, .next]⟩,
    ⟨hend, (hreturned .next read.next.1 rfl []).2 hend⟩,
    ⟨hunclosed, hstream unclosed hmem [.pull]⟩,
    hsemicolon, hinserted .next? semicolon hsemicolon [.pull]⟩

end Stream

end Layout

end FormulaScript
