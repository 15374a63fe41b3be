import FormulaScript.Proofs.Checked.Layout
import FormulaScript.Proofs.Checked.Scanner
import FormulaScript.Proofs.Layout.Lines

/-!
# No faults

A stream whose scanner and counters are checked, and which lets a token wait only where none waits
yet. A text whose length fits into a word is read without a fault, whatever its scanner and its
stream are asked for and in whatever order.
-/

namespace FormulaScript

open Checked

/-- The span of a token as a range, which goes forward. -/
def Token.rangeChecked (token : Token) : Except Fault Span :=
  Span.checked token.span.start token.span.stop

/-- The token goes forward, and ends in front of an offset or there. -/
structure Token.LiesBefore (token : Token) (limit : Nat) : Prop where
  start_le_stop : token.span.start ≤ token.span.stop
  stop_le : token.span.stop ≤ limit

theorem Token.LiesBefore.rangeChecked_eq_ok {token : Token} {limit : Nat}
    (hlies : token.LiesBefore limit) (hlimit : limit < 2 ^ 32) :
    token.rangeChecked = .ok token.span :=
  Span.checked_eq_ok hlies.start_le_stop (Nat.lt_of_le_of_lt hlies.stop_le hlimit)

theorem Scanner.liesBefore_next (scanner : Scanner) :
    scanner.next.1.LiesBefore scanner.next.2.position :=
  ⟨start_le_stop_token scanner, Nat.le_of_eq (position_next scanner).symm⟩

theorem Layout.Rule.mark_ne_arrow (rule : Rule) :
    rule.insertion.mark ≠ .punctuation .equalsGreaterThan := by
  cases rule <;> exact Token.Kind.punctuation.inj.mt (by decide)

namespace Layout.Stream

/-- Lets a token wait, where no other one does. -/
def parkChecked (stream : Stream) (token : Token) : Except Fault (Option Token) :=
  match stream.waiting with
  | none => .ok (some token)
  | some other => .error (.waiting other)

def pullChecked (stream : Stream) : Except Fault (Token × Stream) :=
  match stream.waiting with
  | some token => .ok (stream.emit token none)
  | none => do
      let (token, scanner) ← stream.scanner.nextChecked
      let (lineCrossed, scanner) := scanner.takeLineCrossed
      let (insertion, state) ← stream.state.placeChecked token.kind lineCrossed
      let stream := { stream with scanner := scanner, state := state }
      match insertion with
      | none => .ok (stream.emit token none)
      | some (.before kind) => do
          let waiting ← stream.parkChecked token
          .ok (stream.emit (.inserted kind token.span.start) waiting)
      | some (.after kind) => do
          let waiting ← stream.parkChecked (.inserted kind token.span.stop)
          .ok (stream.emit token waiting)

def nextChecked? (stream : Stream) : Except Fault (Option Token × Stream) :=
  if stream.ended then .ok (none, stream)
  else do
    let (token, stream) ← stream.pullChecked
    .ok (some token, { stream with ended := token.kind == .endOfText })

/-! ### What a stream relies on -/

/-- The stream reads a text. Its counters are no farther from zero than the scanner is from the
beginning, an arrow that it has met takes room in front of the scanner, and so does a token that
waits. -/
structure Reads (stream : Stream) : Prop where
  scanner : stream.scanner.Reads
  state : stream.state.Within stream.scanner.position
  arrow : stream.state.last = .punctuation .equalsGreaterThan → 1 ≤ stream.scanner.position
  waiting : ∀ token ∈ stream.waiting, token.LiesBefore stream.scanner.position ∧
    (token.kind = .punctuation .equalsGreaterThan → 1 ≤ stream.scanner.position)

variable {stream : Stream}

theorem reads_ofScanner {scanner : Scanner} (hreads : scanner.Reads) : (ofScanner scanner).Reads :=
  ⟨hreads, State.within_empty.mono (Nat.zero_le _), fun hlast => (by cases hlast),
    fun token hwaiting => (by cases hwaiting)⟩

/-- A token that is handed out is the last one then. -/
theorem reads_emit {token : Token} {waiting : Option Token} (hscanner : stream.scanner.Reads)
    (hstate : stream.state.Within stream.scanner.position)
    (harrow : token.kind = .punctuation .equalsGreaterThan → 1 ≤ stream.scanner.position)
    (hwaiting : ∀ token ∈ waiting, token.LiesBefore stream.scanner.position ∧
      (token.kind = .punctuation .equalsGreaterThan → 1 ≤ stream.scanner.position)) :
    (stream.emit token waiting).2.Reads :=
  ⟨hscanner, hstate.emit token.kind, harrow, hwaiting⟩

/-- What a token does to the counters is paid for with the room that it takes. -/
theorem Reads.within_read (hreads : stream.Reads) :
    stream.read.state.Within stream.read.scanner.position := by
  refine hreads.state.count stream.scanner.position_le_next ?_ fun hrule => ?_
  · exact fun mark hmark => Scanner.position_lt_next_of_mark hmark
  · exact hreads.arrow (State.applies_of_rule? hrule).1

theorem Reads.pull (hreads : stream.Reads) : stream.pull.2.Reads := by
  cases hwaiting : stream.waiting with
  | some token =>
      rw [pull_of_waiting hwaiting]
      exact reads_emit hreads.scanner hreads.state (hreads.waiting token hwaiting).2
        (fun other hother => by cases hother)
  | none =>
      have hscanner : stream.read.scanner.Reads := hreads.scanner.next.perform .takeLineCrossed
      have hlies : stream.upcoming.LiesBefore stream.read.scanner.position :=
        Scanner.liesBefore_next stream.scanner
      have harrow (hkind : stream.upcoming.kind = .punctuation .equalsGreaterThan) :
          1 ≤ stream.read.scanner.position :=
        Nat.lt_of_le_of_lt (Nat.zero_le _) (Scanner.position_lt_next_of_mark hkind)
      rw [pull_of_not_waiting hwaiting]
      cases hrule : stream.rule? with
      | none =>
          exact reads_emit hscanner hreads.within_read harrow (fun other hother => by cases hother)
      | some rule =>
          have hmark := rule.mark_ne_arrow
          rw [Option.map_some]
          cases hinsertion : rule.insertion with
          | before kind =>
              rw [hinsertion] at hmark
              refine reads_emit hscanner hreads.within_read (fun hkind => absurd hkind hmark) ?_
              rintro other ⟨⟩
              exact ⟨hlies, harrow⟩
          | after kind =>
              rw [hinsertion] at hmark
              refine reads_emit hscanner hreads.within_read harrow ?_
              rintro other ⟨⟩
              exact ⟨⟨Nat.le_refl _, hlies.stop_le⟩, fun hkind => absurd hkind hmark⟩

theorem Reads.perform (hreads : stream.Reads) (call : Call) : (stream.perform call).Reads := by
  cases call with
  | pull => exact hreads.pull
  | flushDiagnostics =>
      exact ⟨hreads.scanner.perform .flushDiagnostics, hreads.state, hreads.arrow, hreads.waiting⟩
  | next? =>
      rw [Stream.perform]
      cases hended : stream.ended with
      | true =>
          rw [next?_of_ended hended]
          exact hreads
      | false =>
          rw [next?_of_not_ended hended]
          exact ⟨hreads.pull.scanner, hreads.pull.state, hreads.pull.arrow, hreads.pull.waiting⟩

/-! ### No faults -/

theorem parkChecked_eq_ok (hwaiting : stream.waiting = none) (token : Token) :
    stream.parkChecked token = .ok (some token) := by
  rw [parkChecked, hwaiting]

theorem Reads.placeChecked_eq_ok (hreads : stream.Reads) (lineCrossed : Bool) :
    stream.state.placeChecked stream.scanner.next.1.kind lineCrossed =
      .ok (stream.state.place stream.scanner.next.1.kind lineCrossed) := by
  by_cases hkind : stream.scanner.next.1.kind = .endOfText
  · rw [hkind]
    rfl
  · exact State.placeChecked_eq_ok (hreads.scanner.position_add_one_lt hkind) hreads.state _ _

theorem pullChecked_eq_ok (hreads : stream.Reads) : stream.pullChecked = .ok stream.pull := by
  cases hwaiting : stream.waiting with
  | some token => rw [pullChecked, pull, hwaiting]
  | none =>
      rw [pullChecked, pull, hwaiting]
      dsimp only
      rw [bind_ok (Scanner.nextChecked_eq_ok hreads.scanner), bind_ok (hreads.placeChecked_eq_ok _)]
      generalize stream.state.place _ _ = placed
      obtain ⟨insertion, state⟩ := placed
      rcases insertion with _ | kind | kind
      · rfl
      · dsimp only
        rw [bind_ok (parkChecked_eq_ok rfl _)]
      · dsimp only
        rw [bind_ok (parkChecked_eq_ok rfl _)]

theorem nextChecked?_eq_ok (hreads : stream.Reads) : stream.nextChecked? = .ok stream.next? := by
  rw [nextChecked?, next?]
  split_ifs
  · rfl
  · rw [bind_ok (pullChecked_eq_ok hreads)]

/-! ### Any calls -/

theorem Reads.performAll (hreads : stream.Reads) (calls : List Call) :
    (stream.performAll calls).Reads := by
  induction calls generalizing stream with
  | nil => exact hreads
  | cons call calls ih => exact ih (hreads.perform call)

def performChecked (stream : Stream) : Call → Except Fault (Option Token × Stream)
  | .pull => do
      let (token, next) ← stream.pullChecked
      .ok (some token, next)
  | .next? => stream.nextChecked?
  | .flushDiagnostics => .ok (none, stream.flushDiagnostics.2)

def performAllChecked (stream : Stream) (calls : List Call) : Except Fault Stream :=
  calls.foldlM (fun stream call => Prod.snd <$> stream.performChecked call) stream

theorem performChecked_eq_ok (hreads : stream.Reads) (call : Call) :
    stream.performChecked call = .ok (stream.returned? call, stream.perform call) := by
  cases call with
  | pull => exact bind_ok (pullChecked_eq_ok hreads) _
  | next? => exact nextChecked?_eq_ok hreads
  | flushDiagnostics => rfl

theorem performAllChecked_eq_ok (hreads : stream.Reads) (calls : List Call) :
    stream.performAllChecked calls = .ok (stream.performAll calls) := by
  have hstep (stream : Stream) (call : Call) (hreads : stream.Reads) :
      Prod.snd <$> stream.performChecked call = .ok (stream.perform call) := by
    rw [performChecked_eq_ok hreads]
    rfl
  exact foldlM_eq_ok hstep (fun _ call hreads => hreads.perform call) calls hreads

end Layout.Stream

/-! ### Whatever is asked for -/

/-- The offsets up to a limit are resolved without a fault, alone and as spans. -/
structure LineBreaks.ResolvesUpTo (lines : LineBreaks) (limit : Nat) : Prop where
  position : ∀ offset ≤ limit, lines.positionChecked offset = .ok (lines.position offset)
  region : ∀ span : Span, span.EndsBy limit → lines.regionChecked span = .ok (lines.region span)

theorem LineBreaks.resolvesUpTo (lines : LineBreaks) {limit : Nat} (hlimit : limit < 2 ^ 31) :
    lines.ResolvesUpTo limit :=
  ⟨fun _ hoffset => lines.positionChecked_eq_ok (by omega), fun _ hends =>
    lines.regionChecked_eq_ok hends (by omega)⟩

/-- Whatever the scanner of a text is asked for next, and its cursor and its lines, the checked
answer is the answer itself. -/
structure Scanner.Faultless (text : String) (scanner : Scanner) : Prop where
  calls : ∀ call, scanner.performChecked call = .ok (scanner.returned? call, scanner.perform call)
  ranges : ∀ call, ∀ token ∈ scanner.returned? call, token.rangeChecked = .ok token.span
  cursor : ∀ calls, scanner.cursor.performAllChecked calls = .ok (scanner.cursor.performAll calls)
  lines : scanner.lines.ResolvesUpTo (Text.byteLength text.toList)

theorem Scanner.Reads.faultless {scanner : Scanner} (hreads : scanner.Reads) {text : String}
    (hlength : Text.byteLength text.toList < 2 ^ 31) : scanner.Faultless text := by
  refine ⟨performChecked_eq_ok hreads, ?_, Cursor.performAllChecked_eq_ok hreads.cursor,
    scanner.lines.resolvesUpTo hlength⟩
  intro call token htoken
  cases call with
  | next =>
      obtain rfl := Option.some.inj htoken
      exact scanner.liesBefore_next.rangeChecked_eq_ok
        (Nat.lt_trans hreads.next.position_lt (by decide))
  | takeLineCrossed => cases htoken
  | flushDiagnostics => cases htoken

namespace Layout.Stream

/-- Whatever the stream of a text is asked for next, the checked answer is the answer itself. -/
structure Faultless (text : String) (stream : Stream) : Prop where
  calls : ∀ call, stream.performChecked call = .ok (stream.returned? call, stream.perform call)
  ranges : ∀ call, ∀ token ∈ stream.returned? call, token.rangeChecked = .ok token.span
  scanner : stream.scanner.Faultless text

variable {stream : Stream}

theorem liesBefore_of_mem_chunk {token : Token} (hmem : token ∈ stream.chunk) :
    token.LiesBefore stream.scanner.next.2.position := by
  refine ⟨?_, (endsBy_of_mem_chunk hmem).2⟩
  rcases mem_withInsertion hmem with rfl | ⟨_, _, -, rfl⟩
  · exact Scanner.start_le_stop_token stream.scanner
  · exact Nat.le_refl _

theorem Reads.liesBefore_pull (hreads : stream.Reads) :
    stream.pull.1.LiesBefore stream.pull.2.scanner.position := by
  cases hwaiting : stream.waiting with
  | some token =>
      rw [pull_of_waiting hwaiting]
      exact (hreads.waiting token hwaiting).1
  | none =>
      obtain ⟨hscanner, hmem, -⟩ := pull_of_none hwaiting
      rw [hscanner]
      exact liesBefore_of_mem_chunk hmem

theorem Reads.faultless (hreads : stream.Reads) {text : String}
    (hlength : Text.byteLength text.toList < 2 ^ 31) : stream.Faultless text := by
  refine ⟨performChecked_eq_ok hreads, ?_, hreads.scanner.faultless hlength⟩
  have hpull : stream.pull.1.rangeChecked = .ok stream.pull.1.span :=
    hreads.liesBefore_pull.rangeChecked_eq_ok
      (Nat.lt_trans hreads.pull.scanner.position_lt (by decide))
  intro call token htoken
  cases call with
  | pull =>
      obtain rfl := Option.some.inj htoken
      exact hpull
  | flushDiagnostics => cases htoken
  | next? =>
      rw [returned?] at htoken
      cases hended : stream.ended with
      | true =>
          rw [next?_of_ended hended] at htoken
          cases htoken
      | false =>
          rw [next?_of_not_ended hended] at htoken
          obtain rfl := Option.some.inj htoken
          exact hpull

/-- **No faults.** In a text of less than `2 ^ 31` bytes, any calls on a scanner, and then on a
stream of what it has left, are answered as they are without checks. Every slice is cut between two
characters of the text, every span goes forward, every line feed that is recorded is past the ones
before it, no token has to wait where another one does, every counter and every offset fits into its
word, and the lines met so far resolve every offset of the text. On the way a cursor may be asked for
anything, however far ahead it has to look. -/
theorem faults_excluded {text : String} (hlength : Text.byteLength text.toList < 2 ^ 31)
    (options : Options) (scannerCalls : List Scanner.Call) (streamCalls : List Call) :
    let scanner := (Scanner.ofText text options).performAll scannerCalls
    let stream := (ofScanner scanner).performAll streamCalls
    (Scanner.ofTextChecked text options >>= (·.performAllChecked scannerCalls)) = .ok scanner ∧
      scanner.Faultless text ∧
      (ofScanner scanner).performAllChecked streamCalls = .ok stream ∧
      stream.Faultless text := by
  intro scanner stream
  have hbegun : (Scanner.ofText text options).Reads := Scanner.reads_ofText options hlength
  have hscanner : scanner.Reads := hbegun.performAll scannerCalls
  have hstream : stream.Reads := (reads_ofScanner hscanner).performAll streamCalls
  refine ⟨?_, hscanner.faultless hlength, performAllChecked_eq_ok (reads_ofScanner hscanner) _,
    hstream.faultless hlength⟩
  rw [bind_ok (Scanner.ofTextChecked_eq_ok text options)]
  exact Scanner.performAllChecked_eq_ok hbegun scannerCalls

/-- Braces within a substitution, an index, a number with an exponent, and letters of two bytes. -/
theorem faults_excluded_template :
    let text := "é$\x7b \x7ba[.5e-3]\x7d // ü\n\x27ö\x7d"
    let scanner := (Scanner.ofText text { mode := .template }).performAll [.next, .next, .next]
    let stream := (ofScanner scanner).performAll [.pull, .pull, .pull]
    Text.byteLength text.toList < 2 ^ 31 ∧
      (Scanner.ofTextChecked text { mode := .template } >>=
        (·.performAllChecked [.next, .next, .next])) = .ok scanner ∧
      scanner.part = .substitution 2 ∧ scanner.Faultless text ∧
      (ofScanner scanner).performAllChecked [.pull, .pull, .pull] = .ok stream ∧
      stream.Faultless text ∧ stream.pull.1.rangeChecked = .ok ⟨8, 13⟩ := by
  intro text scanner stream
  have hlength : Text.byteLength text.toList < 2 ^ 31 := by decide +kernel
  obtain ⟨hscannerCalls, hscanner, hstreamCalls, hstream⟩ :=
    faults_excluded hlength { mode := .template } [.next, .next, .next] [.pull, .pull, .pull]
  have hpart : scanner.part = .substitution 2 := by decide +kernel
  have hspan : stream.pull.1.span = ⟨8, 13⟩ := by decide +kernel
  refine ⟨hlength, hscannerCalls, hpart, hscanner, hstreamCalls, hstream, ?_⟩
  rw [← hspan]
  exact hstream.ranges .pull stream.pull.1 rfl

end Layout.Stream

end FormulaScript
