import FormulaScript.Proofs.Layout.Lines
import FormulaScript.Proofs.Scanner.Ends

/-!
# The end of a stream

A token of the scanner becomes two at most, one of which waits, so a stream hands out no more than
two tokens for each character. Once it has handed out an end token nothing moves any more.
-/

namespace FormulaScript.Layout.Stream

variable {stream : Stream}

/-! ### A bound on the tokens -/

/-- How many tokens may still be handed out before an end token. -/
def reserve (stream : Stream) : Nat :=
  2 * stream.scanner.reserve + stream.waiting.isSome.toNat

theorem reserve_pull_lt_of_waiting {token : Token} (hwaiting : stream.waiting = some token) :
    stream.pull.2.reserve < stream.reserve := by
  rw [pull_of_waiting hwaiting]
  simp [reserve, emit, hwaiting]

theorem reserve_pull_lt_of_lexeme (hplaced : stream.scanner.WellPlaced)
    (hwaiting : stream.waiting = none) (hkind : stream.upcoming.kind ≠ .endOfText) :
    stream.pull.2.reserve < stream.reserve := by
  obtain ⟨lexeme, hlexeme⟩ := Scanner.exists_lexeme_of_kind_ne hkind
  have hlt : stream.scanner.next.2.takeLineCrossed.2.reserve < stream.scanner.reserve :=
    hplaced.reserve_next_lt hlexeme
  have hwaits := Bool.toNat_le stream.pull.2.waiting.isSome
  rw [reserve, reserve, (pull_of_none hwaiting).1]
  omega

theorem reserve_pull_of_end (hwaiting : stream.waiting = none)
    (hkind : stream.upcoming.kind = .endOfText) : stream.pull.2.reserve = 0 := by
  have hscanner : stream.scanner.next.2.takeLineCrossed.2.reserve = 0 := by
    have hle := stream.scanner.next.2.takeLineCrossed.2.reserve_le
    have hrest := (Scanner.atRest_next_of_end hkind).perform .takeLineCrossed
    rw [show stream.scanner.next.2.takeLineCrossed.2.remaining = [] from hrest.remaining] at hle
    exact Nat.le_zero.mp hle
  rw [pull_of_end hwaiting hkind, reserve, passed, hscanner]
  rfl

theorem reserve_pull_lt (hplaced : stream.scanner.WellPlaced)
    (hkind : stream.pull.1.kind ≠ .endOfText) : stream.pull.2.reserve < stream.reserve := by
  cases hwaiting : stream.waiting with
  | some token => exact reserve_pull_lt_of_waiting hwaiting
  | none =>
      refine reserve_pull_lt_of_lexeme hplaced hwaiting fun hend => ?_
      rw [pull_of_end hwaiting hend] at hkind
      exact hkind hend

theorem reserve_pull_le (hplaced : stream.scanner.WellPlaced) :
    stream.pull.2.reserve ≤ stream.reserve := by
  cases hwaiting : stream.waiting with
  | some token => exact Nat.le_of_lt (reserve_pull_lt_of_waiting hwaiting)
  | none =>
      by_cases hkind : stream.upcoming.kind = .endOfText
      · rw [reserve_pull_of_end hwaiting hkind]
        exact Nat.zero_le _
      · exact Nat.le_of_lt (reserve_pull_lt_of_lexeme hplaced hwaiting hkind)

theorem wellPlaced_pull (hplaced : stream.scanner.WellPlaced) :
    stream.pull.2.scanner.WellPlaced := by
  cases hwaiting : stream.waiting with
  | some token =>
      rw [pull_of_waiting hwaiting]
      exact hplaced
  | none =>
      rw [(pull_of_none hwaiting).1]
      exact hplaced.next.perform .takeLineCrossed

theorem endsWithin_tokens (hplaced : stream.scanner.WellPlaced) :
    Token.EndsWithin stream.reserve stream.tokens := by
  unfold tokens
  fun_induction run stream with
  | case1 stream token next hpull hkind => exact .last hkind
  | case2 stream token next hpull hkind rest last hrun ih =>
      have hlt : next.reserve < stream.reserve := by
        have hpulled := reserve_pull_lt hplaced (by rwa [hpull])
        rwa [hpull] at hpulled
      have hnext : next.scanner.WellPlaced := by
        have hpulled := wellPlaced_pull hplaced
        rwa [hpull] at hpulled
      rw [hrun] at ih
      exact (Token.EndsWithin.cons hkind (ih hnext)).mono hlt

theorem reserve_perform_le (hplaced : stream.scanner.WellPlaced) (call : Call) :
    (stream.perform call).scanner.WellPlaced ∧ (stream.perform call).reserve ≤ stream.reserve := by
  cases call with
  | pull => exact ⟨wellPlaced_pull hplaced, reserve_pull_le hplaced⟩
  | flushDiagnostics => exact ⟨hplaced.perform .flushDiagnostics, Nat.le_refl _⟩
  | next? =>
      rw [perform]
      cases hended : stream.ended with
      | true =>
          rw [next?_of_ended hended]
          exact ⟨hplaced, Nat.le_refl _⟩
      | false =>
          rw [next?_of_not_ended hended]
          exact ⟨wellPlaced_pull hplaced, reserve_pull_le hplaced⟩

theorem reserve_performAll_le (hplaced : stream.scanner.WellPlaced) (calls : List Call) :
    (stream.performAll calls).scanner.WellPlaced ∧
      (stream.performAll calls).reserve ≤ stream.reserve := by
  induction calls generalizing stream with
  | nil => exact ⟨hplaced, Nat.le_refl _⟩
  | cons call calls ih =>
      obtain ⟨hnext, hle⟩ := reserve_perform_le hplaced call
      obtain ⟨hlast, hlast_le⟩ := ih hnext
      exact ⟨hlast, Nat.le_trans hlast_le hle⟩

/-! ### At rest -/

/-- Nothing is left to be handed out but end tokens, and one has been. -/
structure AtRest (stream : Stream) : Prop where
  scanner : stream.scanner.AtRest
  lineCrossed : stream.scanner.lineCrossed = false
  last : stream.state.last = .endOfText
  waiting : stream.waiting = none

theorem AtRest.pull (hrest : stream.AtRest) :
    stream.pull = (.endAt stream.scanner.position, stream) := by
  obtain ⟨⟨options, cursor, part, lineCrossed, diagnostics⟩, state, waiting, ended⟩ := stream
  obtain rfl : lineCrossed = false := hrest.lineCrossed
  obtain rfl : waiting = none := hrest.waiting
  have hlast : state.emit .endOfText = state := by
    rw [← show state.last = .endOfText from hrest.last, State.emit]
  unfold Stream.pull
  dsimp only
  rw [hrest.scanner.next]
  dsimp only [Scanner.takeLineCrossed, Token.endAt]
  rw [State.place_endOfText]
  dsimp only [emit]
  rw [hlast]

/-- A stream comes to rest when it hands out an end token. -/
theorem Charts.atRest_pull_of_end {text : String} (hcharts : stream.Charts text)
    (hkind : stream.pull.1.kind = .endOfText) : stream.pull.2.AtRest := by
  cases hwaiting : stream.waiting with
  | some token =>
      rw [pull_of_waiting hwaiting] at hkind
      exact absurd hkind (hcharts.waiting token hwaiting).2
  | none =>
      have hupcoming : stream.upcoming.kind = .endOfText := by
        by_contra hne
        exact kind_ne_endOfText_of_mem_chunk hne (pull_of_none hwaiting).2.1 hkind
      have hrest := (Scanner.atRest_next_of_end hupcoming).perform .takeLineCrossed
      rw [pull_of_end hwaiting hupcoming]
      refine ⟨hrest, rfl, ?_, rfl⟩
      rw [passed, State.follow, hupcoming, State.rule?_endOfText]
      rfl

theorem AtRest.perform (hrest : stream.AtRest) (call : Call) : (stream.perform call).AtRest := by
  cases call with
  | pull =>
      rw [Stream.perform, hrest.pull]
      exact hrest
  | flushDiagnostics =>
      exact ⟨hrest.scanner.perform .flushDiagnostics, hrest.lineCrossed, hrest.last, hrest.waiting⟩
  | next? =>
      rw [Stream.perform]
      cases hended : stream.ended with
      | true =>
          rw [next?_of_ended hended]
          exact hrest
      | false =>
          rw [next?_of_not_ended hended, hrest.pull]
          exact ⟨hrest.scanner, hrest.lineCrossed, hrest.last, hrest.waiting⟩

theorem AtRest.performAll (hrest : stream.AtRest) (calls : List Call) :
    (stream.performAll calls).AtRest := by
  induction calls generalizing stream with
  | nil => exact hrest
  | cons call calls ih => exact ih (hrest.perform call)

theorem Charts.atRest_of_returned? {text : String} (hcharts : stream.Charts text) {call : Call}
    {token : Token} (htoken : stream.returned? call = some token)
    (hkind : token.kind = .endOfText) : (stream.perform call).AtRest := by
  cases call with
  | pull =>
      obtain rfl := Option.some.inj htoken
      exact hcharts.atRest_pull_of_end hkind
  | flushDiagnostics => cases htoken
  | next? =>
      rw [returned?] at htoken
      rw [Stream.perform]
      cases hended : stream.ended with
      | true =>
          rw [next?_of_ended hended] at htoken
          cases htoken
      | false =>
          rw [next?_of_not_ended hended] at htoken ⊢
          obtain rfl := Option.some.inj htoken
          have hrest := hcharts.atRest_pull_of_end hkind
          exact ⟨hrest.scanner, hrest.lineCrossed, hrest.last, hrest.waiting⟩

/-! ### The end of an iteration -/

theorem ended_pull (stream : Stream) : stream.pull.2.ended = stream.ended := by
  cases hwaiting : stream.waiting with
  | some token => rw [pull_of_waiting hwaiting, emit]
  | none =>
      rw [pull_of_not_waiting hwaiting]
      split <;> rfl

theorem ended_perform (hended : stream.ended = true) (call : Call) :
    (stream.perform call).ended = true := by
  cases call with
  | pull => rwa [perform, ended_pull]
  | next? => rwa [perform, next?_of_ended hended]
  | flushDiagnostics => exact hended

theorem ended_performAll (hended : stream.ended = true) (calls : List Call) :
    (stream.performAll calls).ended = true := by
  induction calls generalizing stream with
  | nil => exact hended
  | cons call calls ih => exact ih (ended_perform hended call)

theorem ended_next?_of_end {token : Token} (htoken : stream.next?.1 = some token)
    (hkind : token.kind = .endOfText) : stream.next?.2.ended = true := by
  cases hended : stream.ended with
  | true => rwa [next?_of_ended hended]
  | false =>
      rw [next?_of_not_ended hended] at htoken ⊢
      obtain rfl := Option.some.inj htoken
      simp [hkind]

/-- **Runs end, and stay ended.** After any calls on a scanner, and on a stream of what it has left,
a scanner skips no more pieces than the text has characters, and comes to an end token after that
many tokens at most. A stream does so after twice as many. Once an end token has been handed out,
every further one stands at the end of the text without any flag, and changes nothing at all. An
iteration that has met it is over, and one that has not meets it once more. The text fits, so that
words hold the tokens as they are, the last one at the end of the text included. -/
theorem ends_absorbed {text : String} (hfits : Text.Fits text) (options : Options)
    (scannerCalls : List Scanner.Call) (streamCalls : List Call) :
    let count := text.toList.length
    let last := Token.endAt (Text.byteLength text.toList)
    let scanner := (Scanner.ofText text options).performAll scannerCalls
    let stream := (ofScanner scanner).performAll streamCalls
    scanner.gap.length ≤ count ∧
      Token.EndsWithin count scanner.tokens ∧
      Token.EndsWithin (2 * count) stream.tokens ∧
      (∀ call, ∀ token ∈ scanner.returned? call, token.kind = .endOfText → ∀ later,
        let ended := scanner.performAll (call :: later)
        ended.next = (last, ended)) ∧
      (∀ call, ∀ token ∈ stream.returned? call, token.kind = .endOfText → ∀ later,
        let ended := stream.performAll (call :: later)
        ended.pull = (last, ended) ∧
          (call = .next? → ended.next? = (none, ended)) ∧
          (ended.ended = false → ended.next? = (some last, { ended with ended := true }))) ∧
      last.wrap = last ∧ scanner.HeldInWords ∧
      ∀ call, ∀ token ∈ stream.returned? call, token.wrap = token := by
  intro count last scanner stream
  have hplaced : scanner.WellPlaced := (Scanner.wellPlaced_ofText text options).performAll _
  have hcharts : scanner.Charts text := (Scanner.charts_ofText text options).performAll _
  have hstream : stream.Charts text := (charts_ofScanner hcharts).performAll streamCalls
  have hfresh : (ofScanner scanner).scanner.WellPlaced := hplaced
  obtain ⟨hstreamPlaced, hreserve⟩ := reserve_performAll_le hfresh streamCalls
  have hlength : scanner.remaining.length ≤ count := by
    have hle := (Scanner.ofText text options).length_remaining_performAll_le scannerCalls
    rwa [Scanner.remaining_ofText] at hle
  have hscanner : scanner.reserve ≤ count := scanner.reserve_le.trans hlength
  have hfirst : (ofScanner scanner).reserve = 2 * scanner.reserve := rfl
  refine ⟨scanner.length_gap_le.trans hlength, hplaced.endsWithin_tokens.mono hscanner,
    (endsWithin_tokens hstreamPlaced).mono (by omega), ?_, ?_,
    Token.wrap_eq_self ⟨Nat.le_refl _, Nat.le_refl _⟩ hfits, hcharts.heldInWords hfits,
    fun call token htoken => hstream.wrap_of_returned? hfits htoken⟩
  · intro call token htoken hkind later ended
    have hrest : ended.AtRest :=
      Scanner.AtRest.performAll (Scanner.atRest_of_returned? htoken hkind) later
    rw [hrest.next, (hcharts.performAll (call :: later)).position_of_atRest hrest]
  · intro call token htoken hkind later ended
    have hrest : ended.AtRest := AtRest.performAll (hstream.atRest_of_returned? htoken hkind) later
    have hpull : ended.pull = (last, ended) := by
      rw [hrest.pull,
        (hstream.performAll (call :: later)).scanner.position_of_atRest hrest.scanner]
    refine ⟨hpull, ?_, fun hended => ?_⟩
    · rintro rfl
      exact next?_of_ended (ended_performAll (ended_next?_of_end htoken hkind) later)
    · rw [next?_of_not_ended hended, hpull]
      rfl

/-- A substitution that is still open at the end of the text. -/
theorem ends_absorbed_open_substitution :
    let text := "x$\x7b"
    let options : Options := { mode := .template }
    let scanner := (Scanner.ofText text options).performAll [.next, .next]
    let ended := scanner.performAll [.next, .takeLineCrossed]
    let stream := (ofScanner (.ofText text options)).performAll [.pull, .pull]
    let closed := stream.performAll [.next?, .flushDiagnostics]
    Text.Fits text ∧ (scanner.next.1.kind = .endOfText ∧ ended.next = (.endAt 3, ended)) ∧
      stream.next?.1 = some (.endAt 3) ∧ closed.pull = (.endAt 3, closed) ∧
        closed.next? = (none, closed) := by
  intro text options scanner ended stream closed
  have hkind : scanner.next.1.kind = .endOfText := by decide +kernel
  have htoken : stream.next?.1 = some (.endAt 3) := by decide +kernel
  have hlength : Text.byteLength text.toList = 3 := by decide
  have hfits : Text.Fits text := by decide +kernel
  obtain ⟨-, -, -, hscanner, -⟩ := ends_absorbed hfits options [.next, .next] []
  obtain ⟨-, -, -, -, hstream, -⟩ := ends_absorbed hfits options [] [.pull, .pull]
  have hended := hscanner .next scanner.next.1 rfl hkind [.takeLineCrossed]
  obtain ⟨hpull, hnext, -⟩ := hstream .next? (.endAt 3) htoken rfl [.flushDiagnostics]
  rw [hlength] at hended hpull
  exact ⟨hfits, ⟨hkind, hended⟩, htoken, hpull, hnext rfl⟩

end FormulaScript.Layout.Stream
