import FormulaScript.Layout.Run
import FormulaScript.Proofs.Layout.Rules
import FormulaScript.Proofs.Scanner.Runs

/-!
# A stream completes the tokens of its scanner

A stream reads a token, decides on an insertion, and lets one of the two wait. Over a whole run that
is completing the list of tokens that its scanner has left, where each token tells by its own flag
whether a line was crossed before it.
-/

namespace FormulaScript.Layout.Stream

variable (stream : Stream)

def upcoming : Token :=
  stream.scanner.next.1

def rule? : Option Rule :=
  stream.state.rule? stream.upcoming.kind stream.scanner.next.2.lineCrossed

def chunk : List Token :=
  withInsertion stream.upcoming (stream.rule?.map Rule.insertion)

/-- The stream once it has read a token, and before it hands one out. -/
def read : Stream :=
  { stream with
    scanner := stream.scanner.next.2.takeLineCrossed.2
    state := stream.state.count stream.rule? stream.upcoming.kind }

/-- The stream once it has handed out that token and what is inserted at it. -/
def passed : Stream :=
  { stream with
    scanner := stream.scanner.next.2.takeLineCrossed.2
    state := stream.state.follow stream.upcoming.kind stream.scanner.next.2.lineCrossed
    waiting := none }

/-- A line break that was crossed and not asked about is no matter to the next token. -/
def Settled : Prop :=
  stream.scanner.lineCrossed = false ∨ stream.state.last.endsStatement = false

variable {stream}

theorem pull_of_waiting {token : Token} (hwaiting : stream.waiting = some token) :
    stream.pull = stream.emit token none := by
  rw [pull, hwaiting]

theorem pull_of_not_waiting (hwaiting : stream.waiting = none) :
    stream.pull =
      match stream.rule?.map Rule.insertion with
      | none => stream.read.emit stream.upcoming none
      | some (.before kind) =>
          stream.read.emit (.inserted kind stream.upcoming.span.start) (some stream.upcoming)
      | some (.after kind) =>
          stream.read.emit stream.upcoming (some (.inserted kind stream.upcoming.span.stop)) := by
  rw [pull, hwaiting]
  dsimp only
  rw [State.place_eq]
  rfl

theorem run_of_end (hkind : stream.pull.1.kind = .endOfText) :
    stream.run = ([stream.pull.1], stream.pull.2) := by
  rw [run.eq_def]
  exact dif_pos hkind

theorem run_of_token (hkind : stream.pull.1.kind ≠ .endOfText) :
    stream.run = (stream.pull.1 :: stream.pull.2.run.1, stream.pull.2.run.2) := by
  rw [run.eq_def]
  exact dif_neg hkind

/-- Handing out a token and its insertion, in either order, leads to the same stream. -/
theorem pull_cases (hwaiting : stream.waiting = none) :
    (stream.chunk = [stream.upcoming] ∧ stream.pull = (stream.upcoming, stream.passed)) ∨
      ∃ first second, stream.chunk = [first, second] ∧ stream.pull.1 = first ∧
        stream.pull.2.waiting = some second ∧ stream.pull.2.pull = (second, stream.passed) := by
  have hpull := pull_of_not_waiting hwaiting
  have hpassed : stream.passed =
      { stream.read with
        state := { stream.read.state with
          last := State.lastAfter stream.upcoming.kind (stream.rule?.map Rule.insertion) }
        waiting := none } := rfl
  rw [chunk, hpassed]
  generalize stream.rule?.map Rule.insertion = insertion at hpull ⊢
  rcases insertion with _ | kind | kind
  · exact .inl ⟨rfl, hpull⟩
  · refine .inr ⟨_, _, rfl, by rw [hpull]; rfl, by rw [hpull]; rfl, ?_⟩
    rw [hpull, pull_of_waiting rfl]
    rfl
  · refine .inr ⟨_, _, rfl, by rw [hpull]; rfl, by rw [hpull]; rfl, ?_⟩
    rw [hpull, pull_of_waiting rfl]
    rfl

theorem chunk_of_end (hkind : stream.upcoming.kind = .endOfText) :
    stream.chunk = [stream.upcoming] := by
  rw [chunk, rule?, hkind, State.rule?_endOfText]
  rfl

theorem kind_ne_endOfText_of_mem_chunk (hkind : stream.upcoming.kind ≠ .endOfText) {token : Token}
    (hmem : token ∈ stream.chunk) : token.kind ≠ .endOfText := by
  rcases mem_withInsertion hmem with rfl | ⟨insertion, offset, hinsertion, rfl⟩
  · exact hkind
  · obtain ⟨rule, -, rfl⟩ := Option.map_eq_some_iff.mp hinsertion
    cases rule <;> exact Token.Kind.noConfusion

theorem pull_of_end (hwaiting : stream.waiting = none)
    (hkind : stream.upcoming.kind = .endOfText) :
    stream.pull = (stream.upcoming, stream.passed) := by
  rcases pull_cases hwaiting with ⟨-, hpull⟩ | ⟨first, second, hchunk, -⟩
  · exact hpull
  · rw [chunk_of_end hkind] at hchunk
    simp at hchunk

theorem run_of_upcoming (hwaiting : stream.waiting = none)
    (hkind : stream.upcoming.kind ≠ .endOfText) :
    stream.run = (stream.chunk ++ stream.passed.run.1, stream.passed.run.2) := by
  have hne (token : Token) (hmem : token ∈ stream.chunk) : token.kind ≠ .endOfText :=
    kind_ne_endOfText_of_mem_chunk hkind hmem
  rcases pull_cases hwaiting with ⟨hchunk, hpull⟩ | ⟨first, second, hchunk, hfirst, -, hsecond⟩
  · rw [run_of_token (by rwa [hpull]), hpull, hchunk]
    rfl
  · have hfirst_ne : stream.pull.1.kind ≠ .endOfText := hfirst ▸ hne first (by simp [hchunk])
    have hsecond_ne : stream.pull.2.pull.1.kind ≠ .endOfText := by
      rw [hsecond]
      exact hne second (by simp [hchunk])
    rw [run_of_token hfirst_ne, run_of_token hsecond_ne, hfirst, hsecond, hchunk]
    rfl

theorem rule?_eq (hsettled : stream.Settled) :
    stream.rule? =
      stream.state.rule? stream.upcoming.kind stream.upcoming.flags.afterLineBreak := by
  have hseparates : stream.state.separates stream.upcoming.kind stream.scanner.next.2.lineCrossed =
      stream.state.separates stream.upcoming.kind stream.upcoming.flags.afterLineBreak := by
    rw [Scanner.lineCrossed_next, upcoming, State.separates, State.separates]
    rcases hsettled with hline | hlast
    · rw [hline, Bool.false_or]
    · simp [hlast]
  rw [rule?, State.rule?, hseparates, State.rule?]

theorem passed_state (hsettled : stream.Settled) :
    stream.passed.state =
      stream.state.follow stream.upcoming.kind stream.upcoming.flags.afterLineBreak := by
  have hrule := rule?_eq hsettled
  rw [rule?] at hrule
  rw [passed, State.follow, State.follow, hrule]

theorem chunk_eq (hsettled : stream.Settled) :
    stream.chunk = stream.state.chunk stream.upcoming := by
  rw [chunk, rule?_eq hsettled, State.chunk]

theorem run_eq_complete {scanner : Scanner} (hagree : Scanner.Agree 0 scanner stream.scanner)
    (hwaiting : stream.waiting = none)
    (hsettled : stream.Settled) :
    stream.run.1 = stream.state.complete scanner.tokens ∧
      stream.run.2.state = stream.state.through scanner.tokens ∧
      stream.run.2.waiting = none ∧
      Scanner.Agree 0 scanner.run.2 stream.run.2.scanner := by
  induction scanner using Scanner.run_induction generalizing stream with
  | last scanner hkind =>
      have hupcoming : stream.upcoming = scanner.next.1 := hagree.token
      have hkind' : stream.upcoming.kind = .endOfText := by rwa [hupcoming]
      have hpull := pull_of_end hwaiting hkind'
      rw [run_of_end (by rwa [hpull]), hpull, Scanner.tokens_of_end hkind,
        Scanner.run_of_end hkind, ← hupcoming, State.complete_cons, State.through,
        State.through, ← passed_state hsettled, ← chunk_eq hsettled, chunk_of_end hkind']
      exact ⟨rfl, rfl, rfl, hagree.next.takeLineCrossed⟩
  | step scanner hkind ih =>
      have hupcoming : stream.upcoming = scanner.next.1 := hagree.token
      have hpassed : Scanner.Agree 0 scanner.next.2 stream.passed.scanner :=
        hagree.next.takeLineCrossed
      obtain ⟨htokens, hstate, hnone, hscanner⟩ := ih hpassed rfl (.inl rfl)
      rw [run_of_upcoming hwaiting (by rwa [hupcoming]), Scanner.tokens_of_token hkind,
        Scanner.run_of_token hkind, State.complete_cons, State.through, ← hupcoming,
        ← passed_state hsettled, ← chunk_eq hsettled]
      exact ⟨by rw [htokens], hstate, hnone, hscanner⟩

theorem ofScanner_run (scanner : Scanner) :
    (ofScanner scanner).tokens = State.complete {} scanner.tokens ∧
      (ofScanner scanner).run.2.state = State.through {} scanner.tokens ∧
      (ofScanner scanner).run.2.waiting = none := by
  have hagree : Scanner.Agree 0 scanner (ofScanner scanner).scanner := .refl scanner
  obtain ⟨htokens, hstate, hwaiting, -⟩ := run_eq_complete hagree rfl (.inr rfl)
  exact ⟨htokens, hstate, hwaiting⟩

theorem ofText_tokens (text : String) (options : Options) :
    (ofText text options).tokens = State.complete {} (Scanner.ofText text options).tokens :=
  (ofScanner_run _).1

end FormulaScript.Layout.Stream
