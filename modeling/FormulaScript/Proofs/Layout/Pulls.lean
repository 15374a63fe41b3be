import FormulaScript.Proofs.Layout.Refinement

/-!
# Counted pulls

A stream asked for so many tokens has read no more than that many, and has completed them: what was
handed out, with the token that waits, is what completing a list leads to. Between two tokens of the
scanner the stream stands where the state of the completed tokens says.
-/

namespace FormulaScript.Layout.Stream

def after (stream : Stream) : Nat → Stream
  | 0 => stream
  | count + 1 => stream.pull.2.after count

/-- So many tokens, the end token over and over where the text has no more. -/
def firstTokens (stream : Stream) : Nat → List Token
  | 0 => []
  | count + 1 => stream.pull.1 :: stream.pull.2.firstTokens count

/-- The tokens handed out, and the one that waits. -/
def knownTokens (stream : Stream) (count : Nat) : List Token :=
  stream.firstTokens count ++ (stream.after count).waiting.toList

/-- After so many pulls the tokens of some steps of the scanner have been completed. -/
structure Completes (stream : Stream) (scanner : Scanner) (count steps : Nat) : Prop where
  steps_le : steps ≤ count
  tokens : stream.knownTokens count = stream.state.complete (scanner.firstTokens steps)
  agree : Scanner.Agree 0 (scanner.after steps) (stream.after count).scanner
  functions :
    (stream.after count).state.functions =
      (stream.state.through (scanner.firstTokens steps)).functions
  state : (stream.after count).waiting = none →
    (stream.after count).state = stream.state.through (scanner.firstTokens steps) ∧
      (stream.after count).Settled

variable {stream : Stream} {scanner : Scanner}

/-- The pulls that hand out a token and its insertion are one step more. -/
theorem Completes.of_passed {count steps : Nat} (pulls : Nat)
    (hagree : Scanner.Agree 0 scanner stream.scanner) (hsettled : stream.Settled)
    (hpulls : 1 ≤ pulls)
    (hafter : stream.after (count + pulls) = stream.passed.after count)
    (htokens : stream.firstTokens (count + pulls) = stream.chunk ++ stream.passed.firstTokens count)
    (hpassed : stream.passed.Completes scanner.next.2 count steps) :
    stream.Completes scanner (count + pulls) (steps + 1) := by
  have hupcoming : stream.upcoming = scanner.next.1 := hagree.token
  have hthrough : stream.passed.state.through (scanner.next.2.firstTokens steps) =
      stream.state.through (scanner.firstTokens (steps + 1)) := by
    rw [passed_state hsettled, hupcoming]
    rfl
  have hle := hpassed.steps_le
  refine ⟨by omega, ?_, ?_, ?_, ?_⟩
  · have hrest := hpassed.tokens
    rw [knownTokens] at hrest ⊢
    rw [htokens, hafter, List.append_assoc, hrest, Scanner.firstTokens, State.complete_cons,
      ← hupcoming, ← chunk_eq hsettled, ← passed_state hsettled]
  · rw [hafter]
    exact hpassed.agree
  · rw [hafter, ← hthrough]
    exact hpassed.functions
  · rw [hafter, ← hthrough]
    exact hpassed.state

theorem completes_zero (hagree : Scanner.Agree 0 scanner stream.scanner)
    (hwaiting : stream.waiting = none) (hsettled : stream.Settled) :
    stream.Completes scanner 0 0 := by
  have hknown : stream.knownTokens 0 = [] := by
    change [] ++ stream.waiting.toList = []
    rw [hwaiting]
    rfl
  exact ⟨Nat.le_refl 0, hknown, hagree, rfl, fun _ => ⟨rfl, hsettled⟩⟩

/-- The second token of a pair waits after the first, and counts as completed already. -/
theorem completes_one_of_pair (hagree : Scanner.Agree 0 scanner stream.scanner)
    (hsettled : stream.Settled) {second : Token} (hchunk : stream.chunk = [stream.pull.1, second])
    (hsecond : stream.pull.2.waiting = some second)
    (hpull : stream.pull.2.pull = (second, stream.passed)) : stream.Completes scanner 1 1 := by
  have hupcoming : stream.upcoming = scanner.next.1 := hagree.token
  have hemit := (pull_of_waiting hsecond).symm.trans hpull
  have hscanner : stream.pull.2.scanner = stream.passed.scanner := congrArg (·.2.scanner) hemit
  have hfunctions : stream.pull.2.state.functions = stream.passed.state.functions :=
    congrArg (·.2.state.functions) hemit
  refine ⟨Nat.le_refl 1, ?_, ?_, ?_, fun hnone => ?_⟩
  · change [stream.pull.1] ++ stream.pull.2.waiting.toList = _
    rw [Scanner.firstTokens, Scanner.firstTokens, State.complete_cons, State.complete_nil,
      ← hupcoming, ← chunk_eq hsettled, hchunk, hsecond]
    rfl
  · change Scanner.Agree 0 scanner.next.2 stream.pull.2.scanner
    rw [hscanner]
    exact hagree.next.takeLineCrossed
  · change stream.pull.2.state.functions = _
    rw [hfunctions, passed_state hsettled, hupcoming]
    rfl
  · change stream.pull.2.waiting = none at hnone
    rw [hsecond] at hnone
    cases hnone

theorem exists_completes (hagree : Scanner.Agree 0 scanner stream.scanner)
    (hwaiting : stream.waiting = none) (hsettled : stream.Settled) (count : Nat) :
    ∃ steps, stream.Completes scanner count steps := by
  -- A chunk takes one pull or two, so the count goes down by as much.
  induction count using Nat.strongRecOn generalizing stream scanner with
  | _ count ih =>
      have hnext : Scanner.Agree 0 scanner.next.2 stream.passed.scanner :=
        hagree.next.takeLineCrossed
      rcases count with _ | count
      · exact ⟨0, completes_zero hagree hwaiting hsettled⟩
      · rcases pull_cases hwaiting with
          ⟨hchunk, hpull⟩ | ⟨first, second, hchunk, rfl, hsecond, hpull⟩
        · obtain ⟨steps, hpassed⟩ := ih count (by omega) hnext rfl (.inl rfl)
          refine ⟨steps + 1, hpassed.of_passed 1 hagree hsettled (by omega) ?_ ?_⟩
          · rw [after, hpull]
          · rw [firstTokens, hpull, hchunk]
            rfl
        · rcases count with _ | count
          · exact ⟨1, completes_one_of_pair hagree hsettled hchunk hsecond hpull⟩
          · obtain ⟨steps, hpassed⟩ := ih count (by omega) hnext rfl (.inl rfl)
            refine ⟨steps + 1, hpassed.of_passed 2 hagree hsettled (by omega) ?_ ?_⟩
            · rw [after, after, hpull]
            · rw [firstTokens, firstTokens, hpull, hchunk]
              rfl

theorem ofScanner_exists_completes (scanner : Scanner) (count : Nat) :
    ∃ steps, (ofScanner scanner).Completes scanner count steps :=
  have hagree : Scanner.Agree 0 scanner (ofScanner scanner).scanner := .refl scanner
  exists_completes hagree rfl (.inr rfl) count

theorem tokens_eq_firstTokens (stream : Stream) :
    stream.tokens = stream.firstTokens stream.tokens.length := by
  rw [tokens]
  fun_induction run stream with
  | case1 stream token next hpull hkind => simp [firstTokens, hpull]
  | case2 stream token next hpull hkind rest last hrun ih =>
      rw [hrun] at ih
      rw [List.length_cons, firstTokens, hpull, ← ih]

/-! ### Up to where nothing waits -/

/-- What a stream hands out next, up to a place where no token waits. -/
structure HandsOut (stream : Stream) (tokens : List Token) (last : Stream) : Prop where
  firstTokens : stream.firstTokens tokens.length = tokens
  after : stream.after tokens.length = last
  waiting : last.waiting = none

theorem firstTokens_add (stream : Stream) (count more : Nat) :
    stream.firstTokens (count + more) =
      stream.firstTokens count ++ (stream.after count).firstTokens more := by
  induction count generalizing stream with
  | zero => rw [Nat.zero_add, after, firstTokens, List.nil_append]
  | succ count ih => rw [Nat.add_right_comm, firstTokens, ih, firstTokens, after, List.cons_append]

theorem after_add (stream : Stream) (count more : Nat) :
    stream.after (count + more) = (stream.after count).after more := by
  induction count generalizing stream with
  | zero => rw [Nat.zero_add, after]
  | succ count ih => rw [Nat.add_right_comm, after, ih, after]

theorem HandsOut.trans {middle last : Stream} {front back : List Token}
    (hfront : stream.HandsOut front middle) (hback : middle.HandsOut back last) :
    stream.HandsOut (front ++ back) last := by
  constructor
  · rw [List.length_append, firstTokens_add, hfront.firstTokens, hfront.after, hback.firstTokens]
  · rw [List.length_append, after_add, hfront.after, hback.after]
  · exact hback.waiting

/-- The stream once it has handed out the token that waits. -/
def ready (stream : Stream) : Stream :=
  match stream.waiting with
  | none => stream
  | some token => (stream.emit token none).2

theorem handsOut_waiting (stream : Stream) :
    stream.HandsOut stream.waiting.toList stream.ready := by
  rw [ready]
  cases hwaiting : stream.waiting with
  | none => exact ⟨rfl, rfl, hwaiting⟩
  | some token =>
      have hpull := pull_of_waiting hwaiting
      refine ⟨?_, ?_, rfl⟩
      · rw [Option.toList_some, List.length_singleton, firstTokens, firstTokens, hpull, emit]
      · rw [Option.toList_some, List.length_singleton, after, after, hpull]

theorem ready_waiting (stream : Stream) : stream.ready.waiting = none :=
  (handsOut_waiting stream).waiting

theorem ready_scanner (stream : Stream) : stream.ready.scanner = stream.scanner := by
  rw [ready]
  cases stream.waiting <;> rfl

theorem ready_functions (stream : Stream) :
    stream.ready.state.functions = stream.state.functions := by
  rw [ready]
  cases stream.waiting <;> rfl

theorem ready_upcoming (stream : Stream) : stream.ready.upcoming = stream.upcoming := by
  rw [upcoming, ready_scanner, upcoming]

theorem handsOut_chunk (hwaiting : stream.waiting = none) :
    stream.HandsOut stream.chunk stream.passed := by
  rcases pull_cases hwaiting with ⟨hchunk, hpull⟩ | ⟨first, second, hchunk, rfl, -, hpull⟩
  · rw [hchunk]
    refine ⟨?_, ?_, rfl⟩
    · rw [List.length_singleton, firstTokens, firstTokens, hpull]
    · rw [List.length_singleton, after, after, hpull]
  · rw [hchunk]
    refine ⟨?_, ?_, rfl⟩
    · rw [List.length_cons, List.length_singleton, firstTokens, firstTokens, firstTokens, hpull]
    · rw [List.length_cons, List.length_singleton, after, after, after, hpull]

/-- What has been read is completed before more is read. -/
theorem handsOut_complete (hagree : Scanner.Agree 0 scanner stream.scanner)
    (hwaiting : stream.waiting = none) (hsettled : stream.Settled) (steps : Nat) :
    ∃ last, stream.HandsOut (stream.state.complete (scanner.firstTokens steps)) last ∧
      last.state = stream.state.through (scanner.firstTokens steps) := by
  induction steps generalizing stream scanner with
  | zero => exact ⟨stream, ⟨rfl, rfl, hwaiting⟩, rfl⟩
  | succ steps ih =>
      have hupcoming : stream.upcoming = scanner.next.1 := hagree.token
      have hnext : Scanner.Agree 0 scanner.next.2 stream.passed.scanner :=
        hagree.next.takeLineCrossed
      obtain ⟨last, hrest, hstate⟩ := ih hnext rfl (.inl rfl)
      rw [passed_state hsettled, hupcoming] at hrest hstate
      have hchunk := handsOut_chunk hwaiting
      rw [chunk_eq hsettled, hupcoming] at hchunk
      rw [Scanner.firstTokens, State.complete_cons]
      exact ⟨last, hchunk.trans hrest, hstate⟩

/-- Whatever was read before, once the first token has been passed the ones behind it are completed
as they stand. -/
theorem handsOut_firstTokens (stream : Stream) (steps : Nat) :
    let rest := stream.scanner.next.2.firstTokens steps
    ∃ last,
      stream.HandsOut
          (stream.waiting.toList ++ (stream.ready.chunk ++ stream.ready.passed.state.complete rest))
          last ∧
        last.state = stream.ready.passed.state.through rest := by
  have hagree : Scanner.Agree 0 stream.scanner.next.2 stream.ready.passed.scanner := by
    rw [passed, ready_scanner]
    exact (Scanner.Agree.refl _).takeLineCrossed
  obtain ⟨last, hrest, hstate⟩ := handsOut_complete hagree rfl (.inl rfl) steps
  have hfirst := (handsOut_waiting stream).trans (handsOut_chunk stream.ready_waiting)
  refine ⟨last, ?_, hstate⟩
  rw [← List.append_assoc]
  exact hfirst.trans hrest

end FormulaScript.Layout.Stream
