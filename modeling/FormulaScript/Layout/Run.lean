import FormulaScript.Layout.Stream
import FormulaScript.Scanner.Run

/-!
A whole run of a stream.
-/

namespace FormulaScript.Layout.Stream

/-- A token of the scanner may become two, of which one waits. -/
def work (stream : Stream) : Nat :=
  2 * stream.scanner.work + stream.waiting.isSome.toNat

theorem work_pull_lt (stream : Stream) (hkind : stream.pull.1.kind ≠ .endOfText) :
    stream.pull.2.work < stream.work := by
  unfold pull at hkind ⊢
  cases hwaiting : stream.waiting with
  | some token => simp [work, emit, hwaiting]
  | none =>
      by_cases hend : stream.scanner.next.1.kind = .endOfText
      · simp [hwaiting, hend, emit] at hkind
      · have hlt : stream.scanner.next.2.takeLineCrossed.2.work < stream.scanner.work :=
          stream.scanner.work_next_lt hend
        dsimp only [work]
        rw [hwaiting]
        generalize stream.state.place _ _ = placed
        obtain ⟨insertion, state⟩ := placed
        rcases insertion with _ | _ | _ <;> simp [emit] <;> omega

/-- The tokens up to and with the first end token, and the stream after them. -/
def run (stream : Stream) : List Token × Stream :=
  match _hpull : stream.pull with
  | (token, next) =>
      if _hkind : token.kind = .endOfText then ([token], next)
      else
        let (rest, last) := next.run
        (token :: rest, last)
termination_by stream.work
decreasing_by
  have hlt := stream.work_pull_lt (by rwa [_hpull])
  rwa [_hpull] at hlt

def tokens (stream : Stream) : List Token :=
  stream.run.1

end FormulaScript.Layout.Stream
