import FormulaScript.Proofs.Checked.Stream

/-!
# Counters that wrap around

A machine keeps the counters of layout in signed words, besides the words of its scanner. A counter is
no farther from zero than the scanner is from the beginning of the text. So in a text of less than
`2 ^ 31` bytes the words hold everything, and the machine gives the answers that are proved of a
stream.
-/

namespace FormulaScript.Layout

theorem bmod_wordSize {count : Int} {limit : Nat} (hcount : count.natAbs ≤ limit)
    (hlimit : limit < 2 ^ 31) : count.bmod wordSize = count := by
  have hsize : wordSize = 2 ^ 32 := rfl
  apply Int.bmod_eq_of_le_mul_two <;> omega

theorem Nesting.Within.wrap_eq_self {nesting : Nesting} {limit : Nat}
    (hwithin : nesting.Within limit) (hlimit : limit < 2 ^ 31) : nesting.wrap = nesting := by
  obtain ⟨counts⟩ := nesting
  have hcounts : counts.map (Int.bmod · wordSize) = counts := by
    refine (List.map_congr_left fun count hmem => ?_).trans (List.map_id _)
    exact bmod_wordSize (hwithin count hmem) hlimit
  rw [Nesting.wrap, hcounts]

theorem State.Within.wrap_eq_self {state : State} {limit : Nat} (hwithin : state.Within limit)
    (hlimit : limit < 2 ^ 31) : state.wrap = state := by
  rw [State.wrap, hwithin.functions.wrap_eq_self hlimit, hwithin.indices.wrap_eq_self hlimit,
    bmod_wordSize hwithin.arrowParens hlimit]

namespace Stream

/-- What a machine answers, and what it is left with. -/
def performWrapped (stream : Stream) (call : Call) : Option Token × Stream :=
  ((stream.returned? call).map Token.wrap, (stream.perform call).wrap)

def performAllWrapped (stream : Stream) (calls : List Call) : Stream :=
  calls.foldl (fun stream call => (stream.performWrapped call).2) stream

/-- Words make no difference: after any calls the machine answers the next one as the stream does. -/
def HeldInWords (stream : Stream) : Prop :=
  ∀ calls call, (stream.performAllWrapped calls).performWrapped call =
    ((stream.performAll calls).returned? call, (stream.performAll calls).perform call)

/-! ### A text that fits -/

section

variable {text : String} {stream : Stream} (hcharts : stream.Charts text) (hreads : stream.Reads)
  (hfits : Text.Fits text)
include hcharts hreads hfits

theorem Charts.wrap_eq_self : stream.wrap = stream := by
  have hwaiting : stream.waiting.map Token.wrap = stream.waiting := by
    cases hsome : stream.waiting with
    | none => rfl
    | some token =>
        have hends := (hcharts.waiting token hsome).1
        have hlimit := hcharts.scanner.position_lt_wordSize hfits
        rw [Option.map_some, Token.wrap_eq_self hends hlimit]
  rw [wrap, hcharts.scanner.wrap_eq_self hfits,
    hreads.state.wrap_eq_self hreads.scanner.position_lt, hwaiting]

theorem Charts.performWrapped_eq (call : Call) :
    stream.performWrapped call = (stream.returned? call, stream.perform call) := by
  have htoken : (stream.returned? call).map Token.wrap = stream.returned? call := by
    cases hsome : stream.returned? call with
    | none => rfl
    | some token => rw [Option.map_some, hcharts.wrap_of_returned? hfits hsome]
  rw [performWrapped, htoken, (hcharts.perform call).wrap_eq_self (hreads.perform call) hfits]

theorem Charts.performAllWrapped_eq (calls : List Call) :
    stream.performAllWrapped calls = stream.performAll calls := by
  induction calls generalizing stream with
  | nil => rfl
  | cons call calls ih =>
      have hrest := ih (hcharts.perform call) (hreads.perform call)
      rwa [performAllWrapped, List.foldl_cons, hcharts.performWrapped_eq hreads hfits]

theorem Charts.heldInWords : stream.HeldInWords := by
  intro calls call
  rw [hcharts.performAllWrapped_eq hreads hfits]
  exact (hcharts.performAll calls).performWrapped_eq (hreads.performAll calls) hfits call

end

theorem heldInWords_ofText {text : String} (options : Options)
    (hlength : Text.byteLength text.toList < 2 ^ 31) : (ofText text options).HeldInWords :=
  (charts_ofScanner (Scanner.charts_ofText text options)).heldInWords
    (reads_ofScanner (Scanner.reads_ofText options hlength)) (Nat.lt_trans hlength (by decide))

end Stream

end FormulaScript.Layout
