import FormulaScript.Proofs.Layout.Pulls

/-!
# Layout goes by outlines

Of a token of the text layout looks at the kind, and at whether a line break stands before it. So
these outlines settle which tokens a stream hands out, by their kinds, and which of them are
inserted. How the stream comes to know of the line break is no matter.
-/

namespace FormulaScript

/-- What layout looks at in a token of the text. -/
def Token.outline (token : Token) : Token.Kind × Bool :=
  (token.kind, token.followsLineBreak)

/-- What is left of a token handed out when its place and content are forgotten. -/
def Token.trace (token : Token) : Token.Kind × Bool :=
  (token.kind, token.isInserted)

namespace Layout

/-! ### Completing outlines -/

def traceWithInsertion (kind : Token.Kind) : Option Insertion → List (Token.Kind × Bool)
  | none => [(kind, false)]
  | some (.before mark) => [(mark, true), (kind, false)]
  | some (.after mark) => [(kind, false), (mark, true)]

theorem map_trace_withInsertion {token : Token} (htoken : token.isInserted = false)
    (insertion? : Option Insertion) :
    (withInsertion token insertion?).map Token.trace = traceWithInsertion token.kind insertion? := by
  have htrace : token.trace = (token.kind, false) := by rw [Token.trace, htoken]
  rcases insertion? with _ | mark | mark
  · exact congrArg ([·]) htrace
  · exact congrArg ([(mark, true), ·]) htrace
  · exact congrArg ([·, (mark, true)]) htrace

namespace State

def completeOutlines (state : State) : List (Token.Kind × Bool) → List (Token.Kind × Bool)
  | [] => []
  | (kind, lineCrossed) :: rest =>
      traceWithInsertion kind ((state.rule? kind lineCrossed).map Rule.insertion) ++
        (state.follow kind lineCrossed).completeOutlines rest

theorem map_trace_complete (state : State) {tokens : List Token}
    (htokens : ∀ token ∈ tokens, token.isInserted = false) :
    (state.complete tokens).map Token.trace =
      state.completeOutlines (tokens.map Token.outline) := by
  induction tokens generalizing state with
  | nil => rfl
  | cons token rest ih =>
      obtain ⟨htoken, hrest⟩ := List.forall_mem_cons.mp htokens
      rw [complete_cons, List.map_append, chunk, map_trace_withInsertion htoken, ih _ hrest]
      rfl

/-- Whether a line break stands before the end of the text is no matter. -/
theorem completeOutlines_concat_end (state : State) (front : List (Token.Kind × Bool))
    (lineCrossed : Bool) :
    state.completeOutlines (front ++ [(.endOfText, lineCrossed)]) =
      state.completeOutlines front ++ [(.endOfText, false)] := by
  induction front generalizing state with
  | nil => simp [completeOutlines, traceWithInsertion]
  | cons head front ih =>
      rw [List.cons_append, completeOutlines, ih, completeOutlines, List.append_assoc]

end State

/-! ### The tokens of a stream -/

namespace Stream

theorem length_firstTokens (stream : Stream) (count : Nat) :
    (stream.firstTokens count).length = count := by
  induction count generalizing stream with
  | zero => rfl
  | succ count ih => rw [firstTokens, List.length_cons, ih]

/-- So many tokens of a stream begin what so many tokens of the text are completed to. -/
theorem firstTokens_isPrefix_complete {scanner : Scanner} {stream : Stream}
    (hagree : Scanner.Agree 0 scanner stream.scanner) (hwaiting : stream.waiting = none)
    (hsettled : stream.Settled) (count : Nat) :
    stream.firstTokens count <+: stream.state.complete (scanner.firstTokens count) := by
  obtain ⟨steps, hcompletes⟩ : ∃ steps, stream.Completes scanner count steps :=
    exists_completes hagree hwaiting hsettled count
  have hknown : stream.firstTokens count <+: stream.knownTokens count := List.prefix_append _ _
  rw [hcompletes.tokens] at hknown
  obtain ⟨more, hmore⟩ := scanner.firstTokens_isPrefix hcompletes.steps_le
  rw [← hmore, State.complete_append]
  exact hknown.trans (List.prefix_append _ _)

theorem map_trace_tokens (scanner : Scanner) :
    (ofScanner scanner).tokens.map Token.trace =
      State.completeOutlines {} (scanner.tokens.map Token.outline) := by
  rw [(ofScanner_run scanner).1]
  exact State.map_trace_complete {} fun _ => Scanner.isInserted_of_mem_tokens

/-- **Refinement.** A stream hands out what the tokens that its scanner has left are completed to,
where each token tells by its own flag whether a line break stands before it. A line break that was
crossed earlier changes nothing, and texts with the same outlines lead to the same kinds with the
same ones inserted. -/
theorem tokens_completed (text : String) (options : Options) (dropped : Nat) :
    let scanner := (Scanner.ofText text options).after dropped
    let stream := ofScanner scanner
    stream.tokens = State.complete {} scanner.tokens ∧
      (∀ count,
        stream.firstTokens count <+: State.complete {} (scanner.firstTokens count)) ∧
      (∀ crossed count,
        (ofScanner { scanner with lineCrossed := crossed }).firstTokens count =
          stream.firstTokens count) ∧
      ∀ (text' : String) (options' : Options) (dropped' : Nat),
        let scanner' := (Scanner.ofText text' options').after dropped'
        scanner'.tokens.map Token.outline = scanner.tokens.map Token.outline →
          (ofScanner scanner').tokens.map Token.trace = stream.tokens.map Token.trace := by
  intro scanner stream
  have hcompleted (crossed : Bool) (count : Nat) :
      (ofScanner { scanner with lineCrossed := crossed }).firstTokens count <+:
        State.complete {} (scanner.firstTokens count) := by
    have hagree : Scanner.Agree 0 scanner { scanner with lineCrossed := crossed } :=
      ⟨rfl, rfl, rfl, rfl⟩
    exact firstTokens_isPrefix_complete hagree rfl (.inr rfl) count
  refine ⟨(ofScanner_run scanner).1, hcompleted scanner.lineCrossed, ?_, ?_⟩
  · intro crossed count
    have hlength : ((ofScanner { scanner with lineCrossed := crossed }).firstTokens count).length =
        (stream.firstTokens count).length := by
      rw [length_firstTokens, length_firstTokens]
    have hpart := List.prefix_of_prefix_length_le (hcompleted crossed count)
      (hcompleted scanner.lineCrossed count) (Nat.le_of_eq hlength)
    exact hpart.eq_of_length hlength
  · intro text' options' dropped' scanner' houtlines
    rw [map_trace_tokens, map_trace_tokens, houtlines]

/-- Two texts that differ in their names and in how the line is broken. -/
theorem tokens_completed_renamed :
    (ofText "alpha // first\r\nbeta" {}).tokens.map Token.trace =
      (ofText "a\nb" {}).tokens.map Token.trace := by
  have houtlines : (Scanner.ofText "alpha // first\r\nbeta" {}).tokens.map Token.outline =
      (Scanner.ofText "a\nb" {}).tokens.map Token.outline := by decide +kernel
  exact (tokens_completed "a\nb" {} 0).2.2.2 "alpha // first\r\nbeta" {} 0 houtlines

end Stream

end Layout

end FormulaScript
