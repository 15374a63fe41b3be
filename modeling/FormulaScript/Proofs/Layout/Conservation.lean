import FormulaScript.Proofs.Layout.Lines
import FormulaScript.Proofs.Layout.Pulls

/-!
# Layout adds marks and changes nothing else

Whatever the rules insert, the tokens of the text come out of a stream as the scanner read them, in
order. What is inserted takes no room, so that the spans of all the tokens still go up.
-/

namespace FormulaScript

namespace Token

/-- A mark that does not stand in the text. -/
structure IsInsertedMark (token : Token) : Prop where
  span : token.span.start = token.span.stop
  content : token.content = .none
  flags : token.flags = { inserted := true }
  kind : token.kind ∈ Layout.insertedMarks

end Token

theorem Scanner.isInserted_of_mem_firstTokens {scanner : Scanner} {count : Nat} {token : Token}
    (hmem : token ∈ scanner.firstTokens count) : token.isInserted = false := by
  induction count generalizing scanner with
  | zero => cases hmem
  | succ count ih =>
      rcases List.mem_cons.mp hmem with rfl | hrest
      · exact isInserted_token scanner
      · exact ih hrest

namespace Layout

/-! ### One token -/

theorem filter_withInsertion {token : Token} (htoken : token.isInserted = false)
    (insertion? : Option Insertion) :
    (withInsertion token insertion?).filter (!·.isInserted) = [token] := by
  have hkept : [token].filter (!·.isInserted) = [token] := by simp [htoken]
  rcases insertion? with _ | mark | mark
  · exact hkept
  · rw [withInsertion, List.filter_cons_of_neg (by simp [Token.isInserted, Token.inserted]), hkept]
  · rw [withInsertion, List.filter_cons_of_pos (by simp [htoken])]
    rfl

theorem isInsertedMark_inserted (rule : Rule) (offset : Nat) :
    (Token.inserted rule.insertion.mark offset).IsInsertedMark :=
  ⟨rfl, rfl, rfl, rule.mark_mem_insertedMarks⟩

/-- An insertion stands at the edge of its token. -/
theorem ascend_withInsertion {offset : Nat} {token : Token} {rest : List Token}
    (hstart : offset ≤ token.span.start) (hstop : token.span.start ≤ token.span.stop)
    (hrest : Token.Ascend token.span.stop rest) (insertion? : Option Insertion) :
    Token.Ascend offset (withInsertion token insertion? ++ rest) := by
  rcases insertion? with _ | mark | mark
  · exact ⟨hstart, hstop, hrest⟩
  · exact ⟨hstart, Nat.le_refl _, Nat.le_refl _, hstop, hrest⟩
  · exact ⟨hstart, hstop, Nat.le_refl _, Nat.le_refl _, hrest⟩

/-! ### All the tokens -/

namespace State

variable {tokens : List Token}

theorem filter_complete (state : State) (htokens : ∀ token ∈ tokens, token.isInserted = false) :
    (state.complete tokens).filter (!·.isInserted) = tokens := by
  induction tokens generalizing state with
  | nil => rfl
  | cons token rest ih =>
      obtain ⟨htoken, hrest⟩ := List.forall_mem_cons.mp htokens
      rw [complete_cons, List.filter_append, ih _ hrest, chunk, filter_withInsertion htoken,
        List.singleton_append]

theorem isInsertedMark_of_mem_complete {state : State}
    (htokens : ∀ token ∈ tokens, token.isInserted = false) {token : Token}
    (hmem : token ∈ state.complete tokens) (hinserted : token.isInserted) :
    token.IsInsertedMark := by
  induction tokens generalizing state with
  | nil => cases hmem
  | cons head rest ih =>
      obtain ⟨hhead, hrest⟩ := List.forall_mem_cons.mp htokens
      rw [complete_cons, List.mem_append] at hmem
      rcases hmem with hchunk | hmem
      · rcases mem_withInsertion hchunk with rfl | ⟨insertion, offset, hinsertion, rfl⟩
        · rw [hhead] at hinserted
          cases hinserted
        · obtain ⟨rule, -, rfl⟩ := Option.map_eq_some_iff.mp hinsertion
          exact isInsertedMark_inserted rule offset
      · exact ih hrest hmem

theorem ascend_complete (state : State) {offset : Nat} (hascend : Token.Ascend offset tokens) :
    Token.Ascend offset (state.complete tokens) := by
  induction tokens generalizing state offset with
  | nil => trivial
  | cons token rest ih =>
      obtain ⟨hstart, hstop, hrest⟩ := hascend
      rw [complete_cons]
      exact ascend_withInsertion hstart hstop (ih _ hrest) _

end State

/-! ### The tokens of a stream -/

namespace Stream

theorem Charts.wrap_of_mem_firstTokens {text : String} {stream : Stream}
    (hcharts : stream.Charts text) (hfits : Text.Fits text) {count : Nat} {token : Token}
    (hmem : token ∈ stream.firstTokens count) : token.wrap = token := by
  induction count generalizing stream with
  | zero => cases hmem
  | succ count ih =>
      rcases List.mem_cons.mp hmem with rfl | hrest
      · have hpull : stream.returned? .pull = some stream.pull.1 := rfl
        exact hcharts.wrap_of_returned? hfits hpull
      · exact ih hcharts.pull hrest

/-- **Conservation.** A stream hands out the tokens that its scanner has left, with nothing waiting
at the end, and between them marks without room. So it does after every number of pulls. The text
fits, so that the spans are held in words as they are and go up there, too. -/
theorem tokens_conserved {text : String} (hfits : Text.Fits text) (options : Options)
    (dropped : Nat) :
    let scanner := (Scanner.ofText text options).after dropped
    let stream := ofScanner scanner
    stream.tokens.filter (!·.isInserted) = scanner.tokens ∧
      stream.run.2.waiting = none ∧
      stream.tokens = stream.firstTokens stream.tokens.length ∧
      scanner.HeldInWords ∧
      ∀ count,
        (stream.firstTokens count).filter (!·.isInserted) <+: scanner.firstTokens count ∧
          (∀ token ∈ stream.firstTokens count, token.isInserted → token.IsInsertedMark) ∧
          ((stream.firstTokens count).IsChain fun token next =>
            token.span.stop ≤ next.span.start) ∧
          ∀ token ∈ stream.firstTokens count, token.wrap = token := by
  intro scanner stream
  obtain ⟨htokens, -, hwaiting⟩ := ofScanner_run scanner
  have hcharts : scanner.Charts text := (Scanner.charts_ofText text options).after dropped
  refine ⟨?_, hwaiting, tokens_eq_firstTokens stream, hcharts.heldInWords hfits, fun count => ?_⟩
  · rw [htokens]
    exact State.filter_complete _ fun token => Scanner.isInserted_of_mem_tokens
  · obtain ⟨steps, hcompletes⟩ : ∃ steps, stream.Completes scanner count steps :=
      ofScanner_exists_completes scanner count
    have hpart : stream.firstTokens count <+: stream.knownTokens count := List.prefix_append _ _
    rw [hcompletes.tokens] at hpart
    have hraw (token : Token) (hmem : token ∈ scanner.firstTokens steps) :=
      Scanner.isInserted_of_mem_firstTokens hmem
    refine ⟨?_, ?_, ?_, fun token => (charts_ofScanner hcharts).wrap_of_mem_firstTokens hfits⟩
    · have hfilter := hpart.filter (!·.isInserted)
      rw [State.filter_complete _ hraw] at hfilter
      exact hfilter.trans (scanner.firstTokens_isPrefix hcompletes.steps_le)
    · intro token hmem hinserted
      exact State.isInsertedMark_of_mem_complete hraw (hpart.subset hmem) hinserted
    · have hascend := State.ascend_complete stream.state (scanner.ascend_firstTokens steps)
      obtain ⟨rest, hrest⟩ := hpart
      rw [← hrest] at hascend
      exact hascend.of_append.isChain

/-- Parentheses inside an index and a semicolon at the end of its line, behind a mark that was
dropped. -/
theorem tokens_conserved_index :
    let text := "-a[b]\nc"
    let scanner := (Scanner.ofText text {}).after 1
    let stream := ofScanner scanner
    Text.Fits text ∧ (stream.tokens.length = 9 ∧ scanner.tokens.length = 6) ∧
      stream.tokens.filter (!·.isInserted) = scanner.tokens ∧
      (∀ token ∈ stream.firstTokens 9, token.isInserted → token.IsInsertedMark) ∧
      (stream.firstTokens 9).IsChain fun token next => token.span.stop ≤ next.span.start := by
  intro text scanner stream
  have hfits : Text.Fits text := by decide +kernel
  obtain ⟨htokens, -, -, -, hcounts⟩ := tokens_conserved hfits {} 1
  obtain ⟨-, hmarks, hchain, -⟩ := hcounts 9
  exact ⟨hfits, ⟨by decide +kernel, by decide +kernel⟩, htokens, hmarks, hchain⟩

end Stream

end Layout

end FormulaScript
