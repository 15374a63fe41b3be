import FormulaScript.Proofs.Layout.Semicolons

/-!
# The tokens of a text with what is inserted at them

What is handed out falls into one piece for each token of the text, which is the token and what is
inserted at it. Where the pieces are known, so is every place where something is inserted, and what
is inserted at a token is told by the tokens in front of it.
-/

namespace FormulaScript.Layout

/-- A token of the text, with what is inserted at it. -/
structure Placement where
  token : Token
  insertion? : Option Insertion
deriving DecidableEq, Repr

def Placement.tokens (placement : Placement) : List Token :=
  withInsertion placement.token placement.insertion?

/-- Rules that insert no semicolon in front of a token insert different marks. -/
theorem Rule.insertion_eq_iff {rule rule' : Rule}
    (hrule : rule'.insertion ≠ .before (.punctuation .semicolon)) :
    rule.insertion = rule'.insertion ↔ rule = rule' := by
  constructor
  · intro heq
    cases rule' with
    | separator | exportBoundary => exact absurd rfl hrule
    | functionEnd | arrowOpen | arrowClose | indexOpen | indexClose =>
        cases rule <;> first | rfl | cases heq
  · exact congrArg Rule.insertion

theorem Rule.map_insertion_eq_iff {rule? : Option Rule} (rule : Rule)
    (hrule : rule.insertion ≠ .before (.punctuation .semicolon)) :
    rule?.map Rule.insertion = some rule.insertion ↔ rule? = some rule := by
  rw [Option.map_eq_some_iff]
  constructor
  · rintro ⟨rule', rfl, heq⟩
    rw [(insertion_eq_iff hrule).mp heq]
  · exact fun hsome => ⟨rule, hsome, rfl⟩

theorem Rule.map_insertion_ne {insertion : Insertion}
    (hinsertion : ∀ rule : Rule, rule.insertion ≠ insertion) (rule? : Option Rule) :
    rule?.map Rule.insertion ≠ some insertion := by
  intro hsome
  obtain ⟨rule, -, heq⟩ := Option.map_eq_some_iff.mp hsome
  exact hinsertion rule heq

theorem Rule.map_insertion_eq_semicolon_iff {rule? : Option Rule} :
    rule?.map Rule.insertion = some (.before (.punctuation .semicolon)) ↔
      rule? = some .separator ∨ rule? = some .exportBoundary := by
  constructor
  · intro hinsertion
    obtain ⟨rule, rfl, heq⟩ := Option.map_eq_some_iff.mp hinsertion
    cases rule with
    | separator => exact .inl rfl
    | exportBoundary => exact .inr rfl
    | functionEnd | arrowOpen | arrowClose | indexOpen | indexClose => cases heq
  · rintro (rfl | rfl) <;> rfl

namespace State

def placement (state : State) (token : Token) : Placement :=
  ⟨token, (state.rule? token.kind token.flags.afterLineBreak).map Rule.insertion⟩

def placements (state : State) : List Token → List Placement
  | [] => []
  | token :: rest => state.placement token :: (state.past token).placements rest

theorem complete_eq_flatMap_placements (state : State) (tokens : List Token) :
    state.complete tokens = (state.placements tokens).flatMap Placement.tokens := by
  induction tokens generalizing state with
  | nil => rfl
  | cons token rest ih =>
      rw [complete_cons, placements, List.flatMap_cons]
      exact congrArg (state.chunk token ++ ·) (ih (state.past token))

@[simp]
theorem map_token_placements (state : State) (tokens : List Token) :
    (state.placements tokens).map Placement.token = tokens := by
  induction tokens generalizing state with
  | nil => rfl
  | cons token rest ih => exact congrArg (token :: ·) (ih (state.past token))

theorem placements_append (state : State) (front back : List Token) :
    state.placements (front ++ back) =
      state.placements front ++ (state.through front).placements back := by
  induction front generalizing state with
  | nil => rfl
  | cons token front ih => exact congrArg (state.placement token :: ·) (ih (state.past token))

/-- Each piece is told by the state behind the tokens of the pieces in front of it. -/
theorem eq_placement_of_split {state : State} {tokens : List Token} {front back : List Placement}
    {placement : Placement} (hsplit : state.placements tokens = front ++ placement :: back) :
    tokens = front.map Placement.token ++ placement.token :: back.map Placement.token ∧
      placement = (state.through (front.map Placement.token)).placement placement.token := by
  have htokens : tokens =
      front.map Placement.token ++ placement.token :: back.map Placement.token := by
    rw [← state.map_token_placements tokens, hsplit, List.map_append, List.map_cons]
  refine ⟨htokens, ?_⟩
  rw [htokens, placements_append] at hsplit
  have hlength : (state.placements (front.map Placement.token)).length = front.length := by
    rw [← List.length_map Placement.token, map_token_placements, List.length_map]
  exact (List.cons.inj (List.append_inj hsplit hlength).2).1.symm

end State

/-- The pieces of a whole run, one for each token that the scanner has left. -/
theorem Stream.tokens_eq_flatMap_placements (scanner : Scanner) :
    (ofScanner scanner).tokens = (State.placements {} scanner.tokens).flatMap Placement.tokens :=
  (ofScanner_run scanner).1.trans (State.complete_eq_flatMap_placements {} scanner.tokens)

end FormulaScript.Layout
