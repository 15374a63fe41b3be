import FormulaScript.Proofs.Layout.Counts
import FormulaScript.Proofs.Layout.Placements
import Mathlib.Data.List.Chain

/-!
# Indices in parentheses

The counts of layout do not tell a bracket that opens an index from one that does not, and leave out
what is opened while no index is. Still they follow the stack of all open brackets: what is
parenthesized is each bracket right after a name and the one that closes it. The one thing that gets
in the way is an arrow with nothing behind it but a closing bracket, which layout takes for the body.
-/

namespace FormulaScript.Layout

/-- What brackets are open after some tokens, the innermost first, and of what kind the last of the
tokens is. Each bracket tells whether it opens an index. -/
structure Brackets where
  opened : List Bool := []
  last : Token.Kind := .unknown

namespace Brackets

/-- A bracket opens an index right after a name, on the same line. -/
def OpensIndex (brackets : Brackets) (token : Token) : Prop :=
  token.kind = .punctuation .openBracket ∧ token.followsLineBreak = false ∧
    brackets.last = .identifier

instance (brackets : Brackets) (token : Token) : Decidable (brackets.OpensIndex token) :=
  inferInstanceAs (Decidable (_ ∧ _ ∧ _))

def ClosesIndex (brackets : Brackets) (token : Token) : Prop :=
  token.kind = .punctuation .closeBracket ∧ brackets.opened.head? = some true

instance (brackets : Brackets) (token : Token) : Decidable (brackets.ClosesIndex token) :=
  inferInstanceAs (Decidable (_ ∧ _))

def read (brackets : Brackets) (token : Token) : Brackets where
  opened :=
    if token.kind = .punctuation .openBracket then
      decide (brackets.OpensIndex token) :: brackets.opened
    else if token.kind = .punctuation .closeBracket then brackets.opened.tail
    else brackets.opened
  last := token.kind

def after (tokens : List Token) : Brackets :=
  tokens.foldl read {}

end Brackets

/-- An arrow is not followed by a closing bracket. -/
def ArrowHasBody (first second : Token.Kind) : Prop :=
  first = .punctuation .equalsGreaterThan → second ≠ .punctuation .closeBracket

instance : DecidableRel ArrowHasBody := fun first second =>
  inferInstanceAs
    (Decidable (first = .punctuation .equalsGreaterThan → second ≠ .punctuation .closeBracket))

namespace State

/-- A line break keeps a bracket from opening an index, since a statement may begin with it. -/
theorem rule?_eq_indexOpen_iff (state : State) (kind : Token.Kind) (lineCrossed : Bool) :
    state.rule? kind lineCrossed = some .indexOpen ↔
      kind = .punctuation .openBracket ∧ lineCrossed = false ∧ state.last = .identifier := by
  constructor
  · intro hrule
    obtain ⟨rfl, hlast⟩ := applies_of_rule? hrule
    refine ⟨rfl, ?_, hlast⟩
    by_contra hcrossed
    have hseparates : state.separates (.punctuation .openBracket) lineCrossed = true := by
      rw [separates, hlast, eq_true_of_ne_false hcrossed]
      rfl
    have hseparator : state.rule? (.punctuation .openBracket) lineCrossed = some .separator := by
      rw [rule?, if_neg (by simp), if_pos hseparates]
    cases hrule.symm.trans hseparator
  · rintro ⟨rfl, rfl, hlast⟩
    simp [rule?, separates, hlast]

/-- The body of an arrow comes before the end of an index. -/
theorem rule?_eq_indexClose_iff {state : State} {kind : Token.Kind}
    (harrow : state.last = .punctuation .equalsGreaterThan → kind ≠ .punctuation .closeBracket)
    (lineCrossed : Bool) :
    state.rule? kind lineCrossed = some .indexClose ↔
      kind = .punctuation .closeBracket ∧ state.indices.close.1 = some 0 := by
  constructor
  · exact applies_of_rule?
  · rintro ⟨rfl, hzero⟩
    rw [rule?_closeBracket, if_neg fun hlast => harrow hlast rfl, if_pos hzero]

/-- Marks that are inserted behind a token are no names, and neither are these tokens. -/
theorem last_past_eq_identifier_iff (state : State) (token : Token) :
    (state.past token).last = .identifier ↔ token.kind = .identifier := by
  rw [past, follow]
  cases hrule : state.rule? token.kind token.flags.afterLineBreak with
  | none => exact Iff.rfl
  | some rule =>
      have happlies := applies_of_rule? hrule
      cases rule with
      | functionEnd =>
          rw [happlies.1]
          exact iff_of_false Token.Kind.noConfusion Token.Kind.noConfusion
      | indexOpen =>
          rw [happlies.1]
          exact iff_of_false Token.Kind.noConfusion Token.Kind.noConfusion
      | _ => exact Iff.rfl

/-- The state counts the brackets that are open, and knows what the last token was as far as indices
are concerned. -/
structure CountsBrackets (state : State) (brackets : Brackets) : Prop where
  indices : state.indices = .counting {} brackets.opened
  identifier : state.last = .identifier ↔ brackets.last = .identifier
  arrow : state.last = .punctuation .equalsGreaterThan →
    brackets.last = .punctuation .equalsGreaterThan

theorem countsBrackets_start : CountsBrackets {} {} :=
  ⟨rfl, Iff.rfl, id⟩

namespace CountsBrackets

variable {state : State} {brackets : Brackets} {token : Token}

theorem rule?_eq_indexOpen_iff (hcounts : state.CountsBrackets brackets) (token : Token) :
    state.rule? token.kind token.flags.afterLineBreak = some .indexOpen ↔
      brackets.OpensIndex token := by
  rw [State.rule?_eq_indexOpen_iff, hcounts.identifier]
  rfl

theorem rule?_eq_indexClose_iff (hcounts : state.CountsBrackets brackets)
    (hbody : ArrowHasBody brackets.last token.kind) :
    state.rule? token.kind token.flags.afterLineBreak = some .indexClose ↔
      brackets.ClosesIndex token := by
  rw [State.rule?_eq_indexClose_iff fun hlast => hbody (hcounts.arrow hlast), hcounts.indices,
    (Nesting.close_counting (.inl rfl)).2]
  rfl

theorem countBracket (hcounts : state.CountsBrackets brackets)
    (hbody : ArrowHasBody brackets.last token.kind) :
    state.indices.countBracket (state.rule? token.kind token.flags.afterLineBreak) token.kind =
      .counting {} (brackets.read token).opened := by
  have hopens := hcounts.rule?_eq_indexOpen_iff token
  by_cases hopen : token.kind = .punctuation .openBracket
  · rw [Nesting.countBracket, if_pos hopen, Brackets.read, if_pos hopen, hcounts.indices]
    by_cases hindex : brackets.OpensIndex token
    · rw [if_pos (hopens.mpr hindex), decide_eq_true hindex, Nesting.counting]
    · rw [if_neg (mt hopens.mp hindex), decide_eq_false hindex, Nesting.counting]
  · rw [Nesting.countBracket, if_neg hopen, Brackets.read, if_neg hopen]
    by_cases hclose : token.kind = .punctuation .closeBracket
    · have hrule : state.rule? token.kind token.flags.afterLineBreak ≠ some .arrowOpen :=
        fun hrule => hbody (hcounts.arrow (applies_of_rule? hrule).1) hclose
      rw [if_pos ⟨hclose, hrule⟩, if_pos hclose, hcounts.indices]
      exact (Nesting.close_counting (.inl rfl)).1
    · rw [if_neg fun hboth => hclose hboth.1, if_neg hclose, hcounts.indices]

theorem past (hcounts : state.CountsBrackets brackets)
    (hbody : ArrowHasBody brackets.last token.kind) :
    (state.past token).CountsBrackets (brackets.read token) := by
  constructor
  · exact hcounts.countBracket hbody
  · exact state.last_past_eq_identifier_iff token
  · exact eq_arrow_of_last_follow

/-- What holds behind some tokens, as long as every arrow among them has a body. -/
theorem through {front back : List Token} (hcounts : state.CountsBrackets brackets)
    (hbodies : (brackets.last :: (front ++ token :: back).map Token.kind).IsChain ArrowHasBody) :
    (state.through front).CountsBrackets (front.foldl Brackets.read brackets) ∧
      ArrowHasBody (front.foldl Brackets.read brackets).last token.kind := by
  induction front generalizing state brackets with
  | nil => exact ⟨hcounts, (List.isChain_cons_cons.mp hbodies).1⟩
  | cons head front ih =>
      obtain ⟨hbody, hrest⟩ := List.isChain_cons_cons.mp hbodies
      exact ih (hcounts.past hbody) hrest

end CountsBrackets

end State

namespace Stream

/-- **Indices in parentheses.** If every arrow has a body, each bracket that opens an index is
followed by an opening parenthesis, and the bracket that closes the index has a closing one before
it. No other parentheses are inserted, whether or not the brackets match. -/
theorem indices_parenthesized (text : String) (options : Options)
    (hbodies : ((Scanner.ofText text options).tokens.map Token.kind).IsChain ArrowHasBody) :
    ∃ placements : List Placement,
      (ofText text options).tokens = placements.flatMap Placement.tokens ∧
        placements.map Placement.token = (Scanner.ofText text options).tokens ∧
        ∀ front placement back, placements = front ++ placement :: back →
          let brackets := Brackets.after (front.map Placement.token)
          (placement.insertion? = some (.after (.punctuation .openParen)) ↔
              brackets.OpensIndex placement.token) ∧
            (placement.insertion? = some (.before (.punctuation .closeParen)) ↔
              brackets.ClosesIndex placement.token) ∧
            placement.insertion? ≠ some (.before (.punctuation .openParen)) ∧
            placement.insertion? ≠ some (.after (.punctuation .closeParen)) := by
  let tokens := (Scanner.ofText text options).tokens
  refine ⟨State.placements {} tokens, tokens_eq_flatMap_placements _,
    State.map_token_placements {} tokens, ?_⟩
  intro front placement back hsplit brackets
  obtain ⟨htokens, hplacement⟩ := State.eq_placement_of_split hsplit
  have hchain : (Token.Kind.unknown :: tokens.map Token.kind).IsChain ArrowHasBody :=
    hbodies.cons fun _ _ harrow => Token.Kind.noConfusion harrow
  rw [htokens] at hchain
  obtain ⟨hcounts, hbody⟩ := State.countsBrackets_start.through hchain
  have hinsertion : placement.insertion? =
      ((State.through {} (front.map Placement.token)).rule? placement.token.kind
        placement.token.flags.afterLineBreak).map Rule.insertion :=
    congrArg Placement.insertion? hplacement
  rw [hinsertion]
  refine ⟨?_, ?_, ?_, ?_⟩
  · exact (Rule.map_insertion_eq_iff .indexOpen (by decide)).trans
      (hcounts.rule?_eq_indexOpen_iff _)
  · exact (Rule.map_insertion_eq_iff .indexClose (by decide)).trans
      (hcounts.rule?_eq_indexClose_iff hbody)
  · exact Rule.map_insertion_ne (fun rule => by cases rule <;> decide) _
  · exact Rule.map_insertion_ne (fun rule => by cases rule <;> decide) _

/-- Of two brackets one in the other, the one behind the name opens an index, and the last bracket
closes it. -/
theorem indices_parenthesized_nested :
    let scanner := Scanner.ofText "a[[1]]" {}
    (scanner.tokens.map Token.kind).IsChain ArrowHasBody ∧
      ∃ (front between back : List Placement) (opening closing : Placement),
        (ofScanner scanner).tokens =
            (front ++ opening :: (between ++ closing :: back)).flatMap Placement.tokens ∧
          opening.token.span = ⟨1, 2⟩ ∧
          opening.insertion? = some (.after (.punctuation .openParen)) ∧
          closing.token.span = ⟨5, 6⟩ ∧
          closing.insertion? = some (.before (.punctuation .closeParen)) := by
  intro scanner
  let name : Token := { kind := .identifier, span := ⟨0, 1⟩, content := .text "a" }
  let bracket : Token :=
    { kind := .punctuation .openBracket, span := ⟨1, 2⟩, content := .text "[" }
  let last : Token :=
    { kind := .punctuation .closeBracket, span := ⟨5, 6⟩, content := .text "]" }
  have hbodies : (scanner.tokens.map Token.kind).IsChain ArrowHasBody := by decide +kernel
  have hraw : scanner.tokens = [name] ++
      bracket :: ((scanner.tokens.drop 2).take 3 ++ last :: scanner.tokens.drop 6) := by
    decide +kernel
  obtain ⟨placements, htokens, hmap, hplaced⟩ := indices_parenthesized "a[[1]]" {} hbodies
  obtain ⟨front, tail, rfl, hfront, htail⟩ := List.map_eq_append_iff.mp (hmap.trans hraw)
  obtain ⟨opening, rest, rfl, hopening, hrest⟩ := List.map_eq_cons_iff.mp htail
  obtain ⟨between, tail, rfl, hbetween, htail⟩ := List.map_eq_append_iff.mp hrest
  obtain ⟨closing, back, rfl, hclosing, -⟩ := List.map_eq_cons_iff.mp htail
  refine ⟨hbodies, front, between, back, opening, closing, htokens,
    congrArg Token.span hopening, ?_, congrArg Token.span hclosing, ?_⟩
  · apply (hplaced front opening _ rfl).1.mpr
    rw [hfront, hopening]
    decide
  · apply (hplaced (front ++ opening :: between) closing back (by simp)).2.1.mpr
    rw [List.map_append, List.map_cons, hfront, hopening, hbetween, hclosing]
    decide +kernel

end Stream

end FormulaScript.Layout
