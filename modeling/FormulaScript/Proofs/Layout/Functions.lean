import FormulaScript.Proofs.Layout.Counts
import FormulaScript.Proofs.Layout.Placements

/-!
# The ends of functions

Layout opens a count at the word `function` and lets every brace move the innermost count. As long
as the body of a function comes before anything else that has braces, the counts follow the stack of
the open braces, each of which knows whether it opens the body of a function. So the semicolon comes
right after the brace that closes a body, and a function that is complete leaves no trace in the
counts, whatever these were before.
-/

namespace FormulaScript

/-- The token is neither a brace nor the word that begins a function. -/
def Token.Kind.IsPlain (kind : Kind) : Prop :=
  kind ≠ .keyword .functionWord ∧ kind ≠ .punctuation .openBrace ∧
    kind ≠ .punctuation .closeBrace

instance : DecidablePred Token.Kind.IsPlain := fun _ => inferInstanceAs (Decidable (_ ∧ _ ∧ _))

namespace Layout

/-! ### Open braces -/

/-- What braces are open after some tokens, the innermost first, and whether the body of a function
is still to come. Each brace tells whether it opens such a body. -/
structure Braces where
  opened : List Bool := []
  awaitsBody : Bool := false

namespace Braces

def read (braces : Braces) (kind : Token.Kind) : Braces :=
  if kind = .keyword .functionWord then { braces with awaitsBody := true }
  else if kind = .punctuation .openBrace then ⟨braces.awaitsBody :: braces.opened, false⟩
  else if kind = .punctuation .closeBrace then { braces with opened := braces.opened.tail }
  else braces

def after (kinds : List Token.Kind) : Braces :=
  kinds.foldl read {}

/-- The token is the brace that closes the body of a function. -/
def EndsBody (braces : Braces) (kind : Token.Kind) : Prop :=
  kind = .punctuation .closeBrace ∧ braces.opened.head? = some true

instance (braces : Braces) (kind : Token.Kind) : Decidable (braces.EndsBody kind) :=
  inferInstanceAs (Decidable (_ ∧ _))

/-- What is counted of the braces, on top of what was open before. -/
def counts (braces : Braces) (base : Nesting) : Nesting :=
  if braces.awaitsBody then (base.counting braces.opened).enter 0 else base.counting braces.opened

/-- A body comes before the next function and before a brace is closed, and what is closed stands in
a function. -/
structure Takes (braces : Braces) (kind : Token.Kind) : Prop where
  function : kind = .keyword .functionWord → braces.awaitsBody = false
  closeBrace : kind = .punctuation .closeBrace →
    braces.awaitsBody = false ∧ true ∈ braces.opened

variable {braces : Braces} {kind : Token.Kind}

theorem countBrace_counts (htakes : braces.Takes kind) (base : Nesting) :
    (braces.counts base).countBrace kind = (braces.read kind).counts base := by
  rw [Nesting.countBrace, read]
  split_ifs with hfunction hopen hclose
  · rw [counts, htakes.function hfunction]
    rfl
  · rw [counts, counts]
    cases braces.awaitsBody <;> rfl
  · obtain ⟨hawaits, hopened⟩ := htakes.closeBrace hclose
    rw [counts, counts, hawaits]
    exact (Nesting.close_counting (.inr hopened)).1
  · rfl

theorem counts_eq_zero_iff (htakes : braces.Takes kind) (base : Nesting) :
    (kind = .punctuation .closeBrace ∧ (braces.counts base).close.1 = some 0) ↔
      braces.EndsBody kind := by
  apply and_congr_right
  intro hclose
  obtain ⟨hawaits, hopened⟩ := htakes.closeBrace hclose
  rw [counts, hawaits]
  exact (Nesting.close_counting (.inr hopened)).2

/-- What is read of some tokens, each of which is taken. -/
inductive Reads : Braces → List Token.Kind → Braces → Prop
  | nil {braces : Braces} : Reads braces [] braces
  | cons {braces last : Braces} {kind : Token.Kind} {rest : List Token.Kind}
      (htakes : braces.Takes kind) (hrest : Reads (braces.read kind) rest last) :
      Reads braces (kind :: rest) last

variable {middle last : Braces} {kinds front back : List Token.Kind}

theorem Reads.foldl_eq (hreads : Reads braces kinds last) : kinds.foldl read braces = last := by
  induction hreads with
  | nil => rfl
  | cons htakes hrest ih => exact ih

theorem Reads.append (hfront : Reads braces front middle) (hback : Reads middle back last) :
    Reads braces (front ++ back) last := by
  induction hfront with
  | nil => exact hback
  | cons htakes hrest ih => exact .cons htakes (ih hback)

theorem Reads.takes (hreads : Reads braces (front ++ kind :: back) last) :
    Reads braces front (front.foldl read braces) ∧ (front.foldl read braces).Takes kind := by
  induction front generalizing braces with
  | nil =>
      cases hreads with
      | cons htakes hrest => exact ⟨.nil, htakes⟩
  | cons head front ih =>
      cases hreads with
      | cons htakes hrest =>
          obtain ⟨hfront, hkind⟩ := ih hrest
          exact ⟨.cons htakes hfront, hkind⟩

/-- The counts go along with the braces. -/
theorem Reads.foldl_countBrace (hreads : Reads braces kinds last) (base : Nesting) :
    kinds.foldl Nesting.countBrace (braces.counts base) = last.counts base := by
  induction hreads with
  | nil => rfl
  | cons htakes hrest ih => rw [List.foldl_cons, countBrace_counts htakes, ih]

end Braces

/-! ### Functions -/

def inBraces (kinds : List Token.Kind) : List Token.Kind :=
  .punctuation .openBrace :: (kinds ++ [.punctuation .closeBrace])

/-- What may stand in the body of a function: braces that match, and functions with bodies of their
own. -/
inductive FunctionBody : List Token.Kind → Prop
  | nil : FunctionBody []
  | plain {kind : Token.Kind} (hkind : kind.IsPlain) : FunctionBody [kind]
  | append {front back : List Token.Kind} (hfront : FunctionBody front)
      (hback : FunctionBody back) : FunctionBody (front ++ back)
  | block {inner : List Token.Kind} (hinner : FunctionBody inner) : FunctionBody (inBraces inner)
  | function {header inner : List Token.Kind} (hheader : ∀ kind ∈ header, kind.IsPlain)
      (hinner : FunctionBody inner) :
      FunctionBody (.keyword .functionWord :: (header ++ inBraces inner))

/-- A whole function: its word, a header, and a body in braces. -/
def IsFunction (kinds : List Token.Kind) : Prop :=
  ∃ header inner, (∀ kind ∈ header, kind.IsPlain) ∧ FunctionBody inner ∧
    kinds = .keyword .functionWord :: (header ++ inBraces inner)

namespace Braces

variable {braces : Braces} {kind : Token.Kind} {header inner : List Token.Kind}

theorem read_of_isPlain (hkind : kind.IsPlain) : braces.read kind = braces := by
  obtain ⟨hfunction, hopen, hclose⟩ := hkind
  rw [read, if_neg hfunction, if_neg hopen, if_neg hclose]

theorem takes_of_isPlain (hkind : kind.IsPlain) : braces.Takes kind :=
  ⟨fun hfunction => absurd hfunction hkind.1, fun hclose => absurd hclose hkind.2.2⟩

theorem reads_of_isPlain (hheader : ∀ kind ∈ header, kind.IsPlain) :
    Reads braces header braces := by
  induction header with
  | nil => exact .nil
  | cons kind header ih =>
      obtain ⟨hkind, hrest⟩ := List.forall_mem_cons.mp hheader
      apply Reads.cons (takes_of_isPlain hkind)
      rw [read_of_isPlain hkind]
      exact ih hrest

/-- Matching braces leave the stack as it was, if what is in them does. -/
theorem reads_inBraces
    (hinner : Reads ⟨braces.awaitsBody :: braces.opened, false⟩ inner
      ⟨braces.awaitsBody :: braces.opened, false⟩)
    (hopened : braces.awaitsBody ∨ true ∈ braces.opened) :
    Reads braces (inBraces inner) ⟨braces.opened, false⟩ := by
  have hmem : true ∈ braces.awaitsBody :: braces.opened := by
    rw [List.mem_cons]
    exact hopened.imp Eq.symm id
  have hopen : braces.Takes (.punctuation .openBrace) :=
    ⟨Token.Kind.noConfusion, (absurd · (by decide))⟩
  have hclose : (⟨braces.awaitsBody :: braces.opened, false⟩ : Braces).Takes
      (.punctuation .closeBrace) := ⟨Token.Kind.noConfusion, fun _ => ⟨rfl, hmem⟩⟩
  exact .cons hopen (hinner.append (.cons hclose .nil))

/-- A function leaves the stack as it was, if its body does. -/
theorem reads_function (hheader : ∀ kind ∈ header, kind.IsPlain)
    (hinner : Reads ⟨true :: braces.opened, false⟩ inner ⟨true :: braces.opened, false⟩)
    (hawaits : braces.awaitsBody = false) :
    Reads braces (.keyword .functionWord :: (header ++ inBraces inner)) braces := by
  have hbody : Reads ⟨braces.opened, true⟩ (inBraces inner) ⟨braces.opened, false⟩ :=
    reads_inBraces hinner (.inl rfl)
  have hsame : (⟨braces.opened, false⟩ : Braces) = braces := by
    rw [← hawaits]
  rw [hsame] at hbody
  exact .cons ⟨fun _ => hawaits, Token.Kind.noConfusion⟩ ((reads_of_isPlain hheader).append hbody)

/-- The body of a function leaves the braces around it as they are. -/
theorem reads_of_functionBody (hbody : FunctionBody inner) {opened : List Bool}
    (hopened : true ∈ opened) : Reads ⟨opened, false⟩ inner ⟨opened, false⟩ := by
  induction hbody generalizing opened with
  | nil => exact .nil
  | plain hkind => exact reads_of_isPlain (by simpa using hkind)
  | append hfront hback ihFront ihBack => exact (ihFront hopened).append (ihBack hopened)
  | block hinner ih =>
      exact reads_inBraces (ih (List.mem_cons_of_mem false hopened)) (.inr hopened)
  | function hheader hinner ih => exact reads_function hheader (ih List.mem_cons_self) rfl

theorem reads_of_isFunction {kinds : List Token.Kind} (hfunction : IsFunction kinds) :
    Reads {} kinds {} := by
  obtain ⟨header, inner, hheader, hinner, rfl⟩ := hfunction
  exact reads_function hheader (reads_of_functionBody hinner List.mem_cons_self) rfl

/-- After any part of what is read, what layout counts tells where a body ends. -/
theorem Reads.closes_iff {front back : List Token.Kind} {last : Braces}
    (hreads : Reads {} (front ++ kind :: back) last) (base : Nesting) :
    (kind = .punctuation .closeBrace ∧
        (front.foldl Nesting.countBrace base).close.1 = some 0) ↔
      (after front).EndsBody kind := by
  obtain ⟨hfront, htakes⟩ := hreads.takes
  have hcounts : front.foldl Nesting.countBrace base = (after front).counts base :=
    hfront.foldl_countBrace base
  rw [hcounts]
  exact counts_eq_zero_iff htakes base

end Braces

/-! ### In a stream -/

namespace State

/-- The semicolon of a function comes where its body ends. -/
theorem functionEnd_iff {state : State} {base : Nesting} {front back : List Token.Kind}
    {kind : Token.Kind} {last : Braces}
    (hfunctions : state.functions = front.foldl Nesting.countBrace base)
    (hreads : Braces.Reads {} (front ++ kind :: back) last) (lineCrossed : Bool) :
    (state.rule? kind lineCrossed).map Rule.insertion =
        some (.after (.punctuation .semicolon)) ↔
      (Braces.after front).EndsBody kind := by
  refine (Rule.map_insertion_eq_iff .functionEnd (by decide)).trans ?_
  rw [rule?_eq_functionEnd_iff, hfunctions]
  exact hreads.closes_iff base

/-- What a semicolon that is inserted in front of a token tells about that token and the last. -/
theorem separated_or_export {state : State} {last : Token.Kind} {lineCrossed : Bool}
    {token : Token}
    (hinsertion :
      ((state.follow last lineCrossed).rule? token.kind token.flags.afterLineBreak).map
        Rule.insertion = some (.before (.punctuation .semicolon))) :
    token.kind = .keyword .exportWord ∨
      (token.followsLineBreak ∧ last.endsStatement ∧ token.kind.beginsStatement ∧
        ¬token.kind.continuesStatement) := by
  rw [Rule.map_insertion_eq_semicolon_iff, rule?_eq_semicolon_before_iff,
    separates_eq_true_iff] at hinsertion
  rcases hinsertion with ⟨hline, hends, hbegins⟩ | ⟨hexport, -⟩
  · right
    by_cases hend : state.rule? last lineCrossed = some .functionEnd
    · rw [last_follow_of_functionEnd hend] at hends
      cases hends
    · rw [(last_follow_of_not_functionEnd hend).1] at hends
      exact ⟨hline, hends, hbegins⟩
  · exact .inl hexport

end State

namespace Stream

variable {stream : Stream} {rest : List Token}

/-- The pieces of the next tokens. Only the first of them depends on what was read before. -/
def placements (stream : Stream) (rest : List Token) : List Placement :=
  ⟨stream.upcoming, stream.ready.rule?.map Rule.insertion⟩ ::
    stream.ready.passed.state.placements rest

theorem functions_passed (stream : Stream) :
    stream.ready.passed.state.functions =
      stream.state.functions.countBrace stream.upcoming.kind :=
  calc stream.ready.passed.state.functions
    _ = stream.ready.state.functions.countBrace stream.ready.upcoming.kind := rfl
    _ = stream.state.functions.countBrace stream.upcoming.kind := by
      rw [ready_functions, ready_upcoming]

theorem map_token_placements (stream : Stream) (rest : List Token) :
    (stream.placements rest).map Placement.token = stream.upcoming :: rest := by
  rw [placements, List.map_cons, State.map_token_placements]

theorem handsOut_placements (stream : Stream) (steps : Nat) :
    let rest := stream.scanner.next.2.firstTokens steps
    ∃ last,
      stream.HandsOut
          (stream.waiting.toList ++ (stream.placements rest).flatMap Placement.tokens) last ∧
        last.state.functions =
          ((stream.upcoming :: rest).map Token.kind).foldl Nesting.countBrace
            stream.state.functions := by
  intro rest
  obtain ⟨last, hhands, hstate⟩ := stream.handsOut_firstTokens steps
  refine ⟨last, ?_, ?_⟩
  · rw [placements, List.flatMap_cons, ← State.complete_eq_flatMap_placements]
    rw [chunk, ready_upcoming] at hhands
    exact hhands
  · rw [hstate, State.functions_through, functions_passed]
    rfl

/-- What is inserted at a token is told by a state with the functions that are open there. -/
theorem exists_rule?_of_split {front back : List Placement} {placement : Placement}
    (hsplit : stream.placements rest = front ++ placement :: back) :
    ∃ (state : State) (lineCrossed : Bool),
      state.functions =
          (front.map (·.token.kind)).foldl Nesting.countBrace stream.state.functions ∧
        placement.insertion? =
          (state.rule? placement.token.kind lineCrossed).map Rule.insertion := by
  cases front with
  | nil =>
      obtain ⟨rfl, -⟩ := List.cons.inj hsplit
      refine ⟨stream.ready.state, stream.ready.scanner.next.2.lineCrossed, ?_, ?_⟩
      · exact stream.ready_functions
      · rw [rule?, ready_upcoming]
  | cons head front =>
      obtain ⟨rfl, hrest⟩ := List.cons.inj hsplit
      obtain ⟨-, hplacement⟩ := State.eq_placement_of_split hrest
      refine ⟨_, _, ?_, congrArg Placement.insertion? hplacement⟩
      rw [State.functions_through, functions_passed, List.map_map]
      rfl

/-- Behind another token, the state is the one after that token. -/
theorem exists_follow_of_split {front back : List Placement} {last placement : Placement}
    (hsplit : stream.placements rest = front ++ last :: placement :: back) :
    ∃ (state : State) (lineCrossed : Bool),
      placement.insertion? =
        ((state.follow last.token.kind lineCrossed).rule? placement.token.kind
          placement.token.flags.afterLineBreak).map Rule.insertion := by
  cases front with
  | nil =>
      obtain ⟨rfl, htail⟩ := List.cons.inj hsplit
      have hrest : stream.ready.passed.state.placements rest = [] ++ placement :: back := htail
      obtain ⟨-, hplacement⟩ := State.eq_placement_of_split hrest
      refine ⟨stream.ready.state, stream.ready.scanner.next.2.lineCrossed, ?_⟩
      rw [← ready_upcoming]
      exact congrArg Placement.insertion? hplacement
  | cons head front =>
      have hrest : stream.ready.passed.state.placements rest =
          (front ++ [last]) ++ placement :: back :=
        (List.cons.inj hsplit).2.trans (List.append_cons front last (placement :: back))
      obtain ⟨-, hplacement⟩ := State.eq_placement_of_split hrest
      rw [List.map_append, State.through_append] at hplacement
      exact ⟨_, _, congrArg Placement.insertion? hplacement⟩

/-- **The ends of functions.** Whatever a stream has read before, in the tokens of a function it
inserts a semicolon right after each brace that closes the body of a function, and no other one but
between two statements or before an export. The functions that were open before are open again after
it. -/
theorem functions_end {count : Nat} {tokens : List Token}
    (hraw : stream.scanner.firstTokens count = tokens)
    (hfunction : IsFunction (tokens.map Token.kind)) :
    ∃ placements last,
      stream.HandsOut (stream.waiting.toList ++ placements.flatMap Placement.tokens) last ∧
        placements.map Placement.token = tokens ∧
        (∀ front placement back, placements = front ++ placement :: back →
          (placement.insertion? = some (.after (.punctuation .semicolon)) ↔
            (Braces.after (front.map (·.token.kind))).EndsBody placement.token.kind)) ∧
        (∀ front last placement back, placements = front ++ last :: placement :: back →
          placement.insertion? = some (.before (.punctuation .semicolon)) →
          placement.token.kind = .keyword .exportWord ∨
            (placement.token.followsLineBreak ∧ last.token.kind.endsStatement ∧
              placement.token.kind.beginsStatement ∧
              ¬placement.token.kind.continuesStatement)) ∧
        last.state.functions = stream.state.functions := by
  have hreads := Braces.reads_of_isFunction hfunction
  obtain ⟨steps, rfl⟩ : ∃ steps, count = steps + 1 := by
    cases count with
    | zero =>
        obtain ⟨header, inner, -, -, hkinds⟩ := hfunction
        rw [← hraw] at hkinds
        cases hkinds
    | succ steps => exact ⟨steps, rfl⟩
  have htokens : stream.upcoming :: stream.scanner.next.2.firstTokens steps = tokens := hraw
  obtain ⟨last, hhands, hfunctions⟩ := stream.handsOut_placements steps
  rw [htokens] at hfunctions
  refine ⟨_, last, hhands, (stream.map_token_placements _).trans htokens, ?_, ?_, ?_⟩
  · intro front placement back hsplit
    obtain ⟨state, lineCrossed, hstate, hinsertion⟩ := exists_rule?_of_split hsplit
    have hkinds : tokens.map Token.kind =
        front.map (·.token.kind) ++ placement.token.kind :: back.map (·.token.kind) := by
      rw [← htokens, ← stream.map_token_placements, hsplit, List.map_map, List.map_append]
      rfl
    rw [hkinds] at hreads
    rw [hinsertion]
    exact State.functionEnd_iff hstate hreads lineCrossed
  · intro front last placement back hsplit hsemicolon
    obtain ⟨state, lineCrossed, hinsertion⟩ := exists_follow_of_split hsplit
    exact State.separated_or_export (hinsertion.symm.trans hsemicolon)
  · exact hfunctions.trans (hreads.foldl_countBrace stream.state.functions)

/-- In a function with a block and another function in its body, behind a brace that closes nothing,
the brace that closes the inner function has a semicolon behind it and the one of the block has
none. -/
theorem functions_end_nested :
    let stream := (ofText "\x7dfunction f()\x7b\x7b\x7dfunction()\x7b\x7d\x7d" {}).after 1
    let parens : List Token.Kind := [.punctuation .openParen, .punctuation .closeParen]
    let inner := inBraces [] ++ .keyword .functionWord :: (parens ++ inBraces [])
    let tokens := stream.scanner.firstTokens 13
    tokens.map Token.kind = .keyword .functionWord :: (.identifier :: parens ++ inBraces inner) ∧
      IsFunction (tokens.map Token.kind) ∧
      ∃ (header between behind : List Placement) (block nested : Placement) (last : Stream),
        let placements := header ++ block :: (between ++ nested :: behind)
        stream.HandsOut (stream.waiting.toList ++ placements.flatMap Placement.tokens) last ∧
          placements.map Placement.token = tokens ∧
          block.token.span = ⟨15, 16⟩ ∧
          block.insertion? ≠ some (.after (.punctuation .semicolon)) ∧
          nested.token.span = ⟨27, 28⟩ ∧
          nested.insertion? = some (.after (.punctuation .semicolon)) ∧
          last.state.functions = stream.state.functions := by
  intro stream parens inner tokens
  have hkinds : tokens.map Token.kind =
      .keyword .functionWord :: (.identifier :: parens ++ inBraces inner) := by decide +kernel
  have hraw : stream.scanner.firstTokens 13 = tokens := rfl
  have hinner : FunctionBody inner := .append (.block .nil) (.function (by decide) .nil)
  have hfunction : IsFunction (tokens.map Token.kind) :=
    ⟨.identifier :: parens, inner, by decide, hinner, hkinds⟩
  obtain ⟨placements, last, hhands, htokens, hends, -, hfunctions⟩ :=
    functions_end hraw hfunction
  let brace (start : Nat) : Token :=
    { kind := .punctuation .closeBrace, span := ⟨start, start + 1⟩, content := .text "\x7d" }
  have hsplit : tokens = tokens.take 6 ++
      brace 15 :: ((tokens.drop 7).take 4 ++ brace 27 :: tokens.drop 12) := by decide +kernel
  obtain ⟨header, tail, rfl, hheader, htail⟩ := List.map_eq_append_iff.mp (htokens.trans hsplit)
  obtain ⟨block, rest, rfl, hblock, hrest⟩ := List.map_eq_cons_iff.mp htail
  obtain ⟨between, tail, rfl, hbetween, htail⟩ := List.map_eq_append_iff.mp hrest
  obtain ⟨nested, behind, rfl, hnested, -⟩ := List.map_eq_cons_iff.mp htail
  have hmap (front : List Placement) :
      front.map (·.token.kind) = (front.map Placement.token).map Token.kind := List.map_map.symm
  refine ⟨hkinds, hfunction, header, between, behind, block, nested, last, hhands, htokens,
    congrArg Token.span hblock, ?_, congrArg Token.span hnested, ?_, hfunctions⟩
  · rw [ne_eq, hends header block _ rfl, hmap, hheader, hblock]
    decide +kernel
  · rw [hends (header ++ block :: between) nested behind (by simp), hmap, List.map_append,
      List.map_cons, hheader, hblock, hbetween, hnested]
    decide +kernel

end Stream

end Layout

end FormulaScript
