import FormulaScript.Layout.Stream
import Mathlib.Tactic.Common

/-!
# The rules of layout

What a token gives rise to, told rule by rule, and what it does to each of the counters. Everything
that is shown about layout rests on these two descriptions and not on the order in which the rules
are tried.
-/

namespace FormulaScript.Layout

/-- What calls for an inserted token. -/
inductive Rule where
  | separator
  | exportBoundary
  | functionEnd
  | arrowOpen
  | arrowClose
  | indexOpen
  | indexClose
deriving DecidableEq, Repr

def Rule.insertion : Rule → Insertion
  | .separator | .exportBoundary => .before (.punctuation .semicolon)
  | .functionEnd => .after (.punctuation .semicolon)
  | .arrowOpen => .before (.punctuation .openBrace)
  | .arrowClose => .before (.punctuation .closeBrace)
  | .indexOpen => .after (.punctuation .openParen)
  | .indexClose => .before (.punctuation .closeParen)

/-- Whether a rule moves a counter of an index or an arrow body by itself. -/
def Rule.moves : Rule → Bool
  | .arrowOpen | .arrowClose | .indexOpen => true
  | .separator | .exportBoundary | .functionEnd | .indexClose => false

def Insertion.mark : Insertion → Token.Kind
  | .before mark | .after mark => mark

def insertedMarks : List Token.Kind :=
  [.punctuation .semicolon, .punctuation .openBrace, .punctuation .closeBrace,
    .punctuation .openParen, .punctuation .closeParen]

theorem Rule.mark_mem_insertedMarks (rule : Rule) : rule.insertion.mark ∈ insertedMarks := by
  cases rule <;> decide

theorem mem_withInsertion {token other : Token} {insertion? : Option Insertion}
    (hmem : other ∈ withInsertion token insertion?) :
    other = token ∨ ∃ insertion offset, insertion? = some insertion ∧
      other = .inserted insertion.mark offset := by
  rcases insertion? with _ | mark | mark
  · exact .inl (List.mem_singleton.mp hmem)
  · rcases List.mem_cons.mp hmem with rfl | hmem
    · exact .inr ⟨_, _, rfl, rfl⟩
    · exact .inl (List.mem_singleton.mp hmem)
  · rcases List.mem_cons.mp hmem with rfl | hmem
    · exact .inl rfl
    · exact .inr ⟨_, _, rfl, List.mem_singleton.mp hmem⟩

/-- The kind of a token with the mark that is inserted at it. -/
def withMark (kind : Token.Kind) : Option Insertion → List Token.Kind
  | none => [kind]
  | some (.before mark) => [mark, kind]
  | some (.after mark) => [kind, mark]

theorem map_kind_withInsertion (token : Token) (insertion? : Option Insertion) :
    (withInsertion token insertion?).map Token.kind = withMark token.kind insertion? := by
  rcases insertion? with _ | mark | mark <;> rfl

def Nesting.countBrace (functions : Nesting) (kind : Token.Kind) : Nesting :=
  if kind = .keyword .functionWord then functions.enter 0
  else if kind = .punctuation .openBrace then functions.deepen
  else if kind = .punctuation .closeBrace then functions.close.2
  else functions

/-- The indices that are open after a token, by their brackets. A closing bracket right after an
arrow is taken for the body of the arrow, and not counted. -/
def Nesting.countBracket (indices : Nesting) (rule? : Option Rule) (kind : Token.Kind) : Nesting :=
  if kind = .punctuation .openBracket then
    if rule? = some .indexOpen then indices.enter 1 else indices.deepen
  else if kind = .punctuation .closeBracket ∧ rule? ≠ some .arrowOpen then indices.close.2
  else indices

namespace State

/-- The first rule that applies at a token. -/
def rule? (state : State) (kind : Token.Kind) (lineCrossed : Bool) : Option Rule :=
  if kind = .punctuation .semicolon ∨ kind = .endOfText then none
  else if state.separates kind lineCrossed then some .separator
  else if kind = .keyword .exportWord ∧ state.last ≠ .punctuation .semicolon then
    some .exportBoundary
  else if kind = .punctuation .closeBrace ∧ state.functions.close.1 = some 0 then
    some .functionEnd
  else if state.last = .punctuation .equalsGreaterThan ∧ kind ≠ .punctuation .openBrace then
    some .arrowOpen
  else if state.inArrow ∧ kind = .punctuation .closeParen ∧ state.arrowParens = 1 then
    some .arrowClose
  else if kind = .punctuation .openBracket ∧ state.last = .identifier then some .indexOpen
  else if kind = .punctuation .closeBracket ∧ state.indices.close.1 = some 0 then
    some .indexClose
  else none

@[simp]
theorem rule?_semicolon (state : State) (lineCrossed : Bool) :
    state.rule? (.punctuation .semicolon) lineCrossed = none := by
  simp [rule?]

@[simp]
theorem rule?_endOfText (state : State) (lineCrossed : Bool) :
    state.rule? .endOfText lineCrossed = none := by
  simp [rule?]

def Applies (state : State) (kind : Token.Kind) (lineCrossed : Bool) : Rule → Prop
  | .separator => state.separates kind lineCrossed
  | .exportBoundary => kind = .keyword .exportWord ∧ state.last ≠ .punctuation .semicolon
  | .functionEnd => kind = .punctuation .closeBrace ∧ state.functions.close.1 = some 0
  | .arrowOpen =>
      state.last = .punctuation .equalsGreaterThan ∧ kind ≠ .punctuation .openBrace
  | .arrowClose => state.inArrow ∧ kind = .punctuation .closeParen ∧ state.arrowParens = 1
  | .indexOpen => kind = .punctuation .openBracket ∧ state.last = .identifier
  | .indexClose => kind = .punctuation .closeBracket ∧ state.indices.close.1 = some 0

theorem applies_of_rule? {state : State} {kind : Token.Kind} {lineCrossed : Bool} {rule : Rule}
    (hrule : state.rule? kind lineCrossed = some rule) : state.Applies kind lineCrossed rule := by
  unfold rule? at hrule
  split_ifs at hrule <;> obtain rfl := Option.some.inj hrule <;> assumption

theorem rule?_closeParen (state : State) (lineCrossed : Bool) :
    state.rule? (.punctuation .closeParen) lineCrossed =
      if state.last = .punctuation .equalsGreaterThan then some .arrowOpen
      else if state.inArrow ∧ state.arrowParens = 1 then some .arrowClose
      else none := by
  simp [rule?, separates, Token.Kind.beginsStatement]

theorem rule?_closeBrace (state : State) (lineCrossed : Bool) :
    state.rule? (.punctuation .closeBrace) lineCrossed =
      if state.functions.close.1 = some 0 then some .functionEnd
      else if state.last = .punctuation .equalsGreaterThan then some .arrowOpen
      else none := by
  simp [rule?, separates, Token.Kind.beginsStatement]

theorem rule?_closeBracket (state : State) (lineCrossed : Bool) :
    state.rule? (.punctuation .closeBracket) lineCrossed =
      if state.last = .punctuation .equalsGreaterThan then some .arrowOpen
      else if state.indices.close.1 = some 0 then some .indexClose
      else none := by
  simp [rule?, separates, Token.Kind.beginsStatement]

theorem separates_eq_true_iff (state : State) (kind : Token.Kind) (lineCrossed : Bool) :
    state.separates kind lineCrossed = true ↔
      lineCrossed ∧ state.last.endsStatement ∧ kind.beginsStatement ∧ ¬kind.continuesStatement := by
  simp only [separates, Bool.and_eq_true, Bool.not_eq_true', Bool.not_eq_true]
  tauto

/-- The parentheses in and around an arrow body after a token. -/
def countParen (state : State) (rule? : Option Rule) (kind : Token.Kind) : Int :=
  if rule? = some .arrowOpen then if kind = .punctuation .openParen then 2 else 1
  else if state.inArrow ∧ kind = .punctuation .openParen then state.arrowParens + 1
  else if state.inArrow ∧ kind = .punctuation .closeParen then state.arrowParens - 1
  else state.arrowParens

def count (state : State) (rule? : Option Rule) (kind : Token.Kind) : State where
  last := state.last
  functions := state.functions.countBrace kind
  indices := state.indices.countBracket rule? kind
  arrowParens := state.countParen rule? kind
  inArrow :=
    if rule? = some .arrowOpen then true
    else if rule? = some .arrowClose then false
    else state.inArrow

theorem count_eq_count_none (state : State) (kind : Token.Kind) {rule : Rule}
    (hmoves : rule.moves = false) : state.count (some rule) kind = state.count none kind := by
  have hne : rule ≠ .arrowOpen ∧ rule ≠ .arrowClose ∧ rule ≠ .indexOpen := by
    refine ⟨?_, ?_, ?_⟩ <;> rintro rfl <;> cases hmoves
  simp [count, countParen, Nesting.countBracket, hne]

theorem track_eq (state : State) (kind : Token.Kind) :
    state.track kind =
      { state with
        functions :=
          if kind = .keyword .functionWord then state.functions.enter 0
          else if kind = .punctuation .openBrace then state.functions.deepen
          else state.functions
        arrowParens :=
          if state.inArrow ∧ kind = .punctuation .openParen then state.arrowParens + 1
          else state.arrowParens } := by
  obtain ⟨last, functions, indices, arrowParens, inArrow⟩ := state
  unfold track
  split
  · simp
  · simp
  · cases inArrow <;> simp
  · simp_all

theorem nestBracket_eq (state : State) (kind : Token.Kind) (insertion : Option Insertion) :
    state.nestBracket kind insertion =
      if insertion matches some (.after _) then state
      else if kind = .punctuation .openBracket then { state with indices := state.indices.deepen }
      else state := by
  unfold nestBracket
  split <;> simp

theorem place_eq (state : State) (kind : Token.Kind) (lineCrossed : Bool) :
    state.place kind lineCrossed =
      ((state.rule? kind lineCrossed).map Rule.insertion,
        state.count (state.rule? kind lineCrossed) kind) := by
  obtain ⟨last, functions, indices, arrowParens, inArrow⟩ := state
  -- The kinds that the later rules look at, then all the others at once.
  by_cases hkind : kind = .punctuation .closeBrace ∨ kind = .punctuation .closeParen ∨
      kind = .punctuation .closeBracket ∨ kind = .punctuation .openBracket
  · rcases hkind with rfl | rfl | rfl | rfl
    all_goals
      simp [place, insert, insertAtArrow, insertAtIndex, closeFunction, closeArrow, closeIndex,
        openArrow, track_eq, nestBracket_eq, rule?, count, countParen, Nesting.countBrace,
        Nesting.countBracket, separates, Token.Kind.beginsStatement]
      split_ifs <;> simp_all [Rule.insertion] <;> omega
  · simp only [not_or] at hkind
    simp [place, insert, insertAtArrow, insertAtIndex, closeFunction, closeArrow, closeIndex,
      openArrow, track_eq, nestBracket_eq, rule?, count, countParen, Nesting.countBrace,
      Nesting.countBracket, separates, hkind]
    split_ifs <;> simp_all [Rule.insertion]

/-- The kind handed out last, once a token and what is inserted at it have been. -/
def lastAfter (kind : Token.Kind) : Option Insertion → Token.Kind
  | some (.after mark) => mark
  | _ => kind

/-- The state once a token and what is inserted at it have been handed out. -/
def follow (state : State) (kind : Token.Kind) (lineCrossed : Bool) : State :=
  { state.count (state.rule? kind lineCrossed) kind with
    last := lastAfter kind ((state.rule? kind lineCrossed).map Rule.insertion) }

/-- No mark that is inserted right after a token is an arrow. -/
theorem eq_arrow_of_last_follow {state : State} {kind : Token.Kind} {lineCrossed : Bool}
    (hlast : (state.follow kind lineCrossed).last = .punctuation .equalsGreaterThan) :
    kind = .punctuation .equalsGreaterThan := by
  rw [follow] at hlast
  cases hrule : state.rule? kind lineCrossed with
  | none =>
      rw [hrule] at hlast
      exact hlast
  | some rule =>
      rw [hrule] at hlast
      cases rule <;> first | exact hlast | cases hlast

theorem step_eq (state : State) (token : Token) (lineCrossed : Bool) :
    state.step token lineCrossed =
      (withInsertion token ((state.rule? token.kind lineCrossed).map Rule.insertion),
        state.follow token.kind lineCrossed) := by
  rw [step, place_eq, follow]
  dsimp only
  generalize (state.rule? token.kind lineCrossed).map Rule.insertion = insertion
  rcases insertion with _ | _ | _ <;> rfl

def through (state : State) : List Token → State
  | [] => state
  | token :: rest => (state.follow token.kind token.flags.afterLineBreak).through rest

def chunk (state : State) (token : Token) : List Token :=
  withInsertion token ((state.rule? token.kind token.flags.afterLineBreak).map Rule.insertion)

@[simp]
theorem complete_nil (state : State) : state.complete [] = [] := rfl

theorem complete_cons (state : State) (token : Token) (rest : List Token) :
    state.complete (token :: rest) =
      state.chunk token ++
        (state.follow token.kind token.flags.afterLineBreak).complete rest := by
  rw [complete, step_eq, chunk]

theorem complete_append (state : State) (front back : List Token) :
    state.complete (front ++ back) =
      state.complete front ++ (state.through front).complete back := by
  induction front generalizing state with
  | nil => rfl
  | cons token front ih =>
      rw [List.cons_append, complete_cons, complete_cons, ih, through, List.append_assoc]

theorem through_append (state : State) (front back : List Token) :
    state.through (front ++ back) = (state.through front).through back := by
  induction front generalizing state with
  | nil => rfl
  | cons token front ih => exact ih _

end State

end FormulaScript.Layout
