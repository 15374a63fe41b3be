import FormulaScript.Token.Basic

/-!
Layout completes what authors may leave out, so that a grammar can ask for fully delimited input: a
semicolon between statements on different lines, before every export and after every function body,
braces around the body of an arrow function, and parentheses inside an index.

Each token gives rise to at most one inserted token, right before or right after it.
-/

namespace FormulaScript.Layout

/-- Counts of open delimiters, one for each construct that is open, the innermost first. -/
structure Nesting where
  counts : List Int := []
deriving DecidableEq, Repr, Inhabited

namespace Nesting

/-- What signed words hold of the counts, which wrap around between the least and the greatest. -/
def wrap (nesting : Nesting) : Nesting :=
  ⟨nesting.counts.map (Int.bmod · wordSize)⟩

def depth (nesting : Nesting) : Nat :=
  nesting.counts.length

/-- Opens a construct with a first count. -/
def enter (nesting : Nesting) (count : Int) : Nesting :=
  ⟨count :: nesting.counts⟩

/-- Counts an opening delimiter in the innermost construct. -/
def deepen : Nesting → Nesting
  | ⟨[]⟩ => ⟨[]⟩
  | ⟨count :: outer⟩ => ⟨(count + 1) :: outer⟩

/-- Counts a closing delimiter in the innermost construct, which ends when its count comes to zero. The count is told when a construct is open. -/
def close : Nesting → Option Int × Nesting
  | ⟨[]⟩ => (none, ⟨[]⟩)
  | ⟨count :: outer⟩ =>
      (some (count - 1), if count - 1 = 0 then ⟨outer⟩ else ⟨(count - 1) :: outer⟩)

end Nesting

/-- A token to insert next to the one just read. -/
inductive Insertion where
  | before (kind : Token.Kind)
  | after (kind : Token.Kind)
deriving DecidableEq, Repr

structure State where
  /-- The kind of the token handed out last, which may be an inserted one. -/
  last : Token.Kind := .unknown
  /-- The open functions, by their braces. -/
  functions : Nesting := {}
  /-- The open indices, by their brackets. -/
  indices : Nesting := {}
  /-- The parentheses that are open in and around an arrow body. -/
  arrowParens : Int := 0
  /-- An arrow body without braces of its own is open. -/
  inArrow : Bool := false
deriving DecidableEq, Repr, Inhabited

namespace State

/-- What signed words hold of the counters. -/
def wrap (state : State) : State :=
  { state with
    functions := state.functions.wrap
    indices := state.indices.wrap
    arrowParens := state.arrowParens.bmod wordSize }

def emit (state : State) (kind : Token.Kind) : State :=
  { state with last := kind }

/-- Counts what a token opens, whatever is inserted at it. -/
def track (state : State) (kind : Token.Kind) : State :=
  match kind with
  | .keyword .functionWord => { state with functions := state.functions.enter 0 }
  | .punctuation .openBrace => { state with functions := state.functions.deepen }
  | .punctuation .openParen =>
      if state.inArrow then { state with arrowParens := state.arrowParens + 1 } else state
  | _ => state

/-- Whether a token begins a statement on a new line, after one that has ended. -/
def separates (state : State) (kind : Token.Kind) (lineCrossed : Bool) : Bool :=
  lineCrossed && state.last.endsStatement && !kind.continuesStatement && kind.beginsStatement

/-- Counts a closing brace, and tells whether it ends the innermost function. -/
def closeFunction (state : State) (kind : Token.Kind) : Bool × State :=
  if kind = .punctuation .closeBrace then
    let (count, functions) := state.functions.close
    (count == some 0, { state with functions := functions })
  else (false, state)

/-- Enters an arrow body, which stands in parentheses and may begin with one more. -/
def openArrow (state : State) (kind : Token.Kind) : State :=
  { state with
    inArrow := true
    arrowParens := if kind = .punctuation .openParen then 2 else 1 }

/-- Counts a closing parenthesis in an arrow body, and tells whether it ends the body. -/
def closeArrow (state : State) (kind : Token.Kind) : Bool × State :=
  if state.inArrow ∧ kind = .punctuation .closeParen then
    let parens := state.arrowParens - 1
    (parens == 0, { state with arrowParens := parens, inArrow := parens != 0 })
  else (false, state)

/-- Counts a closing bracket, and tells whether it ends the innermost index. -/
def closeIndex (state : State) (kind : Token.Kind) : Bool × State :=
  if kind = .punctuation .closeBracket then
    let (count, indices) := state.indices.close
    (count == some 0, { state with indices := indices })
  else (false, state)

/-- A bracket after an identifier opens an index, whose expression goes into parentheses. -/
def insertAtIndex (state : State) (kind : Token.Kind) : Option Insertion × State :=
  if kind = .punctuation .openBracket ∧ state.last = .identifier then
    (some (.after (.punctuation .openParen)), { state with indices := state.indices.enter 1 })
  else
    let (ends, state) := state.closeIndex kind
    (if ends then some (.before (.punctuation .closeParen)) else none, state)

/-- An arrow body without braces gets braces. -/
def insertAtArrow (state : State) (kind : Token.Kind) : Option Insertion × State :=
  if state.last = .punctuation .equalsGreaterThan ∧ kind ≠ .punctuation .openBrace then
    (some (.before (.punctuation .openBrace)), state.openArrow kind)
  else
    let (ends, state) := state.closeArrow kind
    if ends then (some (.before (.punctuation .closeBrace)), state)
    else state.insertAtIndex kind

/-- What the first rule that applies inserts. -/
def insert (state : State) (kind : Token.Kind) (lineCrossed : Bool) : Option Insertion × State :=
  if state.separates kind lineCrossed then (some (.before (.punctuation .semicolon)), state)
  else if kind = .keyword .exportWord ∧ state.last ≠ .punctuation .semicolon then
    (some (.before (.punctuation .semicolon)), state)
  else
    let (ends, state) := state.closeFunction kind
    if ends then (some (.after (.punctuation .semicolon)), state)
    else state.insertAtArrow kind

/-- A bracket that opens no index nests inside the innermost one. -/
def nestBracket (state : State) (kind : Token.Kind) (insertion : Option Insertion) : State :=
  match insertion with
  | some (.after _) => state
  | _ =>
      if kind = .punctuation .openBracket then { state with indices := state.indices.deepen }
      else state

/-- What to insert at a token. Nothing is inserted at semicolons and at the end of the text. -/
def place (state : State) (kind : Token.Kind) (lineCrossed : Bool) : Option Insertion × State :=
  if kind = .punctuation .semicolon ∨ kind = .endOfText then (none, state)
  else
    let (insertion, state) := (state.track kind).insert kind lineCrossed
    (insertion, state.nestBracket kind insertion)

@[simp]
theorem place_semicolon (state : State) (lineCrossed : Bool) :
    state.place (.punctuation .semicolon) lineCrossed = (none, state) := by
  simp [place]

@[simp]
theorem place_endOfText (state : State) (lineCrossed : Bool) :
    state.place .endOfText lineCrossed = (none, state) := by
  simp [place]

end State

/-- A token and what is inserted at it, in order. -/
def withInsertion (token : Token) : Option Insertion → List Token
  | none => [token]
  | some (.before kind) => [.inserted kind token.span.start, token]
  | some (.after kind) => [token, .inserted kind token.span.stop]

namespace State

def emitAll (state : State) (tokens : List Token) : State :=
  tokens.foldl (fun state token => state.emit token.kind) state

/-- Completes one token. -/
def step (state : State) (token : Token) (lineCrossed : Bool) : List Token × State :=
  let (insertion, state) := state.place token.kind lineCrossed
  let tokens := withInsertion token insertion
  (tokens, state.emitAll tokens)

/-- Completes a list of tokens, which tell by their flags where lines were crossed. -/
def complete (state : State) : List Token → List Token
  | [] => []
  | token :: rest =>
      let (tokens, next) := state.step token token.flags.afterLineBreak
      tokens ++ next.complete rest

end State

end FormulaScript.Layout
