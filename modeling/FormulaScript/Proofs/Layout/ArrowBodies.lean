import FormulaScript.Proofs.Layout.Semicolons
import FormulaScript.Proofs.Scanner.Ends
import Mathlib.Data.List.Infix

/-!
# Arrow bodies

One count of parentheses serves all arrow bodies. It starts anew at every arrow without braces, goes
along with the parentheses of the text, and is back at zero at the parenthesis that closes the one
around the arrow. Until then no brace is inserted, whatever the other rules do.
-/

namespace FormulaScript

namespace Token

/-- How a token changes the count of open parentheses. -/
def Kind.parenStep : Kind → Int
  | .punctuation .openParen => 1
  | .punctuation .closeParen => -1
  | _ => 0

theorem Kind.parenStep_of_ne {kind : Kind} (hopen : kind ≠ .punctuation .openParen)
    (hclose : kind ≠ .punctuation .closeParen) : kind.parenStep = 0 := by
  rw [parenStep.eq_def]
  split
  · exact absurd rfl hopen
  · exact absurd rfl hclose
  · rfl

def isInsertedBrace (token : Token) : Bool :=
  token.isInserted &&
    (token.kind = .punctuation .openBrace || token.kind = .punctuation .closeBrace)

@[simp]
theorem isInsertedBrace_inserted (kind : Kind) (offset : Nat) :
    (Token.inserted kind offset).isInsertedBrace =
      (kind = .punctuation .openBrace || kind = .punctuation .closeBrace) := rfl

theorem isInsertedBrace_of_not_isInserted {token : Token} (htoken : token.isInserted = false) :
    token.isInsertedBrace = false := by
  rw [isInsertedBrace, htoken, Bool.false_and]

end Token

namespace Layout

/-! ### Parentheses and arrows in a list of tokens -/

def openParens : List Token.Kind → Int
  | [] => 0
  | kind :: rest => kind.parenStep + openParens rest

/-- With so many parentheses open in front of it, no beginning of the list closes more. -/
def ParensHold (depth : Int) (kinds : List Token.Kind) : Prop :=
  ∀ front, front <+: kinds → 0 ≤ depth + openParens front

/-- The list opens as many parentheses as it closes, and none is closed before it is opened. -/
structure ParensBalanced (kinds : List Token.Kind) : Prop where
  hold : ParensHold 0 kinds
  closed : openParens kinds = 0

instance (depth : Int) (kinds : List Token.Kind) : Decidable (ParensHold depth kinds) :=
  decidable_of_iff (∀ front ∈ kinds.inits, 0 ≤ depth + openParens front) (by
    simp only [List.mem_inits]
    rfl)

instance (kinds : List Token.Kind) : Decidable (ParensBalanced kinds) :=
  decidable_of_iff (ParensHold 0 kinds ∧ openParens kinds = 0)
    ⟨fun h => ⟨h.1, h.2⟩, fun h => ⟨h.hold, h.closed⟩⟩

/-- Every arrow has a brace right behind it. -/
def ArrowsBraced (kinds : List Token.Kind) : Prop :=
  ∀ front back, kinds = front ++ .punctuation .equalsGreaterThan :: back →
    back.head? = some (.punctuation .openBrace)

section

variable {depth : Int} {kind : Token.Kind} {kinds rest : List Token.Kind}

@[simp]
theorem openParens_nil : openParens [] = 0 := rfl

theorem openParens_cons (kind : Token.Kind) (rest : List Token.Kind) :
    openParens (kind :: rest) = kind.parenStep + openParens rest := rfl

theorem ParensHold.head (hhold : ParensHold depth (kind :: rest)) : 0 ≤ depth + kind.parenStep := by
  have hfirst := hhold [kind] ⟨rest, rfl⟩
  rwa [openParens_cons, openParens_nil, Int.add_zero] at hfirst

theorem ParensHold.tail (hhold : ParensHold depth (kind :: rest)) :
    ParensHold (depth + kind.parenStep) rest := by
  intro front hfront
  have hlonger := hhold (kind :: front) (List.cons_prefix_cons.mpr ⟨rfl, hfront⟩)
  rwa [openParens_cons, ← Int.add_assoc] at hlonger

theorem ArrowsBraced.tail (hbraced : ArrowsBraced (kind :: rest)) : ArrowsBraced rest := by
  intro front back hrest
  exact hbraced (kind :: front) back (congrArg (kind :: ·) hrest)

theorem ArrowsBraced.head? (hbraced : ArrowsBraced (.punctuation .equalsGreaterThan :: rest)) :
    rest.head? = some (.punctuation .openBrace) :=
  hbraced [] rest rfl

theorem arrowsBraced_of_notMem (hkinds : .punctuation .equalsGreaterThan ∉ kinds) :
    ArrowsBraced kinds := by
  intro front back hsplit
  rw [hsplit] at hkinds
  exact absurd (List.mem_append_right front List.mem_cons_self) hkinds

end

namespace State

/-- While an arrow body is open its count stands above a ground level by the parentheses that have
been opened since. -/
def CountsFrom (ground depth : Int) (state : State) : Prop :=
  state.inArrow = true → state.arrowParens = ground + depth

variable {state : State} {kind : Token.Kind} {ground depth : Int}

/-! ### One token -/

theorem rule?_arrow (state : State) (lineCrossed : Bool) :
    state.rule? (.punctuation .equalsGreaterThan) lineCrossed =
      if state.last = .punctuation .equalsGreaterThan then some .arrowOpen else none := by
  simp [rule?, separates, Token.Kind.beginsStatement]

theorem rule?_openParen (state : State) (lineCrossed : Bool) :
    state.rule? (.punctuation .openParen) lineCrossed =
      if state.last = .punctuation .equalsGreaterThan then some .arrowOpen else none := by
  simp [rule?, separates, Token.Kind.beginsStatement]

/-- Behind an arrow a body is opened, unless another rule has the token for itself. -/
theorem rule?_of_last_arrow (hlast : state.last = .punctuation .equalsGreaterThan)
    (hopenBrace : kind ≠ .punctuation .openBrace) (hcloseBrace : kind ≠ .punctuation .closeBrace)
    (hsemicolon : kind ≠ .punctuation .semicolon) (hexport : kind ≠ .keyword .exportWord)
    (hend : kind ≠ .endOfText) (lineCrossed : Bool) :
    state.rule? kind lineCrossed = some .arrowOpen := by
  simp [rule?, separates, hlast, Token.Kind.endsStatement, hopenBrace, hcloseBrace, hsemicolon,
    hexport, hend]

theorem openArrow_of_rule? {lineCrossed : Bool}
    (hrule : state.rule? kind lineCrossed = some .arrowOpen)
    (hcloseParen : kind ≠ .punctuation .closeParen) :
    (state.follow kind lineCrossed).inArrow = true ∧
      (state.follow kind lineCrossed).CountsFrom 1 kind.parenStep := by
  have hparens : (state.follow kind lineCrossed).arrowParens =
      if kind = .punctuation .openParen then 2 else 1 := by
    simp [follow, hrule, count, countParen]
  refine ⟨by simp [follow, hrule, count], fun _ => ?_⟩
  rw [hparens, Token.Kind.parenStep.eq_def]
  split <;> simp_all

theorem closeArrow_of_open (hin : state.inArrow = true) (hparens : state.arrowParens = 1)
    (hlast : state.last ≠ .punctuation .equalsGreaterThan) (lineCrossed : Bool) :
    state.rule? (.punctuation .closeParen) lineCrossed = some .arrowClose ∧
      (state.follow (.punctuation .closeParen) lineCrossed).inArrow = false ∧
      (state.follow (.punctuation .closeParen) lineCrossed).arrowParens = 0 := by
  have hrule : state.rule? (.punctuation .closeParen) lineCrossed = some .arrowClose := by
    rw [rule?_closeParen, if_neg hlast, if_pos ⟨hin, hparens⟩]
  refine ⟨hrule, ?_, ?_⟩
  · simp [follow, hrule, count]
  · simp [follow, hrule, count, countParen, hin, hparens]

/-- The count is not back at zero as long as a parenthesis of the text is closed by the token. -/
theorem rule?_ne_of_counts (hground : 1 ≤ ground) (hcounts : state.CountsFrom ground depth)
    (hstep : 0 ≤ depth + kind.parenStep)
    (hbraced : state.last = .punctuation .equalsGreaterThan → kind = .punctuation .openBrace)
    (lineCrossed : Bool) :
    state.rule? kind lineCrossed ≠ some .arrowOpen ∧
      state.rule? kind lineCrossed ≠ some .arrowClose := by
  constructor
  · intro hrule
    obtain ⟨hlast, hkind⟩ := applies_of_rule? hrule
    exact hkind (hbraced hlast)
  · intro hrule
    obtain ⟨hin, rfl, hone⟩ := applies_of_rule? hrule
    have hparens := hcounts hin
    simp only [Token.Kind.parenStep] at hstep
    omega

theorem arrowParens_follow {lineCrossed : Bool}
    (hopen : state.rule? kind lineCrossed ≠ some .arrowOpen) :
    (state.follow kind lineCrossed).arrowParens =
      if state.inArrow then state.arrowParens + kind.parenStep else state.arrowParens := by
  simp only [State.follow, count, countParen, hopen, if_false]
  by_cases hopenParen : kind = .punctuation .openParen
  · simp [hopenParen, Token.Kind.parenStep]
  · by_cases hcloseParen : kind = .punctuation .closeParen
    · simp [hcloseParen, Token.Kind.parenStep, Int.sub_eq_add_neg]
    · simp [hopenParen, hcloseParen, Token.Kind.parenStep_of_ne hopenParen hcloseParen]

theorem CountsFrom.follow (hcounts : state.CountsFrom ground depth) {lineCrossed : Bool}
    (hopen : state.rule? kind lineCrossed ≠ some .arrowOpen)
    (hclose : state.rule? kind lineCrossed ≠ some .arrowClose) :
    (state.follow kind lineCrossed).inArrow = state.inArrow ∧
      (state.follow kind lineCrossed).CountsFrom ground (depth + kind.parenStep) := by
  have hin : (state.follow kind lineCrossed).inArrow = state.inArrow := by
    simp [State.follow, count, hopen, hclose]
  refine ⟨hin, fun hopened => ?_⟩
  rw [hin] at hopened
  have hparens := hcounts hopened
  have hnext : (state.follow kind lineCrossed).arrowParens =
      state.arrowParens + kind.parenStep := by
    rw [arrowParens_follow hopen, if_pos hopened]
  omega

/-- Braces are inserted at the beginning and at the end of an arrow body only. -/
theorem filter_isInsertedBrace_chunk (state : State) {token : Token}
    (htoken : token.isInserted = false) :
    (state.chunk token).filter Token.isInsertedBrace =
      if state.rule? token.kind token.flags.afterLineBreak = some .arrowOpen then
        [.inserted (.punctuation .openBrace) token.span.start]
      else if state.rule? token.kind token.flags.afterLineBreak = some .arrowClose then
        [.inserted (.punctuation .closeBrace) token.span.start]
      else [] := by
  have hreal := Token.isInsertedBrace_of_not_isInserted htoken
  rw [chunk]
  cases state.rule? token.kind token.flags.afterLineBreak with
  | none => simp [withInsertion, hreal]
  | some rule => cases rule <;> simp [withInsertion, Rule.insertion, hreal]

/-! ### Tokens between the arrow and the parenthesis -/

theorem openBrace_ahead_of_arrowsBraced {token : Token} {rest : List Token}
    (hbraced : ArrowsBraced ((token :: rest).map Token.kind))
    (hlast : (state.past token).last = .punctuation .equalsGreaterThan) :
    (rest.map Token.kind).head? = some (.punctuation .openBrace) := by
  have hkind := eq_arrow_of_last_follow hlast
  rw [List.map_cons, hkind] at hbraced
  exact hbraced.head?

/-- Tokens that keep their parentheses to themselves, and whose arrows have braces, go by without a
brace that is inserted. -/
theorem CountsFrom.through {tokens : List Token} (hground : 1 ≤ ground)
    (hcounts : state.CountsFrom ground depth)
    (htokens : ∀ token ∈ tokens, token.isInserted = false)
    (hhold : ParensHold depth (tokens.map Token.kind))
    (hbraced : ArrowsBraced (tokens.map Token.kind))
    (hlast : state.last = .punctuation .equalsGreaterThan →
      (tokens.map Token.kind).head? = some (.punctuation .openBrace)) :
    (state.complete tokens).filter Token.isInsertedBrace = [] ∧
      (state.through tokens).inArrow = state.inArrow ∧
      (state.through tokens).CountsFrom ground (depth + openParens (tokens.map Token.kind)) ∧
      (state.through tokens).last ≠ .punctuation .equalsGreaterThan := by
  induction tokens generalizing state depth with
  | nil =>
      refine ⟨rfl, rfl, ?_, fun harrow => by cases hlast harrow⟩
      rwa [List.map_nil, openParens_nil, Int.add_zero]
  | cons token rest ih =>
      obtain ⟨htoken, hrest⟩ := List.forall_mem_cons.mp htokens
      have hbehind : state.last = .punctuation .equalsGreaterThan →
          token.kind = .punctuation .openBrace := fun harrow => Option.some.inj (hlast harrow)
      obtain ⟨hopen, hclose⟩ :=
        rule?_ne_of_counts hground hcounts hhold.head hbehind token.flags.afterLineBreak
      obtain ⟨hin, hnext⟩ := hcounts.follow hopen hclose
      obtain ⟨hfilter, hin', hcounts', hlast'⟩ :=
        ih hnext hrest hhold.tail hbraced.tail (openBrace_ahead_of_arrowsBraced hbraced)
      refine ⟨?_, hin'.trans hin, ?_, hlast'⟩
      · rw [complete_cons, List.filter_append, hfilter, filter_isInsertedBrace_chunk state htoken,
          if_neg hopen, if_neg hclose, List.append_nil]
      · rwa [List.map_cons, openParens_cons, ← Int.add_assoc]

/-- A body is opened at its first token, and is open still where its parentheses are balanced. -/
theorem complete_body {first : Token} {rest : List Token}
    (hrule : state.rule? first.kind first.flags.afterLineBreak = some .arrowOpen)
    (hrest : ∀ token ∈ rest, token.isInserted = false)
    (hbalanced : ParensBalanced ((first :: rest).map Token.kind))
    (hbraced : ArrowsBraced ((first :: rest).map Token.kind)) :
    state.complete (first :: rest) =
        .inserted (.punctuation .openBrace) first.span.start :: first ::
          (state.past first).complete rest ∧
      ((state.past first).complete rest).filter Token.isInsertedBrace = [] ∧
      (state.through (first :: rest)).inArrow = true ∧
      (state.through (first :: rest)).arrowParens = 1 ∧
      (state.through (first :: rest)).last ≠ .punctuation .equalsGreaterThan := by
  have hfirst : first.kind ≠ .punctuation .closeParen := by
    intro hkind
    have hhead := hbalanced.hold.head
    rw [hkind] at hhead
    exact absurd hhead (by decide)
  have hhold := hbalanced.hold.tail
  rw [Int.zero_add] at hhold
  obtain ⟨hin, hcounts⟩ := openArrow_of_rule? hrule hfirst
  obtain ⟨hnone, hin', hcounts', hlast⟩ :=
    hcounts.through (Int.le_refl 1) hrest hhold hbraced.tail
      (openBrace_ahead_of_arrowsBraced hbraced)
  have hopen := hin'.trans hin
  have hparens := hcounts' hopen
  rw [← openParens_cons, ← List.map_cons, hbalanced.closed] at hparens
  refine ⟨?_, hnone, hopen, hparens, hlast⟩
  rw [complete_cons, chunk, hrule]
  rfl

/-- From the first token behind an arrow to the parenthesis that closes the one around it. -/
theorem complete_arrowBody {first close : Token} {rest : List Token}
    (hrule : state.rule? first.kind first.flags.afterLineBreak = some .arrowOpen)
    (hclose : close.kind = .punctuation .closeParen)
    (hrest : ∀ token ∈ rest, token.isInserted = false)
    (hbalanced : ParensBalanced ((first :: rest).map Token.kind))
    (hbraced : ArrowsBraced ((first :: rest).map Token.kind)) :
    ∃ middle,
      state.complete (first :: rest ++ [close]) =
        .inserted (.punctuation .openBrace) first.span.start :: first ::
          (middle ++ [.inserted (.punctuation .closeBrace) close.span.start, close]) ∧
      middle.filter (!·.isInserted) = rest ∧
      middle.filter Token.isInsertedBrace = [] ∧
      (state.through (first :: rest ++ [close])).inArrow = false ∧
      (state.through (first :: rest ++ [close])).arrowParens = 0 := by
  obtain ⟨hbody, hnone, hin, hparens, hlast⟩ := complete_body hrule hrest hbalanced hbraced
  obtain ⟨hclosed, hout, hzero⟩ :=
    closeArrow_of_open hin hparens hlast close.flags.afterLineBreak
  refine ⟨(state.past first).complete rest, ?_, filter_complete _ hrest, hnone, ?_, ?_⟩
  · rw [complete_append, hbody, complete_cons, chunk, hclose, hclosed]
    rfl
  · rw [through_append, through, hclose]
    exact hout
  · rw [through_append, through, hclose]
    exact hzero

theorem rule?_of_not_begins (state : State) (hkind : kind.beginsStatement = false)
    (lineCrossed lineCrossed' : Bool) :
    state.rule? kind lineCrossed = state.rule? kind lineCrossed' := by
  simp [rule?, separates, hkind]

theorem complete_arrow (state : State) {arrow : Token}
    (harrow : arrow.kind = .punctuation .equalsGreaterThan) (rest : List Token) :
    state.complete (arrow :: rest) =
      state.lead arrow ++ arrow :: (state.past arrow).complete rest ∧
      (state.past arrow).last = .punctuation .equalsGreaterThan := by
  have hrule := state.rule?_arrow arrow.flags.afterLineBreak
  rw [← harrow] at hrule
  constructor
  · rw [complete_eq, trail, hrule]
    split <;> rfl
  · rw [past, follow, hrule]
    split <;> exact harrow

end State

namespace Stream

variable {stream : Stream}

/-- At a token that begins no statement it makes no difference what is known about line breaks. -/
theorem handsOut_ahead {token : Token} {tokens : List Token} {count : Nat}
    (hraw : stream.scanner.firstTokens count = token :: tokens)
    (hkind : token.kind.beginsStatement = false) :
    ∃ last,
      stream.HandsOut
        (stream.waiting.toList ++ stream.ready.state.complete (token :: tokens)) last ∧
      last.state = stream.ready.state.through (token :: tokens) := by
  obtain ⟨count, rfl⟩ : ∃ steps, count = steps + 1 := by
    cases count with
    | zero => cases hraw
    | succ count => exact ⟨count, rfl⟩
  obtain ⟨rfl, rfl⟩ := List.cons.inj hraw
  have hupcoming : stream.ready.upcoming = stream.scanner.next.1 := stream.ready_upcoming
  have hrule : stream.ready.rule? = stream.ready.state.rule? stream.scanner.next.1.kind
      stream.scanner.next.1.flags.afterLineBreak := by
    rw [rule?, hupcoming]
    exact State.rule?_of_not_begins _ hkind _ _
  have hchunk : stream.ready.chunk = stream.ready.state.chunk stream.scanner.next.1 := by
    rw [chunk, hrule, hupcoming, State.chunk]
  have hpassed : stream.ready.passed.state = stream.ready.state.past stream.scanner.next.1 := by
    rw [rule?] at hrule
    rw [passed, State.past, State.follow, State.follow, hrule, hupcoming]
  obtain ⟨last, hhands, hstate⟩ := stream.handsOut_firstTokens count
  rw [hchunk, hpassed] at hhands
  rw [hpassed] at hstate
  refine ⟨last, ?_, hstate⟩
  rw [State.complete_cons]
  exact hhands

/-- **Arrow bodies.** Between an arrow and the parenthesis that closes the one around it, the text
gets a brace right before the first token and a brace right before that parenthesis, and no other
brace. It does not matter what the stream has read before. -/
theorem arrow_body_braced {arrow first close : Token} {rest : List Token} {count : Nat}
    (hraw : stream.scanner.firstTokens count = arrow :: first :: (rest ++ [close]))
    (harrow : arrow.kind = .punctuation .equalsGreaterThan)
    (hclose : close.kind = .punctuation .closeParen)
    (hopenBrace : first.kind ≠ .punctuation .openBrace)
    (hcloseBrace : first.kind ≠ .punctuation .closeBrace)
    (hsemicolon : first.kind ≠ .punctuation .semicolon)
    (hexport : first.kind ≠ .keyword .exportWord)
    (hbalanced : ParensBalanced ((first :: rest).map Token.kind))
    (hbraced : ArrowsBraced ((first :: rest).map Token.kind)) :
    ∃ lead middle last,
      stream.HandsOut
        (stream.waiting.toList ++ (lead ++ arrow ::
          .inserted (.punctuation .openBrace) first.span.start :: first ::
            (middle ++ [.inserted (.punctuation .closeBrace) close.span.start, close]))) last ∧
      (∀ mark ∈ lead, mark.isInserted) ∧
      middle.filter (!·.isInserted) = rest ∧
      middle.filter Token.isInsertedBrace = [] ∧
      last.state.inArrow = false ∧
      last.state.arrowParens = 0 := by
  have hreal (token : Token) (hmem : token ∈ arrow :: first :: (rest ++ [close])) :
      token.isInserted = false :=
    Scanner.isInserted_of_mem_firstTokens (hraw ▸ hmem)
  have hend : first.kind ≠ .endOfText :=
    Scanner.kind_ne_endOfText_of_before (show _ = arrow :: first :: rest ++ [close] from hraw)
      (by rw [hclose]; exact Token.Kind.noConfusion) (by simp)
  obtain ⟨last, hhands, hstate⟩ := handsOut_ahead hraw (by rw [harrow]; rfl)
  obtain ⟨hcomplete, hlast⟩ :=
    stream.ready.state.complete_arrow harrow (first :: (rest ++ [close]))
  obtain ⟨middle, hbody, hmiddle, hbraces, hout, hparens⟩ :=
    State.complete_arrowBody
      (State.rule?_of_last_arrow hlast hopenBrace hcloseBrace hsemicolon hexport hend _) hclose
      (fun token hmem => hreal token (by simp [hmem])) hbalanced hbraced
  rw [hcomplete, ← List.cons_append, hbody] at hhands
  refine ⟨_, middle, last, hhands, fun _ => State.isInserted_of_mem_lead, hmiddle, hbraces, ?_, ?_⟩
  · rw [hstate]
    exact hout
  · rw [hstate]
    exact hparens

/-- The body of the inner function, read when the body of the outer one is open already. -/
theorem arrow_body_braced_nested :
    let stream := (ofText "h(x=>f(y=>(z)))" {}).after 8
    let first : Token := { kind := .punctuation .openParen, span := ⟨10, 11⟩, content := .text "(" }
    let close : Token :=
      { kind := .punctuation .closeParen, span := ⟨13, 14⟩, content := .text ")" }
    ∃ lead middle last,
      stream.HandsOut
        (lead ++ stream.upcoming :: .inserted (.punctuation .openBrace) 10 :: first ::
          (middle ++ [.inserted (.punctuation .closeBrace) 13, close])) last ∧
      stream.state.inArrow = true ∧ last.state.inArrow = false := by
  intro stream first close
  let name : Token := { kind := .identifier, span := ⟨11, 12⟩, content := .text "z" }
  let closeInner : Token :=
    { kind := .punctuation .closeParen, span := ⟨12, 13⟩, content := .text ")" }
  have hraw : stream.scanner.firstTokens 5 =
      stream.upcoming :: first :: ([name, closeInner] ++ [close]) := by decide +kernel
  have hwaiting : stream.waiting = none := by decide +kernel
  have hin : stream.state.inArrow = true := by decide +kernel
  obtain ⟨lead, middle, last, hhands, -, -, -, hout, -⟩ :=
    arrow_body_braced hraw (by decide +kernel) rfl (by decide) (by decide) (by decide) (by decide)
      (by decide) (arrowsBraced_of_notMem (by decide))
  rw [hwaiting] at hhands
  exact ⟨lead, middle, last, hhands, hin, hout⟩

end Stream

end Layout

end FormulaScript
