import FormulaScript.Proofs.Layout.ArrowBodies
import FormulaScript.Proofs.Layout.Delimiters

/-!
# Arrow functions as arguments

The arguments of a call may be arrow functions without braces, several of them side by side. Each
body is opened at its own first token. A comma closes none of them, so the parenthesis at the end of
the list closes the last one, and the others stay open.
-/

namespace FormulaScript.Layout

/-! ### Argument lists -/

inductive Argument where
  | plain (tokens : List Token)
  | arrow (name mark first : Token) (rest : List Token)

namespace Argument

def tokens : Argument → List Token
  | plain tokens => tokens
  | arrow name mark first rest => name :: mark :: first :: rest

/-- The brace that opens the body of an arrow function. -/
def openBraces : Argument → List Token
  | plain _ => []
  | arrow _ _ first _ => [.inserted (.punctuation .openBrace) first.span.start]

/-- Delimiters are nested in an argument, and an arrow stands behind the name of the parameter only,
with a body that has no braces of its own. -/
inductive Stands : Argument → Prop
  | plain {tokens : List Token} (hne : tokens ≠ [])
      (hnested : Delimiter.Nested (tokens.map Token.kind))
      (harrow : .punctuation .equalsGreaterThan ∉ tokens.map Token.kind) :
      Stands (.plain tokens)
  | arrow {name mark first : Token} {rest : List Token} (hname : name.kind = .identifier)
      (hmark : mark.kind = .punctuation .equalsGreaterThan)
      (hopenBrace : first.kind ≠ .punctuation .openBrace)
      (hsemicolon : first.kind ≠ .punctuation .semicolon)
      (hexport : first.kind ≠ .keyword .exportWord)
      (hnested : Delimiter.Nested ((first :: rest).map Token.kind))
      (harrow : .punctuation .equalsGreaterThan ∉ (first :: rest).map Token.kind) :
      Stands (.arrow name mark first rest)

theorem stands_of_names {name mark first : Token} (hname : name.kind = .identifier)
    (hmark : mark.kind = .punctuation .equalsGreaterThan) (hfirst : first.kind = .identifier) :
    (Argument.arrow name mark first []).Stands := by
  have hkinds : [first].map Token.kind = [.identifier] := by rw [List.map_singleton, hfirst]
  apply Stands.arrow hname hmark
  · rw [hfirst]
    exact Token.Kind.noConfusion
  · rw [hfirst]
    exact Token.Kind.noConfusion
  · rw [hfirst]
    exact Token.Kind.noConfusion
  · rw [hkinds]
    rfl
  · rw [hkinds]
    decide

end Argument

/-- The tokens are those of the arguments, with commas between them. -/
inductive ArgumentList : List Token → List Argument → Prop
  | one {argument : Argument} (hstands : argument.Stands) :
      ArgumentList argument.tokens [argument]
  | cons {argument : Argument} {comma : Token} {tokens : List Token} {arguments : List Argument}
      (hstands : argument.Stands) (hcomma : comma.kind = .punctuation .comma)
      (hrest : ArgumentList tokens arguments) :
      ArgumentList (argument.tokens ++ comma :: tokens) (argument :: arguments)

/-! ### Parentheses among nested delimiters -/

section

variable {stack rest : List Delimiter} {kind : Token.Kind} {kinds : List Token.Kind}

theorem count_paren_of_nest (hnest : Delimiter.nest stack kind = some rest) :
    (rest.count .paren : Int) = stack.count .paren + kind.parenStep := by
  cases hopens : kind.opens? with
  | some delimiter =>
      obtain rfl := Delimiter.opens?_eq_some hopens
      rw [Delimiter.nest_openMark] at hnest
      obtain rfl := Option.some.inj hnest
      cases delimiter <;> simp [Delimiter.openMark, Token.Kind.parenStep]
  | none =>
      cases hcloses : kind.closes? with
      | some delimiter =>
          obtain rfl := Delimiter.eq_cons_of_nest_of_closes hopens hcloses hnest
          obtain rfl := Delimiter.closes?_eq_some hcloses
          cases delimiter with
          | paren =>
              rw [List.count_cons_self, Delimiter.closeMark, Token.Kind.parenStep]
              omega
          | bracket | brace => simp [Delimiter.closeMark, Token.Kind.parenStep]
      | none =>
          rw [Delimiter.nest_of_neither hopens hcloses] at hnest
          obtain rfl := Option.some.inj hnest
          have hopen : kind ≠ .punctuation .openParen := by rintro rfl; cases hopens
          have hclose : kind ≠ .punctuation .closeParen := by rintro rfl; cases hcloses
          rw [Token.Kind.parenStep_of_ne hopen hclose, Int.add_zero]

theorem count_paren_of_openAfter (hopen : Delimiter.openAfter stack kinds = some rest) :
    (rest.count .paren : Int) = stack.count .paren + openParens kinds := by
  induction kinds generalizing stack with
  | nil =>
      obtain rfl := Option.some.inj hopen
      rw [openParens_nil, Int.add_zero]
  | cons kind kinds ih =>
      rw [Delimiter.openAfter_cons, Option.bind_eq_some_iff] at hopen
      obtain ⟨next, hnest, hopen⟩ := hopen
      rw [ih hopen, count_paren_of_nest hnest, openParens_cons, Int.add_assoc]

theorem parensBalanced_of_nested (hnested : Delimiter.Nested kinds) : ParensBalanced kinds := by
  constructor
  · rintro front ⟨back, rfl⟩
    rw [Delimiter.Nested, Delimiter.openAfter_append, Option.bind_eq_some_iff] at hnested
    obtain ⟨stack, hfront, -⟩ := hnested
    have hcount := count_paren_of_openAfter hfront
    simp only [List.count_nil] at hcount
    omega
  · have hcount := count_paren_of_openAfter hnested
    simpa using hcount.symm

end

/-! ### Arguments one after the other -/

namespace State

/-- An arrow body is open, and the next parenthesis that is closed is the one around the arrow. -/
def BodyOpen (state : State) : Prop :=
  state.inArrow = true ∧ state.arrowParens = 1

/-- Where an argument may begin: not right behind an arrow, nor with a count that is back at
zero. -/
structure Between (state : State) : Prop where
  last : state.last ≠ .punctuation .equalsGreaterThan
  parens : state.inArrow = true → 1 ≤ state.arrowParens

/-- Some tokens lead from between two arguments to between two arguments, with so many braces
inserted at them, each of which opens a body. -/
structure Passes (state : State) (tokens inserted : List Token) : Prop where
  between : (state.through tokens).Between
  braces : (state.complete tokens).filter Token.isInsertedBrace = inserted
  bodyOpen : (state.through tokens).BodyOpen ↔ state.BodyOpen ∨ inserted ≠ []

variable {state : State}

theorem Passes.append {front back frontBraces backBraces : List Token}
    (hfront : state.Passes front frontBraces)
    (hback : (state.through front).Passes back backBraces) :
    state.Passes (front ++ back) (frontBraces ++ backBraces) := by
  refine ⟨?_, ?_, ?_⟩
  · rw [through_append]
    exact hback.between
  · rw [complete_append, List.filter_append, hfront.braces, hback.braces]
  · rw [through_append, hback.bodyOpen, hfront.bodyOpen, Ne, Ne, Ne, List.append_eq_nil_iff]
    tauto

theorem Between.passes_plain {tokens : List Token} (hbetween : state.Between)
    (htokens : ∀ token ∈ tokens, token.isInserted = false)
    (hnested : Delimiter.Nested (tokens.map Token.kind))
    (harrow : .punctuation .equalsGreaterThan ∉ tokens.map Token.kind) :
    state.Passes tokens [] := by
  obtain ⟨hhold, hclosed⟩ := parensBalanced_of_nested hnested
  obtain ⟨ground, hground, hcounts⟩ : ∃ ground, 1 ≤ ground ∧ state.CountsFrom ground 0 := by
    by_cases hin : state.inArrow = true
    · exact ⟨state.arrowParens, hbetween.parens hin, fun _ => (Int.add_zero _).symm⟩
    · exact ⟨1, Int.le_refl 1, fun hopen => absurd hopen hin⟩
  obtain ⟨hnone, hin, hcounts', hlast⟩ :=
    hcounts.through hground htokens hhold (arrowsBraced_of_notMem harrow)
      (fun hlast => absurd hlast hbetween.last)
  rw [hclosed, Int.add_zero] at hcounts'
  have hsame (hopen : state.inArrow = true) :
      (state.through tokens).arrowParens = state.arrowParens :=
    (hcounts' (hin.trans hopen)).trans (hcounts hopen).symm
  refine ⟨⟨hlast, ?_⟩, hnone, ?_⟩
  · intro hopen
    rw [hin] at hopen
    rw [hsame hopen]
    exact hbetween.parens hopen
  · rw [or_iff_left (fun hne => hne rfl), BodyOpen, BodyOpen, hin]
    exact and_congr_right fun hopen => by rw [hsame hopen]

/-- A token alone between two others, such as a comma. -/
theorem Between.passes_single {token : Token} (hbetween : state.Between)
    (htoken : token.isInserted = false) (hnested : Delimiter.Nested [token.kind])
    (harrow : token.kind ≠ .punctuation .equalsGreaterThan) : state.Passes [token] [] := by
  apply hbetween.passes_plain
  · simpa using htoken
  · exact hnested
  · simpa using harrow.symm

theorem Between.passes_arrow {mark first : Token} {rest : List Token} (hbetween : state.Between)
    (hmark : mark.kind = .punctuation .equalsGreaterThan)
    (hopenBrace : first.kind ≠ .punctuation .openBrace)
    (hsemicolon : first.kind ≠ .punctuation .semicolon)
    (hexport : first.kind ≠ .keyword .exportWord) (hend : first.kind ≠ .endOfText)
    (htokens : ∀ token ∈ mark :: first :: rest, token.isInserted = false)
    (hnested : Delimiter.Nested ((first :: rest).map Token.kind))
    (harrow : .punctuation .equalsGreaterThan ∉ (first :: rest).map Token.kind) :
    state.Passes (mark :: first :: rest)
      [.inserted (.punctuation .openBrace) first.span.start] := by
  have hcloseBrace : first.kind ≠ .punctuation .closeBrace := by
    intro hkind
    rw [List.map_cons, hkind, Delimiter.Nested, Delimiter.openAfter_cons] at hnested
    cases hnested
  obtain ⟨hreal, hbody⟩ := List.forall_mem_cons.mp htokens
  obtain ⟨hfirst, hrest⟩ := List.forall_mem_cons.mp hbody
  have hlead : state.lead mark = [] := by
    rw [lead, hmark, rule?_arrow, if_neg hbetween.last]
    rfl
  obtain ⟨hcomplete, hlast⟩ := state.complete_arrow hmark (first :: rest)
  obtain ⟨hbraced, hnone, hin, hparens, hlast'⟩ :=
    complete_body
      (rule?_of_last_arrow hlast hopenBrace hcloseBrace hsemicolon hexport hend _) hrest
      (parensBalanced_of_nested hnested) (arrowsBraced_of_notMem harrow)
  refine ⟨⟨hlast', fun _ => Int.le_of_eq hparens.symm⟩, ?_, ?_⟩
  · rw [hcomplete, hlead, hbraced]
    simp [hnone, Token.isInsertedBrace_of_not_isInserted hreal,
      Token.isInsertedBrace_of_not_isInserted hfirst]
  · exact iff_of_true ⟨hin, hparens⟩ (.inr (List.cons_ne_nil _ _))

variable {tokens : List Token}

theorem Between.passes_argument {argument : Argument} (hbetween : state.Between)
    (htokens : ∀ token ∈ argument.tokens, token.isInserted = false)
    (hend : ∀ token ∈ argument.tokens, token.kind ≠ .endOfText) (hstands : argument.Stands) :
    state.Passes argument.tokens argument.openBraces := by
  cases hstands with
  | plain hne hnested harrow => exact hbetween.passes_plain htokens hnested harrow
  | @arrow name mark first rest hname hmark hopenBrace hsemicolon hexport hnested harrow =>
      obtain ⟨hreal, hbody⟩ := List.forall_mem_cons.mp htokens
      have hparameter : state.Passes [name] [] :=
        hbetween.passes_single hreal (by rw [hname]; rfl)
          (by rw [hname]; exact Token.Kind.noConfusion)
      exact hparameter.append
        (hparameter.between.passes_arrow hmark hopenBrace hsemicolon hexport (hend first (by
          simp [Argument.tokens])) hbody hnested harrow)

theorem Between.passes_arguments {arguments : List Argument} (hbetween : state.Between)
    (htokens : ∀ token ∈ tokens, token.isInserted = false)
    (hend : ∀ token ∈ tokens, token.kind ≠ .endOfText) (hlist : ArgumentList tokens arguments) :
    state.Passes tokens (arguments.flatMap Argument.openBraces) := by
  induction hlist generalizing state with
  | @one argument hstands =>
      have hargument := hbetween.passes_argument htokens hend hstands
      rwa [List.flatMap_singleton]
  | @cons argument comma tokens arguments hstands hcomma hrest ih =>
      rw [List.forall_mem_append, List.forall_mem_cons] at htokens hend
      have hargument := hbetween.passes_argument htokens.1 hend.1 hstands
      have hseparator : (state.through argument.tokens).Passes [comma] [] :=
        hargument.between.passes_single htokens.2.1 (by rw [hcomma]; rfl) (by rw [hcomma]; decide)
      have hlater := ih hseparator.between htokens.2.2 hend.2.2
      exact hargument.append (hseparator.append hlater)

/-! ### The parentheses around the arguments -/

instance (state : State) : Decidable state.BodyOpen :=
  inferInstanceAs (Decidable (_ ∧ _))

theorem between_past_openParen {opening : Token} (hin : state.inArrow = false)
    (hopening : opening.kind = .punctuation .openParen) :
    (state.past opening).Between ∧ ¬(state.past opening).BodyOpen := by
  have hlast : (state.past opening).last ≠ .punctuation .equalsGreaterThan := by
    intro harrow
    have hkind := eq_arrow_of_last_follow harrow
    rw [hopening] at hkind
    cases hkind
  -- The parenthesis is the first token of an arrow body, or stands outside of all of them.
  by_cases harrow : state.last = .punctuation .equalsGreaterThan
  · have hparens : (state.past opening).arrowParens = 2 := by
      simp [past, follow, hopening, rule?_openParen, harrow, count, countParen]
    refine ⟨⟨hlast, fun _ => by omega⟩, fun hopen => ?_⟩
    have hone := hopen.2
    omega
  · have hin' : (state.past opening).inArrow = false := by
      simp [past, follow, hopening, rule?_openParen, harrow, count, hin]
    refine ⟨⟨hlast, fun hopen => ?_⟩, fun hopen => ?_⟩
    · rw [hin'] at hopen
      cases hopen
    · rw [BodyOpen, hin'] at hopen
      cases hopen.1

theorem trail_openParen {opening : Token} (hopening : opening.kind = .punctuation .openParen) :
    state.trail opening = [] := by
  rw [trail, hopening, rule?_openParen]
  split <;> rfl

theorem Between.lead_closeParen {closing : Token} (hbetween : state.Between)
    (hclosing : closing.kind = .punctuation .closeParen) :
    state.lead closing =
        (if state.BodyOpen then [.inserted (.punctuation .closeBrace) closing.span.start] else []) ∧
      state.trail closing = [] := by
  have hrule : state.rule? closing.kind closing.flags.afterLineBreak =
      if state.BodyOpen then some .arrowClose else none := by
    rw [hclosing, rule?_closeParen, if_neg hbetween.last]
    rfl
  rw [lead, trail, hrule]
  by_cases hopen : state.BodyOpen
  · rw [if_pos hopen, if_pos hopen]
    exact ⟨rfl, rfl⟩
  · rw [if_neg hopen, if_neg hopen]
    exact ⟨rfl, rfl⟩

end State

namespace Stream

variable {stream : Stream}

theorem ready_inArrow (stream : Stream) : stream.ready.state.inArrow = stream.state.inArrow := by
  rw [ready]
  cases stream.waiting <;> rfl

/-- **Arguments.** Inside the parentheses every arrow function without braces has a brace inserted
right before its body. One brace is inserted right before the parenthesis at the end if there was
one arrow function or more, and no others. -/
theorem arguments_braced {opening closing : Token} {tokens : List Token}
    {arguments : List Argument} {count : Nat}
    (hraw : stream.scanner.firstTokens count = opening :: (tokens ++ [closing]))
    (hopening : opening.kind = .punctuation .openParen)
    (hclosing : closing.kind = .punctuation .closeParen)
    (hlist : ArgumentList tokens arguments) (hin : stream.state.inArrow = false) :
    let opened := arguments.flatMap Argument.openBraces
    ∃ lead between last,
      stream.HandsOut
        (stream.waiting.toList ++ (lead ++ opening :: (between ++ [closing]))) last ∧
      (∀ mark ∈ lead, mark.isInserted) ∧
      between.filter (!·.isInserted) = tokens ∧
      between.filter Token.isInsertedBrace =
        opened ++ if opened = [] then []
          else [.inserted (.punctuation .closeBrace) closing.span.start] := by
  intro opened
  have hreal (token : Token) (hmem : token ∈ opening :: (tokens ++ [closing])) :
      token.isInserted = false :=
    Scanner.isInserted_of_mem_firstTokens (hraw ▸ hmem)
  have htokens (token : Token) (hmem : token ∈ tokens) : token.isInserted = false :=
    hreal token (by simp [hmem])
  have hend (token : Token) (hmem : token ∈ tokens) : token.kind ≠ .endOfText :=
    Scanner.kind_ne_endOfText_of_before (show _ = opening :: tokens ++ [closing] from hraw)
      (by rw [hclosing]; exact Token.Kind.noConfusion) (List.mem_cons_of_mem _ hmem)
  obtain ⟨last, hhands, -⟩ := handsOut_ahead hraw (by rw [hopening]; rfl)
  obtain ⟨hbetween, hclosed⟩ :=
    State.between_past_openParen ((ready_inArrow stream).trans hin) hopening
  have hpasses := hbetween.passes_arguments htokens hend hlist
  let ending := (stream.ready.state.past opening).through tokens
  obtain ⟨hlead, htrail⟩ := hpasses.between.lead_closeParen hclosing
  rw [State.complete_eq, State.trail_openParen hopening, List.nil_append, State.complete_append,
    State.complete_eq, htrail] at hhands
  refine ⟨stream.ready.state.lead opening,
    (stream.ready.state.past opening).complete tokens ++ ending.lead closing, last, ?_,
    fun _ => State.isInserted_of_mem_lead, ?_, ?_⟩
  · rw [List.append_assoc]
    exact hhands
  · rw [List.filter_append, State.filter_complete _ htokens, List.filter_eq_nil_iff.mpr,
      List.append_nil]
    intro mark hmem
    simp [State.isInserted_of_mem_lead hmem]
  · rw [List.filter_append, hpasses.braces, hlead]
    have hopen := hpasses.bodyOpen
    rw [or_iff_right hclosed] at hopen
    by_cases hnone : opened = []
    · rw [if_neg (fun h => hopen.mp h hnone), if_pos hnone]
      rfl
    · rw [if_pos (hopen.mpr hnone), if_neg hnone]
      rfl

/-- Two functions side by side: both bodies are opened, and one brace closes the two. -/
theorem arguments_braced_siblings :
    let stream := (ofText "f(x=>a,y=>b)" {}).after 1
    let closing : Token :=
      { kind := .punctuation .closeParen, span := ⟨11, 12⟩, content := .text ")" }
    ∃ lead between last,
      stream.HandsOut (lead ++ stream.upcoming :: (between ++ [closing])) last ∧
      between.filter Token.isInsertedBrace =
        [.inserted (.punctuation .openBrace) 5, .inserted (.punctuation .openBrace) 10,
          .inserted (.punctuation .closeBrace) 11] := by
  intro stream closing
  let word (text : String) (start : Nat) : Token :=
    { kind := .identifier, span := ⟨start, start + 1⟩, content := .text text }
  let arrowAt (start : Nat) : Token :=
    { kind := .punctuation .equalsGreaterThan, span := ⟨start, start + 2⟩, content := .text "=>" }
  let comma : Token := { kind := .punctuation .comma, span := ⟨6, 7⟩, content := .text "," }
  have hraw : stream.scanner.firstTokens 9 =
      stream.upcoming :: ([word "x" 2, arrowAt 3, word "a" 5] ++
        comma :: [word "y" 7, arrowAt 8, word "b" 10] ++ [closing]) := by decide +kernel
  have hwaiting : stream.waiting = none := by decide +kernel
  have hfirst : (Argument.arrow (word "x" 2) (arrowAt 3) (word "a" 5) []).Stands :=
    Argument.stands_of_names rfl rfl rfl
  have hsecond : (Argument.arrow (word "y" 7) (arrowAt 8) (word "b" 10) []).Stands :=
    Argument.stands_of_names rfl rfl rfl
  have hcomma : comma.kind = .punctuation .comma := rfl
  have hlist := ArgumentList.cons hfirst hcomma (.one hsecond)
  obtain ⟨lead, between, last, hhands, -, -, hbraces⟩ :=
    arguments_braced hraw (by decide +kernel) rfl hlist (by decide +kernel)
  rw [hwaiting] at hhands
  exact ⟨lead, between, last, hhands, hbraces⟩

theorem arguments_not_braced_alike :
    let braces := (ofText "f(x=>a,y=>b)" {}).tokens.filter Token.isInsertedBrace
    braces.countP (·.kind = .punctuation .openBrace) = 2 ∧
      braces.countP (·.kind = .punctuation .closeBrace) = 1 := by
  decide +kernel

end Stream

end FormulaScript.Layout
