import FormulaScript.Proofs.Layout.Counts
import FormulaScript.Proofs.Layout.Delimiters
import FormulaScript.Proofs.Layout.Refinement
import FormulaScript.Proofs.Layout.Wrapping

/-!
# Balanced in, balanced out

The rules keep two counts of indices and a third one for arrow bodies. What they stand for is one
stack of open delimiters, seen twice: as it is in the text, and as it is among all the tokens, where
an index has a parenthesis inside and an arrow body has a brace.
-/

namespace FormulaScript.Layout

open Delimiter

/-- An open delimiter of the text, as the rules see it. -/
inductive Opened where
  | paren
  | bracket (isIndex : Bool)
  | brace
deriving DecidableEq, Repr

namespace Opened

def delimiter : Opened → Delimiter
  | .paren => .paren
  | .bracket _ => .bracket
  | .brace => .brace

/-- The delimiter with what is inserted right after it. -/
def completed : Opened → List Delimiter
  | .bracket true => [.paren, .bracket]
  | opened => [opened.delimiter]

theorem completed_eq {opened : Opened} (hopened : opened ≠ .bracket true) :
    opened.completed = [opened.delimiter] := by
  rcases opened with _ | _ | _ <;> simp_all [completed]

/-- The indices among open delimiters, each with the count of its brackets. -/
def indices : List Opened → Nesting
  | [] => {}
  | .bracket true :: outer => (indices outer).enter 1
  | .bracket false :: outer => (indices outer).deepen
  | _ :: outer => indices outer

end Opened

/-- The open delimiters, split at the parenthesis around an arrow body when one is open. -/
structure Surroundings where
  inner : List Opened := []
  outside? : Option (List Opened) := none

namespace Surroundings

/-- The open delimiters of the text. -/
def text (surroundings : Surroundings) : List Delimiter :=
  surroundings.inner.map Opened.delimiter ++
    match surroundings.outside? with
    | none => []
    | some outside => .paren :: outside.map Opened.delimiter

/-- The open delimiters among all the tokens. -/
def completed (surroundings : Surroundings) : List Delimiter :=
  surroundings.inner.flatMap Opened.completed ++
    match surroundings.outside? with
    | none => []
    | some outside => .brace :: .paren :: outside.flatMap Opened.completed

def indices (surroundings : Surroundings) : Nesting :=
  Opened.indices (surroundings.inner ++ surroundings.outside?.getD [])

def push (surroundings : Surroundings) (opened : Opened) : Surroundings :=
  { surroundings with inner := opened :: surroundings.inner }

theorem completed_push (surroundings : Surroundings) (opened : Opened) :
    (surroundings.push opened).completed = opened.completed ++ surroundings.completed := by
  rw [completed, push, List.flatMap_cons, List.append_assoc, completed]

theorem text_ne_outside {surroundings : Surroundings} {outside : List Opened}
    (houtside : surroundings.outside? = some outside) :
    surroundings.text ≠ outside.map Opened.delimiter := by
  intro htext
  have hlength := congrArg List.length htext
  simp only [text, houtside, List.length_append, List.length_map, List.length_cons] at hlength
  omega

/-- What is open innermost was opened in the arrow body, or is the parenthesis around it. -/
theorem cases_of_text_eq_cons {surroundings : Surroundings} {delimiter : Delimiter}
    {rest : List Delimiter} (htext : surroundings.text = delimiter :: rest) :
    (∃ opened below, surroundings = push below opened ∧ opened.delimiter = delimiter ∧
        below.text = rest) ∨
      ∃ outside, surroundings = ⟨[], some outside⟩ ∧ delimiter = .paren ∧
        outside.map Opened.delimiter = rest := by
  obtain ⟨inner, outside?⟩ := surroundings
  cases inner with
  | cons opened inner =>
      obtain ⟨hhead, htail⟩ := List.cons.inj htext
      exact .inl ⟨opened, ⟨inner, outside?⟩, rfl, hhead, htail⟩
  | nil =>
      cases outside? with
      | none => cases htext
      | some outside =>
          obtain ⟨rfl, htail⟩ := List.cons.inj htext
          exact .inr ⟨outside, rfl, rfl, htail⟩

end Surroundings

/-! ### Closing a bracket -/

/-- Of a bracket, whether it opens an index. -/
def Opened.isIndex? : Opened → Option Bool
  | .bracket isIndex => some isIndex
  | _ => none

theorem Opened.indices_eq_counting (opened : List Opened) :
    indices opened = .counting {} (opened.filterMap isIndex?) := by
  fun_induction indices opened with
  | case1 => rfl
  | case2 outer ih => exact congrArg (Nesting.enter · 1) ih
  | case3 outer ih => exact congrArg Nesting.deepen ih
  | case4 opened outer hindex hplain ih =>
      cases opened with
      | bracket isIndex => cases isIndex with
        | true => exact absurd rfl hindex
        | false => exact absurd rfl hplain
      | paren | brace => rw [ih, List.filterMap_cons_none rfl]

/-- A bracket that opens no index leaves no trace once it is closed, and ends no index. -/
theorem Opened.close_deepen_indices (opened : List Opened) :
    (indices opened).deepen.close.2 = indices opened ∧
      (indices opened).deepen.close.1 ≠ some 0 := by
  have hholds : Nesting.Holds {} (false :: opened.filterMap isIndex?) := .inl rfl
  obtain ⟨hclosed, hzero⟩ := Nesting.close_counting hholds
  rw [indices_eq_counting]
  exact ⟨hclosed, hzero.not.mpr (by simp)⟩

/-! ### What the counters stand for -/

namespace State

/-- The counters of a state are the ones that the open delimiters lead to. -/
structure Fits (state : State) (surroundings : Surroundings) : Prop where
  indices : state.indices = surroundings.indices
  inArrow : state.inArrow = surroundings.outside?.isSome
  arrowParens : state.inArrow = true → state.arrowParens = surroundings.inner.count .paren + 1

def enterArrow (state : State) : State :=
  { state with arrowParens := 1, inArrow := true }

theorem count_arrowOpen (state : State) {kind : Token.Kind} (hcloses : kind.closes? = none) :
    state.count (some .arrowOpen) kind = state.enterArrow.count none kind := by
  have hparen : kind ≠ .punctuation .closeParen := by rintro rfl; cases hcloses
  have hbracket : kind ≠ .punctuation .closeBracket := by rintro rfl; cases hcloses
  simp [count, countParen, Nesting.countBracket, enterArrow, hparen, hbracket]

section

variable {state : State} {surroundings : Surroundings}

/-- No token but a parenthesis moves the count of the parentheses. -/
theorem Fits.of_not_paren (hfits : state.Fits surroundings) {next : Surroundings}
    {rule? : Option Rule} {kind : Token.Kind} (hrule : rule? = none ∨ rule? = some .indexOpen)
    (hopen : kind ≠ .punctuation .openParen) (hclose : kind ≠ .punctuation .closeParen)
    (hindices : surroundings.indices.countBracket rule? kind = next.indices)
    (houtside : next.outside? = surroundings.outside?)
    (hcount : next.inner.count .paren = surroundings.inner.count .paren) :
    (state.count rule? kind).Fits next := by
  have hinArrow : (state.count rule? kind).inArrow = state.inArrow := by
    rcases hrule with rfl | rfl <;> rfl
  have hparens : (state.count rule? kind).arrowParens = state.arrowParens := by
    rcases hrule with rfl | rfl <;> simp [count, countParen, hopen, hclose]
  refine ⟨?_, ?_, fun hin => ?_⟩
  · rw [← hindices, ← hfits.indices]
    rfl
  · rw [hinArrow, hfits.inArrow, houtside]
  · rw [hinArrow] at hin
    rw [hparens, hfits.arrowParens hin, hcount]

theorem Fits.enter (hfits : state.Fits surroundings) {opened : Opened}
    (hopened : opened ≠ .bracket true) :
    (state.count none (.punctuation opened.delimiter.openMark)).Fits
      (surroundings.push opened) := by
  rcases opened with _ | isIndex | _
  · refine ⟨hfits.indices, hfits.inArrow, ?_⟩
    intro (hin : state.inArrow = true)
    have hcount : state.countParen none (.punctuation .openParen) = state.arrowParens + 1 := by
      simp [countParen, hin]
    change state.countParen none (.punctuation .openParen) = _
    rw [hcount, hfits.arrowParens hin, Surroundings.push, List.count_cons_self]
    omega
  · obtain rfl : isIndex = false := by simpa using hopened
    exact hfits.of_not_paren (.inl rfl) (by decide) (by decide) rfl rfl rfl
  · exact hfits.of_not_paren (.inl rfl) (by decide) (by decide) rfl rfl rfl

theorem Fits.enterIndex (hfits : state.Fits surroundings) :
    (state.count (some .indexOpen) (.punctuation .openBracket)).Fits
      (surroundings.push (.bracket true)) :=
  hfits.of_not_paren (.inr rfl) (by decide) (by decide) rfl rfl rfl

theorem Fits.stay (hfits : state.Fits surroundings) {kind : Token.Kind}
    (hopens : kind.opens? = none) (hcloses : kind.closes? = none) :
    (state.count none kind).Fits surroundings := by
  have hopenParen : kind ≠ .punctuation .openParen := by rintro rfl; cases hopens
  have hcloseParen : kind ≠ .punctuation .closeParen := by rintro rfl; cases hcloses
  have hopenBracket : kind ≠ .punctuation .openBracket := by rintro rfl; cases hopens
  have hcloseBracket : kind ≠ .punctuation .closeBracket := by rintro rfl; cases hcloses
  exact hfits.of_not_paren (.inl rfl) hopenParen hcloseParen
    (by simp [Nesting.countBracket, hopenBracket, hcloseBracket]) rfl rfl

theorem Fits.leave {opened : Opened} (hfits : state.Fits (surroundings.push opened)) :
    (state.count none (.punctuation opened.delimiter.closeMark)).Fits surroundings := by
  rcases opened with _ | isIndex | _
  · refine ⟨hfits.indices, hfits.inArrow, ?_⟩
    intro (hin : state.inArrow = true)
    have hcount : state.countParen none (.punctuation .closeParen) = state.arrowParens - 1 := by
      simp [countParen, hin]
    change state.countParen none (.punctuation .closeParen) = _
    rw [hcount, hfits.arrowParens hin, Surroundings.push, List.count_cons_self]
    omega
  · have hclose : (surroundings.push (.bracket isIndex)).indices.close.2 =
        surroundings.indices := by
      cases isIndex with
      | true => rfl
      | false => exact (Opened.close_deepen_indices _).1
    exact hfits.of_not_paren (.inl rfl) (by cases isIndex <;> decide)
      (by cases isIndex <;> decide) hclose rfl rfl
  · exact hfits.of_not_paren (.inl rfl) (by decide) (by decide) rfl rfl rfl

variable {outside : List Opened}

theorem Fits.enterArrow (hfits : state.Fits ⟨.paren :: outside, none⟩) :
    state.enterArrow.Fits ⟨[], some outside⟩ := by
  refine ⟨hfits.indices.trans ?_, rfl, fun _ => rfl⟩
  simp [Surroundings.indices, Opened.indices]

theorem Fits.leaveArrow (hfits : state.Fits ⟨[], some outside⟩) :
    (state.count (some .arrowClose) (.punctuation .closeParen)).Fits ⟨outside, none⟩ := by
  refine ⟨hfits.indices.trans ?_, rfl, fun hin => ?_⟩
  · simp [Surroundings.indices]
  · cases hin

end

/-! ### What one token leads to -/

/-- A token leads from some open delimiters to others in the text, among all the tokens, and for the
counters alike. -/
structure Leads (state : State) (rule? : Option Rule) (kind : Token.Kind)
    (surroundings next : Surroundings) : Prop where
  fits : (state.count rule? kind).Fits next
  text : nest surroundings.text kind = some next.text
  completed :
    openAfter surroundings.completed (withMark kind (rule?.map Rule.insertion)) =
      some next.completed

section

variable {state : State} {surroundings : Surroundings} {kind : Token.Kind}

theorem Fits.leads_enter (hfits : state.Fits surroundings) (opened : Opened)
    (hopened : opened ≠ .bracket true) :
    Leads state none (.punctuation opened.delimiter.openMark) surroundings
      (surroundings.push opened) where
  fits := hfits.enter hopened
  text := nest_openMark _ _
  completed := by
    rw [Surroundings.completed_push, Opened.completed_eq hopened]
    exact (openAfter_singleton _ _).trans (nest_openMark _ _)

theorem Fits.leads_enterIndex (hfits : state.Fits surroundings) :
    Leads state (some .indexOpen) (.punctuation .openBracket) surroundings
      (surroundings.push (.bracket true)) where
  fits := hfits.enterIndex
  text := rfl
  completed := rfl

theorem Fits.leads_stay (hfits : state.Fits surroundings) (hopens : kind.opens? = none)
    (hcloses : kind.closes? = none) : Leads state none kind surroundings surroundings where
  fits := hfits.stay hopens hcloses
  text := nest_of_neither hopens hcloses
  completed := (openAfter_singleton _ _).trans (nest_of_neither hopens hcloses)

theorem Fits.leads_leave {opened : Opened} (hfits : state.Fits (surroundings.push opened))
    (hopened : opened ≠ .bracket true) :
    Leads state none (.punctuation opened.delimiter.closeMark) (surroundings.push opened)
      surroundings where
  fits := hfits.leave
  text := nest_closeMark _ _
  completed := by
    rw [Surroundings.completed_push, Opened.completed_eq hopened]
    exact (openAfter_singleton _ _).trans (nest_closeMark _ _)

theorem Fits.leads_leaveIndex (hfits : state.Fits (surroundings.push (.bracket true))) :
    Leads state (some .indexClose) (.punctuation .closeBracket) (surroundings.push (.bracket true))
      surroundings where
  fits := by
    have hcount : state.count (some .indexClose) (.punctuation .closeBracket) =
        state.count none (.punctuation .closeBracket) :=
      count_eq_count_none state _ rfl
    rw [hcount]
    exact hfits.leave
  text := rfl
  completed := rfl

theorem Fits.leads_leaveArrow {outside : List Opened} (hfits : state.Fits ⟨[], some outside⟩) :
    Leads state (some .arrowClose) (.punctuation .closeParen) ⟨[], some outside⟩
      ⟨outside, none⟩ where
  fits := hfits.leaveArrow
  text := by simp [Surroundings.text, nest, Token.Kind.opens?, Token.Kind.closes?]
  completed := by
    simp [Surroundings.completed, Rule.insertion, withMark, openAfter_cons, nest,
      Token.Kind.opens?, Token.Kind.closes?]

/-- The brace in front of an arrow body goes inside the parenthesis around it. -/
theorem Leads.of_enterArrow {outside : List Opened} {next : Surroundings}
    (hleads : Leads state.enterArrow none kind ⟨[], some outside⟩ next)
    (hcloses : kind.closes? = none) :
    Leads state (some .arrowOpen) kind ⟨.paren :: outside, none⟩ next where
  fits := by
    rw [count_arrowOpen state hcloses]
    exact hleads.fits
  text := by simpa [Surroundings.text, Opened.delimiter] using hleads.text
  completed := by
    have hcompleted := hleads.completed
    rw [Option.map_none, withMark] at hcompleted
    rw [Option.map_some, Rule.insertion, withMark, openAfter_cons, ← hcompleted]
    simp [Surroundings.completed, Opened.completed, Opened.delimiter, nest, Token.Kind.opens?]

theorem Leads.of_semicolon {next : Surroundings} (hleads : Leads state none kind surroundings next)
    {rule : Rule} (hrule : rule = .separator ∨ rule = .exportBoundary ∨ rule = .functionEnd) :
    Leads state (some rule) kind surroundings next where
  fits := by
    have hcount : state.count (some rule) kind = state.count none kind := by
      rcases hrule with rfl | rfl | rfl <;> exact count_eq_count_none state kind rfl
    rw [hcount]
    exact hleads.fits
  text := hleads.text
  completed := by
    have hsemicolon (stack : List Delimiter) : nest stack (.punctuation .semicolon) = some stack :=
      rfl
    have hnest : nest surroundings.completed kind = some next.completed :=
      (openAfter_singleton _ _).symm.trans hleads.completed
    rcases hrule with rfl | rfl | rfl <;>
      simp [Rule.insertion, withMark, openAfter_cons, hsemicolon, hnest]

/-! ### The rule that applies leads on -/

theorem Fits.exists_leads_of_not_closing (hfits : state.Fits surroundings)
    (hcloses : kind.closes? = none) :
    ∃ next, Leads state none kind surroundings next ∧
      next.outside? = surroundings.outside? := by
  cases hopens : kind.opens? with
  | none => exact ⟨surroundings, hfits.leads_stay hopens hcloses, rfl⟩
  | some delimiter =>
      obtain rfl := opens?_eq_some hopens
      cases delimiter with
      | paren => exact ⟨_, hfits.leads_enter .paren (by decide), rfl⟩
      | bracket => exact ⟨_, hfits.leads_enter (.bracket false) (by decide), rfl⟩
      | brace => exact ⟨_, hfits.leads_enter .brace (by decide), rfl⟩

variable {lineCrossed : Bool}

/-- Inside an arrow body, or outside of any, a parenthesis of one's own ends no arrow body. -/
theorem Fits.rule?_closeParen_push (hfits : state.Fits (surroundings.push .paren))
    (hlast : state.last ≠ .punctuation .equalsGreaterThan) :
    state.rule? (.punctuation .closeParen) lineCrossed = none := by
  have hparens : ¬(state.inArrow = true ∧ state.arrowParens = 1) := by
    rintro ⟨hin, hone⟩
    have hcount := hfits.arrowParens hin
    rw [Surroundings.push, List.count_cons_self] at hcount
    omega
  rw [rule?_closeParen, if_neg hlast, if_neg hparens]

theorem Fits.rule?_closeParen_arrow {outside : List Opened}
    (hfits : state.Fits ⟨[], some outside⟩)
    (hlast : state.last ≠ .punctuation .equalsGreaterThan) :
    state.rule? (.punctuation .closeParen) lineCrossed = some .arrowClose := by
  have hin : state.inArrow = true := hfits.inArrow
  rw [rule?_closeParen, if_neg hlast, if_pos ⟨hin, hfits.arrowParens hin⟩]

theorem Fits.rule?_closeBracket_push {isIndex : Bool}
    (hfits : state.Fits (surroundings.push (.bracket isIndex)))
    (hlast : state.last ≠ .punctuation .equalsGreaterThan) :
    state.rule? (.punctuation .closeBracket) lineCrossed =
      if isIndex then some .indexClose else none := by
  rw [rule?_closeBracket, if_neg hlast, hfits.indices]
  cases isIndex with
  | true => rfl
  | false =>
      have hne : (surroundings.push (.bracket false)).indices.close.1 ≠ some 0 :=
        (Opened.close_deepen_indices _).2
      rw [if_neg hne]
      rfl

theorem Fits.exists_leads_of_closing {delimiter : Delimiter} {rest : List Delimiter}
    (hfits : state.Fits surroundings) (lineCrossed : Bool)
    (htext : surroundings.text = delimiter :: rest)
    (hlast : state.last ≠ .punctuation .equalsGreaterThan) :
    ∃ next,
      Leads state (state.rule? (.punctuation delimiter.closeMark) lineCrossed)
        (.punctuation delimiter.closeMark) surroundings next ∧
      (next.outside? = surroundings.outside? ∨ next.outside? = none) := by
  rcases Surroundings.cases_of_text_eq_cons htext with
    ⟨opened, below, rfl, rfl, -⟩ | ⟨outside, rfl, rfl, -⟩
  · refine ⟨below, ?_, .inl rfl⟩
    rcases opened with _ | isIndex | _
    · rw [Opened.delimiter, closeMark, hfits.rule?_closeParen_push hlast]
      exact hfits.leads_leave (by decide)
    · rw [Opened.delimiter, closeMark, hfits.rule?_closeBracket_push hlast]
      cases isIndex with
      | true => exact hfits.leads_leaveIndex
      | false => exact hfits.leads_leave (by decide)
    · rw [Opened.delimiter, closeMark, rule?_closeBrace, if_neg hlast]
      have hleads := hfits.leads_leave (by decide)
      split_ifs
      · exact hleads.of_semicolon (.inr (.inr rfl))
      · exact hleads
  · refine ⟨⟨outside, none⟩, ?_, .inr rfl⟩
    rw [closeMark, hfits.rule?_closeParen_arrow hlast]
    exact hfits.leads_leaveArrow

/-- An arrow body that is open after a token was open before, or begins with the token. -/
def Keeps (state : State) (kind : Token.Kind) (surroundings next : Surroundings) : Prop :=
  ∀ outside, next.outside? = some outside → surroundings.outside? = some outside ∨
    state.last = .punctuation .equalsGreaterThan ∧ kind ≠ .punctuation .openBrace ∧
      surroundings = ⟨.paren :: outside, none⟩

theorem Keeps.of_eq {next : Surroundings} (hsame : next.outside? = surroundings.outside?) :
    Keeps state kind surroundings next := by
  intro outside houtside
  exact .inl (hsame.symm.trans houtside)

theorem Keeps.of_none {next : Surroundings} (hnone : next.outside? = none) :
    Keeps state kind surroundings next := by
  intro outside houtside
  rw [hnone] at houtside
  cases houtside

theorem Fits.exists_leads_of_rule (hfits : state.Fits surroundings) (hcloses : kind.closes? = none)
    {rule : Rule} (hrule : state.rule? kind lineCrossed = some rule)
    (harrow : state.last = .punctuation .equalsGreaterThan → kind ≠ .punctuation .openBrace →
      ∃ outside, surroundings = ⟨.paren :: outside, none⟩ ∧ kind ≠ .punctuation .closeParen) :
    ∃ next, Leads state (some rule) kind surroundings next ∧
      Keeps state kind surroundings next := by
  obtain ⟨next, hleads, hsame⟩ := hfits.exists_leads_of_not_closing hcloses
  have happlies := applies_of_rule? hrule
  cases rule with
  | separator => exact ⟨next, hleads.of_semicolon (.inl rfl), .of_eq hsame⟩
  | exportBoundary => exact ⟨next, hleads.of_semicolon (.inr (.inl rfl)), .of_eq hsame⟩
  | functionEnd => exact ⟨next, hleads.of_semicolon (.inr (.inr rfl)), .of_eq hsame⟩
  | arrowOpen =>
      obtain ⟨outside, rfl, -⟩ := harrow happlies.1 happlies.2
      obtain ⟨body, hbody, houtside⟩ := hfits.enterArrow.exists_leads_of_not_closing hcloses
      refine ⟨body, hbody.of_enterArrow hcloses, fun other hother => .inr ?_⟩
      obtain rfl : outside = other := Option.some.inj (houtside.symm.trans hother)
      exact ⟨happlies.1, happlies.2, rfl⟩
  | arrowClose =>
      rw [happlies.2.1] at hcloses
      cases hcloses
  | indexOpen =>
      obtain ⟨rfl, -⟩ := happlies
      exact ⟨_, hfits.leads_enterIndex, .of_eq rfl⟩
  | indexClose =>
      rw [happlies.1] at hcloses
      cases hcloses

/-- A token in properly nested text leads on, if arrows without braces stand in parentheses. -/
theorem Fits.exists_leads (hfits : state.Fits surroundings) (lineCrossed : Bool)
    {text : List Delimiter} (hnest : nest surroundings.text kind = some text)
    (harrow : state.last = .punctuation .equalsGreaterThan → kind ≠ .punctuation .openBrace →
      ∃ outside, surroundings = ⟨.paren :: outside, none⟩ ∧ kind ≠ .punctuation .closeParen) :
    ∃ next, Leads state (state.rule? kind lineCrossed) kind surroundings next ∧
      Keeps state kind surroundings next := by
  cases hcloses : kind.closes? with
  | some delimiter =>
      obtain rfl := closes?_eq_some hcloses
      have htext : surroundings.text = delimiter :: text := by
        refine eq_cons_of_nest_of_closes ?_ hcloses hnest
        cases delimiter <;> rfl
      have hlast : state.last ≠ .punctuation .equalsGreaterThan := by
        intro hlast
        obtain ⟨outside, rfl, hne⟩ := harrow hlast (by cases delimiter <;> decide)
        obtain ⟨rfl, -⟩ := List.cons.inj htext
        exact hne rfl
      obtain ⟨next, hleads, hsame | hnone⟩ := hfits.exists_leads_of_closing lineCrossed htext hlast
      · exact ⟨next, hleads, .of_eq hsame⟩
      · exact ⟨next, hleads, .of_none hnone⟩
  | none =>
      cases hrule : state.rule? kind lineCrossed with
      | none =>
          obtain ⟨next, hleads, hsame⟩ := hfits.exists_leads_of_not_closing hcloses
          exact ⟨next, hleads, .of_eq hsame⟩
      | some rule => exact hfits.exists_leads_of_rule hcloses hrule harrow

end

/-! ### A run -/

/-- The open delimiters before the tokens that are left, with what is known about arrows ahead. -/
structure Stands (state : State) (surroundings : Surroundings) (kinds : List Token.Kind) :
    Prop where
  fits : state.Fits surroundings
  arrows : ArrowsStand surroundings.text kinds
  /-- An open arrow body ends before another arrow. -/
  body : ∀ outside, surroundings.outside? = some outside →
    ClosesBeforeArrow surroundings.text (outside.map Opened.delimiter) kinds
  /-- Right after an arrow no arrow body is open, and the one that may begin ends before another
  arrow. -/
  arrow : state.last = .punctuation .equalsGreaterThan → ∀ kind rest, kinds = kind :: rest →
    kind ≠ .punctuation .openBrace →
    ∃ outside, surroundings = ⟨.paren :: outside, none⟩ ∧ kind ≠ .punctuation .closeParen ∧
      ClosesBeforeArrow surroundings.text (outside.map Opened.delimiter) kinds

section

variable {state : State} {surroundings : Surroundings} {kind : Token.Kind}
  {rest : List Token.Kind}

/-- Whatever arrow body is open after a token ends before another arrow, counted from that token. -/
theorem Stands.closes_of_keeps (hstands : state.Stands surroundings (kind :: rest))
    {next : Surroundings} (hkept : Keeps state kind surroundings next) {outside : List Opened}
    (houtside : next.outside? = some outside) :
    ClosesBeforeArrow surroundings.text (outside.map Opened.delimiter) (kind :: rest) ∧
      surroundings.text ≠ outside.map Opened.delimiter := by
  rcases hkept outside houtside with hsame | ⟨hlast, hkind, rfl⟩
  · exact ⟨hstands.body outside hsame, Surroundings.text_ne_outside hsame⟩
  · obtain ⟨other, hother, -, hcloses⟩ := hstands.arrow hlast kind rest rfl hkind
    obtain rfl : outside = other := by simpa using hother
    refine ⟨hcloses, ?_⟩
    intro htext
    simpa [Surroundings.text] using congrArg List.length htext

/-- An arrow outside of any arrow body stands in a parenthesis of its own. -/
theorem Stands.paren_of_arrow {head : Token.Kind}
    (hstands : state.Stands surroundings (.punctuation .equalsGreaterThan :: head :: rest))
    (hhead : head ≠ .punctuation .openBrace) {next : Surroundings}
    (htext : nest surroundings.text (.punctuation .equalsGreaterThan) = some next.text)
    (hnone : next.outside? = none) :
    ∃ outside, next = ⟨.paren :: outside, none⟩ ∧ head ≠ .punctuation .closeParen ∧
      ClosesBeforeArrow next.text (outside.map Opened.delimiter) (head :: rest) := by
  obtain ⟨outer, houter, hclose, hcloses⟩ := hstands.arrows [] head rest rfl hhead
  rw [openAfter_nil] at houter
  rw [nest_of_neither rfl rfl] at htext
  have hnext : next.text = .paren :: outer :=
    (Option.some.inj htext).symm.trans (Option.some.inj houter)
  rcases Surroundings.cases_of_text_eq_cons hnext with
    ⟨opened, ⟨inner, outside?⟩, rfl, hopened, rfl⟩ | ⟨outside, rfl, -⟩
  · obtain rfl : outside? = none := hnone
    obtain rfl : opened = .paren := by cases opened <;> first | rfl | cases hopened
    refine ⟨inner, rfl, hclose, ?_⟩
    rw [hnext]
    simpa [Surroundings.text] using hcloses
  · cases hnone

theorem Stands.step (hstands : state.Stands surroundings (kind :: rest)) (lineCrossed : Bool)
    {text : List Delimiter} (hnest : nest surroundings.text kind = some text) :
    ∃ next, Leads state (state.rule? kind lineCrossed) kind surroundings next ∧
      (state.follow kind lineCrossed).Stands next rest := by
  have harrow (hlast : state.last = .punctuation .equalsGreaterThan)
      (hkind : kind ≠ .punctuation .openBrace) :
      ∃ outside, surroundings = ⟨.paren :: outside, none⟩ ∧ kind ≠ .punctuation .closeParen := by
    obtain ⟨outside, hsurroundings, hclose, -⟩ := hstands.arrow hlast kind rest rfl hkind
    exact ⟨outside, hsurroundings, hclose⟩
  obtain ⟨next, hleads, hkept⟩ := hstands.fits.exists_leads lineCrossed hnest harrow
  refine ⟨next, hleads, ⟨?_, hstands.arrows.tail hleads.text, ?_, ?_⟩⟩
  · exact ⟨hleads.fits.indices, hleads.fits.inArrow, hleads.fits.arrowParens⟩
  · intro outside houtside
    obtain ⟨hcloses, hne⟩ := hstands.closes_of_keeps hkept houtside
    exact hcloses.tail hne hleads.text
  · rintro hlast head tail rfl hhead
    obtain rfl := eq_arrow_of_last_follow hlast
    have hnone : next.outside? = none := by
      rw [Option.eq_none_iff_forall_ne_some]
      intro outside houtside
      obtain ⟨hcloses, hne⟩ := hstands.closes_of_keeps hkept houtside
      exact hne (hcloses.eq_of_arrow hhead)
    exact hstands.paren_of_arrow hhead hleads.text hnone

theorem Stands.through {tokens : List Token}
    (hstands : state.Stands surroundings (tokens.map Token.kind)) {text : List Delimiter}
    (hopen : openAfter surroundings.text (tokens.map Token.kind) = some text) :
    ∃ next, (state.through tokens).Fits next ∧ next.text = text ∧
      openAfter surroundings.completed ((state.complete tokens).map Token.kind) =
        some next.completed := by
  induction tokens generalizing state surroundings with
  | nil => exact ⟨surroundings, hstands.fits, Option.some.inj hopen, rfl⟩
  | cons token rest ih =>
      rw [List.map_cons, openAfter_cons] at hopen
      obtain ⟨stack, hnest, hrest⟩ := Option.bind_eq_some_iff.mp hopen
      obtain ⟨middle, hleads, hmiddle⟩ := hstands.step token.flags.afterLineBreak hnest
      obtain rfl := Option.some.inj (hnest.symm.trans hleads.text)
      obtain ⟨next, hfits, htext, hcompleted⟩ := ih hmiddle hrest
      refine ⟨next, hfits, htext, ?_⟩
      rw [complete_cons, List.map_append, openAfter_append, chunk, map_kind_withInsertion,
        hleads.completed]
      exact hcompleted

end

theorem Stands.start {kinds : List Token.Kind} (harrows : ArrowsStand [] kinds) :
    Stands {} {} kinds where
  fits := ⟨rfl, rfl, Bool.noConfusion⟩
  arrows := harrows
  body := by
    intro outside houtside
    cases houtside
  arrow := by
    intro hlast
    cases hlast

end State

/-- **Balance.** When the delimiters of a text are nested and its arrows without braces stand in
parentheses, the delimiters of all the tokens are nested, and no index and no arrow body is left
open at the end. In a text of less than `2 ^ 31` bytes signed words hold the counters as they are. -/
theorem Stream.nested_tokens {text : String} {options : Options}
    (hnested : Nested ((Scanner.ofText text options).tokens.map Token.kind))
    (harrows : ArrowsStand [] ((Scanner.ofText text options).tokens.map Token.kind)) :
    let stream := Stream.ofText text options
    Nested (stream.tokens.map Token.kind) ∧
      stream.run.2.state.indices = {} ∧ stream.run.2.state.inArrow = false ∧
      (Text.byteLength text.toList < 2 ^ 31 → stream.HeldInWords) := by
  intro stream
  obtain ⟨htokens, hstate, -⟩ := ofScanner_run (Scanner.ofText text options)
  obtain ⟨⟨inner, outside?⟩, hfits, htext, hcompleted⟩ :=
    (State.Stands.start harrows).through hnested
  -- Nothing is open in the text at the end, so nothing is open at all.
  obtain ⟨rfl, rfl⟩ : inner = [] ∧ outside? = none := by
    cases inner <;> cases outside? <;> first | exact ⟨rfl, rfl⟩ | cases htext
  rw [← hstate] at hfits
  refine ⟨?_, hfits.indices, hfits.inArrow, heldInWords_ofText options⟩
  change openAfter [] ((ofScanner (.ofText text options)).tokens.map Token.kind) = some []
  rw [htokens]
  exact hcompleted

/-- An arrow body with an index in it. -/
theorem Stream.nested_tokens_arrow_index :
    let stream := Stream.ofText "f(x => a[x])" {}
    Nested (stream.tokens.map Token.kind) ∧
      stream.run.2.state.indices = {} ∧ stream.run.2.state.inArrow = false ∧
      stream.HeldInWords := by
  intro stream
  have htokens : (Scanner.ofText "f(x => a[x])" {}).tokens.map Token.kind =
      [.identifier, .punctuation .openParen, .identifier] ++
        .punctuation .equalsGreaterThan ::
          [.identifier, .punctuation .openBracket, .identifier, .punctuation .closeBracket,
            .punctuation .closeParen, .endOfText] := by decide +kernel
  have hnested : Nested ((Scanner.ofText "f(x => a[x])" {}).tokens.map Token.kind) := by
    rw [htokens]
    decide
  have harrows : ArrowsStand [] ((Scanner.ofText "f(x => a[x])" {}).tokens.map Token.kind) := by
    rw [htokens]
    have hopen : openAfter [] [.identifier, .punctuation .openParen, .identifier] = some [.paren] :=
      rfl
    exact arrowsStand_of_lone (by decide) (by decide) hopen (by decide)
  obtain ⟨hcompleted, hindices, harrow, hheld⟩ := nested_tokens hnested harrows
  exact ⟨hcompleted, hindices, harrow, hheld (by decide)⟩

end FormulaScript.Layout
