import FormulaScript.Proofs.Layout.Conservation
import Mathlib.Data.List.Basic

/-!
# Where semicolons are inserted

Three rules insert semicolons, and look at the kind of the token handed out last, which may be an
inserted one. What they come to is told by the tokens of the text alone: between two of them at most
one semicolon is inserted, by the first of them or by the second.
-/

namespace FormulaScript.Layout

def marksBefore (token : Token) : Option Insertion → List Token
  | some (.before mark) => [.inserted mark token.span.start]
  | _ => []

def marksAfter (token : Token) : Option Insertion → List Token
  | some (.after mark) => [.inserted mark token.span.stop]
  | _ => []

theorem withInsertion_eq (token : Token) (insertion? : Option Insertion) :
    withInsertion token insertion? =
      marksBefore token insertion? ++ token :: marksAfter token insertion? := by
  rcases insertion? with _ | _ | _ <;> rfl

/-- The functions that are open after some tokens, by their braces. -/
def openFunctions (tokens : List Token) : Nesting :=
  (tokens.map Token.kind).foldl Nesting.countBrace {}

/-- The last of the tokens is a brace that ends the innermost function. -/
def EndsFunction (tokens : List Token) : Prop :=
  ∃ before brace, tokens = before ++ [brace] ∧ brace.kind = .punctuation .closeBrace ∧
    (openFunctions before).close.1 = some 0

/-- What calls for a semicolon between some tokens of the text and the next one: a function that
ends, a new line between two statements, or an export. -/
def SemicolonDue (tokens : List Token) (next : Token) : Prop :=
  EndsFunction tokens ∨
    (¬EndsFunction tokens ∧ ∃ last ∈ tokens.getLast?, next.followsLineBreak ∧
      last.kind.endsStatement ∧ next.kind.beginsStatement ∧ ¬next.kind.continuesStatement) ∨
    (next.kind = .keyword .exportWord ∧
      ∀ last ∈ tokens.getLast?, last.kind ≠ .punctuation .semicolon)

theorem not_endsFunction_nil : ¬EndsFunction [] := by
  rintro ⟨before, brace, htokens, -⟩
  simp at htokens

theorem endsFunction_concat (before : List Token) (last : Token) :
    EndsFunction (before ++ [last]) ↔
      last.kind = .punctuation .closeBrace ∧ (openFunctions before).close.1 = some 0 := by
  constructor
  · rintro ⟨before', brace, htokens, hends⟩
    obtain ⟨rfl, hlast⟩ := List.append_inj' htokens rfl
    obtain ⟨rfl, -⟩ := List.cons.inj hlast
    exact hends
  · exact fun hends => ⟨before, last, rfl, hends⟩

def isSemicolon (token : Token) : Bool :=
  token.kind = .punctuation .semicolon

/-! ### Marks around a token -/

namespace State

def lead (state : State) (token : Token) : List Token :=
  marksBefore token ((state.rule? token.kind token.flags.afterLineBreak).map Rule.insertion)

def trail (state : State) (token : Token) : List Token :=
  marksAfter token ((state.rule? token.kind token.flags.afterLineBreak).map Rule.insertion)

/-- The state once a token and its marks have been handed out. -/
def past (state : State) (token : Token) : State :=
  state.follow token.kind token.flags.afterLineBreak

variable {state : State} {token : Token}

theorem complete_eq (state : State) (token : Token) (rest : List Token) :
    state.complete (token :: rest) =
      state.lead token ++ token :: (state.trail token ++ (state.past token).complete rest) := by
  rw [complete_cons, chunk, withInsertion_eq, List.append_assoc]
  rfl

theorem isInserted_of_mem_lead {mark : Token} (hmem : mark ∈ state.lead token) :
    mark.isInserted := by
  unfold lead marksBefore at hmem
  split at hmem
  · rw [List.mem_singleton.mp hmem]
    rfl
  · cases hmem

theorem isInserted_of_mem_trail {mark : Token} (hmem : mark ∈ state.trail token) :
    mark.isInserted := by
  unfold trail marksAfter at hmem
  split at hmem
  · rw [List.mem_singleton.mp hmem]
    rfl
  · cases hmem

theorem functions_through (state : State) (tokens : List Token) :
    (state.through tokens).functions =
      (tokens.map Token.kind).foldl Nesting.countBrace state.functions := by
  induction tokens generalizing state with
  | nil => rfl
  | cons token rest ih => exact ih _

/-! ### Finding a token of the text among all the tokens -/

/-- Marks in front of a list stand in front of every token of the text in it. -/
theorem exists_of_marks_append {marks rest front back : List Token} {token : Token}
    (hmarks : ∀ mark ∈ marks, mark.isInserted) (htoken : token.isInserted = false)
    (hsplit : marks ++ rest = front ++ token :: back) :
    ∃ inner, front = marks ++ inner ∧ rest = inner ++ token :: back := by
  induction marks generalizing front with
  | nil => exact ⟨front, rfl, hsplit⟩
  | cons mark marks ih =>
      obtain ⟨hmark, hrest⟩ := List.forall_mem_cons.mp hmarks
      cases front with
      | nil =>
          obtain ⟨rfl, -⟩ := List.cons.inj hsplit
          rw [htoken] at hmark
          cases hmark
      | cons head front =>
          obtain ⟨rfl, htail⟩ := List.cons.inj hsplit
          obtain ⟨inner, rfl, hinner⟩ := ih hrest htail
          exact ⟨inner, rfl, hinner⟩

theorem exists_of_complete_eq {tokens front back : List Token} (htoken : token.isInserted = false)
    (hsplit : state.complete tokens = front ++ token :: back) :
    ∃ before after, tokens = before ++ token :: after ∧
      front = state.complete before ++ (state.through before).lead token ∧
      back = (state.through before).trail token ++
        ((state.through before).past token).complete after := by
  induction tokens generalizing state front with
  | nil => cases front <;> cases hsplit
  | cons head rest ih =>
      rw [complete_eq] at hsplit
      obtain ⟨inner, rfl, hinner⟩ :=
        exists_of_marks_append (fun _ => isInserted_of_mem_lead) htoken hsplit
      cases inner with
      | nil =>
          obtain ⟨rfl, rfl⟩ := List.cons.inj hinner
          exact ⟨[], rest, rfl, by simp [through], rfl⟩
      | cons _ inner =>
          obtain ⟨rfl, htail⟩ := List.cons.inj hinner
          obtain ⟨deeper, rfl, hdeeper⟩ :=
            exists_of_marks_append (fun _ => isInserted_of_mem_trail) htoken htail
          obtain ⟨before, after, rfl, rfl, rfl⟩ := ih hdeeper
          refine ⟨head :: before, after, rfl, ?_, rfl⟩
          rw [complete_eq]
          simp [through, past]

theorem marks_eq_lead {tokens gap back : List Token}
    (htokens : ∀ token ∈ tokens, token.isInserted = false) (htoken : token.isInserted = false)
    (hgap : ∀ mark ∈ gap, mark.isInserted)
    (hsplit : state.complete tokens = gap ++ token :: back) : gap = state.lead token := by
  obtain ⟨before, after, rfl, rfl, -⟩ := exists_of_complete_eq htoken hsplit
  cases before with
  | nil => rfl
  | cons head before =>
      have hhead : head.isInserted := hgap head (by simp [complete_eq])
      rw [htokens head (by simp)] at hhead
      cases hhead

theorem marks_eq_trail_append_lead {tokens front gap back : List Token} {last next : Token}
    (htokens : ∀ token ∈ tokens, token.isInserted = false) (hlast : last.isInserted = false)
    (hnext : next.isInserted = false) (hgap : ∀ mark ∈ gap, mark.isInserted)
    (hsplit : state.complete tokens = front ++ last :: (gap ++ next :: back)) :
    ∃ before, front.filter (!·.isInserted) = before ∧
      gap = (state.through before).trail last ++
        ((state.through before).past last).lead next := by
  obtain ⟨before, after, rfl, rfl, hafter⟩ := exists_of_complete_eq hlast hsplit
  have hbefore : ∀ token ∈ before, token.isInserted = false :=
    fun token hmem => htokens token (List.mem_append_left _ hmem)
  refine ⟨before, ?_, ?_⟩
  · rw [List.filter_append, filter_complete _ hbefore, List.filter_eq_nil_iff.mpr, List.append_nil]
    intro mark hmem
    simp [isInserted_of_mem_lead hmem]
  · obtain ⟨inner, rfl, hinner⟩ :=
      exists_of_marks_append (fun _ => isInserted_of_mem_trail) hnext hafter.symm
    rw [marks_eq_lead (fun token hmem => ?_) hnext (fun mark hmem => ?_) hinner]
    · exact htokens token (by simp [hmem])
    · exact hgap mark (List.mem_append_right _ hmem)

/-! ### Counting semicolons -/

theorem countP_trail (state : State) (token : Token) :
    (state.trail token).countP isSemicolon =
      if state.rule? token.kind token.flags.afterLineBreak = some .functionEnd then 1 else 0 := by
  unfold trail
  cases state.rule? token.kind token.flags.afterLineBreak with
  | none => rfl
  | some rule => cases rule <;> rfl

theorem countP_lead (state : State) (token : Token) :
    (state.lead token).countP isSemicolon =
      if state.rule? token.kind token.flags.afterLineBreak = some .separator ∨
        state.rule? token.kind token.flags.afterLineBreak = some .exportBoundary then 1 else 0 := by
  unfold lead
  cases state.rule? token.kind token.flags.afterLineBreak with
  | none => rfl
  | some rule => cases rule <;> rfl

theorem rule?_eq_functionEnd_iff (state : State) (kind : Token.Kind) (lineCrossed : Bool) :
    state.rule? kind lineCrossed = some .functionEnd ↔
      kind = .punctuation .closeBrace ∧ state.functions.close.1 = some 0 := by
  constructor
  · exact applies_of_rule?
  · rintro ⟨rfl, hzero⟩
    rw [rule?_closeBrace, if_pos hzero]

theorem rule?_eq_semicolon_before_iff (state : State) (kind : Token.Kind) (lineCrossed : Bool) :
    state.rule? kind lineCrossed = some .separator ∨
        state.rule? kind lineCrossed = some .exportBoundary ↔
      state.separates kind lineCrossed = true ∨
        kind = .keyword .exportWord ∧ state.last ≠ .punctuation .semicolon := by
  constructor
  · exact Or.imp applies_of_rule? applies_of_rule?
  · intro happlies
    have hkind : ¬(kind = .punctuation .semicolon ∨ kind = .endOfText) := by
      rintro (rfl | rfl) <;> simp [separates, Token.Kind.beginsStatement] at happlies
    rw [rule?, if_neg hkind]
    by_cases hseparates : state.separates kind lineCrossed = true
    · exact .inl (if_pos hseparates)
    · rw [if_neg hseparates]
      exact .inr (if_pos (happlies.resolve_left hseparates))

theorem last_follow_of_functionEnd {kind : Token.Kind} {lineCrossed : Bool}
    (hrule : state.rule? kind lineCrossed = some .functionEnd) :
    (state.follow kind lineCrossed).last = .punctuation .semicolon := by
  rw [follow, hrule]
  rfl

/-- An inserted parenthesis after a bracket is no better an end of a statement than the bracket. -/
theorem last_follow_of_not_functionEnd {kind : Token.Kind} {lineCrossed : Bool}
    (hrule : state.rule? kind lineCrossed ≠ some .functionEnd) :
    (state.follow kind lineCrossed).last.endsStatement = kind.endsStatement ∧
      ((state.follow kind lineCrossed).last = .punctuation .semicolon ↔
        kind = .punctuation .semicolon) := by
  rw [follow]
  cases hrule' : state.rule? kind lineCrossed with
  | none => exact ⟨rfl, Iff.rfl⟩
  | some rule =>
      have happlies := applies_of_rule? hrule'
      cases rule with
      | functionEnd => exact absurd hrule' hrule
      | indexOpen =>
          rw [happlies.1]
          refine ⟨rfl, iff_of_false ?_ ?_⟩
          · intro hmark
            cases hmark
          · intro hkind
            cases hkind
      | _ => exact ⟨rfl, Iff.rfl⟩

/-- One of the two tokens calls for a semicolon between them, and not both. -/
theorem countP_between (state : State) (last next : Token) :
    ((state.trail last ++ (state.past last).lead next).countP isSemicolon ≤ 1) ∧
      ((state.trail last ++ (state.past last).lead next).countP isSemicolon = 1 ↔
        (last.kind = .punctuation .closeBrace ∧ state.functions.close.1 = some 0) ∨
          (¬(last.kind = .punctuation .closeBrace ∧ state.functions.close.1 = some 0) ∧
            next.followsLineBreak ∧ last.kind.endsStatement ∧ next.kind.beginsStatement ∧
              ¬next.kind.continuesStatement) ∨
          (next.kind = .keyword .exportWord ∧ last.kind ≠ .punctuation .semicolon)) := by
  rw [List.countP_append, countP_trail, countP_lead, past]
  have hbefore := (state.follow last.kind last.flags.afterLineBreak).rule?_eq_semicolon_before_iff
    next.kind next.flags.afterLineBreak
  rw [separates_eq_true_iff] at hbefore
  by_cases hends : last.kind = .punctuation .closeBrace ∧ state.functions.close.1 = some 0
  · -- The semicolon after the function keeps any other one away.
    have hrule := (state.rule?_eq_functionEnd_iff _ last.flags.afterLineBreak).mpr hends
    rw [last_follow_of_functionEnd hrule] at hbefore
    rw [if_pos hrule, if_neg (by simp [hbefore, Token.Kind.endsStatement])]
    exact ⟨Nat.le_refl 1, by simp [hends]⟩
  · have hrule := (state.rule?_eq_functionEnd_iff _ last.flags.afterLineBreak).not.mpr hends
    obtain ⟨hstatement, hsemicolon⟩ := last_follow_of_not_functionEnd hrule
    rw [hstatement, Ne, hsemicolon] at hbefore
    rw [if_neg hrule, Nat.zero_add]
    split_ifs with hdue
    · exact ⟨Nat.le_refl 1, fun _ => .inr ((hbefore.mp hdue).imp (⟨hends, ·⟩) id), fun _ => rfl⟩
    · refine ⟨Nat.zero_le 1, False.elim, fun hsome => absurd (hbefore.mpr ?_) hdue⟩
      exact (hsome.resolve_left hends).imp And.right id

theorem functions_through_start (tokens : List Token) :
    (through {} tokens).functions = openFunctions tokens :=
  functions_through {} tokens

/-- In front of the first token only an export calls for a semicolon. -/
theorem countP_first (next : Token) :
    (lead {} next).countP isSemicolon ≤ 1 ∧
      ((lead {} next).countP isSemicolon = 1 ↔ SemicolonDue [] next) := by
  have hdue : SemicolonDue [] next ↔ next.kind = .keyword .exportWord := by
    simp [SemicolonDue, not_endsFunction_nil]
  have hbefore := State.rule?_eq_semicolon_before_iff {} next.kind next.flags.afterLineBreak
  rw [separates_eq_true_iff] at hbefore
  have hbefore' : _ ↔ next.kind = .keyword .exportWord :=
    hbefore.trans (by simp [Token.Kind.endsStatement])
  rw [countP_lead, hdue, ← hbefore']
  split_ifs with hsome
  · exact ⟨Nat.le_refl 1, fun _ => hsome, fun _ => rfl⟩
  · exact ⟨Nat.zero_le 1, False.elim, fun h => absurd h hsome⟩

theorem countP_concat (before : List Token) (last next : Token) :
    let marks := (through {} before).trail last ++ ((through {} before).past last).lead next
    marks.countP isSemicolon ≤ 1 ∧
      (marks.countP isSemicolon = 1 ↔ SemicolonDue (before ++ [last]) next) := by
  have hbetween := countP_between (through {} before) last next
  rw [functions_through_start, ← endsFunction_concat] at hbetween
  simpa [SemicolonDue] using hbetween

/-! ### Neighbours of semicolons -/

end State

/-- After a kind, every export comes right after a semicolon, and no inserted semicolon does. -/
def Linked : Token.Kind → List Token → Prop
  | _, [] => True
  | last, token :: rest =>
      (token.kind = .keyword .exportWord → last = .punctuation .semicolon) ∧
        (token.isInserted → token.kind = .punctuation .semicolon →
          last ≠ .punctuation .semicolon) ∧
        Linked token.kind rest

theorem Linked.real {last : Token.Kind} {token : Token} {rest : List Token}
    (htoken : token.isInserted = false)
    (hexport : token.kind = .keyword .exportWord → last = .punctuation .semicolon)
    (hrest : Linked token.kind rest) : Linked last (token :: rest) := by
  refine ⟨hexport, ?_, hrest⟩
  intro hinserted
  rw [htoken] at hinserted
  cases hinserted

theorem Linked.inserted {last : Token.Kind} (rule : Rule) {offset : Nat} {rest : List Token}
    (hlast : rule.insertion.mark = .punctuation .semicolon → last ≠ .punctuation .semicolon)
    (hrest : Linked rule.insertion.mark rest) :
    Linked last (.inserted rule.insertion.mark offset :: rest) := by
  refine ⟨?_, fun _ => hlast, hrest⟩
  intro hexport
  cases rule <;> cases hexport

theorem Linked.of_append {last : Token.Kind} {front back : List Token} {token : Token}
    (hlinked : Linked last (front ++ token :: back)) : Linked token.kind back := by
  induction front generalizing last with
  | nil => exact hlinked.2.2
  | cons head front ih => exact ih hlinked.2.2

namespace State

/-- An export gets a semicolon unless there is one. -/
theorem rule?_export {state : State} {kind : Token.Kind} (hkind : kind = .keyword .exportWord)
    (lineCrossed : Bool) :
    state.rule? kind lineCrossed = some .separator ∨
      state.rule? kind lineCrossed = some .exportBoundary ∨
      state.rule? kind lineCrossed = none ∧ state.last = .punctuation .semicolon := by
  by_cases hlast : state.last = .punctuation .semicolon
  · refine .inr (.inr ⟨?_, hlast⟩)
    simp [rule?, hkind, hlast, separates, Token.Kind.endsStatement]
  · exact or_assoc.mp (.inl ((rule?_eq_semicolon_before_iff _ _ _).mpr (.inr ⟨hkind, hlast⟩)))

theorem kind_ne_export_of_rule? {state : State} {kind : Token.Kind} {lineCrossed : Bool}
    {rule : Rule} (hrule : state.rule? kind lineCrossed = some rule)
    (hne : rule ≠ .separator ∧ rule ≠ .exportBoundary) : kind ≠ .keyword .exportWord := by
  intro hkind
  rcases state.rule?_export hkind lineCrossed with hsome | hsome | ⟨hnone, -⟩
  · exact hne.1 (Option.some.inj (hrule.symm.trans hsome))
  · exact hne.2 (Option.some.inj (hrule.symm.trans hsome))
  · cases hrule.symm.trans hnone

theorem linked_chunk {state : State} {token : Token} (htoken : token.isInserted = false)
    {back : List Token} (hback : Linked (state.past token).last back) :
    Linked state.last (state.chunk token ++ back) := by
  rw [past, follow] at hback
  rw [chunk]
  cases hrule : state.rule? token.kind token.flags.afterLineBreak with
  | none =>
      rw [hrule] at hback
      apply Linked.real htoken _ hback
      intro hkind
      rcases state.rule?_export hkind token.flags.afterLineBreak with hsome | hsome | ⟨-, hlast⟩
      · cases hrule.symm.trans hsome
      · cases hrule.symm.trans hsome
      · exact hlast
  | some rule =>
      have happlies := applies_of_rule? hrule
      have hplain (hne : rule ≠ .separator ∧ rule ≠ .exportBoundary) {last : Token.Kind}
          (hkind : token.kind = .keyword .exportWord) : last = .punctuation .semicolon :=
        absurd hkind (kind_ne_export_of_rule? hrule hne)
      rw [hrule] at hback
      cases rule with
      | separator =>
          apply Linked.inserted .separator _ (.real htoken (fun _ => rfl) hback)
          intro _ hlast
          have hends := ((state.separates_eq_true_iff _ _).mp happlies).2.1
          rw [hlast] at hends
          cases hends
      | exportBoundary =>
          apply Linked.inserted .exportBoundary _ (.real htoken (fun _ => rfl) hback)
          intro _
          exact happlies.2
      | functionEnd =>
          apply Linked.real htoken (hplain (by decide))
          apply Linked.inserted .functionEnd _ hback
          intro _
          rw [happlies.1]
          decide
      | indexOpen =>
          apply Linked.real htoken (hplain (by decide))
          exact .inserted .indexOpen (absurd · (by decide)) hback
      | arrowOpen =>
          apply Linked.inserted .arrowOpen (absurd · (by decide))
          exact .real htoken (hplain (by decide)) hback
      | arrowClose =>
          apply Linked.inserted .arrowClose (absurd · (by decide))
          exact .real htoken (hplain (by decide)) hback
      | indexClose =>
          apply Linked.inserted .indexClose (absurd · (by decide))
          exact .real htoken (hplain (by decide)) hback

theorem linked_complete (state : State) {tokens : List Token}
    (htokens : ∀ token ∈ tokens, token.isInserted = false) :
    Linked state.last (state.complete tokens) := by
  induction tokens generalizing state with
  | nil => trivial
  | cons token rest ih =>
      obtain ⟨htoken, hrest⟩ := List.forall_mem_cons.mp htokens
      rw [complete_cons]
      exact linked_chunk htoken (ih (state.past token) hrest)

end State

namespace Stream

/-- **Placement of semicolons.** Between two tokens of the text, the first of which may be missing,
at most one semicolon is inserted, and one is inserted when it is due. So every export comes right
after a semicolon, and no inserted semicolon does. The functions that a stream counts are the ones
that are open in the text. -/
theorem semicolons_placed (text : String) (options : Options) (dropped : Nat) :
    let scanner := (Scanner.ofText text options).after dropped
    let stream := ofScanner scanner
    (∀ front gap next back, stream.tokens = front ++ (gap ++ next :: back) →
        (∀ last ∈ front.getLast?, last.isInserted = false) → (∀ mark ∈ gap, mark.isInserted) →
        next.isInserted = false →
        gap.countP isSemicolon ≤ 1 ∧
          (gap.countP isSemicolon = 1 ↔ SemicolonDue (front.filter (!·.isInserted)) next)) ∧
      (∀ front next back, stream.tokens = front ++ next :: back →
        next.kind = .keyword .exportWord →
        ∃ last ∈ front.getLast?, last.kind = .punctuation .semicolon) ∧
      (∀ front last next back, stream.tokens = front ++ last :: next :: back →
        next.isInserted → next.kind = .punctuation .semicolon →
        last.kind ≠ .punctuation .semicolon) ∧
      ∀ count, (stream.after count).state.functions =
        openFunctions ((stream.knownTokens count).filter (!·.isInserted)) := by
  intro scanner stream
  have htokens : stream.tokens = State.complete {} scanner.tokens := (ofScanner_run scanner).1
  have hreal (token : Token) (hmem : token ∈ scanner.tokens) : token.isInserted = false :=
    Scanner.isInserted_of_mem_tokens hmem
  have hlinked := State.linked_complete {} hreal
  rw [← htokens] at hlinked
  refine ⟨?_, ?_, ?_, ?_⟩
  · intro front gap next back hsplit hlast hgap hnext
    rw [htokens] at hsplit
    rcases List.eq_nil_or_concat' front with rfl | ⟨init, last, rfl⟩
    · rw [State.marks_eq_lead hreal hnext hgap hsplit]
      exact State.countP_first next
    · have hlast := hlast last (by simp)
      rw [List.append_assoc] at hsplit
      obtain ⟨before, hbefore, rfl⟩ :=
        State.marks_eq_trail_append_lead hreal hlast hnext hgap hsplit
      rw [List.filter_append, hbefore, List.filter_cons_of_pos (by simp [hlast]), List.filter_nil]
      exact State.countP_concat before last next
  · intro front next back hsplit hkind
    rcases List.eq_nil_or_concat' front with rfl | ⟨init, last, rfl⟩
    · rw [hsplit] at hlinked
      cases hlinked.1 hkind
    · rw [hsplit, List.append_assoc] at hlinked
      exact ⟨last, by simp, hlinked.of_append.1 hkind⟩
  · intro front last next back hsplit
    rw [hsplit] at hlinked
    exact hlinked.of_append.2.1
  · intro count
    obtain ⟨steps, hcompletes⟩ : ∃ steps, stream.Completes scanner count steps :=
      ofScanner_exists_completes scanner count
    rw [hcompletes.functions, hcompletes.tokens, State.filter_complete]
    · exact State.functions_through_start _
    · exact fun token => Scanner.isInserted_of_mem_firstTokens

/-- A new line between two names calls for the semicolon that is inserted there. -/
theorem semicolons_placed_between_names :
    let first : Token := { kind := .identifier, span := ⟨0, 1⟩, content := .text "a" }
    let second : Token :=
      { kind := .identifier, span := ⟨2, 3⟩, content := .text "b",
        flags := { afterLineBreak := true } }
    (ofText "a\nb" {}).tokens =
        [first] ++ ([.inserted (.punctuation .semicolon) 2] ++
          second :: [{ kind := .endOfText, span := .empty 3 }]) ∧
      SemicolonDue [first] second := by
  intro first second
  have htokens : (ofText "a\nb" {}).tokens =
      [first] ++ ([.inserted (.punctuation .semicolon) 2] ++
        second :: [{ kind := .endOfText, span := .empty 3 }]) := by decide +kernel
  obtain ⟨-, hdue⟩ := (semicolons_placed "a\nb" {} 0).1 _ _ _ _ htokens
    (by decide) (by decide) (by decide)
  exact ⟨htokens, hdue.mp (by decide)⟩

end Stream

end FormulaScript.Layout
