import FormulaScript.Proofs.Layout.Wrapping
import Mathlib.Data.List.Basic
import Mathlib.Data.List.Induction

/-!
# The counters account for the marks

Whatever the delimiters of a text are, the counters tell what has been inserted: an index is open
for every inserted parenthesis that is not closed yet, and an arrow body is open exactly behind an
inserted brace that is not closed yet. The token that waits has been accounted for together with the
one that was handed out before it, so that it counts among the emitted tokens.
-/

namespace FormulaScript

namespace Token

def isMark (mark : Kind) (token : Token) : Bool :=
  token.isInserted && token.kind = mark

theorem isMark_of_not_isInserted {token : Token} (htoken : token.isInserted = false)
    (mark : Kind) : token.isMark mark = false := by
  rw [isMark, htoken, Bool.false_and]

@[simp]
theorem isMark_inserted (mark kind : Kind) (offset : Nat) :
    (Token.inserted kind offset).isMark mark = decide (kind = mark) := rfl

end Token

namespace Layout

/-! ### Marks in a list of tokens -/

def marks (mark : Token.Kind) (tokens : List Token) : Nat :=
  tokens.countP (Token.isMark mark)

/-- No beginning of the tokens has more of the closing marks than of the opening ones. -/
def ClosesHold (opening closing : Token.Kind) (tokens : List Token) : Prop :=
  ∀ front, front <+: tokens → marks closing front ≤ marks opening front

/-- Some brace was inserted, and the last one is an opening one. -/
def BodyOpen (tokens : List Token) : Prop :=
  ∃ front opening between, tokens = front ++ opening :: between ∧
    opening.isMark (.punctuation .openBrace) ∧
    ∀ token ∈ between, token.isMark (.punctuation .closeBrace) = false

/-- Every inserted closing brace has an opening one in front of it, and no other closing one between. -/
def BodiesClosed (tokens : List Token) : Prop :=
  ∀ front closing back, tokens = front ++ closing :: back →
    closing.isMark (.punctuation .closeBrace) → BodyOpen front

section

variable {tokens rest : List Token} {token : Token} {mark : Token.Kind}

@[simp]
theorem marks_append (mark : Token.Kind) (tokens rest : List Token) :
    marks mark (tokens ++ rest) = marks mark tokens + marks mark rest :=
  List.countP_append

theorem marks_singleton (mark : Token.Kind) (token : Token) :
    marks mark [token] = if token.isMark mark then 1 else 0 :=
  List.countP_singleton

theorem marks_withInsertion (htoken : token.isInserted = false) (mark : Token.Kind)
    (insertion? : Option Insertion) :
    marks mark (withInsertion token insertion?) =
      if insertion?.map Insertion.mark = some mark then 1 else 0 := by
  have hraw := Token.isMark_of_not_isInserted htoken mark
  rcases insertion? with _ | kind | kind <;>
    simp [withInsertion, marks, List.countP_cons, hraw, Insertion.mark]

theorem closesHold_nil (opening closing : Token.Kind) : ClosesHold opening closing [] := by
  intro front hfront
  rw [List.prefix_nil.mp hfront]
  exact Nat.le_refl 0

/-- What follows may close no more than what was open before it. -/
theorem ClosesHold.append {opening closing : Token.Kind} (hhold : ClosesHold opening closing tokens)
    (hle : marks closing (tokens ++ rest) ≤ marks opening tokens) :
    ClosesHold opening closing (tokens ++ rest) := by
  intro front hfront
  rcases List.prefix_or_prefix_of_prefix hfront (List.prefix_append tokens rest) with
    hbefore | ⟨part, rfl⟩
  · exact hhold front hbefore
  · calc marks closing (tokens ++ part) ≤ marks closing (tokens ++ rest) :=
          hfront.sublist.countP_le
      _ ≤ marks opening tokens := hle
      _ ≤ marks opening (tokens ++ part) := (List.sublist_append_left tokens part).countP_le

theorem not_bodyOpen_nil : ¬BodyOpen [] := by
  rintro ⟨front, opening, between, hsplit, -⟩
  simp at hsplit

/-- A list that ends in a token is split at that one, or at one before it. -/
theorem concat_eq_split {front back : List Token} {middle : Token}
    (hsplit : tokens ++ [token] = front ++ middle :: back) :
    back = [] ∧ front = tokens ∧ middle = token ∨
      ∃ between, back = between ++ [token] ∧ tokens = front ++ middle :: between := by
  rcases back.eq_nil_or_concat' with rfl | ⟨between, last, rfl⟩
  · obtain ⟨hfront, hlast⟩ := List.append_inj' hsplit rfl
    exact .inl ⟨rfl, hfront.symm, (List.singleton_inj.mp hlast).symm⟩
  · rw [← List.cons_append, ← List.append_assoc] at hsplit
    obtain ⟨hbefore, hlast⟩ := List.append_inj' hsplit rfl
    exact .inr ⟨between, by rw [List.singleton_inj.mp hlast], hbefore⟩

theorem bodyOpen_concat :
    BodyOpen (tokens ++ [token]) ↔
      token.isMark (.punctuation .openBrace) ∨
        token.isMark (.punctuation .closeBrace) = false ∧ BodyOpen tokens := by
  constructor
  · rintro ⟨front, opening, between, hsplit, hopening, hbetween⟩
    rcases concat_eq_split hsplit with ⟨-, -, rfl⟩ | ⟨between, rfl, rfl⟩
    · exact .inl hopening
    · exact .inr ⟨hbetween token (by simp), front, opening, between, rfl, hopening,
        fun other hmem => hbetween other (List.mem_append_left _ hmem)⟩
  · rintro (hopening | ⟨hclosing, front, opening, between, rfl, hopening, hbetween⟩)
    · exact ⟨tokens, token, [], rfl, hopening, fun other hmem => by cases hmem⟩
    · refine ⟨front, opening, between ++ [token], by simp, hopening, fun other hmem => ?_⟩
      rcases List.mem_append.mp hmem with hmem | hmem
      · exact hbetween other hmem
      · rwa [List.mem_singleton.mp hmem]

theorem bodiesClosed_nil : BodiesClosed [] := by
  intro front closing back hsplit
  simp at hsplit

theorem bodiesClosed_concat :
    BodiesClosed (tokens ++ [token]) ↔
      BodiesClosed tokens ∧ (token.isMark (.punctuation .closeBrace) → BodyOpen tokens) := by
  constructor
  · intro hclosed
    refine ⟨fun front closing back hsplit => ?_, hclosed tokens token [] rfl⟩
    exact hclosed front closing (back ++ [token]) (by simp [hsplit])
  · rintro ⟨hclosed, hopen⟩ front closing back hsplit hclosing
    rcases concat_eq_split hsplit with ⟨-, rfl, rfl⟩ | ⟨between, rfl, rfl⟩
    · exact hopen hclosing
    · exact hclosed front closing between rfl hclosing

theorem bodyOpen_append_withInsertion (htoken : token.isInserted = false)
    (insertion? : Option Insertion) :
    BodyOpen (tokens ++ withInsertion token insertion?) ↔
      insertion?.map Insertion.mark = some (.punctuation .openBrace) ∨
        insertion?.map Insertion.mark ≠ some (.punctuation .closeBrace) ∧ BodyOpen tokens := by
  have hraw := Token.isMark_of_not_isInserted htoken
  rcases insertion? with _ | mark | mark
  · simp [withInsertion, bodyOpen_concat, hraw]
  · rw [withInsertion, List.append_cons, bodyOpen_concat, bodyOpen_concat]
    simp [hraw, Insertion.mark]
  · rw [withInsertion, List.append_cons, bodyOpen_concat, bodyOpen_concat]
    simp [hraw, Insertion.mark]

theorem bodiesClosed_append_withInsertion (htoken : token.isInserted = false)
    (insertion? : Option Insertion) :
    BodiesClosed (tokens ++ withInsertion token insertion?) ↔
      BodiesClosed tokens ∧
        (insertion?.map Insertion.mark = some (.punctuation .closeBrace) → BodyOpen tokens) := by
  have hraw := Token.isMark_of_not_isInserted htoken
  rcases insertion? with _ | mark | mark
  · simp [withInsertion, bodiesClosed_concat, hraw]
  · rw [withInsertion, List.append_cons, bodiesClosed_concat, bodiesClosed_concat]
    simp [hraw, Insertion.mark]
  · rw [withInsertion, List.append_cons, bodiesClosed_concat, bodiesClosed_concat,
      bodyOpen_concat]
    simp [hraw, Insertion.mark]

theorem BodiesClosed.of_append (hclosed : BodiesClosed (tokens ++ rest)) : BodiesClosed tokens :=
  fun front closing back hsplit =>
    hclosed front closing (back ++ rest) (by rw [hsplit, List.append_assoc, List.cons_append])

/-- Between two closing braces there is an opening one, which makes up for the second. -/
theorem BodiesClosed.marks_le (hclosed : BodiesClosed tokens) :
    marks (.punctuation .closeBrace) tokens ≤ marks (.punctuation .openBrace) tokens ∧
      (BodyOpen tokens →
        marks (.punctuation .closeBrace) tokens < marks (.punctuation .openBrace) tokens) := by
  induction tokens using List.reverseRecOn with
  | nil => exact ⟨Nat.le_refl 0, fun hopen => absurd hopen not_bodyOpen_nil⟩
  | append_singleton tokens token ih =>
      obtain ⟨hbefore, hlast⟩ := bodiesClosed_concat.mp hclosed
      obtain ⟨hle, hlt⟩ := ih hbefore
      rw [bodyOpen_concat, marks_append, marks_append, marks_singleton, marks_singleton]
      cases hclosing : token.isMark (.punctuation .closeBrace) with
      | false =>
          refine ⟨by simp; omega, ?_⟩
          rintro (hopening | ⟨-, hopen⟩)
          · simp [hopening]; omega
          · have := hlt hopen
            simp
            omega
      | true =>
          have hstrict := hlt (hlast hclosing)
          have hopening : token.isMark (.punctuation .openBrace) = false := by
            simp only [Token.isMark, Bool.and_eq_true, decide_eq_true_eq] at hclosing
            simp [Token.isMark, hclosing]
          simp [hopening]
          omega

theorem BodiesClosed.closesHold (hclosed : BodiesClosed tokens) :
    ClosesHold (.punctuation .openBrace) (.punctuation .closeBrace) tokens := by
  rintro front ⟨rest, rfl⟩
  exact hclosed.of_append.marks_le.1

end

/-! ### The counters of one token -/

/-- All marks but the semicolon tell the rule that inserted them. -/
theorem Rule.map_mark_eq_some_iff (rule : Rule)
    (hrule : rule.insertion.mark ≠ .punctuation .semicolon) (rule? : Option Rule) :
    (rule?.map Rule.insertion).map Insertion.mark = some rule.insertion.mark ↔
      rule? = some rule := by
  constructor
  · intro hmark
    obtain ⟨insertion, hinsertion, hmark⟩ := Option.map_eq_some_iff.mp hmark
    obtain ⟨rule', rfl, rfl⟩ := Option.map_eq_some_iff.mp hinsertion
    cases rule with
    | separator | exportBoundary | functionEnd => exact absurd rfl hrule
    | arrowOpen | arrowClose | indexOpen | indexClose =>
        cases rule' <;> first | rfl | cases hmark
  · rintro rfl
    rfl

theorem marks_withInsertion_rule {token : Token} (htoken : token.isInserted = false) (rule : Rule)
    (hrule : rule.insertion.mark ≠ .punctuation .semicolon) (rule? : Option Rule) :
    marks rule.insertion.mark (withInsertion token (rule?.map Rule.insertion)) =
      if rule? = some rule then 1 else 0 := by
  rw [marks_withInsertion htoken]
  simp only [rule.map_mark_eq_some_iff hrule]

namespace Nesting

variable {nesting : Nesting}

def Positive (nesting : Nesting) : Prop :=
  ∀ count ∈ nesting.counts, 1 ≤ count

theorem depth_deepen (nesting : Nesting) : nesting.deepen.depth = nesting.depth := by
  obtain ⟨_ | ⟨count, outer⟩⟩ := nesting <;> rfl

theorem depth_close (nesting : Nesting) :
    nesting.close.2.depth + (if nesting.close.1 = some 0 then 1 else 0) = nesting.depth := by
  obtain ⟨_ | ⟨count, outer⟩⟩ := nesting
  · rfl
  · by_cases hcount : count - 1 = 0 <;> simp [close, depth, hcount]

theorem Positive.enter (hpositive : nesting.Positive) : (nesting.enter 1).Positive :=
  List.forall_mem_cons.mpr ⟨Int.le_refl 1, hpositive⟩

theorem Positive.deepen (hpositive : nesting.Positive) : nesting.deepen.Positive := by
  obtain ⟨_ | ⟨count, outer⟩⟩ := nesting
  · exact hpositive
  · obtain ⟨hcount, houter⟩ := List.forall_mem_cons.mp hpositive
    exact List.forall_mem_cons.mpr ⟨by omega, houter⟩

theorem Positive.close (hpositive : nesting.Positive) : nesting.close.2.Positive := by
  obtain ⟨_ | ⟨count, outer⟩⟩ := nesting
  · exact hpositive
  · obtain ⟨hcount, houter⟩ := List.forall_mem_cons.mp hpositive
    by_cases hzero : count - 1 = 0
    · rw [close, if_pos hzero]
      exact houter
    · rw [close, if_neg hzero]
      exact List.forall_mem_cons.mpr ⟨by omega, houter⟩

theorem Positive.countBracket (hpositive : nesting.Positive) (rule? : Option Rule)
    (kind : Token.Kind) : (nesting.countBracket rule? kind).Positive := by
  unfold Nesting.countBracket
  split_ifs
  · exact hpositive.enter
  · exact hpositive.deepen
  · exact hpositive.close
  · exact hpositive

end Nesting

namespace State

variable {state : State} {kind : Token.Kind} {lineCrossed : Bool}

/-- An index is opened and closed by the rules that insert a parenthesis, and by nothing else. -/
theorem depth_countBracket (state : State) (kind : Token.Kind) (lineCrossed : Bool) :
    (state.indices.countBracket (state.rule? kind lineCrossed) kind).depth +
        (if state.rule? kind lineCrossed = some .indexClose then 1 else 0) =
      state.indices.depth +
        (if state.rule? kind lineCrossed = some .indexOpen then 1 else 0) := by
  have hopens (hrule : state.rule? kind lineCrossed = some .indexOpen) :
      kind = .punctuation .openBracket := (applies_of_rule? hrule).1
  have hcloses (hrule : state.rule? kind lineCrossed = some .indexClose) :
      kind = .punctuation .closeBracket := (applies_of_rule? hrule).1
  by_cases hopening : kind = .punctuation .openBracket
  · subst hopening
    have hclose : state.rule? (.punctuation .openBracket) lineCrossed ≠ some .indexClose :=
      fun hrule => by cases hcloses hrule
    by_cases hrule : state.rule? (.punctuation .openBracket) lineCrossed = some .indexOpen
    · simp [Nesting.countBracket, hrule, Nesting.enter, Nesting.depth]
    · simp [Nesting.countBracket, hrule, hclose, Nesting.depth_deepen]
  by_cases hclosing : kind = .punctuation .closeBracket
  · subst hclosing
    rw [rule?_closeBracket]
    by_cases harrow : state.last = .punctuation .equalsGreaterThan
    · simp [Nesting.countBracket, harrow]
    · have hdepth := state.indices.depth_close
      by_cases hends : state.indices.close.1 = some 0 <;>
        simpa [Nesting.countBracket, harrow, hends] using hdepth
  · have hopen := mt hopens hopening
    have hclose := mt hcloses hclosing
    simp [Nesting.countBracket, hopening, hclosing, hopen, hclose]

def ArrowCounted (state : State) : Prop :=
  if state.inArrow then 1 ≤ state.arrowParens else state.arrowParens = 0

theorem ArrowCounted.eq_zero (hcounted : state.ArrowCounted) (harrow : state.inArrow = false) :
    state.arrowParens = 0 := by
  rwa [ArrowCounted, if_neg (by simp [harrow])] at hcounted

theorem ArrowCounted.inArrow_iff (hcounted : state.ArrowCounted) :
    state.inArrow = true ↔ 1 ≤ state.arrowParens := by
  cases harrow : state.inArrow with
  | true => simpa [ArrowCounted, harrow] using hcounted
  | false => simp [hcounted.eq_zero harrow]

/-- The count comes back to zero at the parenthesis that ends the body, where no rule but the one
that ends it applies. -/
theorem ArrowCounted.count (hcounted : state.ArrowCounted) (kind : Token.Kind)
    (lineCrossed : Bool) :
    (state.count (state.rule? kind lineCrossed) kind).ArrowCounted := by
  unfold ArrowCounted at hcounted ⊢
  by_cases hopens : state.rule? kind lineCrossed = some .arrowOpen
  · rw [hopens]
    by_cases hkind : kind = .punctuation .openParen <;> simp [State.count, countParen, hkind]
  by_cases hcloses : state.rule? kind lineCrossed = some .arrowClose
  · obtain ⟨harrow, rfl, hparens⟩ := applies_of_rule? hcloses
    rw [hcloses]
    simp [State.count, countParen, harrow, hparens]
  by_cases harrow : state.inArrow = true
  · rw [if_pos harrow] at hcounted
    have hlast (hkind : kind = .punctuation .closeParen) : state.arrowParens ≠ 1 := by
      intro hparens
      rw [hkind, rule?_closeParen] at hopens hcloses
      simp_all
    simp only [State.count, countParen, hopens, hcloses, harrow, if_false, if_true, true_and]
    split_ifs with hopening hclosing
    · omega
    · have := hlast hclosing
      omega
    · exact hcounted
  · rw [if_neg harrow] at hcounted
    simpa [State.count, countParen, hopens, hcloses, harrow] using hcounted

/-- What the counters tell of all that has been emitted. -/
structure Accounts (state : State) (emitted : List Token) : Prop where
  positive : state.indices.Positive
  depth : marks (.punctuation .openParen) emitted =
    marks (.punctuation .closeParen) emitted + state.indices.depth
  indices : ClosesHold (.punctuation .openParen) (.punctuation .closeParen) emitted
  arrow : state.ArrowCounted
  body : state.inArrow = true ↔ Layout.BodyOpen emitted
  bodies : BodiesClosed emitted

theorem accounts_nil : Accounts {} [] where
  positive := fun count hmem => by cases hmem
  depth := rfl
  indices := closesHold_nil _ _
  arrow := rfl
  body := iff_of_false Bool.false_ne_true not_bodyOpen_nil
  bodies := bodiesClosed_nil

variable {emitted : List Token} {token : Token}

theorem Accounts.emit (haccounts : state.Accounts emitted) (kind : Token.Kind) :
    (state.emit kind).Accounts emitted :=
  ⟨haccounts.positive, haccounts.depth, haccounts.indices, haccounts.arrow, haccounts.body,
    haccounts.bodies⟩

theorem Accounts.count (haccounts : state.Accounts emitted) (htoken : token.isInserted = false)
    (lineCrossed : Bool) :
    (state.count (state.rule? token.kind lineCrossed) token.kind).Accounts
      (emitted ++ withInsertion token
        ((state.rule? token.kind lineCrossed).map Rule.insertion)) := by
  have hcounts := haccounts.depth
  have hdepth := state.depth_countBracket token.kind lineCrossed
  have harrow := haccounts.arrow.count token.kind lineCrossed
  have hclose (hrule : state.rule? token.kind lineCrossed = some .arrowClose) :
      state.inArrow = true := (applies_of_rule? hrule).1
  generalize state.rule? token.kind lineCrossed = rule? at hdepth harrow hclose ⊢
  have hopened : marks (.punctuation .openParen) (withInsertion token (rule?.map Rule.insertion)) =
      if rule? = some .indexOpen then 1 else 0 :=
    marks_withInsertion_rule htoken .indexOpen (by decide) rule?
  have hclosed : marks (.punctuation .closeParen)
        (withInsertion token (rule?.map Rule.insertion)) =
      if rule? = some .indexClose then 1 else 0 :=
    marks_withInsertion_rule htoken .indexClose (by decide) rule?
  have hbegins : (rule?.map Rule.insertion).map Insertion.mark = some (.punctuation .openBrace) ↔
      rule? = some .arrowOpen := Rule.map_mark_eq_some_iff .arrowOpen (by decide) rule?
  have hends : (rule?.map Rule.insertion).map Insertion.mark = some (.punctuation .closeBrace) ↔
      rule? = some .arrowClose := Rule.map_mark_eq_some_iff .arrowClose (by decide) rule?
  constructor
  · exact haccounts.positive.countBracket _ _
  · rw [marks_append, marks_append, hopened, hclosed]
    change _ = _ + (state.indices.countBracket rule? token.kind).depth
    omega
  · apply haccounts.indices.append
    rw [marks_append, hclosed]
    split_ifs at hdepth ⊢ with hcloses hopens
    · rw [hcloses] at hopens
      cases hopens
    · omega
    · omega
    · omega
  · exact harrow
  · rw [bodyOpen_append_withInsertion htoken, ← haccounts.body, Ne, hbegins, hends]
    by_cases hopens : rule? = some .arrowOpen
    · simp [State.count, hopens]
    · by_cases hcloses : rule? = some .arrowClose <;> simp [State.count, hopens, hcloses]
  · rw [bodiesClosed_append_withInsertion htoken, hends]
    exact ⟨haccounts.bodies, fun hcloses => haccounts.body.mp (hclose hcloses)⟩

end State

/-! ### A stream -/

namespace Stream

/-- The tokens that the calls hand out, in order. -/
def handedOut (stream : Stream) : List Call → List Token
  | [] => []
  | call :: calls => (stream.returned? call).toList ++ (stream.perform call).handedOut calls

variable {stream : Stream} {emitted : List Token}

/-- A pull that reads a token accounts for all that it gives rise to. -/
theorem pull_chunk (hwaiting : stream.waiting = none) :
    stream.pull.1 :: stream.pull.2.waiting.toList = stream.chunk ∧
      stream.pull.2.state = stream.read.state.emit stream.pull.1.kind := by
  rw [pull_of_not_waiting hwaiting, chunk]
  generalize stream.rule?.map Rule.insertion = insertion?
  rcases insertion? with _ | kind | kind <;> exact ⟨rfl, rfl⟩

theorem accounts_pull (haccounts : stream.state.Accounts (emitted ++ stream.waiting.toList)) :
    stream.pull.2.state.Accounts
      (emitted ++ stream.pull.1 :: stream.pull.2.waiting.toList) := by
  cases hwaiting : stream.waiting with
  | some token =>
      rw [hwaiting] at haccounts
      rw [pull_of_waiting hwaiting]
      exact haccounts.emit token.kind
  | none =>
      obtain ⟨htokens, hstate⟩ := pull_chunk hwaiting
      rw [hwaiting, Option.toList_none, List.append_nil] at haccounts
      rw [htokens, hstate]
      exact (haccounts.count (Scanner.isInserted_token stream.scanner) _).emit _

theorem accounts_perform (haccounts : stream.state.Accounts (emitted ++ stream.waiting.toList))
    (call : Call) :
    (stream.perform call).state.Accounts
      (emitted ++ (stream.returned? call).toList ++ (stream.perform call).waiting.toList) := by
  have hpull : stream.pull.2.state.Accounts
      (emitted ++ [stream.pull.1] ++ stream.pull.2.waiting.toList) := by
    rw [List.append_assoc, List.singleton_append]
    exact accounts_pull haccounts
  cases call with
  | pull => exact hpull
  | flushDiagnostics => rwa [returned?, Option.toList_none, List.append_nil]
  | next? =>
      rw [perform, returned?]
      cases hended : stream.ended with
      | true => rwa [next?_of_ended hended, Option.toList_none, List.append_nil]
      | false =>
          rw [next?_of_not_ended hended]
          exact hpull

theorem accounts_performAll (haccounts : stream.state.Accounts (emitted ++ stream.waiting.toList))
    (calls : List Call) :
    (stream.performAll calls).state.Accounts
      (emitted ++ stream.handedOut calls ++ (stream.performAll calls).waiting.toList) := by
  induction calls generalizing stream emitted with
  | nil => rwa [handedOut, List.append_nil]
  | cons call calls ih =>
      have hrest := ih (accounts_perform haccounts call)
      rwa [List.append_assoc emitted] at hrest

/-- **Counters.** After any calls on a scanner, and on a stream of what it has left, every count of
an open index is positive, and as many indices are open as inserted parentheses are. An arrow body
is open exactly where parentheses are counted for it, and behind an inserted brace that is not closed
yet. With the token that waits, every inserted closing brace has an opening one in front of it and no
other closing one between, and no beginning of what was emitted closes more than it opens. In a text
of less than `2 ^ 31` bytes signed words hold the counters as they are. -/
theorem counters_kept {text : String} (hlength : Text.byteLength text.toList < 2 ^ 31)
    (options : Options) (scannerCalls : List Scanner.Call) (streamCalls : List Call) :
    let begun := ofScanner ((Scanner.ofText text options).performAll scannerCalls)
    let stream := begun.performAll streamCalls
    let emitted := begun.handedOut streamCalls ++ stream.waiting.toList
    (∀ count ∈ stream.state.indices.counts, 1 ≤ count) ∧
      (marks (.punctuation .openParen) emitted : Int) - marks (.punctuation .closeParen) emitted =
        stream.state.indices.depth ∧
      (stream.state.inArrow = true ↔ 1 ≤ stream.state.arrowParens) ∧
      (stream.state.inArrow = false → stream.state.arrowParens = 0) ∧
      (stream.state.inArrow = true ↔ BodyOpen emitted) ∧ BodiesClosed emitted ∧
      ClosesHold (.punctuation .openBrace) (.punctuation .closeBrace) emitted ∧
      ClosesHold (.punctuation .openParen) (.punctuation .closeParen) emitted ∧
      begun.HeldInWords ∧ stream.state.wrap = stream.state := by
  intro begun stream emitted
  have hfits : Text.Fits text := Nat.lt_trans hlength (by decide)
  have hcharts : begun.Charts text :=
    charts_ofScanner ((Scanner.charts_ofText text options).performAll scannerCalls)
  have hreads : begun.Reads :=
    reads_ofScanner ((Scanner.reads_ofText options hlength).performAll scannerCalls)
  have hlast : stream.Reads := hreads.performAll streamCalls
  have hbegun : begun.state.Accounts ([] ++ begun.waiting.toList) := State.accounts_nil
  have haccounts : stream.state.Accounts emitted := accounts_performAll hbegun streamCalls
  have hdepth := haccounts.depth
  exact ⟨haccounts.positive, by omega, haccounts.arrow.inArrow_iff, haccounts.arrow.eq_zero,
    haccounts.body, haccounts.bodies, haccounts.bodies.closesHold, haccounts.indices,
    hcharts.heldInWords hreads hfits, hlast.state.wrap_eq_self hlast.scanner.position_lt⟩

/-- A parenthesis waits behind the brace that is inserted for the arrow body which it begins. -/
theorem counters_kept_waiting :
    let text := "x[y => ("
    let begun := ofScanner (.ofText text {})
    let calls := List.replicate 6 Call.pull
    let stream := begun.performAll calls
    let emitted := begun.handedOut calls ++ stream.waiting.toList
    Text.byteLength text.toList < 2 ^ 31 ∧
      (stream.state.indices.counts = [1] ∧ stream.state.inArrow ∧ stream.state.arrowParens = 2) ∧
      stream.waiting.map Token.kind = some (.punctuation .openParen) ∧
      (marks (.punctuation .openParen) emitted : Int) - marks (.punctuation .closeParen) emitted =
        stream.state.indices.depth ∧
      (BodyOpen emitted ∧ BodiesClosed emitted) ∧ begun.HeldInWords := by
  intro text begun calls stream emitted
  have hlength : Text.byteLength text.toList < 2 ^ 31 := by decide +kernel
  have harrow : stream.state.inArrow = true := by decide +kernel
  obtain ⟨-, hdepth, -, -, hbody, hbodies, -, -, hwords, -⟩ := counters_kept hlength {} [] calls
  exact ⟨hlength, ⟨by decide +kernel, harrow, by decide +kernel⟩, by decide +kernel, hdepth,
    ⟨hbody.mp harrow, hbodies⟩, hwords⟩

end Stream

end Layout

end FormulaScript
