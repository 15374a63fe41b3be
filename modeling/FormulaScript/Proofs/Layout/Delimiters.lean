import FormulaScript.Token.Kind
import Mathlib.Data.List.Basic

/-!
# Nested delimiters

The open delimiters of a list of tokens, the innermost first, and what it is for the arrows in it to
stand in parentheses of their own.
-/

namespace FormulaScript

inductive Delimiter where
  | paren
  | bracket
  | brace
deriving DecidableEq, Repr

namespace Token.Kind

def opens? : Kind → Option Delimiter
  | .punctuation .openParen => some .paren
  | .punctuation .openBracket => some .bracket
  | .punctuation .openBrace => some .brace
  | _ => none

def closes? : Kind → Option Delimiter
  | .punctuation .closeParen => some .paren
  | .punctuation .closeBracket => some .bracket
  | .punctuation .closeBrace => some .brace
  | _ => none

end Token.Kind

namespace Delimiter

def openMark : Delimiter → Punctuation
  | .paren => .openParen
  | .bracket => .openBracket
  | .brace => .openBrace

def closeMark : Delimiter → Punctuation
  | .paren => .closeParen
  | .bracket => .closeBracket
  | .brace => .closeBrace

theorem opens?_eq_some {kind : Token.Kind} {delimiter : Delimiter}
    (hopens : kind.opens? = some delimiter) : kind = .punctuation delimiter.openMark := by
  unfold Token.Kind.opens? at hopens
  split at hopens <;> cases hopens <;> rfl

theorem closes?_eq_some {kind : Token.Kind} {delimiter : Delimiter}
    (hcloses : kind.closes? = some delimiter) : kind = .punctuation delimiter.closeMark := by
  unfold Token.Kind.closes? at hcloses
  split at hcloses <;> cases hcloses <;> rfl

/-- The open delimiters after one more token, `none` where it closes another one than the
innermost. -/
def nest (stack : List Delimiter) (kind : Token.Kind) : Option (List Delimiter) :=
  match kind.opens?, kind.closes? with
  | some delimiter, _ => some (delimiter :: stack)
  | none, some delimiter => if stack.head? = some delimiter then some stack.tail else none
  | none, none => some stack

def openAfter (stack : List Delimiter) (kinds : List Token.Kind) : Option (List Delimiter) :=
  kinds.foldlM nest stack

/-- Every delimiter is closed by its own counterpart, and none is left open. -/
def Nested (kinds : List Token.Kind) : Prop :=
  openAfter [] kinds = some []

instance (kinds : List Token.Kind) : Decidable (Nested kinds) :=
  inferInstanceAs (Decidable (openAfter [] kinds = some []))

section

variable {stack : List Delimiter} {kind : Token.Kind} {delimiter : Delimiter}

theorem nest_openMark (stack : List Delimiter) (delimiter : Delimiter) :
    nest stack (.punctuation delimiter.openMark) = some (delimiter :: stack) := by
  cases delimiter <;> rfl

theorem nest_closeMark (stack : List Delimiter) (delimiter : Delimiter) :
    nest (delimiter :: stack) (.punctuation delimiter.closeMark) = some stack := by
  cases delimiter <;> rfl

theorem nest_of_neither (hopens : kind.opens? = none) (hcloses : kind.closes? = none) :
    nest stack kind = some stack := by
  simp [nest, hopens, hcloses]

theorem eq_cons_of_nest_of_closes {rest : List Delimiter} (hopens : kind.opens? = none)
    (hcloses : kind.closes? = some delimiter) (hnest : nest stack kind = some rest) :
    stack = delimiter :: rest := by
  rw [nest, hopens, hcloses] at hnest
  cases stack with
  | nil => simp at hnest
  | cons head tail =>
      simp only [List.head?_cons, List.tail_cons, Option.some.injEq] at hnest
      split_ifs at hnest with hhead
      rw [hhead, Option.some.inj hnest]

end

@[simp]
theorem openAfter_nil (stack : List Delimiter) : openAfter stack [] = some stack := rfl

theorem openAfter_cons (stack : List Delimiter) (kind : Token.Kind) (rest : List Token.Kind) :
    openAfter stack (kind :: rest) = (nest stack kind).bind (openAfter · rest) := by
  simp [openAfter]

@[simp]
theorem openAfter_singleton (stack : List Delimiter) (kind : Token.Kind) :
    openAfter stack [kind] = nest stack kind := by
  simp [openAfter_cons]

theorem openAfter_append (stack : List Delimiter) (front back : List Token.Kind) :
    openAfter stack (front ++ back) = (openAfter stack front).bind (openAfter · back) := by
  simp [openAfter]

/-! ### Arrows -/

/-- An arrow whose body has no braces of its own, then the first token of the body. -/
def arrowBefore (next : Token.Kind) (rest : List Token.Kind) : List Token.Kind :=
  .punctuation .equalsGreaterThan :: next :: rest

/-- Before any arrow without braces the open delimiters have come down to the outer ones. -/
def ClosesBeforeArrow (stack outer : List Delimiter) (kinds : List Token.Kind) : Prop :=
  ∀ middle next rest, kinds = middle ++ arrowBefore next rest →
    next ≠ .punctuation .openBrace →
    ∃ inner, inner <+: middle ∧ openAfter stack inner = some outer

/-- Every arrow without braces has a parenthesis as its innermost open delimiter, which is not
closed right away, and closed before another such arrow. -/
def ArrowsStand (stack : List Delimiter) (kinds : List Token.Kind) : Prop :=
  ∀ front next rest, kinds = front ++ arrowBefore next rest →
    next ≠ .punctuation .openBrace →
    ∃ outer, openAfter stack front = some (.paren :: outer) ∧
      next ≠ .punctuation .closeParen ∧
      ClosesBeforeArrow (.paren :: outer) outer (next :: rest)

section

variable {stack stack' outer : List Delimiter} {kind : Token.Kind} {rest : List Token.Kind}

theorem ArrowsStand.tail (harrows : ArrowsStand stack (kind :: rest))
    (hnest : nest stack kind = some stack') : ArrowsStand stack' rest := by
  intro front next back hrest hnext
  obtain ⟨outer, hopen, hclose⟩ := harrows (kind :: front) next back (by rw [hrest]; rfl) hnext
  refine ⟨outer, ?_, hclose⟩
  rw [openAfter_cons, hnest] at hopen
  exact hopen

theorem ClosesBeforeArrow.tail (hcloses : ClosesBeforeArrow stack outer (kind :: rest))
    (hne : stack ≠ outer) (hnest : nest stack kind = some stack') :
    ClosesBeforeArrow stack' outer rest := by
  intro middle next back hrest hnext
  obtain ⟨inner, hinner, hopen⟩ := hcloses (kind :: middle) next back (by rw [hrest]; rfl) hnext
  cases inner with
  | nil => exact absurd (Option.some.inj hopen) hne
  | cons head inner =>
      obtain ⟨rfl, htail⟩ := List.cons_prefix_cons.mp hinner
      rw [openAfter_cons, hnest] at hopen
      exact ⟨inner, htail, hopen⟩

/-- An arrow that is alone in the text stands when it is in parentheses and not at their end. -/
theorem arrowsStand_of_lone {front back : List Token.Kind}
    (hfront : .punctuation .equalsGreaterThan ∉ front)
    (hback : .punctuation .equalsGreaterThan ∉ back)
    (hopen : openAfter stack front = some (.paren :: outer))
    (hhead : back.head? ≠ some (.punctuation .closeParen)) :
    ArrowsStand stack (front ++ .punctuation .equalsGreaterThan :: back) := by
  intro before next after hsplit _
  obtain ⟨rfl, -, rfl⟩ := (List.append_cons_inj_of_notMem hfront hback).mp hsplit
  refine ⟨outer, hopen, fun hnext => hhead (congrArg some hnext), ?_⟩
  intro middle other tail hmiddle _
  rw [hmiddle] at hback
  exact absurd (List.mem_append_right _ List.mem_cons_self) hback

/-- Where the outer delimiters have not been reached, no arrow without braces stands right ahead. -/
theorem ClosesBeforeArrow.eq_of_arrow {next : Token.Kind}
    (hcloses : ClosesBeforeArrow stack outer (arrowBefore next rest))
    (hnext : next ≠ .punctuation .openBrace) : stack = outer := by
  obtain ⟨inner, hinner, hopen⟩ := hcloses [] next rest rfl hnext
  obtain rfl := List.prefix_nil.mp hinner
  exact Option.some.inj hopen

end

end Delimiter

end FormulaScript
