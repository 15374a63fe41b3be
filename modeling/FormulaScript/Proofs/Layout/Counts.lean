import FormulaScript.Layout.Basic
import Mathlib.Tactic.Common

/-!
# Stacks and their counts

A nesting does not tell which of the delimiters it counts has opened a construct. Seen from a stack
of all the open delimiters that does tell, it is the same at every closing delimiter: the innermost
count comes to zero exactly where the delimiter that opened the construct is closed. For this the
stack has to hold such a delimiter, or there must be nothing below it to count in.
-/

namespace FormulaScript.Layout.Nesting

/-- What is counted of the delimiters on a stack, the innermost first, on top of what was open
before. Each of them tells whether it opens a construct. -/
def counting (base : Nesting) : List Bool → Nesting
  | [] => base
  | true :: outer => (base.counting outer).enter 1
  | false :: outer => (base.counting outer).deepen

variable {base : Nesting} {opened : List Bool}

@[simp]
theorem counting_nil (base : Nesting) : base.counting [] = base := rfl

/-- The innermost construct is still open as long as its delimiter is. -/
theorem exists_counting_eq (hopens : true ∈ opened) :
    ∃ count outer, base.counting opened = ⟨count :: outer⟩ ∧ 1 ≤ count := by
  induction opened with
  | nil => cases hopens
  | cons opens opened ih =>
      cases opens with
      | true => exact ⟨1, (base.counting opened).counts, rfl, Int.le_refl 1⟩
      | false =>
          obtain ⟨count, outer, hcounts, hle⟩ := ih (by simpa using hopens)
          refine ⟨count + 1, outer, ?_, by omega⟩
          rw [counting, hcounts, deepen]

/-- Where no construct is open, nothing is counted. -/
theorem counting_empty (hopens : true ∉ opened) : counting {} opened = {} := by
  induction opened with
  | nil => rfl
  | cons opens opened ih =>
      cases opens with
      | true => exact absurd List.mem_cons_self hopens
      | false =>
          rw [counting, ih fun hmem => hopens (List.mem_cons_of_mem _ hmem)]
          rfl

/-- Nothing can be counted below the stack before the constructs on it are closed. -/
def Holds (base : Nesting) (opened : List Bool) : Prop :=
  base = {} ∨ true ∈ opened

theorem close_counting (hholds : base.Holds opened) :
    (base.counting opened).close.2 = base.counting opened.tail ∧
      ((base.counting opened).close.1 = some 0 ↔ opened.head? = some true) := by
  match opened with
  | [] =>
      obtain rfl : base = {} := hholds.resolve_right List.not_mem_nil
      exact ⟨rfl, by simp [close]⟩
  | true :: outer => exact ⟨rfl, by simp [counting, enter, close]⟩
  | false :: outer =>
      by_cases hopens : true ∈ outer
      · obtain ⟨count, rest, hcounts, hle⟩ := base.exists_counting_eq hopens
        have hne : count ≠ 0 := by omega
        rw [counting, List.tail_cons, hcounts]
        simp [deepen, close, hne]
      · obtain rfl : base = {} := hholds.resolve_right (by simpa using hopens)
        rw [counting, List.tail_cons, counting_empty hopens]
        exact ⟨rfl, by simp [deepen, close]⟩

end FormulaScript.Layout.Nesting
