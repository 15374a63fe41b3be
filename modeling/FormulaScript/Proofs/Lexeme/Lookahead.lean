import FormulaScript.Proofs.Lexeme.Boundary
import Mathlib.Data.List.Find

/-!
# Two characters behind a lexeme

A lexeme is settled by its own spelling and the two characters behind it. One would be enough but for
the operators: no operator is longer than three characters, and a question mark with a point looks at
what stands behind the point.
-/

namespace FormulaScript

namespace Operator

variable {mode : Mode}

theorem length_spelling_le {operator : Operator} (hmem : operator ∈ spellings mode) :
    operator.spelling.length ≤ 3 := by
  have hall : ∀ mode, ∀ operator ∈ spellings mode, operator.spelling.length ≤ 3 := by
    intro mode
    cases mode <;> decide
  exact hall mode operator hmem

/-- Three characters tell whether an operator stands at the front. -/
theorem begins_take {operator : Operator} (hmem : operator ∈ spellings mode)
    (characters : List Char) : operator.begins (characters.take 3) = operator.begins characters := by
  rw [Bool.eq_iff_iff, begins_iff, begins_iff, List.prefix_take_iff,
    and_iff_left (length_spelling_le hmem), List.drop_take, List.head?_take]
  rfl

theorem first?_take (mode : Mode) (characters : List Char) :
    first? mode (characters.take 3) = first? mode characters :=
  List.find?_congr fun _ hmem => begins_take hmem characters

end Operator

variable {text rest rest' : List Char} {c d : Char}

theorem take_three_append (htext : text ≠ []) :
    (text ++ c :: d :: rest).take 3 = (text ++ c :: d :: rest').take 3 := by
  have hlength : 3 ≤ (text ++ [c, d]).length := by
    have hpos := List.length_pos_iff.mpr htext
    rw [List.length_append]
    exact Nat.add_le_add_right hpos 2
  calc (text ++ c :: d :: rest).take 3
      = (text ++ [c, d] ++ rest).take 3 := by simp
    _ = (text ++ [c, d]).take 3 := List.take_append_of_le_length hlength
    _ = (text ++ [c, d] ++ rest').take 3 := (List.take_append_of_le_length hlength).symm
    _ = (text ++ c :: d :: rest').take 3 := by simp

/-- A lexeme stays the same as long as the two characters behind it do. -/
theorem Lexeme.first?_ahead {options : Options} {lexeme : Lexeme}
    (hfirst : first? options (lexeme.spelling ++ c :: d :: rest) = some lexeme) :
    first? options (lexeme.spelling ++ c :: d :: rest') = some lexeme := by
  have hsame : Operator.first? options.mode (lexeme.spelling ++ c :: d :: rest') =
      Operator.first? options.mode (lexeme.spelling ++ c :: d :: rest) := by
    rw [← Operator.first?_take, take_three_append (spelling_ne_nil_of_first? hfirst),
      Operator.first?_take]
  have hstops : StopsAlike (c :: d :: rest) (c :: d :: rest') := .inl rfl
  refine first?_stable hstops hfirst rfl (fun hnil => by cases hnil) ?_ ?_
  · intro operator hoperator _
    rwa [hsame]
  · intro hnone
    rwa [hsame]

end FormulaScript
