import Mathlib.Data.List.TakeWhile
import Mathlib.Tactic

/-!
# Runs

A run takes all the characters of a class that follow one another. So what is spelled with runs, and
with marks between them that are not of the class, is spelled in one way only, and no longer text in
front of the same rest is spelled that way.
-/

namespace FormulaScript.Text

/-- The front is the longest of the texts of a kind that stand at the front of a text. -/
structure IsLongest (kind : List Char → Prop) (characters front : List Char) : Prop where
  kind_front : kind front
  isPrefix : front <+: characters
  longest : ∀ other, kind other → other <+: characters → other <+: front

section

variable {keep : Char → Bool} {run back characters : List Char}

theorem run_append (hrun : ∀ c ∈ run, keep c) (hback : ∀ c ∈ back.head?, keep c = false) :
    (run ++ back).takeWhile keep = run ∧ (run ++ back).dropWhile keep = back := by
  rw [List.takeWhile_append_of_pos hrun, List.dropWhile_append_of_pos hrun]
  cases back with
  | nil => exact ⟨List.append_nil run, rfl⟩
  | cons c back =>
      have hstop : ¬keep c := by simp [hback c rfl]
      rw [List.takeWhile_cons_of_neg hstop, List.dropWhile_cons_of_neg hstop, List.append_nil]
      exact ⟨rfl, rfl⟩

theorem head?_dropWhile (keep : Char → Bool) (characters : List Char) :
    ∀ c ∈ (characters.dropWhile keep).head?, keep c = false := by
  intro c hc
  have hnot := List.head?_dropWhile_not keep characters
  rwa [Option.mem_def.mp hc] at hnot

theorem isPrefix_takeWhile (hrun : ∀ c ∈ run, keep c) (hleads : run <+: characters) :
    run <+: characters.takeWhile keep := by
  obtain ⟨rest, rfl⟩ := hleads
  rw [List.takeWhile_append_of_pos hrun]
  exact List.prefix_append _ _

/-- A run that something else follows is all of the run. -/
theorem takeWhile_of_isPrefix {c : Char} (hrun : ∀ c ∈ run, keep c) (hstop : keep c = false)
    (hleads : run ++ c :: back <+: characters) :
    characters.takeWhile keep = run ∧ c :: back <+: characters.dropWhile keep := by
  obtain ⟨rest, rfl⟩ := hleads
  rw [List.append_assoc, List.cons_append]
  have hhead : ∀ head ∈ (c :: (back ++ rest)).head?, keep head = false := by
    intro head hmem
    rwa [← Option.some.inj hmem]
  obtain ⟨htake, hdrop⟩ := run_append hrun hhead
  exact ⟨htake, by rw [hdrop]; exact List.prefix_append (c :: back) rest⟩

end

end FormulaScript.Text
