import FormulaScript.Gap
import FormulaScript.Lexeme.Spelling
import Mathlib.Tactic.Common

/-!
# How gaps are spelled

A gap is spelled by what stands at the front of the text, and what follows it is no gap.
-/

namespace FormulaScript.Gap

@[simp]
theorem spelling_nil : spelling [] = [] := rfl

@[simp]
theorem spelling_cons (piece : Piece) (pieces : List Piece) :
    spelling (piece :: pieces) = piece.spelling ++ spelling pieces := rfl

theorem commentBody?_append {characters body : List Char}
    (hbody : commentBody? characters = some body) :
    ∃ rest, characters = body ++ ('*' :: '/' :: rest) := by
  induction characters generalizing body with
  | nil => simp [commentBody?] at hbody
  | cons c characters ih =>
      unfold commentBody? at hbody
      split at hbody
      · rename_i rest hclosing
        obtain rfl := Option.some.inj hbody
        exact ⟨rest, hclosing⟩
      · rename_i c' characters' _ hcons
        obtain ⟨rfl, rfl⟩ := List.cons.inj hcons
        obtain ⟨inner, hinner, rfl⟩ := Option.map_eq_some_iff.mp hbody
        obtain ⟨rest, rfl⟩ := ih hinner
        exact ⟨rest, rfl⟩
      · rename_i hnil
        simp at hnil

theorem spelling_isPrefix_of_trivia? {characters : List Char} {piece : Piece}
    (htrivia : trivia? characters = some piece) : piece.spelling <+: characters := by
  unfold trivia? at htrivia
  split at htrivia
  · obtain rfl := Option.some.inj htrivia
    simpa [Piece.spelling] using List.takeWhile_prefix _
  · split at htrivia
    · rename_i body hbody
      obtain rfl := Option.some.inj htrivia
      obtain ⟨rest, rfl⟩ := commentBody?_append hbody
      simp [Piece.spelling]
    · obtain rfl := Option.some.inj htrivia
      exact List.prefix_rfl
  · split_ifs at htrivia
    all_goals
      obtain rfl := Option.some.inj htrivia
      simp [Piece.spelling]
  · simp at htrivia

variable [Text.Letters]

theorem spelling_isPrefix_of_first? {options : Options} {characters : List Char} {piece : Piece}
    (hfirst : first? options characters = some piece) : piece.spelling <+: characters := by
  unfold first? at hfirst
  split at hfirst
  · rename_i trivia htrivia
    obtain rfl := Option.some.inj hfirst
    exact spelling_isPrefix_of_trivia? htrivia
  · split at hfirst
    · obtain rfl := Option.some.inj hfirst
      simp [Piece.spelling]
    · simp at hfirst

theorem read_of_first?_eq_none {options : Options} {characters : List Char}
    (hfirst : first? options characters = none) : read options characters = [] := by
  rw [read.eq_def]
  split
  · rfl
  · simp_all

theorem read_of_first?_eq_some {options : Options} {characters : List Char} {piece : Piece}
    (hfirst : first? options characters = some piece) :
    read options characters =
      piece :: read options (characters.drop piece.spelling.length) := by
  rw [read.eq_def]
  split
  · simp_all
  · rename_i piece' hfirst'
    obtain rfl := Option.some.inj (hfirst.symm.trans hfirst')
    rfl

/-- Reading a gap is done by induction on what is left of the text after each piece. -/
theorem read_induction (options : Options) {motive : List Char → Prop}
    (done : ∀ characters, first? options characters = none → motive characters)
    (step : ∀ (piece : Piece) (rest : List Char),
      first? options (piece.spelling ++ rest) = some piece → motive rest →
        motive (piece.spelling ++ rest))
    (characters : List Char) : motive characters := by
  fun_induction read options characters with
  | case1 characters hfirst => exact done characters hfirst
  | case2 characters piece hfirst ih =>
      obtain ⟨rest, rfl⟩ := spelling_isPrefix_of_first? hfirst
      rw [List.drop_left] at ih
      exact step piece rest hfirst ih

theorem spelling_read_isPrefix (options : Options) (characters : List Char) :
    spelling (read options characters) <+: characters := by
  induction characters using read_induction options with
  | done characters hfirst => simp [read_of_first?_eq_none hfirst]
  | step piece rest hfirst ih =>
      rw [read_of_first?_eq_some hfirst, List.drop_left, spelling_cons]
      exact (List.prefix_append_right_inj _).mpr ih

/-- No further piece follows a gap. -/
theorem first?_drop_read (options : Options) (characters : List Char) :
    first? options (characters.drop (spelling (read options characters)).length) = none := by
  induction characters using read_induction options with
  | done characters hfirst => simpa [read_of_first?_eq_none hfirst] using hfirst
  | step piece rest hfirst ih =>
      rw [read_of_first?_eq_some hfirst, List.drop_left, spelling_cons, List.length_append,
        ← List.drop_drop, List.drop_left]
      exact ih

end FormulaScript.Gap
