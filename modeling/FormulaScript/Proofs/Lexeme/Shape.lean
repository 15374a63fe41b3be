import FormulaScript.Lexeme.Spelling
import Mathlib.Tactic.Common

/-!
# The shape of a lexeme

No lexeme passes for the end of the text or for a token that layout inserts, and what is reported
about a lexeme lies within it.
-/

namespace FormulaScript

/-- A lexeme of some kind of token that stands in the text. -/
structure Lexeme.Stands (lexeme : Lexeme) : Prop where
  kind_ne_unknown : lexeme.kind ≠ .unknown
  kind_ne_endOfText : lexeme.kind ≠ .endOfText
  not_inserted : lexeme.flags.inserted = false

theorem Lexeme.stands_verbatim {kind : Token.Kind} (spelling : List Char)
    (hunknown : kind ≠ .unknown) (hend : kind ≠ .endOfText) : (verbatim kind spelling).Stands :=
  ⟨hunknown, hend, rfl⟩

theorem Lexeme.stands_of_number? {characters : List Char} {lexeme : Lexeme}
    (hnumber : number? characters = some lexeme) : lexeme.Stands := by
  unfold number? at hnumber
  split_ifs at hnumber
  split at hnumber
  · rename_i literal _
    obtain rfl := Option.some.inj hnumber
    exact ⟨by simp [HexLiteral.lexeme], by simp [HexLiteral.lexeme], rfl⟩
  · obtain rfl := Option.some.inj hnumber
    exact ⟨by simp [DecimalLiteral.lexeme], by simp [DecimalLiteral.lexeme], rfl⟩

theorem Quoted.stands_of_first? {characters : List Char} {lexeme : Lexeme}
    (hfirst : first? characters = some lexeme) : lexeme.Stands := by
  match characters with
  | [] => simp [first?] at hfirst
  | c :: rest =>
      obtain ⟨quote, _, rfl⟩ := Option.map_eq_some_iff.mp hfirst
      exact ⟨by simp [Quoted.lexeme], by simp [Quoted.lexeme], rfl⟩

theorem Word.stands_classify (run rest : List Char) : (classify run rest).Stands := by
  unfold classify
  split
  · exact Lexeme.stands_verbatim _ (by simp) (by simp)
  · split <;> exact Lexeme.stands_verbatim _ (by simp) (by simp)

theorem Lexeme.stands_of_first? [Text.Letters] {options : Options} {characters : List Char} {lexeme : Lexeme}
    (hfirst : first? options characters = some lexeme) : lexeme.Stands := by
  rcases first?_cases hfirst with hnumber | hquoted | ⟨operator, _, rfl⟩ | hword
  · exact stands_of_number? hnumber
  · exact Quoted.stands_of_first? hquoted
  · exact stands_verbatim _ (by simp) (by simp)
  · obtain ⟨run, _, rfl⟩ := Option.map_eq_some_iff.mp hword
    exact Word.stands_classify _ _

theorem Lexeme.templateText_of_number? {characters : List Char} {lexeme : Lexeme}
    (hnumber : number? characters = some lexeme) : lexeme.flags.templateText = false := by
  unfold number? at hnumber
  split_ifs at hnumber
  split at hnumber
  all_goals
    obtain rfl := Option.some.inj hnumber
    rfl

theorem Quoted.templateText_of_first? {characters : List Char} {lexeme : Lexeme}
    (hfirst : first? characters = some lexeme) : lexeme.flags.templateText = false := by
  match characters with
  | [] => simp [first?] at hfirst
  | c :: rest =>
      obtain ⟨quote, _, rfl⟩ := Option.map_eq_some_iff.mp hfirst
      rfl

theorem Word.flags_classify (run rest : List Char) : (classify run rest).flags = {} := by
  unfold classify
  split
  · rfl
  · split <;> rfl

/-- What is read outside the literal text of a template is not taken for it. -/
theorem Lexeme.templateText_of_first? {options : Options} {characters : List Char}
    {lexeme : Lexeme} (hfirst : first? options characters = some lexeme) :
    lexeme.flags.templateText = false := by
  rcases first?_cases hfirst with hnumber | hquoted | ⟨operator, _, rfl⟩ | hword
  · exact templateText_of_number? hnumber
  · exact Quoted.templateText_of_first? hquoted
  · rfl
  · obtain ⟨run, _, rfl⟩ := Option.map_eq_some_iff.mp hword
    rw [Word.flags_classify]

/-! ### What is reported about a lexeme -/

/-- The problem lies within the lexeme, and is none that a gap or the end of the text has. -/
structure Lexeme.Problem.Within (problem : Lexeme.Problem) (lexeme : Lexeme) : Prop where
  message_ne_invalidCharacter : problem.message ≠ .invalidCharacter
  message_ne_unclosedComment : problem.message ≠ .unclosedComment
  message_ne_unterminatedSubstitution : problem.message ≠ .unterminatedSubstitution
  length_le : problem.length ≤ lexeme.byteLength

theorem HexLiteral.problem_within (literal : HexLiteral) :
    ∀ problem ∈ literal.lexeme.problem?, problem.Within literal.lexeme := by
  intro problem hproblem
  have hzero := ('0').utf8Size_pos
  have hmark := literal.mark.utf8Size_pos
  unfold lexeme at hproblem
  dsimp only at hproblem
  split_ifs at hproblem
  · obtain rfl := Option.some.inj hproblem
    refine ⟨by decide, by decide, by decide, ?_⟩
    simp only [Lexeme.byteLength, lexeme, spelling, Text.byteLength_cons, markLength]
    omega
  · cases hproblem

theorem Lexeme.problem_within_of_number? {characters : List Char} {lexeme : Lexeme}
    (hnumber : number? characters = some lexeme) :
    ∀ problem ∈ lexeme.problem?, problem.Within lexeme := by
  unfold number? at hnumber
  split_ifs at hnumber
  split at hnumber
  · rename_i literal _
    obtain rfl := Option.some.inj hnumber
    exact literal.problem_within
  · obtain rfl := Option.some.inj hnumber
    intro problem hproblem
    cases hproblem

theorem Quote.unterminated_ne (quote : Quote) :
    quote.unterminated ≠ .invalidCharacter ∧ quote.unterminated ≠ .unclosedComment ∧
      quote.unterminated ≠ .unterminatedSubstitution := by
  cases quote <;> decide

theorem Quoted.problem_within_of_first? {characters : List Char} {lexeme : Lexeme}
    (hfirst : first? characters = some lexeme) :
    ∀ problem ∈ lexeme.problem?, problem.Within lexeme := by
  match characters with
  | [] => simp [first?] at hfirst
  | c :: rest =>
      obtain ⟨quote, _, rfl⟩ := Option.map_eq_some_iff.mp hfirst
      intro problem hproblem
      unfold Quoted.lexeme at hproblem
      dsimp only at hproblem
      split_ifs at hproblem
      · cases hproblem
      · obtain rfl := Option.some.inj hproblem
        obtain ⟨hinvalid, hcomment, hsubstitution⟩ := quote.unterminated_ne
        exact ⟨hinvalid, hcomment, hsubstitution, Nat.le_refl _⟩

theorem Word.problem?_classify (run rest : List Char) : (classify run rest).problem? = none := by
  unfold classify
  split
  · rfl
  · split <;> rfl

theorem Lexeme.problem_within_of_first? [Text.Letters] {options : Options} {characters : List Char}
    {lexeme : Lexeme} (hfirst : first? options characters = some lexeme) :
    ∀ problem ∈ lexeme.problem?, problem.Within lexeme := by
  rcases first?_cases hfirst with hnumber | hquoted | ⟨operator, _, rfl⟩ | hword
  · exact problem_within_of_number? hnumber
  · exact Quoted.problem_within_of_first? hquoted
  · intro problem hproblem
    cases hproblem
  · obtain ⟨run, _, rfl⟩ := Option.map_eq_some_iff.mp hword
    intro problem hproblem
    rw [Word.problem?_classify] at hproblem
    cases hproblem

end FormulaScript
