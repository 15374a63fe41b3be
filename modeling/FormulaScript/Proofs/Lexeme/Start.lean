import FormulaScript.Proofs.Lexeme.Boundary

/-!
# Where a lexeme begins

Whether a lexeme begins at a place is settled by the character that stands there.
-/

namespace FormulaScript

namespace Operator

/-- The operators and delimiters of one character. Longer ones begin with the same characters. -/
def marks : List Char :=
  ['(', ')', '\x7b', '\x7d', '[', ']', ';', ',', ':', '@', '#', '^', '+', '-', '*', '%', '/', '~',
    '.', '?', '<', '>', '=', '!', '&', '|']

theorem head?_mem_marks {operator : Operator} (hmem : operator ∈ scriptSpellings) :
    ∀ c ∈ operator.spelling.head?, c ∈ marks := by
  have hall : scriptSpellings.all (·.spelling.head?.all (· ∈ marks)) := by decide
  simpa [Option.all_eq_true] using List.all_eq_true.mp hall operator hmem

theorem exists_of_mem_marks {c : Char} (hmark : c ∈ marks) :
    ∃ operator ∈ scriptSpellings, operator.spelling = [c] ∧ operator.mark ≠ .questionDot := by
  have hall : marks.all fun c => scriptSpellings.any fun operator =>
      operator.spelling = [c] ∧ operator.mark ≠ .questionDot := by decide
  simpa using List.all_eq_true.mp hall c hmark

theorem scriptSpellings_subset (mode : Mode) : scriptSpellings ⊆ spellings mode := by
  cases mode with
  | script => exact List.Subset.refl _
  | template => exact List.subset_cons_self _ _

theorem first?_ne_none_of_mem_marks {c : Char} (hmark : c ∈ marks) (mode : Mode)
    (back : List Char) : first? mode (c :: back) ≠ none := by
  obtain ⟨operator, hmem, hspelling, hquestion⟩ := exists_of_mem_marks hmark
  intro hnone
  refine List.find?_eq_none.mp hnone operator (scriptSpellings_subset mode hmem) ?_
  rw [begins_iff, hspelling]
  exact ⟨List.prefix_append [c] back, fun h => absurd h hquestion⟩

theorem mem_marks_of_first? {mode : Mode} {c : Char} {back : List Char} {operator : Operator}
    (hfirst : first? mode (c :: back) = some operator) : c ∈ marks ∨ c = '$' := by
  have hmem := List.mem_of_find?_eq_some hfirst
  have hhead : operator.spelling.head? = some c := by
    obtain ⟨rest, hrest⟩ := spelling_isPrefix_of_first? hfirst
    obtain ⟨head, tail, hspelling⟩ := List.exists_cons_of_ne_nil (spelling_ne_nil hmem)
    rw [hspelling] at hrest ⊢
    exact congrArg some (List.cons.inj hrest).1
  cases mode with
  | script => exact .inl (head?_mem_marks hmem c hhead)
  | template =>
      rcases List.mem_cons.mp hmem with rfl | hmem
      · exact .inr (Option.some.inj hhead).symm
      · exact .inl (head?_mem_marks hmem c hhead)

/-- A template has one mark more than a script, and the other ones in the same order. -/
theorem first?_template {characters : List Char} (hopening : ¬['$', '\x7b'] <+: characters) :
    first? .template characters = first? .script characters := by
  have hbegins : ¬(⟨['$', '\x7b'], .dollarOpenBrace⟩ : Operator).begins characters :=
    fun hbegins => hopening (begins_iff.mp hbegins).1
  exact List.find?_cons_of_neg (p := fun operator => Operator.begins operator characters) hbegins

end Operator

theorem Quoted.first?_cons_eq_none_iff {c : Char} {back : List Char} :
    first? (c :: back) = none ↔ ∀ quote : Quote, quote.mark ≠ c := by
  rw [first?, Option.map_eq_none_iff, List.find?_eq_none]
  constructor
  · intro hnone quote
    have hmem : quote ∈ Quote.all := by cases quote <;> decide
    simpa using hnone quote hmem
  · intro hmarks quote _
    simpa using hmarks quote

theorem Word.first?_cons_eq_none_iff [Text.Letters] {unicode : Bool} {c : Char} {back : List Char} :
    first? unicode (c :: back) = none ↔ Text.beginsIdentifier unicode c = false := by
  by_cases hbegins : Text.beginsIdentifier unicode c = true
  · simp [first?_of_begins hbegins, hbegins]
  · simp [first?, run?, hbegins]

namespace Lexeme

theorem number?_eq_none_iff {characters : List Char} :
    number? characters = none ↔ beginsNumber characters = false := by
  rw [number?]
  split_ifs with hbegins
  · split <;> simp [hbegins]
  · simpa using hbegins

theorem beginsNumber_cons {c : Char} {back : List Char}
    (hbegins : beginsNumber (c :: back) = true) : Text.isDigit c ∨ c ∈ Operator.marks := by
  by_cases hpoint : c = '.'
  · exact .inr (by rw [hpoint]; decide)
  · left
    cases back <;> simpa [beginsNumber, hpoint] using hbegins

theorem beginsNumber_of_isDigit {c : Char} (hdigit : Text.isDigit c) (back : List Char) :
    beginsNumber (c :: back) = true := by
  have hpoint : c ≠ '.' := by
    rintro rfl
    cases hdigit
  cases back <;> simpa [beginsNumber, hpoint] using hdigit

section

variable [Text.Letters]

/-- A lexeme begins with a digit, a quotation mark, an operator or delimiter, or a character that
may begin an identifier. -/
def BeginsWith (options : Options) (c : Char) : Prop :=
  Text.isDigit c ∨ (∃ quote : Quote, quote.mark = c) ∨ c ∈ Operator.marks ∨
    Text.beginsIdentifier options.unicodeIdentifiers c

/-- **Where a lexeme begins.** It does wherever such a character stands, whatever follows. -/
theorem first?_cons_eq_none_iff {options : Options} {c : Char} {back : List Char} :
    first? options (c :: back) = none ↔ ¬BeginsWith options c := by
  simp only [first?, Option.orElse_eq_orElse, Option.orElse_eq_or, Option.or_eq_none_iff,
    Option.map_eq_none_iff, number?_eq_none_iff, Quoted.first?_cons_eq_none_iff,
    Word.first?_cons_eq_none_iff]
  constructor
  · rintro ⟨hnumber, hquoted, hoperator, hword⟩ (hdigit | ⟨quote, hquote⟩ | hmark | hbegins)
    · rw [beginsNumber_of_isDigit hdigit] at hnumber
      cases hnumber
    · exact hquoted quote hquote
    · exact Operator.first?_ne_none_of_mem_marks hmark _ _ hoperator
    · rw [hbegins] at hword
      cases hword
  · intro hnot
    have hword : Text.beginsIdentifier options.unicodeIdentifiers c = false := by
      by_contra hbegins
      exact hnot (.inr (.inr (.inr (by simpa using hbegins))))
    refine ⟨?_, ?_, ?_, hword⟩
    · by_contra hbegins
      rcases beginsNumber_cons (by simpa using hbegins) with hdigit | hmark
      · exact hnot (.inl hdigit)
      · exact hnot (.inr (.inr (.inl hmark)))
    · exact fun quote hquote => hnot (.inr (.inl ⟨quote, hquote⟩))
    · rw [Option.eq_none_iff_forall_ne_some]
      intro operator hfirst
      rcases Operator.mem_marks_of_first? hfirst with hmark | rfl
      · exact hnot (.inr (.inr (.inl hmark)))
      · simp [Text.beginsIdentifier] at hword

end

theorem first?_eq_none_of_unicode {options options' : Options}
    (hunicode : options'.unicodeIdentifiers = options.unicodeIdentifiers) {c : Char}
    {back back' : List Char} (hfirst : first? options (c :: back) = none) :
    first? options' (c :: back') = none := by
  rw [first?_cons_eq_none_iff, BeginsWith] at hfirst ⊢
  rwa [hunicode]

/-- Where no substitution opens a template reads what a script does. -/
theorem first?_template {characters : List Char} (hopening : ¬['$', '\x7b'] <+: characters)
    (unicode : Bool) : first? ⟨.template, unicode⟩ characters =
      first? ⟨.script, unicode⟩ characters := by
  rw [first?, first?, Operator.first?_template hopening]

/-- What opens a substitution in a template is a word and a brace in a script. -/
theorem first?_opening (unicode : Bool) (back : List Char) :
    first? ⟨.script, unicode⟩ ('$' :: '\x7b' :: back) = some (verbatim .identifier ['$']) := by
  have hbegins : Text.beginsIdentifier unicode '$' := by cases unicode <;> decide
  have hbrace : Text.continuesIdentifier unicode '\x7b' = false := by cases unicode <;> decide
  have hword : Keyword.ofLexeme? (.ofList ['$']) = none := by decide +kernel
  have hfirst := Word.first?_of_begins hbegins ('\x7b' :: back)
  rw [List.takeWhile_cons_of_neg (by simp [hbrace]), Word.classify, hword] at hfirst
  exact first?_eq_some_iff.mpr (.inr ⟨rfl, .inr ⟨rfl, .inr ⟨rfl, hfirst⟩⟩⟩)

end Lexeme

end FormulaScript
