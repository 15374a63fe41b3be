import FormulaScript.Proofs.Lexeme.Start
import FormulaScript.Proofs.Text.Runs

/-!
# Operators by their first characters

An operator is the first one in the table that stands at the front. It is told as well by its first
character and by one or two characters behind that, with lengths of its own for every branch. Both
find the longest spelling, except for a question mark in front of a fraction.
-/

namespace FormulaScript.Operator

/-! ### By the characters ahead -/

section

variable (rest : List Char)

/-- A character on its own, or together with a certain one behind it. -/
def takePair (second : Char) (pair single : Punctuation) : Punctuation × Nat :=
  if rest[0]? = some second then (pair, 2) else (single, 1)

def takeDot : Punctuation × Nat :=
  if rest[0]? = some '.' ∧ rest[1]? = some '.' then (.dotDotDot, 3) else (.dot, 1)

def takeQuestion : Punctuation × Nat :=
  if rest[0]? = some '.' ∧ ¬rest[1]?.any Text.isDigit then (.questionDot, 2) else (.question, 1)

def takeLessThan : Punctuation × Nat :=
  match rest[0]? with
  | some '>' => (.exclamationEquals, 2)
  | some '=' => (.lessThanEquals, 2)
  | _ => (.lessThan, 1)

def takeEquals : Punctuation × Nat :=
  match rest[0]? with
  | some '=' => (.equalsEquals, if rest[1]? = some '=' then 3 else 2)
  | some '>' => (.equalsGreaterThan, 2)
  | _ => (.equals, 1)

def takeExclamation : Punctuation × Nat :=
  if rest[0]? = some '=' then (.exclamationEquals, if rest[1]? = some '=' then 3 else 2)
  else (.exclamation, 1)

end

/-- The mark at the front and the number of its characters, `none` where no operator begins. A point
before a digit begins a number. -/
def dispatch (mode : Mode) : List Char → Option (Punctuation × Nat)
  | '(' :: _ => some (.openParen, 1)
  | ')' :: _ => some (.closeParen, 1)
  | '\x7b' :: _ => some (.openBrace, 1)
  | '\x7d' :: _ => some (.closeBrace, 1)
  | '[' :: _ => some (.openBracket, 1)
  | ']' :: _ => some (.closeBracket, 1)
  | ';' :: _ => some (.semicolon, 1)
  | ',' :: _ => some (.comma, 1)
  | ':' :: _ => some (.colon, 1)
  | '@' :: _ => some (.atSign, 1)
  | '#' :: _ => some (.hash, 1)
  | '^' :: _ => some (.caret, 1)
  | '+' :: _ => some (.plus, 1)
  | '-' :: _ => some (.minus, 1)
  | '*' :: _ => some (.asterisk, 1)
  | '%' :: _ => some (.percent, 1)
  | '/' :: _ => some (.slash, 1)
  | '~' :: _ => some (.bar, 1)
  | '.' :: rest => if rest[0]?.any Text.isDigit then none else some (takeDot rest)
  | '?' :: rest => some (takeQuestion rest)
  | '<' :: rest => some (takeLessThan rest)
  | '>' :: rest => some (takePair rest '=' .greaterThanEquals .greaterThan)
  | '=' :: rest => some (takeEquals rest)
  | '!' :: rest => some (takeExclamation rest)
  | '&' :: rest => some (takePair rest '&' .ampersandAmpersand .ampersand)
  | '|' :: rest => some (takePair rest '|' .barBar .bar)
  | '$' :: rest =>
      if mode = .template ∧ rest[0]? = some '\x7b' then some (.dollarOpenBrace, 2) else none
  | _ => none

variable {mode : Mode} {c : Char} {rest characters : List Char}

/-- Only the operators that begin with the first character can stand at the front. -/
theorem first?_cons {candidates : List Operator}
    (hcandidates : (spellings mode).filter (·.spelling.head? = some c) = candidates) :
    first? mode (c :: rest) = candidates.find? (·.begins (c :: rest)) := by
  rw [← hcandidates, List.find?_filter, first?]
  apply List.find?_congr
  intro operator hmem
  by_cases hbegins : operator.begins (c :: rest)
  · obtain ⟨back, hback⟩ := (begins_iff.mp hbegins).1
    obtain ⟨head, tail, hspelling⟩ := List.exists_cons_of_ne_nil (spelling_ne_nil hmem)
    rw [hspelling] at hback
    simp [hbegins, hspelling, (List.cons.inj hback).1]
  · simp [hbegins]

section

variable {d e : Char} {mark : Punctuation}

theorem begins_eq (hmark : mark ≠ .questionDot) (spelling : List Char) :
    begins ⟨spelling, mark⟩ characters = decide (spelling <+: characters) := by
  rw [Bool.eq_iff_iff, begins_iff, decide_eq_true_eq]
  exact and_iff_left fun hquestion => absurd hquestion hmark

theorem two_isPrefix_iff : [c, d] <+: c :: rest ↔ rest[0]? = some d := by
  cases rest <;> simp [List.cons_prefix_cons, eq_comm]

theorem three_isPrefix_iff : [c, d, e] <+: c :: rest ↔ rest[0]? = some d ∧ rest[1]? = some e := by
  rcases rest with _ | ⟨_, _ | ⟨_, _⟩⟩ <;>
    simp [List.cons_prefix_cons, @eq_comm Char d, @eq_comm Char e]

theorem begins_one (hmark : mark ≠ .questionDot) : begins ⟨[c], mark⟩ (c :: rest) = true := by
  rw [begins_eq hmark]
  exact decide_eq_true (List.prefix_append [c] rest)

theorem begins_two (hmark : mark ≠ .questionDot) :
    begins ⟨[c, d], mark⟩ (c :: rest) = decide (rest[0]? = some d) :=
  (begins_eq hmark _).trans (decide_eq_decide.mpr two_isPrefix_iff)

theorem begins_three (hmark : mark ≠ .questionDot) :
    begins ⟨[c, d, e], mark⟩ (c :: rest) =
      decide (rest[0]? = some d ∧ rest[1]? = some e) :=
  (begins_eq hmark _).trans (decide_eq_decide.mpr three_isPrefix_iff)

theorem begins_questionDot :
    begins ⟨['?', '.'], .questionDot⟩ ('?' :: rest) =
      decide (rest[0]? = some '.' ∧ ¬rest[1]?.any Text.isDigit) := by
  rw [Bool.eq_iff_iff, begins_iff, decide_eq_true_eq, two_isPrefix_iff]
  rcases rest with _ | ⟨_, _ | ⟨_, _⟩⟩ <;> simp

end

/-- The mark of the operator at the front and its length. -/
def taken? (mode : Mode) (characters : List Char) : Option (Punctuation × Nat) :=
  (first? mode characters).map fun operator => (operator.mark, operator.spelling.length)

theorem taken?_eq {candidates : List Operator}
    (hcandidates : (spellings mode).filter (·.spelling.head? = some c) = candidates) :
    taken? mode (c :: rest) =
      (candidates.find? (·.begins (c :: rest))).map
        fun operator => (operator.mark, operator.spelling.length) :=
  congrArg _ (first?_cons hcandidates)

theorem taken?_single {mark : Punctuation} (hmark : mark ≠ .questionDot)
    (hcandidates : (spellings mode).filter (·.spelling.head? = some c) = [⟨[c], mark⟩]) :
    taken? mode (c :: rest) = some (mark, 1) := by
  simp [taken?_eq hcandidates, begins_one hmark]

theorem taken?_pair {second : Char} {pair single : Punctuation} (hpair : pair ≠ .questionDot)
    (hsingle : single ≠ .questionDot)
    (hcandidates : (spellings mode).filter (·.spelling.head? = some c) =
      [⟨[c, second], pair⟩, ⟨[c], single⟩]) :
    taken? mode (c :: rest) = some (takePair rest second pair single) := by
  rw [taken?_eq hcandidates, takePair]
  split_ifs with hnext <;> simp [begins_two hpair, begins_one hsingle, hnext]

theorem taken?_dot : taken? mode ('.' :: rest) = some (takeDot rest) := by
  rw [taken?_eq (show _ = [⟨['.', '.', '.'], .dotDotDot⟩, ⟨['.'], .dot⟩] by cases mode <;> decide),
    takeDot]
  split_ifs with hnext <;> simp [begins_three, begins_one, hnext]

theorem taken?_question : taken? mode ('?' :: rest) = some (takeQuestion rest) := by
  rw [taken?_eq (show _ = [⟨['?', '.'], .questionDot⟩, ⟨['?'], .question⟩] by
    cases mode <;> decide), takeQuestion]
  split_ifs <;> simp_all [begins_questionDot, begins_one]

theorem taken?_lessThan : taken? mode ('<' :: rest) = some (takeLessThan rest) := by
  rw [taken?_eq (show _ = [⟨['<', '>'], .exclamationEquals⟩, ⟨['<', '='], .lessThanEquals⟩,
    ⟨['<'], .lessThan⟩] by cases mode <;> decide), takeLessThan]
  split <;> simp_all [begins_two, begins_one]

theorem taken?_equals : taken? mode ('=' :: rest) = some (takeEquals rest) := by
  rw [taken?_eq (show _ = [⟨['=', '=', '='], .equalsEquals⟩, ⟨['=', '='], .equalsEquals⟩,
    ⟨['=', '>'], .equalsGreaterThan⟩, ⟨['='], .equals⟩] by cases mode <;> decide), takeEquals]
  split
  · split_ifs <;> simp_all [begins_three, begins_two]
  · simp_all [begins_three, begins_two]
  · simp_all [begins_three, begins_two, begins_one]

theorem taken?_exclamation : taken? mode ('!' :: rest) = some (takeExclamation rest) := by
  rw [taken?_eq (show _ = [⟨['!', '=', '='], .exclamationEquals⟩, ⟨['!', '='], .exclamationEquals⟩,
    ⟨['!'], .exclamation⟩] by cases mode <;> decide), takeExclamation]
  split_ifs <;> simp_all [begins_three, begins_two, begins_one]

theorem taken?_dollar : taken? mode ('$' :: rest) =
    if mode = .template ∧ rest[0]? = some '\x7b' then some (.dollarOpenBrace, 2) else none := by
  cases mode with
  | script => rw [taken?_eq (show _ = [] by decide)]; rfl
  | template =>
      rw [taken?_eq (show _ = [⟨['$', '\x7b'], .dollarOpenBrace⟩] by decide)]
      split_ifs <;> simp_all [begins_two]

theorem taken?_other (hmarks : c ∉ marks) (hdollar : c ≠ '$') : taken? mode (c :: rest) = none := by
  rw [taken?, Option.map_eq_none_iff, Option.eq_none_iff_forall_ne_some]
  intro operator hfirst
  exact (mem_marks_of_first? hfirst).elim hmarks hdollar

/-- Where no number begins, the operator at the front is told by the characters ahead. -/
theorem dispatch_eq (hnumber : Lexeme.beginsNumber characters = false) :
    dispatch mode characters = taken? mode characters := by
  unfold dispatch
  split
  any_goals exact (taken?_single (by decide) (by cases mode <;> decide)).symm
  any_goals exact (taken?_pair (by decide) (by decide) (by cases mode <;> decide)).symm
  any_goals exact taken?_question.symm
  any_goals exact taken?_lessThan.symm
  any_goals exact taken?_equals.symm
  any_goals exact taken?_exclamation.symm
  any_goals exact taken?_dollar.symm
  · next rest =>
      have hdigit : rest[0]?.any Text.isDigit = false := by
        cases rest with
        | nil => rfl
        | cons d back => exact hnumber
      rw [hdigit, taken?_dot]
      rfl
  · cases characters with
    | nil => cases mode <;> rfl
    | cons c rest =>
        refine (taken?_other (fun hmark => ?_) fun hdollar => ?_).symm
        · unfold marks at hmark
          fin_cases hmark <;> solve_by_elim
        · subst hdollar
          solve_by_elim

/-! ### By the longest spelling -/

def scriptTexts : List String :=
  ["(", ")", "\x7b", "\x7d", "[", "]", ";", ",", ":", "@", "#", "^", "+", "-", "*", "%", "/", "~",
    ".", "...", "?", "?.", "<", "<>", "<=", ">", ">=", "=", "==", "===", "=>", "!", "!=", "!==", "&",
    "&&", "|", "||"]

/-- How operators and delimiters are written. -/
def texts : Mode → List String
  | .script => scriptTexts
  | .template => "$\x7b" :: scriptTexts

def Spells (mode : Mode) (spelling : List Char) : Prop :=
  ∃ text ∈ texts mode, text.toList = spelling

theorem perm_texts (mode : Mode) :
    ((spellings mode).map spelling).Perm ((texts mode).map String.toList) := by
  cases mode <;> decide +kernel

theorem spells_iff {spelling : List Char} :
    Spells mode spelling ↔ ∃ operator ∈ spellings mode, operator.spelling = spelling := by
  rw [← List.mem_map, (perm_texts mode).mem_iff, List.mem_map, Spells]

/-- The question mark of a condition stands in front of a number that begins with a point. -/
def StandsBeforeFraction (characters : List Char) : Prop :=
  ∃ digit back, characters = '?' :: '.' :: digit :: back ∧ Text.isDigit digit

theorem begins_of_isPrefix {operator : Operator} (hmem : operator ∈ spellings mode)
    (hleads : operator.spelling <+: characters) (hfraction : ¬StandsBeforeFraction characters) :
    operator.begins characters := by
  refine begins_iff.mpr ⟨hleads, fun hmark digit hdigit => ?_⟩
  rw [(shape_of_mem_spellings hmem).2.mp hmark] at hleads
  obtain ⟨more, rfl⟩ := hleads
  obtain ⟨back, rfl⟩ := List.head?_eq_some_iff.mp hdigit
  by_contra hnot
  exact hfraction ⟨digit, back, rfl, by simpa using hnot⟩

/-- No spelling begins with one that comes before it. -/
theorem spellings_pairwise (mode : Mode) :
    (spellings mode).Pairwise fun first later => ¬first.spelling <+: later.spelling := by
  cases mode <;> decide +kernel

/-- The first operator in the table that stands at the front is the longest one. -/
theorem isLongest_of_first? {operator : Operator} (hfirst : first? mode characters = some operator)
    (hfraction : ¬StandsBeforeFraction characters) :
    Text.IsLongest (Spells mode) characters operator.spelling := by
  have hleads := spelling_isPrefix_of_first? hfirst
  obtain ⟨-, before, after, hsplit, hbefore⟩ := List.find?_eq_some_iff_append.mp hfirst
  refine ⟨spells_iff.mpr ⟨operator, List.mem_of_find?_eq_some hfirst, rfl⟩, hleads, ?_⟩
  rintro spelling hspells hother
  obtain ⟨other, hmem, rfl⟩ := spells_iff.mp hspells
  have hbegins := begins_of_isPrefix hmem hother hfraction
  have hpairwise := spellings_pairwise mode
  rw [hsplit] at hmem hpairwise
  rcases List.mem_append.mp hmem with hearlier | hlater
  · have hnot := hbefore other hearlier
    rw [hbegins] at hnot
    cases hnot
  · rcases List.mem_cons.mp hlater with rfl | hlater
    · exact List.prefix_rfl
    · have hnot := (List.pairwise_cons.mp (List.pairwise_append.mp hpairwise).2.1).1 other hlater
      exact (List.prefix_or_prefix_of_prefix hother hleads).resolve_right hnot

theorem spelling_eq_of_standsBeforeFraction {operator : Operator}
    (hfirst : first? mode characters = some operator)
    (hfraction : StandsBeforeFraction characters) : operator.spelling = ['?'] := by
  obtain ⟨digit, back, rfl, hdigit⟩ := hfraction
  have htaken : taken? mode ('?' :: '.' :: digit :: back) = some (.question, 1) := by
    rw [taken?_question, takeQuestion, if_neg fun hnext => hnext.2 hdigit]
  rw [taken?, hfirst, Option.map_some] at htaken
  have hmark : operator.mark = .question := congrArg Prod.fst (Option.some.inj htaken)
  have hquestions : ∀ mode, ∀ operator ∈ spellings mode, operator.mark = .question →
      operator.spelling = ['?'] := by
    intro mode
    cases mode <;> decide
  exact hquestions mode operator (List.mem_of_find?_eq_some hfirst) hmark

/-- The spelling that a mark is known by, for any of its spellings. -/
def canonical : List Char → String
  | ['=', '=', '='] => "=="
  | ['!', '=', '='] => "!="
  | ['<', '>'] => "!="
  | ['~'] => "|"
  | spelling => .ofList spelling

theorem text_mark {operator : Operator} (hmem : operator ∈ spellings mode) :
    operator.mark.text = canonical operator.spelling := by
  have hall : ∀ mode, ∀ operator ∈ spellings mode,
      operator.mark.text = canonical operator.spelling := by
    intro mode
    cases mode <;> decide +kernel
  exact hall mode operator hmem

end FormulaScript.Operator
