import FormulaScript.Lexeme.First
import FormulaScript.Proofs.Text.Case

/-!
# Reserved words

Keywords are looked up in upper case, and spelled in lower case in messages. No lexeme that is longer
than all of them is looked up. Both tables tell the same keyword by any spelling of it.
-/

namespace FormulaScript

namespace Keyword

/-- The keywords by their spelling in upper case. -/
def table : List (String × Keyword) :=
  [("NOT", .notWord), ("LIKE", .likeWord), ("IN", .inWord), ("NULL", .nullWord),
    ("FUNCTION", .functionWord), ("VAR", .varWord), ("LET", .letWord), ("NEW", .newWord),
    ("IF", .ifWord), ("ELSE", .elseWord), ("RETURN", .returnWord), ("TRY", .tryWord),
    ("CATCH", .catchWord), ("FINALLY", .finallyWord), ("THROW", .throwWord), ("FOR", .forWord),
    ("TRUE", .trueWord), ("FALSE", .falseWord), ("THIS", .thisWord), ("REQUEST", .requestWord),
    ("_EE", .eeWord), ("_EVALUATOR", .evaluatorWord), ("OR", .orWord), ("WHILE", .whileWord),
    ("BREAK", .breakWord), ("IMPORT", .importWord), ("CIMPORT", .cimportWord),
    ("EXPORT", .exportWord), ("DEFAULT", .defaultWord), ("FROM", .fromWord), ("CONST", .constWord),
    ("AS", .asWord), ("CONTINUE", .continueWord), ("CASE", .caseWord), ("SWITCH", .switchWord),
    ("DELETE", .deleteWord), ("OF", .ofWord)]

def lookup? (lexeme : String) : Option Keyword :=
  if lexeme.isEmpty ∨ maxLength < lexeme.utf8ByteSize then none
  else table.lookup lexeme.toUpper

variable {lexeme : String} {word : Keyword}

/-- Every keyword is in both tables, and short enough to be looked up. -/
theorem text_spec (word : Keyword) :
    word.text.toLower = word.text ∧ 0 < word.text.utf8ByteSize ∧
      word.text.utf8ByteSize ≤ maxLength ∧ table.lookup word.text.toUpper = some word ∧
      all.find? (·.text == word.text) = some word := by
  cases word <;> decide +kernel

theorem key_eq_of_mem_table : ∀ entry ∈ table, entry.1 = entry.2.text.toUpper := by
  decide +kernel

theorem lookup_table_iff {key : String} :
    table.lookup key = some word ↔ key = word.text.toUpper := by
  constructor
  · intro hlookup
    obtain ⟨front, back, htable, -⟩ := List.lookup_eq_some_iff.mp hlookup
    have hmem : (key, word) ∈ table := by
      rw [htable]
      exact List.mem_append_right front List.mem_cons_self
    exact key_eq_of_mem_table _ hmem
  · rintro rfl
    exact (text_spec word).2.2.2.1

theorem find?_all_iff {spelling : String} :
    all.find? (·.text == spelling) = some word ↔ spelling = word.text := by
  constructor
  · intro hfind
    have htext := List.find?_some hfind
    exact (beq_iff_eq.mp htext).symm
  · rintro rfl
    exact (text_spec word).2.2.2.2

/-- A spelling of a keyword is as long as the keyword. -/
theorem utf8ByteSize_eq (hsame : word.text.toLower = lexeme.toLower) :
    lexeme.utf8ByteSize = word.text.utf8ByteSize := by
  rw [← Text.utf8ByteSize_toLower lexeme, ← hsame, Text.utf8ByteSize_toLower]

/-- The length of a lexeme keeps no keyword from being found. -/
theorem lookup?_eq_some_iff :
    lookup? lexeme = some word ↔ word.text.toLower = lexeme.toLower := by
  have htable : table.lookup lexeme.toUpper = some word ↔ word.text.toLower = lexeme.toLower := by
    rw [lookup_table_iff, Text.toUpper_eq_iff, eq_comm]
  rw [lookup?, ← htable]
  split_ifs with hlength
  · refine iff_of_false id fun hfound => ?_
    have hsize := utf8ByteSize_eq (htable.mp hfound)
    obtain ⟨-, hpos, hle, -, -⟩ := text_spec word
    rcases hlength with hempty | hlong
    · rw [String.isEmpty_iff.mp hempty] at hsize
      exact absurd hsize.symm hpos.ne'
    · omega
  · rfl

theorem ofLexeme?_eq_some_iff :
    ofLexeme? lexeme = some word ↔ word.text.toLower = lexeme.toLower := by
  have hall : all.find? (·.text == lexeme.toLower) = some word ↔
      word.text.toLower = lexeme.toLower := by
    rw [find?_all_iff, (text_spec word).1, eq_comm]
  rw [ofLexeme?, ← hall]
  split_ifs with hlength
  · rfl
  · refine iff_of_false id fun hfound => ?_
    have hsize := utf8ByteSize_eq (hall.mp hfound)
    obtain ⟨-, -, hle, -, -⟩ := text_spec word
    omega

/-- The two tables agree. -/
theorem ofLexeme?_eq_lookup? (lexeme : String) : ofLexeme? lexeme = lookup? lexeme := by
  apply Option.ext
  intro word
  rw [ofLexeme?_eq_some_iff, lookup?_eq_some_iff]

/-- **Keywords.** A lexeme is looked up as the kind whose text it is, up to case. -/
theorem map_lookup?_eq_some_iff {kind : Token.Kind} :
    (lookup? lexeme).map Token.Kind.keyword = some kind ↔
      ∃ text, kind.keywordText? = some text ∧ text.toLower = lexeme.toLower := by
  rw [Option.map_eq_some_iff]
  constructor
  · rintro ⟨word, hlookup, rfl⟩
    exact ⟨word.text, rfl, lookup?_eq_some_iff.mp hlookup⟩
  · rintro ⟨text, htext, hsame⟩
    cases kind with
    | keyword word =>
        obtain rfl : word.text = text := Option.some.inj htext
        exact ⟨word, lookup?_eq_some_iff.mpr hsame, rfl⟩
    | _ => cases htext

end Keyword

namespace Word

variable {run rest : List Char}

/-- The colon behind `default` belongs to it, in either case of its letters. -/
def TakesColon (run rest : List Char) : Prop :=
  (String.ofList run).toLower = "default" ∧ rest.head? = some ':'

theorem ofLexeme?_eq_default_iff :
    Keyword.ofLexeme? (.ofList run) = some .defaultWord ↔
      (String.ofList run).toLower = "default" := by
  rw [Keyword.ofLexeme?_eq_some_iff, (Keyword.text_spec _).1, eq_comm]
  rfl

theorem classify_of_takesColon (htakes : TakesColon run rest) :
    classify run rest = .verbatim (.punctuation .defaultColon) (run ++ [':']) := by
  rw [classify, ofLexeme?_eq_default_iff.mpr htakes.1]
  exact if_pos ⟨rfl, htakes.2⟩

theorem classify_of_not_takesColon (htakes : ¬TakesColon run rest) :
    classify run rest =
      .verbatim (((Keyword.lookup? (.ofList run)).map .keyword).getD .identifier) run := by
  rw [classify, ← Keyword.ofLexeme?_eq_lookup?]
  cases hword : Keyword.ofLexeme? (.ofList run) with
  | none => rfl
  | some word =>
      refine if_neg ?_
      rintro ⟨rfl, hcolon⟩
      exact htakes ⟨ofLexeme?_eq_default_iff.mp hword, hcolon⟩

theorem kind_classify_eq_defaultColon_iff :
    (classify run rest).kind = .punctuation .defaultColon ↔ TakesColon run rest := by
  by_cases htakes : TakesColon run rest
  · rw [classify_of_takesColon htakes]
    exact iff_of_true rfl htakes
  · rw [classify_of_not_takesColon htakes]
    refine iff_of_false ?_ htakes
    cases Keyword.lookup? (.ofList run) <;> exact Token.Kind.noConfusion

/-- A word means the run and the colon that it takes. -/
theorem classify_eq_verbatim (run rest : List Char) :
    classify run rest = .verbatim (classify run rest).kind
      (run ++ if (classify run rest).kind = .punctuation .defaultColon then [':'] else []) := by
  by_cases htakes : TakesColon run rest
  · rw [if_pos (kind_classify_eq_defaultColon_iff.mpr htakes), classify_of_takesColon htakes]
    rfl
  · rw [if_neg (mt kind_classify_eq_defaultColon_iff.mp htakes), List.append_nil,
      classify_of_not_takesColon htakes]
    rfl

/-- An identifier is no keyword in any case of its letters. -/
theorem toLower_ne_of_kind_eq_identifier (hkind : (classify run rest).kind = .identifier)
    (word : Keyword) : (String.ofList run).toLower ≠ word.text.toLower := by
  intro hsame
  have hlookup := Keyword.lookup?_eq_some_iff.mpr hsame.symm
  by_cases htakes : TakesColon run rest
  · rw [classify_of_takesColon htakes] at hkind
    cases hkind
  · rw [classify_of_not_takesColon htakes, hlookup] at hkind
    cases hkind

end Word

namespace Text

theorem continues_unicodeLetters_of_begins {c : Char} (hbegins : unicodeLetters.begins c) :
    unicodeLetters.continues c :=
  Bool.or_eq_true_iff.mpr (.inl hbegins)

theorem continuesIdentifier_of_begins {unicode : Bool} {c : Char}
    (hbegins : beginsIdentifier unicode c) : continuesIdentifier unicode c := by
  have hletter := continues_unicodeLetters_of_begins (c := c)
  simp only [beginsIdentifier, continuesIdentifier, Char.isAlphanum, Bool.or_eq_true,
    Bool.and_eq_true] at hbegins ⊢
  tauto

end Text

end FormulaScript
