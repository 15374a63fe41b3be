import FormulaScript.Proofs.Gap.Boundary
import FormulaScript.Proofs.Lexeme.Word
import FormulaScript.Proofs.Text.Runs

/-!
# Letters beyond ASCII

Identifiers of Unicode letters add characters to the ones that may stand in an identifier, and take
none away. Where such a character would go on with a word, or begin one, nothing begins without them:
it is neither a blank nor the beginning of another lexeme. So what is read with them is the same, up
to the first character that is invalid without them. Of the letters it is used only that no blank is
one.
-/

namespace FormulaScript

open Text

/-! ### Characters -/

namespace Text

def blankCodes : List Nat :=
  [0x09, 0x0b, 0x0c, 0x20, 0xa0, 0x1680] ++ List.range' 0x2000 11 ++
    [0x2028, 0x2029, 0x202f, 0x205f, 0x3000, 0xfeff]

theorem toNat_mem_blankCodes {c : Char} (hblank : isBlank c) : c.toNat ∈ blankCodes := by
  simp only [isBlank, Bool.or_eq_true, beq_iff_eq, Bool.and_eq_true, decide_eq_true_eq] at hblank
  by_cases hrange : '\u2000' ≤ c ∧ c ≤ '\u200a'
  · have hlow : 0x2000 ≤ c.toNat := hrange.1
    have hhigh : c.toNat ≤ 0x200a := hrange.2
    rw [blankCodes, List.mem_append, List.mem_append, List.mem_range'_1]
    exact .inl (.inr (by omega))
  · simp only [hrange, or_false] at hblank
    casesm* _ ∨ _
    all_goals
      subst hblank
      decide

/-- No blank is a letter, by the Unicode tables. -/
theorem continues_unicodeLetters_of_isBlank {c : Char} (hblank : isBlank c) :
    unicodeLetters.continues c = false := by
  have hall : ∀ code ∈ blankCodes, unicodeLetters.continues (.ofNat code) = false := by
    decide +kernel
  have hnone := hall c.toNat (toNat_mem_blankCodes hblank)
  rwa [Char.ofNat_toNat] at hnone

variable [Letters]

theorem beginsIdentifier_unicode {c : Char} (hbegins : beginsIdentifier false c) :
    beginsIdentifier true c := by
  simp only [beginsIdentifier, Bool.false_and, Bool.or_false] at hbegins
  rw [beginsIdentifier, hbegins, Bool.true_or]

theorem continuesIdentifier_unicode {c : Char} (hcontinues : continuesIdentifier false c) :
    continuesIdentifier true c := by
  simp only [continuesIdentifier, Bool.false_and, Bool.or_false] at hcontinues
  rw [continuesIdentifier, hcontinues, Bool.true_or]

/-- Letters beyond ASCII have no part in what begins an identifier without them. -/
theorem continuesIdentifier_of_plain {c : Char} (hbegins : beginsIdentifier false c) :
    continuesIdentifier false c := by
  simp only [beginsIdentifier, continuesIdentifier, Char.isAlphanum, Bool.false_and,
    Bool.or_false, Bool.or_eq_true] at hbegins ⊢
  tauto

/-- A character that may go on with an identifier only if Unicode letters may. -/
structure IsStray (c : Char) : Prop where
  unicode : continuesIdentifier true c = true
  plain : continuesIdentifier false c = false

theorem IsStray.continues {c : Char} (hstray : IsStray c) : Letters.continues c = true := by
  have hunicode := hstray.unicode
  have hplain := hstray.plain
  simp only [continuesIdentifier, Bool.false_and, Bool.or_false] at hunicode hplain
  rw [hplain, Bool.false_or, Bool.and_eq_true] at hunicode
  exact hunicode.2

theorem IsStray.not_isAscii {c : Char} (hstray : IsStray c) : isAscii c = false := by
  by_contra hascii
  rw [Bool.not_eq_false] at hascii
  have hunicode := hstray.unicode
  have hplain := hstray.plain
  simp only [continuesIdentifier, hascii, Bool.not_true, Bool.and_false, Bool.false_and]
    at hunicode hplain
  rw [hplain] at hunicode
  cases hunicode

theorem IsStray.ne {c mark : Char} (hstray : IsStray c) (hmark : isAscii mark) : c ≠ mark := by
  rintro rfl
  rw [hstray.not_isAscii] at hmark
  cases hmark

theorem IsStray.not_beginsWith {c : Char} (hstray : IsStray c) (mode : Mode) :
    ¬Lexeme.BeginsWith ⟨mode, false⟩ c := by
  rintro (hdigit | ⟨quote, rfl⟩ | hmark | hbegins)
  · have hplain := hstray.plain
    rw [isDigit] at hdigit
    simp [continuesIdentifier, Char.isAlphanum, hdigit] at hplain
  · exact hstray.ne (by cases quote <;> decide) rfl
  · have hall : Operator.marks.all isAscii := by decide
    exact hstray.ne (List.all_eq_true.mp hall c hmark) rfl
  · have hplain := hstray.plain
    rw [continuesIdentifier_of_plain hbegins] at hplain
    cases hplain

end Text

variable [Letters]

/-! ### Lexemes -/

theorem Word.first?_unicode {c : Char} {back : List Char} (hbegins : beginsIdentifier false c)
    (hstop : ∀ d ∈ (back.dropWhile (continuesIdentifier false)).head?,
      continuesIdentifier true d = false) :
    first? true (c :: back) = first? false (c :: back) := by
  have hrun : ∀ d ∈ back.takeWhile (continuesIdentifier false), continuesIdentifier true d :=
    fun d hmem => continuesIdentifier_unicode (List.mem_takeWhile_imp hmem)
  obtain ⟨htake, hdrop⟩ := run_append hrun hstop
  rw [List.takeWhile_append_dropWhile] at htake hdrop
  rw [first?_of_begins hbegins, first?_of_begins (beginsIdentifier_unicode hbegins), htake, hdrop]

/-- A lexeme stays the same with Unicode letters, unless it is a word with a stray character behind
it. -/
theorem Lexeme.first?_unicode {mode : Mode} {front : List Char} {lexeme : Lexeme}
    (hfirst : first? ⟨mode, false⟩ front = some lexeme) :
    first? ⟨mode, true⟩ front = some lexeme ∨
      ∃ run c back, front = run ++ c :: back ∧ lexeme = Word.classify run (c :: back) ∧
        IsStray c := by
  rw [first?_eq_some_iff] at hfirst ⊢
  rcases hfirst with hnumber | ⟨hnumber, hquoted | ⟨hquoted, hoperator | ⟨hoperator, hword⟩⟩⟩
  · exact .inl (.inl hnumber)
  · exact .inl (.inr ⟨hnumber, .inl hquoted⟩)
  · exact .inl (.inr ⟨hnumber, .inr ⟨hquoted, .inl hoperator⟩⟩)
  · cases front with
    | nil => cases hword
    | cons c back =>
        have hbegins : beginsIdentifier false c := by
          by_contra hnot
          rw [Word.first?_cons_eq_none_iff.mpr (by simpa using hnot)] at hword
          cases hword
        by_cases hstop : ∀ d ∈ (back.dropWhile (continuesIdentifier false)).head?,
            continuesIdentifier true d = false
        · rw [← Word.first?_unicode hbegins hstop] at hword
          exact .inl (.inr ⟨hnumber, .inr ⟨hquoted, .inr ⟨hoperator, hword⟩⟩⟩)
        · simp only [not_forall, Bool.not_eq_false] at hstop
          obtain ⟨d, hhead, hcontinues⟩ := hstop
          have hplain := head?_dropWhile (continuesIdentifier false) back d hhead
          obtain ⟨rest, hrest⟩ := List.head?_eq_some_iff.mp hhead
          rw [Word.first?_of_begins hbegins, hrest] at hword
          refine .inr ⟨_, d, rest, ?_, (Option.some.inj hword).symm, hcontinues, hplain⟩
          rw [← hrest, List.cons_append, List.takeWhile_append_dropWhile]

/-- A stray character does not belong to the word in front of it. -/
theorem Word.classify_of_isStray {run back : List Char} {c : Char} (hstray : IsStray c) :
    classify run (c :: back) =
      .verbatim (((Keyword.lookup? (.ofList run)).map .keyword).getD .identifier) run := by
  refine classify_of_not_takesColon ?_
  rintro ⟨-, hcolon⟩
  exact hstray.ne (by decide) (Option.some.inj hcolon)

/-! ### Gaps -/

namespace Gap

variable {mode : Mode} {characters : List Char}

/-- Without Unicode letters a stray character begins nothing. -/
theorem first?_of_isStray (hblanks : ∀ c, isBlank c → Letters.continues c = false) {c : Char}
    (hstray : IsStray c) (mode : Mode) (back : List Char) :
    first? ⟨mode, false⟩ (c :: back) = some (.invalid c) := by
  have hslash : c ≠ '/' := hstray.ne (by decide)
  have hfeed : c ≠ '\n' := hstray.ne (by decide)
  have hreturn : c ≠ '\r' := hstray.ne (by decide)
  have hblank : isBlank c = false := by
    by_contra hblank
    have hnone := hblanks c (by simpa using hblank)
    rw [hstray.continues] at hnone
    cases hnone
  refine first?_eq_some_iff.mpr (.inr ⟨?_, ?_, c, back, rfl, rfl⟩)
  · rw [trivia?_of_not_slash fun h => hslash h.1]
    simp [endsLine, hfeed, hreturn, hblank]
  · exact Lexeme.first?_cons_eq_none_iff.mpr (hstray.not_beginsWith mode)

theorem first?_unicode (hvalid : ∀ c, first? ⟨mode, false⟩ characters ≠ some (.invalid c)) :
    first? ⟨mode, true⟩ characters = first? ⟨mode, false⟩ characters := by
  cases hfirst : first? ⟨mode, false⟩ characters with
  | none =>
      obtain ⟨htrivia, hrest⟩ := first?_eq_none_iff.mp hfirst
      refine first?_eq_none_iff.mpr ⟨htrivia, hrest.imp_right fun hlexeme => ?_⟩
      cases characters with
      | nil => exact absurd (Lexeme.first?_nil _) hlexeme
      | cons c back =>
          rw [Ne, Lexeme.first?_cons_eq_none_iff, not_not] at hlexeme ⊢
          exact hlexeme.imp_right (.imp_right (.imp_right beginsIdentifier_unicode))
  | some piece =>
      rcases first?_eq_some_iff.mp hfirst with htrivia | ⟨-, -, c, back, -, rfl⟩
      · exact first?_eq_some_iff.mpr (.inl htrivia)
      · exact absurd hfirst (hvalid c)

/-- A gap without invalid characters is read the same with Unicode letters. -/
theorem read_unicode (hvalid : ∀ c, .invalid c ∉ read ⟨mode, false⟩ characters) :
    read ⟨mode, true⟩ characters = read ⟨mode, false⟩ characters := by
  induction characters using read_induction ⟨mode, false⟩ with
  | done characters hfirst =>
      have hnone : ∀ c, first? ⟨mode, false⟩ characters ≠ some (.invalid c) := by simp [hfirst]
      rw [read_of_first?_eq_none hfirst,
        read_of_first?_eq_none ((first?_unicode hnone).trans hfirst)]
  | step piece rest hfirst ih =>
      have hread : read ⟨mode, false⟩ (piece.spelling ++ rest) =
          piece :: read ⟨mode, false⟩ rest := by
        rw [read_of_first?_eq_some hfirst, List.drop_left]
      rw [hread] at hvalid ⊢
      have hfirst' := first?_unicode fun c hinvalid => by
        obtain rfl := Option.some.inj (hfirst.symm.trans hinvalid)
        exact hvalid c List.mem_cons_self
      rw [read_of_first?_eq_some (hfirst'.trans hfirst), List.drop_left,
        ih fun c hmem => hvalid c (List.mem_cons_of_mem _ hmem)]

omit [Letters] in
/-- Every invalid character of a gap is reported. -/
theorem exists_report_of_invalid {c : Char} {pieces : List Piece} (hmem : .invalid c ∈ pieces)
    (offset : Nat) :
    ∃ diagnostic ∈ diagnostics offset pieces, diagnostic.message = .invalidCharacter := by
  induction pieces generalizing offset with
  | nil => cases hmem
  | cons piece pieces ih =>
      rcases List.mem_cons.mp hmem with rfl | hlater
      · exact ⟨_, List.mem_append_left _ (Option.mem_toList.mpr rfl), rfl⟩
      · obtain ⟨diagnostic, hdiagnostic, hmessage⟩ := ih hlater (offset + piece.byteLength)
        exact ⟨diagnostic, List.mem_append_right _ hdiagnostic, hmessage⟩

end Gap

end FormulaScript
