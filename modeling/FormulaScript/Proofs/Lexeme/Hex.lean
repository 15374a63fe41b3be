import FormulaScript.Proofs.Lexeme.Boundary
import FormulaScript.Proofs.Text.Runs

/-!
# How a hexadecimal literal is spelled

Behind the mark stands one run of digits, and the letter of the suffix is no digit. So the literal
that is read is the longest one, and whether it has a suffix is told by its spelling.
-/

namespace FormulaScript

namespace HexLiteral

structure WellFormed (literal : HexLiteral) : Prop where
  mark : isMark literal.mark
  digits : ∀ c ∈ literal.digits, Text.isHexDigit c
  suffix : ∀ c ∈ literal.suffix?, isSuffix c

/-- The spellings of hexadecimal literals: a zero and a mark, digits that may be missing, and a
suffix that may be missing too. -/
def Spells (characters : List Char) : Prop :=
  ∃ literal : HexLiteral, literal.WellFormed ∧ literal.spelling = characters

/-- The text begins with a zero and a mark. -/
def Begins (characters : List Char) : Prop :=
  ∃ mark back, characters = '0' :: mark :: back ∧ isMark mark

theorem isHexDigit_eq_false_of_isSuffix {c : Char} (hsuffix : isSuffix c) :
    Text.isHexDigit c = false := by
  simp only [isSuffix, Bool.or_eq_true, beq_iff_eq] at hsuffix
  rcases hsuffix with rfl | rfl <;> decide

variable {literal : HexLiteral} {characters : List Char}

theorem approximate_concat (digits : List Char) (c : Char) :
    approximate (digits ++ [c]) = ((approximate digits).mulNat 16).addNat (Text.digitValue c) :=
  List.foldl_concat _ _ _ _

theorem exists_first?_of_begins (hbegins : Begins characters) :
    ∃ literal, first? characters = some literal := by
  obtain ⟨mark, back, rfl, hmark⟩ := hbegins
  exact ⟨_, if_pos hmark⟩

theorem number?_of_first? (hfirst : first? characters = some literal) :
    Lexeme.number? characters = some literal.lexeme := by
  obtain ⟨mark, back, rfl, -⟩ := exists_of_first? hfirst
  have hbegins : Lexeme.beginsNumber ('0' :: mark :: back) := rfl
  rw [Lexeme.number?, if_pos hbegins, hfirst]

theorem wellFormed_of_first? (hfirst : first? characters = some literal) :
    literal.WellFormed := by
  obtain ⟨mark, back, rfl, hmark⟩ := exists_of_first? hfirst
  rw [first?_zero, if_pos hmark] at hfirst
  obtain rfl := Option.some.inj hfirst
  exact ⟨hmark, fun c hc => List.mem_takeWhile_imp hc, fun c hc => (Option.mem_filter_iff.mp hc).2⟩

/-- What is written as a hexadecimal literal is part of the literal that is read. -/
theorem WellFormed.exists_first? (hform : literal.WellFormed)
    (hspelling : literal.spelling <+: characters) :
    ∃ longest, first? characters = some longest ∧ literal.spelling <+: longest.spelling := by
  obtain ⟨mark, digits, suffix?⟩ := literal
  obtain ⟨hmark, hdigits, hsuffix⟩ := hform
  obtain ⟨rest, rfl⟩ := hspelling
  have hfirst := first?_zero mark (digits ++ suffix?.toList ++ rest)
  refine ⟨_, hfirst.trans (if_pos hmark), ?_⟩
  rw [spelling, spelling, List.cons_prefix_cons, List.cons_prefix_cons]
  refine ⟨rfl, rfl, ?_⟩
  dsimp only at hdigits hsuffix ⊢
  cases suffix? with
  | none =>
      rw [Option.toList_none, List.append_nil]
      exact (Text.isPrefix_takeWhile hdigits (List.prefix_append _ _)).trans
        (List.prefix_append _ _)
  | some suffix =>
      have hletter := hsuffix suffix rfl
      have hstop : ∀ c ∈ (suffix :: rest).head?, Text.isHexDigit c = false := by
        intro c hc
        rw [← Option.some.inj hc]
        exact isHexDigit_eq_false_of_isSuffix hletter
      have hback : digits ++ (some suffix).toList ++ rest = digits ++ suffix :: rest :=
        List.append_assoc _ _ _
      obtain ⟨htake, hdrop⟩ := Text.run_append hdigits hstop
      rw [hback, htake, hdrop, List.head?_cons, Option.filter_some_pos hletter]

theorem isLongest_of_first? (hfirst : first? characters = some literal) :
    Text.IsLongest Spells characters literal.spelling := by
  refine ⟨⟨literal, wellFormed_of_first? hfirst, rfl⟩, spelling_isPrefix_of_first? hfirst, ?_⟩
  rintro other ⟨written, hform, rfl⟩ hleads
  obtain ⟨longest, hlongest, hother⟩ := hform.exists_first? hleads
  rwa [← Option.some.inj (hfirst.symm.trans hlongest)] at hother

theorem WellFormed.first?_spelling (hform : literal.WellFormed) :
    first? literal.spelling = some literal := by
  obtain ⟨mark, digits, suffix?⟩ := literal
  obtain ⟨hmark, hdigits, hsuffix⟩ := hform
  have hstop : ∀ c ∈ suffix?.toList.head?, Text.isHexDigit c = false := by
    cases suffix? with
    | none => exact fun c hc => by cases hc
    | some suffix =>
        intro c hc
        rw [← Option.some.inj hc]
        exact isHexDigit_eq_false_of_isSuffix (hsuffix suffix rfl)
  have hhead : suffix?.toList.head?.filter isSuffix = suffix? := by
    cases suffix? with
    | none => rfl
    | some suffix => exact Option.filter_some_pos (hsuffix suffix rfl)
  obtain ⟨htake, hdrop⟩ := Text.run_append hdigits hstop
  rw [spelling, first?_zero, if_pos hmark, htake, hdrop, hhead]

theorem WellFormed.eq_of_spelling_eq {other : HexLiteral} (hform : literal.WellFormed)
    (hother : other.WellFormed) (hspelling : other.spelling = literal.spelling) :
    other = literal := by
  apply Option.some.inj
  rw [← hform.first?_spelling, ← hother.first?_spelling, hspelling]

end HexLiteral

end FormulaScript
