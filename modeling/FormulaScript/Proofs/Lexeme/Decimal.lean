import FormulaScript.Proofs.Lexeme.Boundary
import FormulaScript.Proofs.Text.Runs

/-!
# How a decimal literal is spelled

Each part of a decimal literal is a run, and what parts two runs belongs to neither of them. So the
literal that is read at the front of a text is the longest one that stands there, and its parts are
told apart by its spelling.
-/

namespace FormulaScript

/-! ### Exponents -/

namespace Exponent

structure WellFormed (exponent : Exponent) : Prop where
  mark : isMark exponent.mark
  signs : ∀ c ∈ exponent.signs, isSign c
  digits : ∀ c ∈ exponent.digits, Text.isDigit c

theorem isSign_eq_false_of_isDigit {c : Char} (hdigit : Text.isDigit c) : isSign c = false := by
  by_contra hsign
  simp only [isSign, Bool.not_eq_false, Bool.or_eq_true, beq_iff_eq] at hsign
  rcases hsign with rfl | rfl <;> cases hdigit

theorem isDigit_eq_false_of_isMark {c : Char} (hmark : isMark c) : Text.isDigit c = false := by
  simp only [isMark, Bool.or_eq_true, beq_iff_eq] at hmark
  rcases hmark with rfl | rfl <;> rfl

variable {exponent : Exponent} {characters : List Char}

theorem wellFormed_of_first? (hfirst : first? characters = some exponent) :
    exponent.WellFormed := by
  cases characters with
  | nil => cases hfirst
  | cons c rest =>
      rw [first?] at hfirst
      split_ifs at hfirst with hmark
      obtain rfl := Option.some.inj hfirst
      exact ⟨hmark, fun c hc => List.mem_takeWhile_imp hc, fun c hc => List.mem_takeWhile_imp hc⟩

/-- What is written as an exponent is part of the exponent that is read. -/
theorem WellFormed.exists_first? (hform : exponent.WellFormed)
    (hspelling : exponent.spelling <+: characters) :
    ∃ longest, first? characters = some longest ∧ exponent.spelling <+: longest.spelling := by
  obtain ⟨mark, signs, digits⟩ := exponent
  obtain ⟨hmark, hsigns, hdigits⟩ := hform
  cases characters with
  | nil => simp [spelling] at hspelling
  | cons c rest =>
      obtain ⟨rfl, hrest⟩ := List.cons_prefix_cons.mp hspelling
      refine ⟨_, if_pos hmark, List.cons_prefix_cons.mpr ⟨rfl, ?_⟩⟩
      cases digits with
      | nil =>
          rw [List.append_nil] at hrest ⊢
          exact (Text.isPrefix_takeWhile hsigns hrest).trans (List.prefix_append _ _)
      | cons digit digits =>
          have hdigit := hdigits digit List.mem_cons_self
          obtain ⟨hrun, hback⟩ :=
            Text.takeWhile_of_isPrefix hsigns (isSign_eq_false_of_isDigit hdigit) hrest
          rw [hrun]
          exact (List.prefix_append_right_inj signs).mpr (Text.isPrefix_takeWhile hdigits hback)

theorem WellFormed.first?_spelling (hform : exponent.WellFormed) :
    first? exponent.spelling = some exponent := by
  obtain ⟨mark, signs, digits⟩ := exponent
  obtain ⟨hmark, hsigns, hdigits⟩ := hform
  have hstop : ∀ c ∈ digits.head?, isSign c = false := fun c hc =>
    isSign_eq_false_of_isDigit (hdigits c (List.mem_of_mem_head? hc))
  obtain ⟨htake, hdrop⟩ := Text.run_append hsigns hstop
  rw [spelling, first?, if_pos hmark, htake, hdrop, List.takeWhile_eq_self_iff.mpr hdigits]

end Exponent

/-! ### Literals -/

namespace DecimalLiteral

structure WellFormed (literal : DecimalLiteral) : Prop where
  whole : ∀ c ∈ literal.whole, Text.isDigit c
  fraction : ∀ c ∈ literal.fractionDigits, Text.isDigit c
  exponent : ∀ exponent ∈ literal.exponent?, exponent.WellFormed

/-- The spellings of decimal literals: digits, a point with digits, and a mark with signs and digits,
where all the digits may be missing. -/
def Spells (characters : List Char) : Prop :=
  ∃ literal : DecimalLiteral, literal.WellFormed ∧ literal.spelling = characters

variable {literal : DecimalLiteral} {characters : List Char}

theorem WellFormed.digits (hform : literal.WellFormed) :
    ∀ c ∈ literal.digits, Text.isDigit c :=
  List.forall_mem_append.mpr ⟨hform.whole, hform.fraction⟩

theorem wellFormed_first (characters : List Char) : (first characters).WellFormed := by
  unfold first
  split
  · exact ⟨fun c hc => List.mem_takeWhile_imp hc, fun c hc => List.mem_takeWhile_imp hc,
      fun exponent hexponent => Exponent.wellFormed_of_first? hexponent⟩
  · exact ⟨fun c hc => List.mem_takeWhile_imp hc, fun c hc => absurd hc List.not_mem_nil,
      fun exponent hexponent => Exponent.wellFormed_of_first? hexponent⟩

theorem spelling_eq (literal : DecimalLiteral) : literal.spelling =
    literal.whole ++ (literal.fraction?.elim [] ('.' :: ·) ++
      literal.exponent?.elim [] Exponent.spelling) :=
  List.append_assoc _ _ _

theorem length_digits_le (literal : DecimalLiteral) :
    literal.digits.length ≤ literal.spelling.length := by
  rw [digits, spelling_eq, fractionDigits, List.length_append, List.length_append]
  cases literal.fraction? with
  | none => exact Nat.add_le_add_left (Nat.zero_le _) _
  | some fraction =>
      rw [List.length_append, Option.elim_some, List.length_cons, Option.getD_some]
      omega

theorem length_digits_first_le (characters : List Char) :
    (first characters).digits.length ≤ characters.length :=
  (length_digits_le _).trans (spelling_first_isPrefix characters).length_le

theorem exponent_isPrefix {digits rest : List Char} {exponent? : Option Exponent}
    (hdigits : ∀ c ∈ digits, Text.isDigit c)
    (hexponent : ∀ exponent ∈ exponent?, exponent.WellFormed)
    (hspelling : digits ++ exponent?.elim [] Exponent.spelling <+: rest) :
    digits ++ exponent?.elim [] Exponent.spelling <+:
      rest.takeWhile Text.isDigit ++
        (Exponent.first? (rest.dropWhile Text.isDigit)).elim [] Exponent.spelling := by
  cases exponent? with
  | none =>
      rw [Option.elim_none, List.append_nil] at hspelling ⊢
      exact (Text.isPrefix_takeWhile hdigits hspelling).trans (List.prefix_append _ _)
  | some exponent =>
      have hform := hexponent exponent rfl
      have hmark := Exponent.isDigit_eq_false_of_isMark hform.mark
      rw [Option.elim_some] at hspelling ⊢
      obtain ⟨hrun, hback⟩ := Text.takeWhile_of_isPrefix hdigits hmark hspelling
      obtain ⟨longest, hfirst, hlongest⟩ := hform.exists_first? hback
      rw [hrun, hfirst]
      exact (List.prefix_append_right_inj digits).mpr hlongest

/-- What is written as a decimal literal is part of the literal that is read. -/
theorem WellFormed.isPrefix_first (hform : literal.WellFormed)
    (hspelling : literal.spelling <+: characters) :
    literal.spelling <+: (first characters).spelling := by
  obtain ⟨whole, fraction?, exponent?⟩ := literal
  obtain ⟨hwhole, hfraction, hexponent⟩ := hform
  rw [spelling_eq] at hspelling ⊢
  cases fraction? with
  | some fraction =>
      dsimp only [Option.elim_some] at hspelling ⊢
      rw [List.cons_append] at hspelling ⊢
      obtain ⟨hrun, hback⟩ := Text.takeWhile_of_isPrefix hwhole rfl hspelling
      obtain ⟨rest, hrest⟩ : ∃ rest, characters.dropWhile Text.isDigit = '.' :: rest := by
        obtain ⟨tail, htail⟩ := hback
        exact ⟨_, htail.symm⟩
      rw [hrest, List.cons_prefix_cons] at hback
      rw [first_of_point hrest, hrun, spelling_eq]
      dsimp only [Option.elim_some]
      rw [List.cons_append]
      refine (List.prefix_append_right_inj whole).mpr (List.cons_prefix_cons.mpr ⟨rfl, ?_⟩)
      exact exponent_isPrefix hfraction hexponent hback.2
  | none =>
      dsimp only [Option.elim_none] at hspelling ⊢
      rw [List.nil_append] at hspelling ⊢
      have hleads := exponent_isPrefix hwhole hexponent hspelling
      by_cases hpoint : (characters.dropWhile Text.isDigit).head? = some '.'
      · -- There is no exponent in front of the point, so all that is written is digits.
        obtain ⟨rest, hrest⟩ := List.head?_eq_some_iff.mp hpoint
        rw [hrest] at hleads
        rw [first_of_point hrest, spelling_eq]
        exact hleads.trans ((List.prefix_append_right_inj _).mpr List.nil_prefix)
      · rw [first_of_no_point rfl hpoint, spelling_eq]
        exact hleads

theorem isLongest_first (characters : List Char) :
    Text.IsLongest Spells characters (first characters).spelling := by
  refine ⟨⟨_, wellFormed_first characters, rfl⟩, spelling_first_isPrefix characters, ?_⟩
  rintro other ⟨literal, hform, rfl⟩ hleads
  exact hform.isPrefix_first hleads

/-! ### The parts of a spelling -/

/-- An exponent begins with its mark, at which digits end and no point stands. -/
theorem head?_exponent {exponent? : Option Exponent}
    (hexponent : ∀ exponent ∈ exponent?, exponent.WellFormed) :
    ∀ c ∈ (exponent?.elim [] Exponent.spelling).head?, Text.isDigit c = false ∧ c ≠ '.' := by
  cases exponent? with
  | none => exact fun c hc => by cases hc
  | some exponent =>
      intro c hc
      obtain rfl := Option.some.inj hc
      have hmark := (hexponent exponent rfl).mark
      refine ⟨Exponent.isDigit_eq_false_of_isMark hmark, fun hpoint => ?_⟩
      rw [hpoint] at hmark
      cases hmark

theorem first?_exponent {exponent? : Option Exponent}
    (hexponent : ∀ exponent ∈ exponent?, exponent.WellFormed) :
    Exponent.first? (exponent?.elim [] Exponent.spelling) = exponent? := by
  cases exponent? with
  | none => rfl
  | some exponent => exact (hexponent exponent rfl).first?_spelling

theorem WellFormed.first_spelling (hform : literal.WellFormed) :
    first literal.spelling = literal := by
  obtain ⟨whole, fraction?, exponent?⟩ := literal
  obtain ⟨hwhole, hfraction, hexponent⟩ := hform
  have hhead : ∀ c ∈ (exponent?.elim [] Exponent.spelling).head?,
      Text.isDigit c = false ∧ c ≠ '.' := head?_exponent hexponent
  have hback : Exponent.first? (exponent?.elim [] Exponent.spelling) = exponent? :=
    first?_exponent hexponent
  have hstop := fun c hc => (hhead c hc).1
  rw [spelling_eq]
  cases fraction? with
  | some fraction =>
      have hpoint : ∀ c ∈ ('.' :: (fraction ++ exponent?.elim [] Exponent.spelling)).head?,
          Text.isDigit c = false := by
        intro c hc
        obtain rfl := Option.some.inj hc
        rfl
      obtain ⟨htake, hdrop⟩ := Text.run_append hwhole hpoint
      have hdigits : ∀ c ∈ fraction, Text.isDigit c := hfraction
      obtain ⟨hfractionTake, hfractionDrop⟩ := Text.run_append hdigits hstop
      dsimp only [Option.elim_some]
      rw [List.cons_append, first_of_point hdrop, htake, hfractionTake, hfractionDrop, hback]
  | none =>
      obtain ⟨htake, hdrop⟩ := Text.run_append hwhole hstop
      dsimp only [Option.elim_none]
      rw [List.nil_append, first_of_no_point hdrop fun hpoint => (hhead '.' hpoint).2 rfl, htake,
        hback]

theorem WellFormed.eq_of_spelling_eq {other : DecimalLiteral} (hform : literal.WellFormed)
    (hother : other.WellFormed) (hspelling : other.spelling = literal.spelling) :
    other = literal := by
  rw [← hform.first_spelling, ← hother.first_spelling, hspelling]

/-! ### Where a literal begins -/

/-- The text begins with a digit, which is not the zero in front of a hexadecimal mark, or with a
point in front of a digit. -/
inductive Begins : List Char → Prop
  | digit {c : Char} {rest : List Char} (hdigit : Text.isDigit c)
      (hmark : c = '0' → ∀ mark ∈ rest.head?, HexLiteral.isMark mark = false) : Begins (c :: rest)
  | point {c : Char} {rest : List Char} (hdigit : Text.isDigit c) : Begins ('.' :: c :: rest)

theorem whole_first (characters : List Char) :
    (first characters).whole = characters.takeWhile Text.isDigit := by
  unfold first
  split <;> rfl

theorem Begins.digits_first_ne_nil (hbegins : Begins characters) :
    (first characters).digits ≠ [] := by
  cases hbegins with
  | digit hdigit _ =>
      rw [digits, whole_first, List.takeWhile_cons_of_pos hdigit]
      exact List.cons_ne_nil _ _
  | point hdigit =>
      rw [first_of_point rfl, digits, fractionDigits, Option.getD_some,
        List.takeWhile_cons_of_pos hdigit]
      exact List.append_ne_nil_of_right_ne_nil _ (List.cons_ne_nil _ _)

theorem Begins.beginsNumber (hbegins : Begins characters) : Lexeme.beginsNumber characters := by
  cases hbegins with
  | digit hdigit _ =>
      unfold Lexeme.beginsNumber
      split
      · rename_i heq
        rw [(List.cons.inj heq).1] at hdigit
        cases hdigit
      · rename_i heq
        rwa [← (List.cons.inj heq).1]
      · contradiction
  | point hdigit => exact hdigit

theorem Begins.hexLiteral_first? (hbegins : Begins characters) :
    HexLiteral.first? characters = none := by
  rw [HexLiteral.first?_eq_none_iff]
  rintro mark back rfl
  cases hbegins with
  | digit _ hmark => exact hmark rfl mark rfl

theorem Begins.number? (hbegins : Begins characters) :
    Lexeme.number? characters = some (first characters).lexeme := by
  rw [Lexeme.number?, if_pos hbegins.beginsNumber, hbegins.hexLiteral_first?]

/-- A numeric lexeme without the flag of the other notation is a decimal literal. -/
theorem eq_lexeme_first_of_number? {lexeme : Lexeme}
    (hnumber : Lexeme.number? characters = some lexeme)
    (hdecimal : lexeme.flags.hexadecimal = false) :
    lexeme = (first characters).lexeme := by
  unfold Lexeme.number? at hnumber
  split_ifs at hnumber
  split at hnumber
  · obtain rfl := Option.some.inj hnumber
    cases hdecimal
  · exact (Option.some.inj hnumber).symm

end DecimalLiteral

end FormulaScript
