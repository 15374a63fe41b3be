import FormulaScript.Proofs.Checked.Lexeme
import FormulaScript.Proofs.Lexeme.Decimal
import FormulaScript.Proofs.Lexeme.DecimalValue
import FormulaScript.Proofs.Lexeme.Hex

/-!
# Reading a number character by character

A number can be read by a machine that sees one character at a time and keeps what it has seen in
words. Over each part of a literal the machine does one and the same thing, so a run over a part is
told by the part, and the machine stops at the first character behind the longest literal.
-/

namespace FormulaScript

open Checked

namespace DecimalLiteral

/-! ### One character -/

/-- Where in a literal the machine is. -/
inductive Part where
  | whole
  | fraction
  | exponent
deriving DecidableEq, Repr

/-- What the machine has seen of a literal. -/
structure Reading where
  part : Part := .whole
  digits : List Char := []
  fractionLength : Nat := 0
  exponent : Nat := 0
  exponentLength : Nat := 0
  negative : Bool := false
  pointed : Bool := false
  scientific : Bool := false
deriving DecidableEq, Repr

namespace Reading

def stepDigit (reading : Reading) (c : Char) : Except Fault Reading :=
  match reading.part with
  | .whole => .ok { reading with digits := reading.digits ++ [c] }
  | .fraction => do
      let fractionLength ← natInt32 (reading.fractionLength + 1)
      .ok { reading with digits := reading.digits ++ [c], fractionLength := fractionLength }
  | .exponent => do
      let exponentLength ← uint32 ((reading.exponentLength : Int) + 1)
      .ok
        { reading with
          exponent := Text.capDigit 10 Exponent.limit reading.exponent c
          exponentLength := exponentLength }

/-- Takes in a character, `none` where the literal ends in front of it. A sign belongs to the exponent
only in front of all of its digits. -/
def step (reading : Reading) (c : Char) : Except Fault (Option Reading) :=
  if c = '.' then
    match reading.part with
    | .whole => .ok (some { reading with part := .fraction, pointed := true })
    | _ => .ok none
  else if Exponent.isMark c then
    match reading.part with
    | .exponent => .ok none
    | _ => .ok (some { reading with part := .exponent, scientific := true })
  else if Text.isDigit c then do
    let next ← reading.stepDigit c
    .ok (some next)
  else if Exponent.isSign c ∧ reading.part = .exponent ∧ reading.exponentLength = 0 then
    .ok (some { reading with negative := reading.negative ^^ c == '-' })
  else .ok none

/-- Takes in all the characters of the literal. -/
def read (reading : Reading) : List Char → Except Fault (Reading × List Char)
  | [] => .ok (reading, [])
  | c :: rest => do
      match ← reading.step c with
      | some next => next.read rest
      | none => .ok (reading, c :: rest)

section

variable {reading next : Reading} {c : Char}

theorem read_of_step (hstep : reading.step c = .ok (some next)) (rest : List Char) :
    reading.read (c :: rest) = next.read rest := by
  rw [read, bind_ok hstep]

theorem read_of_stop (hstep : reading.step c = .ok none) (rest : List Char) :
    reading.read (c :: rest) = .ok (reading, c :: rest) := by
  rw [read, bind_ok hstep]

theorem step_of_isDigit (hdigit : Text.isDigit c) (hnext : reading.stepDigit c = .ok next) :
    reading.step c = .ok (some next) := by
  have hpoint : c ≠ '.' := by
    rintro rfl
    cases hdigit
  have hmark : ¬Exponent.isMark c := by
    intro hmark
    rw [Exponent.isDigit_eq_false_of_isMark hmark] at hdigit
    cases hdigit
  rw [step, if_neg hpoint, if_neg hmark, if_pos hdigit, bind_ok hnext]

theorem step_of_isMark (hmark : Exponent.isMark c) (hpart : reading.part ≠ .exponent) :
    reading.step c = .ok (some { reading with part := .exponent, scientific := true }) := by
  have hpoint : c ≠ '.' := by
    rintro rfl
    cases hmark
  rw [step, if_neg hpoint, if_pos hmark]
  cases hpart' : reading.part with
  | exponent => exact absurd hpart' hpart
  | whole | fraction => rfl

theorem step_of_isSign (hsign : Exponent.isSign c) (hpart : reading.part = .exponent)
    (hlength : reading.exponentLength = 0) :
    reading.step c = .ok (some { reading with negative := reading.negative ^^ c == '-' }) := by
  have hcases : c = '+' ∨ c = '-' := by simpa [Exponent.isSign] using hsign
  have hclass : c ≠ '.' ∧ ¬Exponent.isMark c ∧ ¬Text.isDigit c := by
    rcases hcases with rfl | rfl <;> decide
  rw [step, if_neg hclass.1, if_neg hclass.2.1, if_neg hclass.2.2, if_pos ⟨hsign, hpart, hlength⟩]

theorem step_of_other (hdigit : Text.isDigit c = false) (hpoint : reading.part = .whole → c ≠ '.')
    (hmark : reading.part ≠ .exponent → Exponent.isMark c = false)
    (hsign : reading.part = .exponent → reading.exponentLength = 0 → Exponent.isSign c = false) :
    reading.step c = .ok none := by
  unfold step
  split_ifs with hc hc' hc'' hc'''
  · cases hpart : reading.part with
    | whole => exact absurd hc (hpoint hpart)
    | fraction | exponent => rfl
  · cases hpart : reading.part with
    | exponent => rfl
    | whole | fraction =>
        rw [hmark (by rw [hpart]; exact Part.noConfusion)] at hc'
        cases hc'
  · rw [hdigit] at hc''
    cases hc''
  · rw [hsign hc'''.2.1 hc'''.2.2] at hc'''
    cases hc'''.1
  · rfl

end

/-! ### The parts of a literal -/

section

variable {reading : Reading} {run : List Char}

/-- A run is taken in character by character, if this is so at each of its characters. -/
theorem read_run (after : List Char → Reading) (hnil : after [] = reading)
    (hstep : ∀ front c, front ++ [c] <+: run →
      (after front).step c = .ok (some (after (front ++ [c]))))
    (rest : List Char) : reading.read (run ++ rest) = (after run).read rest := by
  induction run using List.reverseRecOn generalizing rest with
  | nil => rw [hnil, List.nil_append]
  | append_singleton run c ih =>
      have hfront (front : List Char) (c' : Char) (hleads : front ++ [c'] <+: run) :=
        hstep front c' (hleads.trans (List.prefix_append run [c]))
      rw [List.append_assoc, List.singleton_append, ih hfront,
        read_of_step (hstep run c List.prefix_rfl)]

theorem mem_of_concat_isPrefix {front : List Char} {c : Char} (hleads : front ++ [c] <+: run) :
    c ∈ run :=
  hleads.subset (List.mem_append_right front (List.mem_singleton_self c))

theorem length_lt_of_concat_isPrefix {front : List Char} {c : Char}
    (hleads : front ++ [c] <+: run) : front.length < run.length := by
  have hlength := hleads.length_le
  rwa [List.length_append, List.length_singleton] at hlength

theorem read_whole (hpart : reading.part = .whole) (hrun : ∀ c ∈ run, Text.isDigit c)
    (rest : List Char) :
    reading.read (run ++ rest) =
      Reading.read { reading with digits := reading.digits ++ run } rest := by
  refine read_run (fun front => { reading with digits := reading.digits ++ front }) ?_ ?_ rest
  · rw [List.append_nil]
  · intro front c hleads
    apply step_of_isDigit (hrun c (mem_of_concat_isPrefix hleads))
    rw [stepDigit, hpart, List.append_assoc]

theorem read_fraction (hpart : reading.part = .fraction) (hrun : ∀ c ∈ run, Text.isDigit c)
    (hlength : reading.fractionLength + run.length < 2 ^ 31) (rest : List Char) :
    reading.read (run ++ rest) =
      Reading.read
        { reading with
          digits := reading.digits ++ run
          fractionLength := reading.fractionLength + run.length } rest := by
  refine read_run
    (fun front =>
      { reading with
        digits := reading.digits ++ front
        fractionLength := reading.fractionLength + front.length }) ?_ ?_ rest
  · rw [List.append_nil, List.length_nil, Nat.add_zero]
  · intro front c hleads
    have hlt := length_lt_of_concat_isPrefix hleads
    apply step_of_isDigit (hrun c (mem_of_concat_isPrefix hleads))
    rw [stepDigit, hpart, List.length_append, List.append_assoc]
    exact bind_ok (natInt32_eq_ok (by dsimp only; omega)) _

theorem read_exponent (hpart : reading.part = .exponent) (hrun : ∀ c ∈ run, Text.isDigit c)
    (hlength : reading.exponentLength + run.length < 2 ^ 32) (rest : List Char) :
    reading.read (run ++ rest) =
      Reading.read
        { reading with
          exponent := run.foldl (Text.capDigit 10 Exponent.limit) reading.exponent
          exponentLength := reading.exponentLength + run.length } rest := by
  refine read_run
    (fun front =>
      { reading with
        exponent := front.foldl (Text.capDigit 10 Exponent.limit) reading.exponent
        exponentLength := reading.exponentLength + front.length }) ?_ ?_ rest
  · rw [List.foldl_nil, List.length_nil, Nat.add_zero]
  · intro front c hleads
    have hlt := length_lt_of_concat_isPrefix hleads
    apply step_of_isDigit (hrun c (mem_of_concat_isPrefix hleads))
    rw [stepDigit, hpart, List.length_append, List.foldl_append]
    exact bind_ok (uint32_add_eq_ok (by dsimp only; omega)) _

theorem read_signs (hpart : reading.part = .exponent) (hnone : reading.exponentLength = 0)
    (hrun : ∀ c ∈ run, Exponent.isSign c) (rest : List Char) :
    reading.read (run ++ rest) =
      Reading.read
        { reading with negative := reading.negative ^^ run.count '-' % 2 == 1 } rest := by
  refine read_run
    (fun front => { reading with negative := reading.negative ^^ front.count '-' % 2 == 1 })
    ?_ ?_ rest
  · have hnone : (List.count '-' [] % 2 == 1) = false := rfl
    rw [hnone, Bool.xor_false]
  · intro front c hleads
    have hsign := hrun c (mem_of_concat_isPrefix hleads)
    refine (step_of_isSign hsign (by exact hpart) (by exact hnone)).trans ?_
    have hparity : (front.count '-' % 2 == 1 ^^ c == '-') =
        ((front ++ [c]).count '-' % 2 == 1) := by
      rw [List.count_append, List.count_singleton]
      by_cases hminus : c = '-'
      · rw [hminus]
        rcases Nat.mod_two_eq_zero_or_one (front.count '-') with hmod | hmod <;>
          simp [Nat.add_mod, hmod]
      · simp [beq_false_of_ne hminus]
    rw [← hparity, Bool.xor_assoc]

end

/-! ### All of a literal -/

/-- What has been seen of a literal in front of its exponent. -/
def ofMantissa (whole : List Char) : Option (List Char) → Reading
  | none => { digits := whole }
  | some fraction =>
      { part := .fraction
        digits := whole ++ fraction
        fractionLength := fraction.length
        pointed := true }

def withExponent (reading : Reading) (exponent : Exponent) : Reading :=
  { reading with
    part := .exponent
    exponent := exponent.magnitude
    exponentLength := exponent.digits.length
    negative := exponent.isNegative
    scientific := true }

def ofLiteral (literal : DecimalLiteral) : Reading :=
  literal.exponent?.elim (ofMantissa literal.whole literal.fraction?)
    (ofMantissa literal.whole literal.fraction?).withExponent

/-- No exponent has been seen. -/
structure Fresh (reading : Reading) : Prop where
  part : reading.part ≠ .exponent
  exponent : reading.exponent = 0
  exponentLength : reading.exponentLength = 0
  negative : reading.negative = false

theorem fresh_ofMantissa (whole : List Char) (fraction? : Option (List Char)) :
    (ofMantissa whole fraction?).Fresh := by
  cases fraction? with
  | none => exact ⟨Part.noConfusion, rfl, rfl, rfl⟩
  | some fraction => exact ⟨Part.noConfusion, rfl, rfl, rfl⟩

section

variable {reading : Reading} {rest : List Char}

theorem read_of_head? (hstop : ∀ c ∈ rest.head?, reading.step c = .ok none) :
    reading.read rest = .ok (reading, rest) := by
  cases rest with
  | nil => rfl
  | cons c rest => exact read_of_stop (hstop c rfl) rest

/-- Behind an exponent the machine stops at what is no digit. A sign behind the signs would go on with
an exponent that has no digits yet. -/
theorem read_exponentPart {exponent : Exponent} (hform : exponent.WellFormed)
    (hlength : exponent.digits.length < 2 ^ 32) (hfresh : reading.Fresh)
    (hdigit : ∀ c ∈ rest.head?, Text.isDigit c = false)
    (hsign : exponent.digits = [] → ∀ c ∈ rest.head?, Exponent.isSign c = false) :
    reading.read (exponent.spelling ++ rest) = .ok (reading.withExponent exponent, rest) := by
  let marked : Reading := { reading with part := .exponent, scientific := true }
  let signed : Reading := { marked with negative := exponent.isNegative }
  have hsigns : marked.read (exponent.signs ++ (exponent.digits ++ rest)) =
      signed.read (exponent.digits ++ rest) := by
    have hpart : marked.part = .exponent := rfl
    refine (read_signs hpart hfresh.exponentLength hform.signs _).trans ?_
    rw [show marked.negative = false from hfresh.negative, Bool.false_xor]
    rfl
  have hdigits : signed.read (exponent.digits ++ rest) =
      (reading.withExponent exponent).read rest := by
    have hpart : signed.part = .exponent := rfl
    have hzero : signed.exponent = 0 := hfresh.exponent
    have hnone : signed.exponentLength = 0 := hfresh.exponentLength
    refine (read_exponent hpart hform.digits (by rwa [hnone, Nat.zero_add]) _).trans ?_
    rw [hzero, hnone, Nat.zero_add, ← exponent.magnitude_eq_foldl]
    rfl
  have hreads : reading.read (exponent.spelling ++ rest) =
      (reading.withExponent exponent).read rest := by
    rw [Exponent.spelling, List.cons_append, List.append_assoc,
      read_of_step (step_of_isMark hform.mark hfresh.part)]
    exact hsigns.trans hdigits
  rw [hreads]
  apply read_of_head?
  intro c hc
  apply step_of_other (hdigit c hc) Part.noConfusion fun hpart => absurd rfl hpart
  intro _ hempty
  exact hsign (List.length_eq_zero_iff.mp hempty) c hc

/-- What is read behind the digits is the exponent, if there is one. -/
theorem exists_read_first? (hlength : rest.length < 2 ^ 32) (hfresh : reading.Fresh)
    (hdigit : ∀ c ∈ rest.head?, Text.isDigit c = false)
    (hpoint : reading.part = .whole → rest.head? ≠ some '.') :
    ∃ left, rest = (Exponent.first? rest).elim [] Exponent.spelling ++ left ∧
      reading.read rest =
        .ok ((Exponent.first? rest).elim reading reading.withExponent, left) := by
  cases rest with
  | nil => exact ⟨[], rfl, rfl⟩
  | cons c rest =>
      by_cases hmark : Exponent.isMark c
      · set behind := rest.dropWhile Exponent.isSign
        let exponent : Exponent :=
          ⟨c, rest.takeWhile Exponent.isSign, behind.takeWhile Text.isDigit⟩
        have hfirst : Exponent.first? (c :: rest) = some exponent := if_pos hmark
        have hspelling : c :: rest = exponent.spelling ++ behind.dropWhile Text.isDigit := by
          simp [exponent, Exponent.spelling, behind]
        have hdigits : exponent.digits.length < 2 ^ 32 := by
          have hle := congrArg List.length hspelling
          simp only [Exponent.spelling, List.length_cons, List.length_append] at hle hlength
          omega
        have hsign (hempty : exponent.digits = []) :
            ∀ c ∈ (behind.dropWhile Text.isDigit).head?, Exponent.isSign c = false := by
          have hall : behind.dropWhile Text.isDigit = behind :=
            dropWhile_eq_self_of_head? ((takeWhile_eq_nil_iff_head? behind).mp hempty)
          rw [hall]
          exact Text.head?_dropWhile Exponent.isSign rest
        have hreads := read_exponentPart (Exponent.wellFormed_of_first? hfirst) hdigits hfresh
          (Text.head?_dropWhile Text.isDigit behind) hsign
        rw [← hspelling] at hreads
        exact ⟨_, by rw [hfirst]; exact hspelling, by rw [hfirst]; exact hreads⟩
      · have hfirst : Exponent.first? (c :: rest) = none := if_neg hmark
        have hstep : reading.step c = .ok none := by
          apply step_of_other (hdigit c rfl)
          · exact fun hwhole hc => hpoint hwhole (congrArg some hc)
          · exact fun _ => Bool.not_eq_true _ ▸ hmark
          · exact fun hexponent => absurd hexponent hfresh.part
        rw [hfirst]
        exact ⟨c :: rest, rfl, read_of_stop hstep rest⟩

end

/-- A point is taken in once, and then the digits behind it. -/
theorem read_point {rest : List Char} (whole : List Char) (hlength : rest.length < 2 ^ 31) :
    (ofMantissa whole none).read ('.' :: rest) =
      (ofMantissa whole (some (rest.takeWhile Text.isDigit))).read
        (rest.dropWhile Text.isDigit) := by
  let pointed : Reading := { part := .fraction, digits := whole, pointed := true }
  have hpoint : (ofMantissa whole none).step '.' = .ok (some pointed) := rfl
  have hpart : pointed.part = .fraction := rfl
  have hrun : ∀ c ∈ rest.takeWhile Text.isDigit, Text.isDigit c := fun c hc =>
    List.mem_takeWhile_imp hc
  have hle := (List.takeWhile_prefix Text.isDigit (l := rest)).length_le
  have hnone : pointed.fractionLength = 0 := rfl
  have hfraction := read_fraction hpart hrun (by omega) (rest.dropWhile Text.isDigit)
  rw [List.takeWhile_append_dropWhile, hnone, Nat.zero_add] at hfraction
  rw [read_of_step hpoint]
  exact hfraction

/-- **One pass.** The machine stops behind the longest literal, and it has then seen what belongs to
each part of it. -/
theorem exists_read_first {characters : List Char} (hlength : characters.length < 2 ^ 31) :
    ∃ left, characters = (first characters).spelling ++ left ∧
      ({} : Reading).read characters = .ok (ofLiteral (first characters), left) := by
  set whole := characters.takeWhile Text.isDigit with hwhole
  set behind := characters.dropWhile Text.isDigit with hbehind
  have hcharacters : characters = whole ++ behind := by
    rw [hwhole, hbehind, List.takeWhile_append_dropWhile]
  have hreads : ({} : Reading).read characters = (ofMantissa whole none).read behind := by
    have hrun := read_whole (rfl : ({} : Reading).part = .whole)
      (fun c hc => List.mem_takeWhile_imp hc : ∀ c ∈ whole, Text.isDigit c) behind
    rwa [← hcharacters] at hrun
  have hbehindLength : behind.length < 2 ^ 31 := by
    rw [hcharacters, List.length_append] at hlength
    omega
  by_cases hpoint : behind.head? = some '.'
  · obtain ⟨rest, hrest⟩ := List.head?_eq_some_iff.mp hpoint
    rw [hrest, List.length_cons] at hbehindLength
    set fraction := rest.takeWhile Text.isDigit with hfraction
    set tail := rest.dropWhile Text.isDigit with htail
    have hsplit : rest = fraction ++ tail := by
      rw [hfraction, htail, List.takeWhile_append_dropWhile]
    have htailLength : tail.length < 2 ^ 32 := by
      rw [hsplit, List.length_append] at hbehindLength
      omega
    obtain ⟨left, hleft, hread⟩ := exists_read_first? htailLength
      (fresh_ofMantissa whole (some fraction)) (Text.head?_dropWhile Text.isDigit rest)
      Part.noConfusion
    have hfirst : first characters = ⟨whole, some fraction, Exponent.first? tail⟩ :=
      first_of_point hrest
    refine ⟨left, ?_, ?_⟩
    · have hspelling : (first characters).spelling ++ left = whole ++ '.' ::
          (fraction ++ ((Exponent.first? tail).elim [] Exponent.spelling ++ left)) := by
        rw [hfirst]
        simp [spelling]
      rw [hspelling, ← hleft, ← hsplit, ← hrest, ← hcharacters]
    · rw [hreads, hrest, read_point whole (by omega), hread, hfirst]
      rfl
  · have hwider : behind.length < 2 ^ 32 := by omega
    obtain ⟨left, hleft, hread⟩ := exists_read_first? hwider (fresh_ofMantissa whole none)
      (Text.head?_dropWhile Text.isDigit characters) fun _ => hpoint
    have hfirst : first characters = ⟨whole, none, Exponent.first? behind⟩ :=
      first_of_no_point rfl hpoint
    refine ⟨left, ?_, ?_⟩
    · have hspelling : (first characters).spelling ++ left =
          whole ++ ((Exponent.first? behind).elim [] Exponent.spelling ++ left) := by
        rw [hfirst]
        simp [spelling]
      rw [hspelling, ← hleft, ← hcharacters]
    · rw [hreads, hread, hfirst]
      rfl

end Reading

/-! ### The number that is handed on -/

/-- The nearest value that a signed word has. -/
def saturate (value : Int) : Int :=
  max (-2 ^ 31) (min value (2 ^ 31 - 1))

/-- An integer in three steps, each of which has to fit. -/
def integerInSteps? (digits : List Char) (power : Nat) : Option Nat := do
  let significand ← Text.fit? maxInteger (Text.digitsValue 10 digits)
  let scale ← Text.fit? maxInteger (10 ^ power)
  Text.fit? maxInteger (significand * scale)

def numberInSteps (digits : List Char) (fractionLength : Nat) (exponent : Int) (pointed : Bool) :
    Number :=
  let integer? :=
    if pointed = false ∧ 0 ≤ exponent then integerInSteps? digits exponent.toNat else none
  let scale := saturate (exponent - fractionLength)
  integer?.elim (.float (.signed false (.ofDecimal (Text.digitsValue 10 digits) scale)))
    fun value => .integer value

theorem integerInSteps?_eq (digits : List Char) (power : Nat) :
    integerInSteps? digits power =
      if power ≤ maxIntegerPower then
        Text.fit? maxInteger (Text.digitsValue 10 digits * 10 ^ power)
      else none := by
  have hle : Text.digitsValue 10 digits ≤ Text.digitsValue 10 digits * 10 ^ power :=
    Nat.le_mul_of_pos_right _ (Nat.pow_pos (by decide))
  have hpower : 10 ^ power ≤ maxInteger ↔ power ≤ maxIntegerPower := pow_le_maxInteger_iff
  unfold integerInSteps? Text.fit?
  grind

theorem integer?_eq_inSteps (digits : List Char) (exponent : Int) (pointed : Bool) :
    integer? (Text.digitsValue 10 digits) exponent pointed =
      if pointed = false ∧ 0 ≤ exponent then integerInSteps? digits exponent.toNat else none := by
  rw [integer?, integerInSteps?_eq]
  by_cases hinteger : pointed = false ∧ 0 ≤ exponent
  · have hpower : exponent ≤ maxIntegerPower ↔ exponent.toNat ≤ maxIntegerPower :=
      Int.toNat_le.symm
    simp only [hinteger, true_and, and_self, if_true, hpower]
    rfl
  · rw [if_neg hinteger, if_neg fun hall => hinteger ⟨hall.1, hall.2.1⟩]

theorem numberInSteps_eq {exponent : Int} (hexponent : exponent ≤ Exponent.limit)
    (digits : List Char) (fractionLength : Nat) (pointed : Bool) :
    numberInSteps digits fractionLength exponent pointed =
      numberOf digits fractionLength exponent pointed := by
  have hlimit : (Exponent.limit : Int) = 2 ^ 31 - 1 := rfl
  have hscale : saturate (exponent - fractionLength) = max (exponent - fractionLength) minPower := by
    rw [saturate, minPower]
    omega
  rw [numberInSteps, numberOf, hscale, ← integer?_eq_inSteps]
  cases integer? (Text.digitsValue 10 digits) exponent pointed with
  | some value => rfl
  | none => rfl

namespace Reading

def signedExponent (reading : Reading) : Except Fault Int :=
  if reading.negative then int32 (-reading.exponent) else .ok reading.exponent

def number (reading : Reading) : Except Fault Number := do
  let exponent ← reading.signedExponent
  .ok (numberInSteps reading.digits reading.fractionLength exponent reading.pointed)

/-- What the machine has seen of a literal. -/
structure Sees (literal : DecimalLiteral) (reading : Reading) : Prop where
  digits : reading.digits = literal.digits
  fractionLength : reading.fractionLength = literal.fractionDigits.length
  pointed : reading.pointed = literal.fraction?.isSome
  scientific : reading.scientific = literal.exponent?.isSome
  exponent :
    reading.exponent =
      min (Text.digitsValue 10 (literal.exponent?.elim [] Exponent.digits)) (2 ^ 31 - 1)
  negative : reading.negative ↔ Odd ((literal.exponent?.elim [] Exponent.signs).count '-')
  signedExponent :
    reading.signedExponent =
      .ok (if reading.negative then -reading.exponent else reading.exponent)

variable (literal : DecimalLiteral)

theorem signedExponent_eq_ok {reading : Reading} (hle : reading.exponent ≤ Exponent.limit) :
    reading.signedExponent =
      .ok (if reading.negative then -reading.exponent else reading.exponent) := by
  have hlimit : Exponent.limit = 2 ^ 31 - 1 := rfl
  rw [signedExponent]
  split_ifs
  · exact int32_eq_ok (by omega) (by omega)
  · rfl

theorem exponent_ofLiteral_le : (ofLiteral literal).exponent ≤ Exponent.limit := by
  obtain ⟨whole, fraction?, exponent?⟩ := literal
  cases exponent? with
  | none => cases fraction? <;> exact Nat.zero_le _
  | some exponent => exact exponent.magnitude_le

theorem sees_ofLiteral : (ofLiteral literal).Sees literal := by
  have hsigned := signedExponent_eq_ok (exponent_ofLiteral_le literal)
  obtain ⟨whole, fraction?, exponent?⟩ := literal
  have hmantissa : (ofMantissa whole fraction?).digits = whole ++ fraction?.getD [] ∧
      (ofMantissa whole fraction?).fractionLength = (fraction?.getD []).length ∧
      (ofMantissa whole fraction?).pointed = fraction?.isSome := by
    cases fraction? with
    | none => exact ⟨(List.append_nil whole).symm, rfl, rfl⟩
    | some fraction => exact ⟨rfl, rfl, rfl⟩
  obtain ⟨hdigits, hfraction, hpointed⟩ := hmantissa
  cases exponent? with
  | none =>
      refine ⟨hdigits, hfraction, hpointed, ?_, ?_, ?_, hsigned⟩
      · cases fraction? <;> rfl
      · cases fraction? <;> rfl
      · cases fraction? <;> simp [ofLiteral, ofMantissa]
  | some exponent =>
      exact ⟨hdigits, hfraction, hpointed, rfl, exponent.magnitude_eq, exponent.isNegative_iff,
        hsigned⟩

theorem signedExponent_ofLiteral :
    (ofLiteral literal).signedExponent = .ok literal.exponent := by
  rw [(sees_ofLiteral literal).signedExponent]
  obtain ⟨whole, fraction?, exponent?⟩ := literal
  cases exponent? with
  | none => cases fraction? <;> rfl
  | some exponent => rfl

/-- The number is the one of the literal. -/
theorem number_ofLiteral : (ofLiteral literal).number = .ok literal.number := by
  have hsees := sees_ofLiteral literal
  have hlimit : literal.exponent ≤ Exponent.limit := by
    rw [exponent_eq, Exponent.clamp]
    omega
  rw [number, bind_ok (signedExponent_ofLiteral literal), numberInSteps_eq hlimit, hsees.digits,
    hsees.fractionLength, hsees.pointed]
  rfl

end Reading

end DecimalLiteral

/-! ### Hexadecimal literals -/

namespace HexLiteral

/-- What is kept of the digits that have been read: their number while it fits, and the number that is
approximated in any case. -/
structure Reading where
  value? : Option Nat := some 0
  approximation : Number.Magnitude := .zero
  anyDigits : Bool := false
deriving DecidableEq, Repr

namespace Reading

def step (reading : Reading) (c : Char) : Reading where
  value? := Text.fitDigit 16 maxInteger reading.value? c
  approximation := (reading.approximation.mulNat 16).addNat (Text.digitValue c)
  anyDigits := true

def read (reading : Reading) : List Char → Reading × List Char
  | [] => (reading, [])
  | c :: rest => if Text.isHexDigit c then (reading.step c).read rest else (reading, c :: rest)

theorem read_eq (reading : Reading) (characters : List Char) :
    reading.read characters =
      ((characters.takeWhile Text.isHexDigit).foldl step reading,
        characters.dropWhile Text.isHexDigit) := by
  induction characters generalizing reading with
  | nil => rfl
  | cons c rest ih =>
      rw [read]
      by_cases hdigit : Text.isHexDigit c
      · rw [if_pos hdigit, ih, List.takeWhile_cons_of_pos hdigit, List.dropWhile_cons_of_pos hdigit,
          List.foldl_cons]
      · rw [if_neg hdigit, List.takeWhile_cons_of_neg hdigit, List.dropWhile_cons_of_neg hdigit,
          List.foldl_nil]

theorem foldl_step (digits : List Char) :
    digits.foldl step {} =
      { value? := Text.fit? maxInteger (Text.digitsValue 16 digits)
        approximation := approximate digits
        anyDigits := !digits.isEmpty } := by
  rw [← Text.foldl_fitDigit (by decide)]
  induction digits using List.reverseRecOn with
  | nil => rfl
  | append_singleton digits c ih =>
      rw [List.foldl_concat, ih, List.foldl_concat, approximate_concat]
      simp [step]

/-- A suffix makes a number long while it fits. -/
def number (reading : Reading) (long : Bool) : Number :=
  match reading.value? with
  | some value => if long then .long value else .integer value
  | none => .float (.signed false reading.approximation)

theorem number_foldl_step (literal : HexLiteral) :
    (literal.digits.foldl step {}).number literal.isLong = literal.number := by
  rw [foldl_step, number, HexLiteral.number, Text.fit?]
  by_cases hfits : Text.digitsValue 16 literal.digits ≤ maxInteger
  · simp [hfits, Nat.not_lt.mpr hfits]
  · simp [hfits, Nat.lt_of_not_le hfits]

/-- **One pass.** What has been read at the first character that is no digit gives the number of the
literal, and that character tells whether there is a suffix. -/
theorem exists_read_first? {characters : List Char} {literal : HexLiteral}
    (hfirst : first? characters = some literal) :
    ∃ reading back, ({} : Reading).read (characters.drop markLength) = (reading, back) ∧
      characters = '0' :: literal.mark :: (literal.digits ++ back) ∧
      literal.suffix? = back.head?.filter isSuffix ∧
      reading.number literal.isLong = literal.number ∧
      (reading.anyDigits ↔ literal.digits ≠ []) := by
  obtain ⟨mark, behind, rfl, hmark⟩ := exists_of_first? hfirst
  rw [first?_zero, if_pos hmark] at hfirst
  obtain rfl := Option.some.inj hfirst
  have hread : ({} : Reading).read (('0' :: mark :: behind).drop markLength) =
      ((behind.takeWhile Text.isHexDigit).foldl step {}, behind.dropWhile Text.isHexDigit) :=
    read_eq {} behind
  refine ⟨_, _, hread, ?_, rfl, number_foldl_step ⟨mark, _, _⟩, ?_⟩
  · exact congrArg ('0' :: mark :: ·) List.takeWhile_append_dropWhile.symm
  · rw [foldl_step]
    simp

end Reading

end HexLiteral

end FormulaScript
