import FormulaScript.Lexeme.Decimal
import FormulaScript.Proofs.Number.Decimal
import FormulaScript.Proofs.Text.Digits

/-!
# What a decimal literal denotes

The exponent of a literal is kept within the limits of a word, and so is the power of ten that is
left when the places after the point are taken off. For literals that are not too long this does not
matter: a power that leaves these limits has left the range of the numbers long before.
-/

namespace FormulaScript

namespace Exponent

/-- The exponent as it is written. -/
def written (exponent : Exponent) : Int :=
  (-1) ^ exponent.signs.count '-' * Text.digitsValue 10 exponent.digits

def clamp (value : Int) : Int :=
  max (-limit) (min value limit)

variable (exponent : Exponent)

theorem magnitude_eq_foldl :
    exponent.magnitude = exponent.digits.foldl (Text.capDigit 10 limit) 0 := by
  have hstep : (fun value digit => min (10 * value + Text.digitValue digit) limit) =
      Text.capDigit 10 limit := by
    funext value digit
    unfold Text.capDigit
    omega
  rw [magnitude, hstep]

theorem magnitude_eq :
    exponent.magnitude = min (Text.digitsValue 10 exponent.digits) limit := by
  rw [magnitude_eq_foldl]
  exact Text.foldl_capDigit (by decide) exponent.digits

theorem isNegative_iff : exponent.isNegative ↔ Odd (exponent.signs.count '-') := by
  rw [isNegative, beq_iff_eq, Nat.odd_iff]

theorem written_eq : exponent.written =
    if exponent.isNegative then -(Text.digitsValue 10 exponent.digits : Int)
    else Text.digitsValue 10 exponent.digits := by
  unfold written
  by_cases hnegative : exponent.isNegative
  · rw [if_pos hnegative, ((isNegative_iff exponent).mp hnegative).neg_one_pow, neg_one_mul]
  · have heven := Nat.not_odd_iff_even.mp (mt (isNegative_iff exponent).mpr hnegative)
    rw [if_neg hnegative, heven.neg_one_pow, one_mul]

theorem value_eq : exponent.value = clamp exponent.written := by
  rw [value, written_eq, magnitude_eq, clamp]
  split_ifs <;> omega

end Exponent

namespace DecimalLiteral

/-- All the digits before the exponent, read as one number. -/
def significand (literal : DecimalLiteral) : Nat :=
  Text.digitsValue 10 literal.digits

def writtenExponent (literal : DecimalLiteral) : Int :=
  literal.exponent?.elim 0 Exponent.written

variable (literal : DecimalLiteral)

theorem exponent_eq : literal.exponent = Exponent.clamp literal.writtenExponent := by
  rw [exponent, writtenExponent]
  cases literal.exponent? with
  | none => rfl
  | some exponent => exact exponent.value_eq

theorem number_eq : literal.number =
    match integer? literal.significand literal.exponent literal.fraction?.isSome with
    | some value => .integer value
    | none =>
        .float (.signed false (.ofDecimal literal.significand
          (max (literal.exponent - literal.fractionDigits.length) minPower))) := rfl

/-! ### Integers -/

theorem pow_le_maxInteger_iff {power : Nat} :
    10 ^ power ≤ maxInteger ↔ power ≤ maxIntegerPower := by
  constructor
  · intro hle
    by_contra hlarge
    have hpow : 10 ^ 19 ≤ 10 ^ power := Nat.pow_le_pow_right (by decide) (Nat.lt_of_not_le hlarge)
    have hmax : maxInteger < 10 ^ 19 := by decide
    omega
  · intro hle
    calc 10 ^ power ≤ 10 ^ maxIntegerPower := Nat.pow_le_pow_right (by decide) hle
      _ ≤ maxInteger := by decide

/-- Powers of ten that do not fit leave no product that does, except with a zero. -/
theorem le_maxInteger_iff {significand power : Nat} :
    power ≤ maxIntegerPower ∧ significand * 10 ^ power ≤ maxInteger ↔
      significand * 10 ^ power ≤ 2 ^ 63 - 1 ∧ (significand = 0 → power ≤ maxIntegerPower) := by
  have hmax : maxInteger = 2 ^ 63 - 1 := by decide
  rw [← hmax]
  constructor
  · rintro ⟨hpower, hvalue⟩
    exact ⟨hvalue, fun _ => hpower⟩
  · rintro ⟨hvalue, hzero⟩
    refine ⟨?_, hvalue⟩
    by_cases hsignificand : significand = 0
    · exact hzero hsignificand
    · apply pow_le_maxInteger_iff.mp
      have hpos := Nat.pos_of_ne_zero hsignificand
      exact (Nat.le_mul_of_pos_left (10 ^ power) hpos).trans hvalue

/-- Without a point and without a negative exponent. -/
theorem integer?_eq (hexponent : 0 ≤ literal.writtenExponent) :
    integer? literal.significand literal.exponent false =
      if literal.significand * 10 ^ literal.writtenExponent.toNat ≤ 2 ^ 63 - 1 ∧
          (literal.significand = 0 → literal.writtenExponent.toNat ≤ maxIntegerPower) then
        some (literal.significand * 10 ^ literal.writtenExponent.toNat)
      else none := by
  obtain ⟨power, hpower⟩ := Int.eq_ofNat_of_zero_le hexponent
  have hclamp : literal.exponent = (min power Exponent.limit : Nat) := by
    rw [exponent_eq, hpower, Exponent.clamp]
    omega
  rw [hclamp, hpower, Int.toNat_natCast, integer?]
  by_cases hsmall : power ≤ maxIntegerPower
  · have hmin : min power Exponent.limit = power :=
      Nat.min_eq_left (hsmall.trans (by decide))
    rw [hmin, if_pos ⟨rfl, Int.natCast_nonneg power, by exact_mod_cast hsmall⟩, Int.toNat_natCast]
    apply if_congr ?_ rfl rfl
    rw [← le_maxInteger_iff]
    exact ⟨fun hvalue => ⟨hsmall, hvalue⟩, And.right⟩
  · have hlarge : ¬min power Exponent.limit ≤ maxIntegerPower := by
      have hlimit : maxIntegerPower < Exponent.limit := by decide
      omega
    rw [if_neg fun hbounds => hlarge (by exact_mod_cast hbounds.2.2),
      if_neg fun hvalue => hsmall (le_maxInteger_iff.mpr hvalue).1]

/-- The number fits into a word, and so does the power of ten. -/
def FitsInteger (literal : DecimalLiteral) : Prop :=
  literal.significand * 10 ^ literal.writtenExponent.toNat ≤ 2 ^ 63 - 1 ∧
    (literal.significand = 0 → literal.writtenExponent ≤ 18)

theorem number_of_unpointed (hfraction : literal.fraction? = none)
    (hexponent : 0 ≤ literal.writtenExponent) :
    (literal.FitsInteger ∧ literal.number =
        .integer (literal.significand * 10 ^ literal.writtenExponent.toNat : Nat)) ∨
      ¬literal.FitsInteger ∧ ∃ x, literal.number = .float x := by
  have hfits : literal.FitsInteger ↔
      literal.significand * 10 ^ literal.writtenExponent.toNat ≤ 2 ^ 63 - 1 ∧
        (literal.significand = 0 → literal.writtenExponent.toNat ≤ maxIntegerPower) :=
    and_congr_right fun _ => imp_congr_right fun _ => Int.toNat_le.symm
  rw [number_eq, hfraction, Option.isSome_none, integer?_eq literal hexponent]
  by_cases hcase : literal.FitsInteger
  · rw [if_pos (hfits.mp hcase)]
    exact .inl ⟨hcase, rfl⟩
  · rw [if_neg (mt hfits.mpr hcase)]
    exact .inr ⟨hcase, _, rfl⟩

/-! ### Floating-point numbers -/

theorem number_eq_float {x : Number.Binary64} (hnumber : literal.number = .float x) :
    x = .signed false (.ofDecimal literal.significand
      (max (literal.exponent - literal.fractionDigits.length) minPower)) := by
  rw [number_eq] at hnumber
  split at hnumber
  · cases hnumber
  · exact (Number.float.inj hnumber).symm

/-- Digits alone that do not fit. -/
theorem number_of_overflow (hfraction : literal.fraction? = none)
    (hexponent : literal.exponent? = none) (hlarge : 2 ^ 63 - 1 < literal.significand) :
    literal.number = .float (.signed false (.ofDecimal literal.significand 0)) := by
  have hwritten : literal.writtenExponent = 0 := by
    rw [writtenExponent, hexponent]
    rfl
  have hpower : max (literal.exponent - literal.fractionDigits.length) minPower = 0 := by
    rw [exponent, hexponent, fractionDigits, hfraction]
    decide
  rcases number_of_unpointed literal hfraction hwritten.ge with
    ⟨⟨hfits, -⟩, -⟩ | ⟨-, x, hnumber⟩
  · rw [hwritten, Int.toNat_zero, Nat.pow_zero, Nat.mul_one] at hfits
    omega
  · rw [hnumber, literal.number_eq_float hnumber, hpower]

/-- Digits alone that do not fit denote the nearest number. -/
theorem number_eq_float_iff (hfraction : literal.fraction? = none)
    (hexponent : literal.exponent? = none) (hlarge : 2 ^ 63 - 1 < literal.significand)
    (magnitude : Number.Magnitude) :
    literal.number = .float (.signed false magnitude) ↔
      magnitude.IsNearest (literal.significand : Nat) := by
  have hnearest := Number.Magnitude.isNearest_ofDecimal literal.significand 0
  rw [zpow_zero, mul_one] at hnearest
  rw [number_of_overflow literal hfraction hexponent hlarge]
  constructor
  · intro hnumber
    obtain rfl : Number.Magnitude.ofDecimal literal.significand 0 = magnitude := by
      injection hnumber with hsigned
      injection hsigned
    exact hnearest
  · intro hmagnitude
    rw [hnearest.unique hmagnitude]

variable {literal}

theorem log2_significand_le (hdigits : ∀ c ∈ literal.digits, Text.isDigit c) :
    literal.significand.log2 ≤ 4 * literal.digits.length := by
  by_cases hzero : literal.significand = 0
  · rw [hzero, Nat.log2_zero]
    exact Nat.zero_le _
  · have hlt : literal.significand < 10 ^ literal.digits.length :=
      Text.digitsValue_lt fun c hc => Text.digitValue_lt_of_isDigit (hdigits c hc)
    have hpow : literal.significand < 2 ^ (4 * literal.digits.length) :=
      calc literal.significand < 10 ^ literal.digits.length := hlt
        _ ≤ 16 ^ literal.digits.length := Nat.pow_le_pow_left (by decide) _
        _ = 2 ^ (4 * literal.digits.length) := (Nat.pow_mul 2 4 _).symm
    exact Nat.le_of_lt ((Nat.log2_lt hzero).mpr hpow)

/-- The limits make no difference to what is read. -/
theorem ofDecimal_clamped (hdigits : ∀ c ∈ literal.digits, Text.isDigit c)
    (hlength : literal.digits.length < 2 ^ 30) :
    Number.Magnitude.ofDecimal literal.significand
        (max (literal.exponent - literal.fractionDigits.length) minPower) =
      .ofDecimal literal.significand
        (literal.writtenExponent - literal.fractionDigits.length) := by
  have hlog := log2_significand_le hdigits
  have hfraction : literal.fractionDigits.length ≤ literal.digits.length := by
    rw [digits, List.length_append]
    exact Nat.le_add_left _ _
  have hlimit : (Exponent.limit : Int) = 2 ^ 31 - 1 := rfl
  have hlarge : (Number.Magnitude.maxPower : Int) = 310 := rfl
  have hsmall : Number.scaleBits = 1074 := rfl
  rw [exponent_eq, minPower, Exponent.clamp]
  rcases lt_or_ge (Exponent.limit : Int) literal.writtenExponent with hhigh | hhigh
  · rw [Number.Magnitude.ofDecimal_of_large _ (by omega),
      Number.Magnitude.ofDecimal_of_large _ (by omega)]
  · rcases lt_or_ge (literal.writtenExponent - literal.fractionDigits.length)
      (-Exponent.limit : Int) with hlow | hlow
    · rw [Number.Magnitude.ofDecimal_of_small (by omega) (by omega),
        Number.Magnitude.ofDecimal_of_small (by omega) (by omega)]
    · congr 1
      omega

theorem isNearest_number (hdigits : ∀ c ∈ literal.digits, Text.isDigit c)
    (hlength : literal.digits.length < 2 ^ 30) {x : Number.Binary64}
    (hnumber : literal.number = .float x) :
    x.IsNearest (literal.significand *
      10 ^ (literal.writtenExponent - literal.fractionDigits.length)) := by
  rw [literal.number_eq_float hnumber, ofDecimal_clamped hdigits hlength]
  apply Number.Magnitude.IsNearest.signed (by positivity)
  exact Number.Magnitude.isNearest_ofDecimal _ _

end DecimalLiteral

end FormulaScript
