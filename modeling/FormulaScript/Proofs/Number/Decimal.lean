import FormulaScript.Proofs.Number.Nearest

/-!
# Reading a decimal

A decimal is read as the number that is nearest to it. Beyond a power of ten on either side the power
does not matter any more: what is large is read as infinity, and what is small as zero.
-/

namespace FormulaScript.Number.Magnitude

/-- Infinity stands at the power of two past the finite values. -/
theorem units_infinity : infinity.units = 2 ^ 1024 * 2 ^ scaleBits := by
  have hgrid : OnGrid infinityRank 2045 (2 * leadingBit) :=
    ⟨by decide, .inr (by decide), Nat.le_refl _⟩
  rw [units, infinity, hgrid.unitsAt_eq]
  decide +kernel

theorem isNearest_infinity_of_le {value : ℚ} (hvalue : 2 ^ 1024 ≤ value) :
    infinity.IsNearest value := by
  have hpos : (0 : ℚ) < 2 ^ scaleBits := pow_pos two_pos scaleBits
  have hunits : (unitsAt infinityRank : ℚ) = 2 ^ 1024 * 2 ^ scaleBits := by
    rw [show unitsAt infinityRank = _ from units_infinity, Nat.cast_mul, Nat.cast_pow,
      Nat.cast_pow, Nat.cast_ofNat]
  have hscaled : (unitsAt infinityRank : ℚ) ≤ value * 2 ^ scaleBits := by
    rw [hunits]
    exact mul_le_mul_of_nonneg_right hvalue hpos.le
  have hnearest := isNearest_infinity hscaled
  rwa [mul_div_cancel_right₀ _ hpos.ne'] at hnearest

/-- What is less than half a unit is rounded to zero. -/
theorem isNearest_zero {value : ℚ} (hnonneg : 0 ≤ value) (hvalue : 2 * (value * 2 ^ scaleBits) < 1) :
    zero.IsNearest value := by
  have hpos : (0 : ℚ) < 2 ^ scaleBits := pow_pos two_pos scaleBits
  have hscaled : 0 ≤ value * 2 ^ scaleBits := mul_nonneg hnonneg hpos.le
  have hzero : (zero.units : ℚ) = 0 := by
    have hnat : zero.units = 0 := by decide
    exact_mod_cast hnat
  have hnearest : zero.IsNearest (value * 2 ^ scaleBits / 2 ^ scaleBits) := by
    apply isNearest_of_units
    · intro other
      rw [hzero, sub_zero, abs_of_nonneg hscaled]
      by_cases hother : other = zero
      · rw [hother, hzero, sub_zero, abs_of_nonneg hscaled]
      · have hone : (1 : ℚ) ≤ other.units := by
          have hrank : 0 < other.rank := by
            apply Nat.pos_of_ne_zero
            exact fun hrank => hother (eq_of_rank_eq hrank)
          have hlt := unitsAt_strictMono hrank
          exact_mod_cast Nat.succ_le_of_lt (Nat.zero_lt_of_lt hlt)
        rw [abs_of_nonpos (by linarith)]
        linarith
    · exact fun _ _ _ => Even.zero
  rwa [mul_div_cancel_right₀ _ hpos.ne'] at hnearest

/-- Decimals whose power of ten exceeds `maxPower` lie past the finite range. -/
theorem le_of_maxPower_lt {significand power : Nat} (hsignificand : significand ≠ 0)
    (hpower : maxPower < power) : (2 : ℚ) ^ 1024 ≤ significand * 10 ^ power := by
  have hlimit : 2 ^ 1024 ≤ 10 ^ (maxPower + 1) := by decide +kernel
  have hnat : 2 ^ 1024 ≤ significand * 10 ^ power :=
    calc 2 ^ 1024 ≤ 10 ^ (maxPower + 1) := hlimit
      _ ≤ 10 ^ power := Nat.pow_le_pow_right (by decide) hpower
      _ ≤ significand * 10 ^ power := Nat.le_mul_of_pos_left _ (Nat.pos_of_ne_zero hsignificand)
  exact_mod_cast hnat

/-- Decimals that are so small lie under half of the least unit: ten is more than `2 ^ 3`. -/
theorem lt_of_log2_le {significand power : Nat}
    (hpower : significand.log2 + scaleBits + 2 ≤ 3 * power) :
    2 * (significand * ((10 : ℚ) ^ power)⁻¹ * 2 ^ scaleBits) < 1 := by
  have hpos : (0 : ℚ) < 10 ^ power := by positivity
  have hnat : 2 * (significand * 2 ^ scaleBits) < 10 ^ power :=
    calc 2 * (significand * 2 ^ scaleBits)
        < 2 * (2 ^ (significand.log2 + 1) * 2 ^ scaleBits) := by
          have := Nat.mul_lt_mul_of_pos_right (Nat.lt_log2_self (n := significand))
            (Nat.two_pow_pos scaleBits)
          omega
      _ = 2 ^ (significand.log2 + scaleBits + 2) := by ring
      _ ≤ 2 ^ (3 * power) := Nat.pow_le_pow_right (by decide) hpower
      _ = 8 ^ power := Nat.pow_mul 2 3 power
      _ ≤ 10 ^ power := Nat.pow_le_pow_left (by decide) power
  have hrat : (2 * (significand * 2 ^ scaleBits) : ℚ) < 10 ^ power := by exact_mod_cast hnat
  calc 2 * (significand * ((10 : ℚ) ^ power)⁻¹ * 2 ^ scaleBits)
      = 2 * (significand * 2 ^ scaleBits) * (10 ^ power)⁻¹ := by ring
    _ < 10 ^ power * (10 ^ power)⁻¹ := mul_lt_mul_of_pos_right hrat (inv_pos.mpr hpos)
    _ = 1 := mul_inv_cancel₀ hpos.ne'

theorem cast_mul_inv_pow (significand power : Nat) :
    (significand : ℚ) * (10 ^ power)⁻¹ =
      (significand <<< scaleBits : Nat) / (10 ^ power : Nat) / 2 ^ scaleBits := by
  have hscale : (2 : ℚ) ^ scaleBits ≠ 0 := pow_ne_zero scaleBits two_ne_zero
  rw [Nat.shiftLeft_eq]
  push_cast
  field_simp

/-- **Reading a decimal.** A decimal is read as the magnitude that is nearest to it. -/
theorem isNearest_ofDecimal (significand : Nat) (power : Int) :
    (ofDecimal significand power).IsNearest (significand * 10 ^ power) := by
  unfold ofDecimal
  split_ifs with hzero
  · rw [hzero, Nat.cast_zero, zero_mul]
    exact isNearest_zero le_rfl (by simp)
  · cases power with
    | ofNat power =>
        rw [Int.ofNat_eq_natCast, zpow_natCast]
        dsimp only
        split_ifs with hlarge
        · exact isNearest_infinity_of_le (le_of_maxPower_lt hzero hlarge)
        · have hvalue : (significand : ℚ) * 10 ^ power = (significand * 10 ^ power : Nat) := by
            rw [Nat.cast_mul, Nat.cast_pow, Nat.cast_ofNat]
          rw [hvalue]
          exact isNearest_ofNat _
    | negSucc power =>
        rw [zpow_negSucc]
        dsimp only
        split_ifs with hsmall
        · exact isNearest_zero (by positivity) (lt_of_log2_le hsmall)
        · rw [cast_mul_inv_pow]
          exact isNearest_nearest _ (Nat.pow_pos (by decide))

/-! ### Powers beyond the range -/

theorem ofDecimal_of_large (significand : Nat) {power : Int} (hpower : maxPower < power) :
    ofDecimal significand power = if significand = 0 then zero else infinity := by
  unfold ofDecimal
  cases power with
  | ofNat power =>
      have hlarge : maxPower < power := Int.ofNat_lt.mp hpower
      dsimp only
      rw [if_pos hlarge]
  | negSucc power => omega

theorem ofDecimal_of_small {significand : Nat} {power : Int} (hnegative : power < 0)
    (hpower : (significand.log2 + scaleBits + 2 : Nat) ≤ 3 * -power) :
    ofDecimal significand power = zero := by
  unfold ofDecimal
  cases power with
  | ofNat power => exact absurd hnegative (Int.natCast_nonneg power).not_gt
  | negSucc power =>
      have hsmall : significand.log2 + scaleBits + 2 ≤ 3 * (power + 1) := by omega
      dsimp only
      rw [if_pos hsmall, ite_self]

end FormulaScript.Number.Magnitude
