import FormulaScript.Proofs.Number.Decimal

/-!
# Digits past the precision

The numbers from `2 ^ (53 + bits)` on are multiples of `2 ^ (bits + 1)`. So a number that has been
rounded to them can be shifted without loss, and less than half of such a step that is added to it is
lost again. What is lost in this way matters to the nearest number only at a tie.
-/

namespace FormulaScript.Number

namespace Magnitude

variable {value : ℚ} {magnitude other : Magnitude} {bits : Nat}

/-! ### Order -/

theorem toRat_le_iff : magnitude.toRat ≤ other.toRat ↔ magnitude.rank ≤ other.rank := by
  constructor
  · intro hle
    by_contra hlt
    exact absurd hle (toRat_lt (Nat.lt_of_not_le hlt)).not_ge
  · intro hle
    rcases Nat.lt_or_eq_of_le hle with hlt | heq
    · exact (toRat_lt hlt).le
    · rw [eq_of_rank_eq heq]

theorem eq_of_toRat_eq (htoRat : magnitude.toRat = other.toRat) : magnitude = other := by
  by_contra hne
  exact toRat_ne hne htoRat

/-- A magnitude that is nearer than all others. -/
theorem isNearest_of_lt
    (hnearer : ∀ other, other ≠ magnitude → |value - magnitude.toRat| < |value - other.toRat|) :
    magnitude.IsNearest value := by
  constructor
  · intro other
    by_cases hne : other = magnitude
    · rw [hne]
    · exact (hnearer other hne).le
  · intro other hne htie
    exact absurd htie (hnearer other hne).ne

theorem isNearest_toRat (magnitude : Magnitude) : magnitude.IsNearest magnitude.toRat := by
  apply isNearest_of_lt
  intro other hne
  rw [sub_self, abs_zero, abs_pos, sub_ne_zero]
  exact (toRat_ne hne).symm

/-- Rounding does not go past a magnitude. -/
theorem IsNearest.toRat_le (hnearest : magnitude.IsNearest value) (hvalue : value ≤ other.toRat) :
    magnitude.toRat ≤ other.toRat := by
  by_contra hlt
  have hcloser := hnearest.closest other
  rw [abs_of_nonpos (by linarith), abs_of_nonpos (by linarith)] at hcloser
  linarith

theorem IsNearest.le_toRat (hnearest : magnitude.IsNearest value) (hvalue : other.toRat ≤ value) :
    other.toRat ≤ magnitude.toRat := by
  by_contra hlt
  have hcloser := hnearest.closest other
  rw [abs_of_nonneg (by linarith), abs_of_nonneg (by linarith)] at hcloser
  linarith

theorem IsNearest.eq_of_toRat_eq (hnearest : magnitude.IsNearest value)
    (hvalue : other.toRat = value) : magnitude = other :=
  hnearest.unique (hvalue ▸ isNearest_toRat other)

/-! ### Steps between magnitudes -/

theorem toRat_of_onGrid {spare count : Nat} (hgrid : OnGrid magnitude.rank spare count) :
    magnitude.toRat = count * 2 ^ spare / 2 ^ scaleBits := by
  rw [toRat, units, hgrid.unitsAt_eq]
  push_cast
  rfl

/-- A number of up to 53 bits has all of them when it is shifted to the left. -/
theorem normalized_bounds {count : Nat} (hzero : count ≠ 0) (hcount : count < 2 ^ 53) :
    leadingBit ≤ count * 2 ^ (52 - count.log2) ∧
      count * 2 ^ (52 - count.log2) < 2 * leadingBit := by
  have hlog : count.log2 < 53 := (Nat.log2_lt hzero).mpr hcount
  constructor
  · calc leadingBit = 2 ^ count.log2 * 2 ^ (52 - count.log2) := by
          rw [leadingBit_eq, ← Nat.pow_add]
          congr 1
          omega
      _ ≤ count * 2 ^ (52 - count.log2) := Nat.mul_le_mul_right _ (Nat.log2_self_le hzero)
  · calc count * 2 ^ (52 - count.log2)
        < 2 ^ (count.log2 + 1) * 2 ^ (52 - count.log2) :=
          Nat.mul_lt_mul_of_pos_right Nat.lt_log2_self (Nat.two_pow_pos _)
      _ = 2 * leadingBit := by
          rw [leadingBit_eq, ← Nat.pow_add, ← Nat.pow_succ']
          congr 1
          omega

/-- Numbers of up to 53 bits are magnitudes, and so are their multiples by a power of two. -/
theorem exists_toRat_eq {count : Nat} (hcount : count < 2 ^ 53) (bits : Nat) (hbits : bits ≤ 971) :
    ∃ magnitude : Magnitude, magnitude.toRat = count * 2 ^ bits := by
  by_cases hzero : count = 0
  · exact ⟨zero, by rw [toRat_zero, hzero, Nat.cast_zero, zero_mul]⟩
  · have hlog : count.log2 < 53 := (Nat.log2_lt hzero).mpr hcount
    obtain ⟨hlow, hhigh⟩ := normalized_bounds hzero hcount
    obtain ⟨spare, hspare⟩ : ∃ spare, spare = count.log2 + bits + 1022 := ⟨_, rfl⟩
    have hrank : spare * leadingBit + count * 2 ^ (52 - count.log2) ≤ infinityRank := by
      have hle : (spare + 2) * leadingBit ≤ 2047 * leadingBit :=
        Nat.mul_le_mul_right _ (by omega)
      rw [infinityRank]
      rw [Nat.add_mul] at hle
      omega
    have hgrid : OnGrid (spare * leadingBit + count * 2 ^ (52 - count.log2)) spare
        (count * 2 ^ (52 - count.log2)) := ⟨rfl, .inr hlow, hhigh.le⟩
    have hpower : (2 : ℚ) ^ (52 - count.log2) * 2 ^ spare = 2 ^ bits * 2 ^ scaleBits := by
      have hexponent : 52 - count.log2 + spare = bits + scaleBits := by
        rw [scaleBits]
        omega
      rw [← pow_add, ← pow_add, hexponent]
    refine ⟨⟨_, hrank⟩, ?_⟩
    rw [toRat_of_onGrid hgrid, div_eq_iff (pow_pos two_pos scaleBits).ne']
    push_cast
    rw [mul_assoc, hpower, mul_assoc]

theorem IsNearest.toRat_eq {count : Nat} (hnearest : magnitude.IsNearest count)
    (hcount : count < 2 ^ 53) : magnitude.toRat = count := by
  obtain ⟨other, hother⟩ := exists_toRat_eq hcount 0 (Nat.zero_le 971)
  rw [pow_zero, mul_one] at hother
  rw [hnearest.eq_of_toRat_eq hother, hother]

/-- Large magnitudes are multiples of a power of two. -/
theorem exists_multiple (hlarge : 2 ^ (53 + bits) ≤ magnitude.toRat) :
    ∃ count : Nat, magnitude.toRat = count * (2 * 2 ^ bits) := by
  obtain ⟨spare, count, hgrid, hcount⟩ := exists_onGrid magnitude.rank
  have htoRat := toRat_of_onGrid hgrid
  rw [htoRat, le_div_iff₀ (pow_pos two_pos scaleBits)] at hlarge
  have hunits : 2 ^ (53 + bits) * 2 ^ scaleBits ≤ count * 2 ^ spare := by exact_mod_cast hlarge
  have hspare : bits + scaleBits < spare := by
    have hlt : 2 ^ (53 + bits + scaleBits) < 2 ^ (53 + spare) :=
      calc 2 ^ (53 + bits + scaleBits) ≤ count * 2 ^ spare := by rwa [Nat.pow_add]
        _ < 2 * leadingBit * 2 ^ spare :=
          Nat.mul_lt_mul_of_pos_right hcount (Nat.two_pow_pos spare)
        _ = 2 ^ (53 + spare) := by rw [leadingBit_eq, ← Nat.pow_succ', ← Nat.pow_add]
    have := (Nat.pow_lt_pow_iff_right (by decide : 1 < 2)).mp hlt
    omega
  obtain ⟨extra, rfl⟩ := Nat.exists_eq_add_of_lt hspare
  refine ⟨count * 2 ^ extra, ?_⟩
  rw [htoRat, div_eq_iff (pow_pos two_pos scaleBits).ne']
  push_cast
  ring

theorem add_le_of_mul_lt {step : ℚ} (hstep : 0 < step) {count count' : Nat}
    (hlt : count * step < count' * step) : count * step + step ≤ count' * step := by
  have hcount : count < count' := by exact_mod_cast lt_of_mul_lt_mul_right hlt hstep.le
  have hsucc : (count + 1 : ℚ) ≤ count' := by exact_mod_cast hcount
  calc count * step + step = (count + 1) * step := by ring
    _ ≤ count' * step := mul_le_mul_of_nonneg_right hsucc hstep.le

/-- The distance of large magnitudes. -/
theorem toRat_add_le (bits : Nat) (hlarge : 2 ^ (53 + bits) ≤ magnitude.toRat)
    (hlt : magnitude.toRat < other.toRat) :
    magnitude.toRat + 2 * 2 ^ bits ≤ other.toRat := by
  have hstep : (0 : ℚ) < 2 * 2 ^ bits := mul_pos two_pos (pow_pos two_pos bits)
  obtain ⟨count, hcount⟩ := exists_multiple hlarge
  obtain ⟨count', hcount'⟩ := exists_multiple (hlarge.trans hlt.le)
  rw [hcount, hcount'] at hlt ⊢
  exact add_le_of_mul_lt hstep hlt

/-- The distance of a large magnitude from a multiple of half a step. -/
theorem multiple_add_le {count : Nat} (hlarge : 2 ^ 53 ≤ count)
    (hlt : count * 2 ^ bits < magnitude.toRat) :
    count * 2 ^ bits + 2 ^ bits ≤ magnitude.toRat := by
  have hpos : (0 : ℚ) < 2 ^ bits := pow_pos two_pos bits
  have hcast : (2 : ℚ) ^ 53 ≤ count := by exact_mod_cast hlarge
  have hrange : 2 ^ (53 + bits) ≤ magnitude.toRat := by
    rw [pow_add]
    exact (mul_le_mul_of_nonneg_right hcast hpos.le).trans hlt.le
  obtain ⟨steps, hsteps⟩ := exists_multiple hrange
  have heven : (steps : ℚ) * (2 * 2 ^ bits) = (2 * steps : Nat) * 2 ^ bits := by
    push_cast
    ring
  rw [hsteps, heven] at hlt ⊢
  exact add_le_of_mul_lt hpos hlt

/-! ### Shifts -/

/-- The least magnitude that has all the bits of a significand. -/
def leastNormal : Magnitude :=
  ⟨leadingBit, by decide⟩

theorem toRat_leastNormal_le : leastNormal.toRat ≤ 1 := by
  have hgrid : OnGrid leastNormal.rank 0 leadingBit := ⟨by decide, .inl rfl, by decide⟩
  rw [toRat_of_onGrid hgrid, div_le_one (pow_pos two_pos scaleBits), leadingBit_eq]
  have hle : 2 ^ 52 * 2 ^ 0 ≤ 2 ^ scaleBits := by decide +kernel
  exact_mod_cast hle

theorem toRat_infinity : infinity.toRat = 2 ^ 1024 := by
  rw [toRat, units_infinity, div_eq_iff (pow_pos two_pos scaleBits).ne', Nat.cast_mul,
    Nat.cast_pow, Nat.cast_pow, Nat.cast_ofNat]

theorem exists_shifted {magnitude : Magnitude} (hnormal : leadingBit ≤ magnitude.rank) {bits : Nat}
    (hrange : magnitude.rank + bits * leadingBit ≤ infinityRank) :
    ∃ shifted : Magnitude, shifted.rank = magnitude.rank + bits * leadingBit ∧
      shifted.toRat = 2 ^ bits * magnitude.toRat := by
  obtain ⟨spare, count, hgrid, hcount⟩ := exists_onGrid magnitude.rank
  have hle : leadingBit ≤ count := by
    rcases hgrid.le_count with rfl | hle
    · have hrank := hgrid.rank_eq
      omega
    · exact hle
  refine ⟨⟨_, hrange⟩, rfl, ?_⟩
  have hshifted : OnGrid (magnitude.rank + bits * leadingBit) (spare + bits) count := by
    refine ⟨?_, .inr hle, hcount.le⟩
    rw [hgrid.rank_eq]
    ring
  rw [toRat_of_onGrid hgrid, toRat_of_onGrid hshifted, pow_add]
  ring

/-- A magnitude is a shifted one, or it lies below the least one that can be shifted. -/
theorem exists_base_or_lt (other : Magnitude)
    (hrange : leadingBit + bits * leadingBit ≤ infinityRank) :
    (∃ base : Magnitude, other.rank = base.rank + bits * leadingBit ∧
      other.toRat = 2 ^ bits * base.toRat) ∨ other.toRat < 2 ^ bits * leastNormal.toRat := by
  by_cases hother : leadingBit + bits * leadingBit ≤ other.rank
  · have hle := other.rank_le
    let base : Magnitude := ⟨other.rank - bits * leadingBit, by omega⟩
    have hbase : other.rank = base.rank + bits * leadingBit := by
      change other.rank = other.rank - bits * leadingBit + bits * leadingBit
      omega
    have hnormal : leadingBit ≤ base.rank := by
      change leadingBit ≤ other.rank - bits * leadingBit
      omega
    obtain ⟨shifted, hshifted, htoRat⟩ := exists_shifted hnormal (hbase ▸ hle)
    obtain rfl : shifted = other := eq_of_rank_eq (hshifted.trans hbase.symm)
    exact .inl ⟨base, hbase, htoRat⟩
  · obtain ⟨start, hstart, htoRat⟩ := exists_shifted (Nat.le_refl leastNormal.rank) hrange
    right
    rw [← htoRat]
    apply toRat_lt
    rw [hstart]
    exact Nat.lt_of_not_le hother

theorem abs_shift (bits : Nat) (value near : ℚ) :
    |2 ^ bits * value - 2 ^ bits * near| = 2 ^ bits * |value - near| := by
  rw [← mul_sub, abs_mul, abs_of_pos (pow_pos two_pos bits)]

/-- The nearest magnitude may be shifted with the value. -/
theorem IsNearest.shift (hnearest : magnitude.IsNearest value) (hvalue : 1 ≤ value)
    {shifted : Magnitude} (hrank : shifted.rank = magnitude.rank + bits * leadingBit) :
    shifted.IsNearest (2 ^ bits * value) := by
  have hpos : (0 : ℚ) < 2 ^ bits := pow_pos two_pos bits
  have hleast : leastNormal.toRat ≤ value := toRat_leastNormal_le.trans hvalue
  have hnormal : leadingBit ≤ magnitude.rank := toRat_le_iff.mp (hnearest.le_toRat hleast)
  have hrange := hrank ▸ shifted.rank_le
  obtain ⟨target, htarget, htoRat⟩ := exists_shifted hnormal hrange
  obtain rfl : target = shifted := eq_of_rank_eq (htarget.trans hrank.symm)
  -- What cannot be shifted is farther away than the least magnitude that can.
  have hfar (other : Magnitude) (hbelow : other.toRat < 2 ^ bits * leastNormal.toRat) :
      |2 ^ bits * value - target.toRat| < |2 ^ bits * value - other.toRat| := by
    have hstart : 2 ^ bits * leastNormal.toRat ≤ 2 ^ bits * value :=
      mul_le_mul_of_nonneg_left hleast hpos.le
    calc |2 ^ bits * value - target.toRat| ≤ |2 ^ bits * value - 2 ^ bits * leastNormal.toRat| := by
          rw [htoRat, abs_shift, abs_shift]
          exact mul_le_mul_of_nonneg_left (hnearest.closest leastNormal) hpos.le
      _ < |2 ^ bits * value - other.toRat| := by
          rw [abs_of_nonneg (by linarith), abs_of_nonneg (by linarith)]
          linarith
  have hleastRange : leadingBit + bits * leadingBit ≤ infinityRank := by omega
  constructor
  · intro other
    rcases exists_base_or_lt other hleastRange with ⟨base, -, hbase⟩ | hbelow
    · rw [htoRat, hbase, abs_shift, abs_shift]
      exact mul_le_mul_of_nonneg_left (hnearest.closest base) hpos.le
    · exact (hfar other hbelow).le
  · intro other hne htie
    rcases exists_base_or_lt other hleastRange with ⟨base, hbaseRank, hbase⟩ | hbelow
    · have hbaseNe : base ≠ magnitude := by
        rintro rfl
        exact hne (eq_of_rank_eq (hbaseRank.trans htarget.symm))
      rw [htoRat, hbase, abs_shift, abs_shift] at htie
      rw [htarget]
      exact (hnearest.even_of_tie base hbaseNe (mul_left_cancel₀ hpos.ne' htie)).add
        (even_mul_leadingBit bits)
    · exact absurd htie (hfar other hbelow).ne

/-! ### Putting a digit behind a number -/

theorem isNearest_mulNat (magnitude : Magnitude) (factor : Nat) :
    (magnitude.mulNat factor).IsNearest (factor * magnitude.toRat) := by
  have hvalue : factor * magnitude.toRat =
      (magnitude.units * factor : Nat) / (1 : Nat) / 2 ^ scaleBits := by
    rw [toRat, Nat.cast_one, div_one]
    push_cast
    ring
  rw [hvalue]
  exact isNearest_nearest _ Nat.one_pos

theorem isNearest_addNat (magnitude : Magnitude) (term : Nat) :
    (magnitude.addNat term).IsNearest (magnitude.toRat + term) := by
  have hpos : (0 : ℚ) < 2 ^ scaleBits := pow_pos two_pos scaleBits
  have hvalue : magnitude.toRat + term =
      (magnitude.units + term <<< scaleBits : Nat) / (1 : Nat) / 2 ^ scaleBits := by
    rw [toRat, Nat.cast_one, div_one, Nat.shiftLeft_eq, Nat.cast_add, Nat.cast_mul, Nat.cast_pow,
      Nat.cast_ofNat, add_div, mul_div_cancel_right₀ _ hpos.ne']
  rw [hvalue]
  exact isNearest_nearest _ Nat.one_pos

/-- The sixteenth of infinity is a magnitude, and what goes past it is infinite with one more digit. -/
theorem IsNearest.mulNat_sixteen_of_lt (hnearest : magnitude.IsNearest value)
    (hrange : infinityRank < magnitude.rank + 4 * leadingBit) :
    (magnitude.mulNat 16).IsNearest (16 * value) := by
  have hinfinityRank : infinityRank = 2047 * leadingBit := rfl
  let limit : Magnitude := ⟨2043 * leadingBit, by omega⟩
  have hlimit : limit.rank + 4 * leadingBit = infinityRank := by
    change 2043 * leadingBit + 4 * leadingBit = infinityRank
    omega
  have hnormal : leadingBit ≤ limit.rank := Nat.le_mul_of_pos_left leadingBit (by decide)
  obtain ⟨shifted, hrank, htoRat⟩ := exists_shifted hnormal hlimit.le
  obtain rfl : shifted = infinity := eq_of_rank_eq (hrank.trans hlimit)
  have hpast : limit.toRat < magnitude.toRat := by
    apply toRat_lt
    change 2043 * leadingBit < magnitude.rank
    omega
  have hvalue : limit.toRat < value := by
    by_contra hle
    exact absurd (hnearest.toRat_le (le_of_not_gt hle)) hpast.not_ge
  have hproduct := isNearest_mulNat magnitude 16
  push_cast at hproduct
  have hinfinite : magnitude.mulNat 16 = infinity := by
    apply hproduct.unique
    apply isNearest_infinity_of_le
    rw [← toRat_infinity, htoRat]
    linarith
  rw [hinfinite]
  apply isNearest_infinity_of_le
  rw [← toRat_infinity, htoRat]
  linarith

/-- Making room for one more hexadecimal digit loses nothing, but what leaves the range is infinity. -/
theorem IsNearest.mulNat_sixteen (hnearest : magnitude.IsNearest value) (hvalue : 1 ≤ value) :
    (magnitude.mulNat 16).IsNearest (16 * value) := by
  have hleast : leastNormal.toRat ≤ value := toRat_leastNormal_le.trans hvalue
  have hnormal : leadingBit ≤ magnitude.rank := toRat_le_iff.mp (hnearest.le_toRat hleast)
  by_cases hrange : magnitude.rank + 4 * leadingBit ≤ infinityRank
  · have hsixteen : (16 : ℚ) = 2 ^ 4 := by norm_num
    have hproduct := isNearest_mulNat magnitude 16
    obtain ⟨shifted, hrank, htoRat⟩ := exists_shifted hnormal hrange
    rw [Nat.cast_ofNat, hsixteen] at hproduct
    rw [hproduct.eq_of_toRat_eq htoRat, hsixteen]
    exact hnearest.shift hvalue hrank
  · exact hnearest.mulNat_sixteen_of_lt (Nat.lt_of_not_le hrange)

/-- A digit that is less than half a step is lost. -/
theorem addNat_eq_self (hlarge : 2 ^ 57 ≤ magnitude.toRat) {term : Nat} (hterm : term < 16) :
    magnitude.addNat term = magnitude := by
  apply (isNearest_addNat magnitude term).unique
  apply isNearest_of_lt
  intro other hne
  have hnonneg : (0 : ℚ) ≤ term := Nat.cast_nonneg term
  have hlt : (term : ℚ) < 16 := by exact_mod_cast hterm
  rw [add_sub_cancel_left, abs_of_nonneg hnonneg]
  rcases lt_or_gt_of_ne (toRat_ne hne) with hbelow | habove
  · rw [abs_of_pos (by linarith)]
    linarith
  · have hdistance := toRat_add_le 4 hlarge habove
    rw [abs_of_neg (by linarith)]
    linarith

/-! ### What is lost -/

/-- The magnitude lies below the value, and another one lies as far above it. -/
def TiesBelow (value : ℚ) (magnitude : Magnitude) : Prop :=
  ∃ other : Magnitude, value < other.toRat ∧ other.toRat - value = value - magnitude.toRat

section

variable {count : Nat} {rest : ℚ}

/-- A value between two large magnitudes that is not midway is nearer to one of them by a step. -/
theorem add_toRat_le (hlarge : 2 ^ (53 + bits) ≤ magnitude.toRat)
    (hother : 2 ^ (53 + bits) ≤ other.toRat)
    (hlt : 2 * (count * 2 ^ bits) < magnitude.toRat + other.toRat) :
    2 * (count * 2 ^ bits) + 2 * 2 ^ bits ≤ magnitude.toRat + other.toRat := by
  have hstep : (0 : ℚ) < 2 * 2 ^ bits := mul_pos two_pos (pow_pos two_pos bits)
  obtain ⟨steps, hsteps⟩ := exists_multiple hlarge
  obtain ⟨steps', hsteps'⟩ := exists_multiple hother
  have hsum : magnitude.toRat + other.toRat = (steps + steps' : Nat) * (2 * 2 ^ bits) := by
    rw [hsteps, hsteps']
    push_cast
    ring
  have htwice : 2 * ((count : ℚ) * 2 ^ bits) = count * (2 * 2 ^ bits) := by ring
  rw [hsum, htwice] at hlt ⊢
  exact add_le_of_mul_lt hstep hlt

theorem IsNearest.large (hnearest : magnitude.IsNearest value) (hvalue : 2 ^ (53 + bits) ≤ value)
    (hother : value < other.toRat) : 2 ^ (53 + bits) ≤ magnitude.toRat := by
  have hbits : bits + 1 ≤ 971 := by
    have hrange : other.toRat ≤ infinity.toRat := toRat_le_iff.mpr other.rank_le
    rw [toRat_infinity] at hrange
    have hpower : (2 : ℚ) ^ (53 + bits) < 2 ^ 1024 := (hvalue.trans_lt hother).trans_le hrange
    have hlt := (pow_lt_pow_iff_right₀ one_lt_two).mp hpower
    omega
  obtain ⟨bound, hbound⟩ := exists_toRat_eq (show 2 ^ 52 < 2 ^ 53 by decide) (bits + 1) hbits
  have hboundRat : bound.toRat = 2 ^ (53 + bits) := by
    rw [hbound]
    push_cast
    ring
  rw [← hboundRat] at hvalue ⊢
  exact hnearest.le_toRat hvalue

/-- What is less than half a step does not change which magnitude is the nearest, unless there is a
tie without it. -/
theorem IsNearest.add_of_not_tiesBelow (hnearest : magnitude.IsNearest (count * 2 ^ bits))
    (hlarge : 2 ^ 53 ≤ count) (hpos : 0 < rest) (hrest : rest < 2 ^ bits)
    (hties : ¬magnitude.TiesBelow (count * 2 ^ bits)) :
    magnitude.IsNearest (count * 2 ^ bits + rest) := by
  have hrange : (2 : ℚ) ^ (53 + bits) ≤ count * 2 ^ bits := by
    rw [pow_add]
    exact mul_le_mul_of_nonneg_right (by exact_mod_cast hlarge) (pow_pos two_pos bits).le
  apply isNearest_of_lt
  intro other hne
  have hcloser := hnearest.closest other
  have hdistinct := toRat_ne hne
  rcases le_or_gt magnitude.toRat (count * 2 ^ bits) with hown | hown <;>
    rcases le_or_gt other.toRat (count * 2 ^ bits) with haway | haway
  · -- Both lie below, and the nearer one is the larger one.
    rw [abs_of_nonneg (sub_nonneg.mpr hown), abs_of_nonneg (sub_nonneg.mpr haway)] at hcloser
    have hlt : other.toRat < magnitude.toRat := lt_of_le_of_ne (by linarith) hdistinct
    rw [abs_of_pos (by linarith), abs_of_pos (by linarith)]
    linarith
  · -- The one above is farther away by a step, since this is not a tie.
    rw [abs_of_nonneg (sub_nonneg.mpr hown), abs_of_neg (sub_neg.mpr haway)] at hcloser
    have hnotTie : other.toRat - count * 2 ^ bits ≠ count * 2 ^ bits - magnitude.toRat :=
      fun htie => hties ⟨other, haway, htie⟩
    have hlt : 2 * (count * 2 ^ bits) < magnitude.toRat + other.toRat := by
      have := lt_of_le_of_ne (show count * 2 ^ bits - magnitude.toRat ≤
        other.toRat - count * 2 ^ bits by linarith) hnotTie.symm
      linarith
    have hstep := add_toRat_le (hnearest.large hrange haway) (hrange.trans haway.le) hlt
    have habove := multiple_add_le hlarge haway
    rw [abs_of_pos (by linarith), abs_of_neg (by linarith)]
    linarith
  · -- The one below is farther away than before.
    have habove := multiple_add_le hlarge hown
    rw [abs_of_neg (sub_neg.mpr hown), abs_of_nonneg (sub_nonneg.mpr haway)] at hcloser
    rw [abs_of_neg (by linarith), abs_of_pos (by linarith)]
    linarith
  · -- Both lie above, and the nearer one is the smaller one.
    have habove := multiple_add_le hlarge hown
    rw [abs_of_neg (sub_neg.mpr hown), abs_of_neg (sub_neg.mpr haway)] at hcloser
    have hlt : magnitude.toRat < other.toRat := lt_of_le_of_ne (by linarith) hdistinct.symm
    rw [abs_of_neg (by linarith), abs_of_neg (by linarith)]
    linarith

/-- **What is lost.** Less than half a step matters at a tie only. There it makes the magnitude above
the nearest one. -/
theorem IsNearest.add_iff (hnearest : magnitude.IsNearest (count * 2 ^ bits))
    (hlarge : 2 ^ 53 ≤ count) (hpos : 0 < rest) (hrest : rest < 2 ^ bits) :
    magnitude.IsNearest (count * 2 ^ bits + rest) ↔
      ¬magnitude.TiesBelow (count * 2 ^ bits) := by
  refine ⟨?_, hnearest.add_of_not_tiesBelow hlarge hpos hrest⟩
  rintro hsum ⟨other, hlt, htie⟩
  have habove := multiple_add_le hlarge hlt
  have hcloser := hsum.closest other
  rw [abs_of_pos (by linarith), abs_of_neg (by linarith)] at hcloser
  linarith

end

end Magnitude

/-! ### With a sign -/

namespace Binary64

/-- The number lies below the value, and another one lies as far above it. -/
def TiesBelow (value : ℚ) (number : Binary64) : Prop :=
  ∃ own, number.toRat? = some own ∧ ∃ (other : Binary64) (away : ℚ), other.toRat? = some away ∧
    value < away ∧ away - value = value - own

variable {value : ℚ} {magnitude : Magnitude}

theorem isNearest_signed_iff (hvalue : 0 ≤ value) :
    (signed false magnitude).IsNearest value ↔ magnitude.IsNearest value := by
  refine ⟨fun hnearest => ?_, fun hnearest => hnearest.signed hvalue⟩
  obtain ⟨other, hother, htoRat⟩ := hnearest.exists_magnitude hvalue
  rwa [Magnitude.eq_of_toRat_eq (Option.some.inj htoRat)]

theorem tiesBelow_signed_iff (hvalue : 0 ≤ value) :
    (signed false magnitude).TiesBelow value ↔ magnitude.TiesBelow value := by
  constructor
  · rintro ⟨own, hown, other, away, haway, hlt, htie⟩
    obtain rfl : magnitude.toRat = own := Option.some.inj hown
    match other with
    | .nan => cases haway
    | .signed false other =>
        obtain rfl : other.toRat = away := Option.some.inj haway
        exact ⟨other, hlt, htie⟩
    | .signed true other =>
        obtain rfl : -other.toRat = away := Option.some.inj haway
        have hnonneg := other.toRat_nonneg
        linarith
  · rintro ⟨other, hlt, htie⟩
    exact ⟨_, rfl, signed false other, _, rfl, hlt, htie⟩

end Binary64

end FormulaScript.Number
