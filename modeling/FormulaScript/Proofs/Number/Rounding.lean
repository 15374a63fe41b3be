import FormulaScript.Number.Binary64
import Mathlib.Tactic

/-!
# Rounding to the nearest value

The magnitudes of the format are strictly increasing in their ranks, and between two neighbours they
grow by a power of two that is the same for a run of ranks. So the neighbours of a value are found by
a division, and of the two the nearer one is the nearest of all.
-/

namespace FormulaScript.Number

theorem leadingBit_eq : leadingBit = 2 ^ 52 := by decide

theorem even_mul_leadingBit (spare : Nat) : Even (spare * leadingBit) :=
  (by decide : Even leadingBit).mul_left spare

/-! ### Values in the order of their ranks -/

/-- A rank as a place in a run of steps of equal size. -/
structure OnGrid (rank spare count : Nat) : Prop where
  rank_eq : rank = spare * leadingBit + count
  le_count : spare = 0 ∨ leadingBit ≤ count
  count_le : count ≤ 2 * leadingBit

theorem unitsAt_of_normal {spare extra : Nat} (hextra : extra < leadingBit) :
    unitsAt ((spare + 2) * leadingBit + extra) = (leadingBit + extra) * 2 ^ (spare + 1) := by
  have hpos : 0 < leadingBit := by decide
  have hnot : ¬(spare + 2) * leadingBit + extra < 2 * leadingBit := by
    have := Nat.mul_le_mul_right leadingBit (Nat.le_add_left 2 spare)
    omega
  have hdiv : ((spare + 2) * leadingBit + extra) / leadingBit = spare + 2 := by
    rw [Nat.mul_comm, Nat.mul_add_div hpos, Nat.div_eq_of_lt hextra, Nat.add_zero]
  have hmod : ((spare + 2) * leadingBit + extra) % leadingBit = extra := by
    rw [Nat.mul_comm, Nat.mul_add_mod, Nat.mod_eq_of_lt hextra]
  rw [unitsAt, if_neg hnot, hdiv, hmod, Nat.shiftLeft_eq, Nat.add_sub_assoc (by decide)]

theorem OnGrid.unitsAt_eq {rank spare count : Nat} (hgrid : OnGrid rank spare count) :
    unitsAt rank = count * 2 ^ spare := by
  obtain ⟨rfl, hle, hcount⟩ := hgrid
  rcases Nat.lt_or_eq_of_le hcount with hlt | rfl
  · cases spare with
    | zero =>
        rw [unitsAt, if_pos (by omega)]
        omega
    | succ spare =>
        have hle : leadingBit ≤ count := by omega
        obtain ⟨extra, rfl⟩ := Nat.exists_eq_add_of_le hle
        have hrank : (spare + 1) * leadingBit + (leadingBit + extra) =
            (spare + 2) * leadingBit + extra := by ring
        rw [hrank, unitsAt_of_normal (by omega)]
  · -- The end of a run is the beginning of the next one.
    have hrank : spare * leadingBit + 2 * leadingBit = (spare + 2) * leadingBit + 0 := by ring
    rw [hrank, unitsAt_of_normal (by decide), Nat.pow_succ]
    ring

theorem OnGrid.succ {rank spare count : Nat} (hgrid : OnGrid rank spare count)
    (hlt : count < 2 * leadingBit) : OnGrid (rank + 1) spare (count + 1) :=
  ⟨by rw [hgrid.rank_eq, Nat.add_assoc], hgrid.le_count.imp_right Nat.le_succ_of_le, hlt⟩

theorem exists_onGrid (rank : Nat) :
    ∃ spare count, OnGrid rank spare count ∧ count < 2 * leadingBit := by
  by_cases hlt : rank < 2 * leadingBit
  · exact ⟨0, rank, ⟨by omega, .inl rfl, Nat.le_of_lt hlt⟩, hlt⟩
  · have hpos : 0 < leadingBit := by decide
    have hmod := Nat.mod_lt rank hpos
    have hdiv := Nat.div_add_mod rank leadingBit
    obtain ⟨spare, hspare⟩ : ∃ spare, rank / leadingBit = spare + 1 := by
      apply Nat.exists_eq_succ_of_ne_zero
      intro hzero
      rw [hzero, Nat.mul_zero] at hdiv
      omega
    rw [hspare] at hdiv
    refine ⟨spare, leadingBit + rank % leadingBit, ⟨?_, .inr (Nat.le_add_right _ _), ?_⟩, ?_⟩
    · calc rank = leadingBit * (spare + 1) + rank % leadingBit := hdiv.symm
        _ = spare * leadingBit + (leadingBit + rank % leadingBit) := by ring
    · omega
    · omega

theorem unitsAt_strictMono : StrictMono unitsAt := by
  apply strictMono_nat_of_lt_succ
  intro rank
  obtain ⟨spare, count, hgrid, hlt⟩ := exists_onGrid rank
  rw [hgrid.unitsAt_eq, (hgrid.succ hlt).unitsAt_eq]
  exact Nat.mul_lt_mul_of_pos_right (Nat.lt_succ_self count) (Nat.two_pow_pos spare)

/-! ### The nearer of two neighbours -/

/-- A rank next to a value: no farther than the two neighbours are, and even where these are as far
as one another. -/
structure Settles (value : ℚ) (below rank : Nat) : Prop where
  rank_eq : rank = below ∨ rank = below + 1
  le_below : |value - unitsAt rank| ≤ |value - unitsAt below|
  le_above : |value - unitsAt rank| ≤ |value - unitsAt (below + 1)|
  even_of_tie : |value - unitsAt below| = |value - unitsAt (below + 1)| → Even rank

section

variable {value : ℚ} {below rank other : Nat}

theorem settles_below
    (hnearer : |value - unitsAt below| < |value - unitsAt (below + 1)|) :
    Settles value below below :=
  ⟨.inl rfl, le_rfl, hnearer.le, fun htie => absurd htie hnearer.ne⟩

theorem settles_above
    (hnearer : |value - unitsAt (below + 1)| < |value - unitsAt below|) :
    Settles value below (below + 1) :=
  ⟨.inr rfl, hnearer.le, le_rfl, fun htie => absurd htie hnearer.ne'⟩

theorem settles_of_tie (htie : |value - unitsAt below| = |value - unitsAt (below + 1)|)
    (hrank : rank = below ∨ rank = below + 1) (heven : Even rank) : Settles value below rank := by
  rcases hrank with rfl | rfl
  · exact ⟨.inl rfl, le_rfl, htie.le, fun _ => heven⟩
  · exact ⟨.inr rfl, htie.ge, le_rfl, fun _ => heven⟩

theorem abs_sub_below_lt (hbelow : unitsAt below ≤ value) (hlt : other < below) :
    |value - unitsAt below| < |value - unitsAt other| := by
  have hunits : (unitsAt other : ℚ) < unitsAt below := by
    exact_mod_cast unitsAt_strictMono hlt
  rw [abs_of_nonneg (by linarith), abs_of_nonneg (by linarith)]
  linarith

theorem abs_sub_above_lt (habove : value < unitsAt (below + 1)) (hlt : below + 1 < other) :
    |value - unitsAt (below + 1)| < |value - unitsAt other| := by
  have hunits : (unitsAt (below + 1) : ℚ) < unitsAt other := by
    exact_mod_cast unitsAt_strictMono hlt
  rw [abs_of_neg (by linarith), abs_of_neg (by linarith)]
  linarith

/-- The neighbours are nearer than all other ranks. -/
theorem Settles.closest (hsettles : Settles value below rank) (hbelow : unitsAt below ≤ value)
    (habove : value < unitsAt (below + 1)) (other : Nat) :
    |value - unitsAt rank| ≤ |value - unitsAt other| := by
  rcases Nat.lt_trichotomy other below with hlt | rfl | hlt
  · exact hsettles.le_below.trans (abs_sub_below_lt hbelow hlt).le
  · exact hsettles.le_below
  · rcases Nat.lt_or_eq_of_le hlt with hlt | rfl
    · exact hsettles.le_above.trans (abs_sub_above_lt habove hlt).le
    · exact hsettles.le_above

theorem Settles.even (hsettles : Settles value below rank) (hbelow : unitsAt below ≤ value)
    (habove : value < unitsAt (below + 1)) (hne : other ≠ rank)
    (htie : |value - unitsAt rank| = |value - unitsAt other|) : Even rank := by
  -- What is as near as a neighbour is the other neighbour.
  have hother : other = below ∨ other = below + 1 := by
    by_contra hnot
    rcases Nat.lt_or_ge other below with hlt | hge
    · exact absurd htie (hsettles.le_below.trans_lt (abs_sub_below_lt hbelow hlt)).ne
    · have hlt : below + 1 < other := by omega
      exact absurd htie (hsettles.le_above.trans_lt (abs_sub_above_lt habove hlt)).ne
  apply hsettles.even_of_tie
  rcases hsettles.rank_eq with rfl | rfl
  · obtain rfl : other = rank + 1 := by omega
    exact htie
  · obtain rfl : other = below := by omega
    exact htie.symm

end

/-- Rounding a quotient goes to a neighbour of it. -/
theorem roundDiv_cases (numerator denominator : Nat) :
    (2 * (numerator % denominator) < denominator ∧
        roundDiv numerator denominator = numerator / denominator) ∨
      (2 * (numerator % denominator) = denominator ∧
        roundDiv numerator denominator =
          numerator / denominator + numerator / denominator % 2) ∨
      (denominator < 2 * (numerator % denominator) ∧
        roundDiv numerator denominator = numerator / denominator + 1) := by
  unfold roundDiv
  dsimp only
  rcases Nat.lt_trichotomy (2 * (numerator % denominator)) denominator with hlt | heq | hgt
  · left
    rw [Nat.compare_eq_lt.mpr hlt]
    exact ⟨hlt, rfl⟩
  · right
    left
    rw [Nat.compare_eq_eq.mpr heq]
    exact ⟨heq, rfl⟩
  · right
    right
    rw [Nat.compare_eq_gt.mpr hgt]
    exact ⟨hgt, rfl⟩

namespace Magnitude

section

variable {numerator denominator : Nat}

/-- How many bits the quotient has that a significand has no room for. -/
def spareBits (numerator denominator : Nat) : Nat :=
  (numerator / denominator).log2 - fractionBits

/-- The distance of the neighbours of the quotient, counted as its numerator is. -/
def stride (numerator denominator : Nat) : Nat :=
  denominator <<< spareBits numerator denominator

/-- The rank of the greatest value that is not above the quotient. -/
def rankBelow (numerator denominator : Nat) : Nat :=
  spareBits numerator denominator * leadingBit + numerator / stride numerator denominator

theorem stride_eq (numerator denominator : Nat) :
    stride numerator denominator = denominator * 2 ^ spareBits numerator denominator :=
  Nat.shiftLeft_eq _ _

theorem div_stride_lt : numerator / stride numerator denominator < 2 * leadingBit := by
  rw [stride_eq, ← Nat.div_div_eq_div_mul, Nat.div_lt_iff_lt_mul (Nat.two_pow_pos _)]
  have hle : (numerator / denominator).log2 + 1 ≤ 53 + spareBits numerator denominator := by
    rw [spareBits, fractionBits]
    omega
  calc numerator / denominator < 2 ^ ((numerator / denominator).log2 + 1) := Nat.lt_log2_self
    _ ≤ 2 ^ (53 + spareBits numerator denominator) := Nat.pow_le_pow_right (by decide) hle
    _ = 2 * leadingBit * 2 ^ spareBits numerator denominator := Nat.pow_add 2 53 _

theorem onGrid_rankBelow : OnGrid (rankBelow numerator denominator)
    (spareBits numerator denominator) (numerator / stride numerator denominator) := by
  refine ⟨rfl, ?_, div_stride_lt.le⟩
  rw [or_iff_not_imp_left]
  intro hspare
  have hlog : (numerator / denominator).log2 = 52 + spareBits numerator denominator := by
    rw [spareBits, fractionBits] at hspare ⊢
    omega
  have hne : numerator / denominator ≠ 0 := by
    intro hzero
    rw [hzero, Nat.log2_zero] at hlog
    omega
  rw [stride_eq, ← Nat.div_div_eq_div_mul, Nat.le_div_iff_mul_le (Nat.two_pow_pos _)]
  calc leadingBit * 2 ^ spareBits numerator denominator
      = 2 ^ (numerator / denominator).log2 := by rw [hlog]; exact (Nat.pow_add 2 52 _).symm
    _ ≤ numerator / denominator := Nat.log2_self_le hne

variable (numerator) (hdenominator : 0 < denominator)

include hdenominator

theorem quotient_sub_below :
    (numerator : ℚ) / denominator - unitsAt (rankBelow numerator denominator) =
      (numerator % stride numerator denominator : Nat) / denominator := by
  have hne : (denominator : ℚ) ≠ 0 := by exact_mod_cast hdenominator.ne'
  have hdivide : (numerator : ℚ) =
      stride numerator denominator * (numerator / stride numerator denominator : Nat) +
        (numerator % stride numerator denominator : Nat) := by
    exact_mod_cast (Nat.div_add_mod _ _).symm
  rw [onGrid_rankBelow.unitsAt_eq]
  generalize numerator / stride numerator denominator = count at *
  generalize numerator % stride numerator denominator = rest at *
  rw [hdivide, stride_eq]
  push_cast
  field_simp
  ring

theorem above_sub_below :
    (unitsAt (rankBelow numerator denominator + 1) : ℚ) -
        unitsAt (rankBelow numerator denominator) =
      stride numerator denominator / denominator := by
  have hne : (denominator : ℚ) ≠ 0 := by exact_mod_cast hdenominator.ne'
  rw [(onGrid_rankBelow.succ div_stride_lt).unitsAt_eq, onGrid_rankBelow.unitsAt_eq, stride_eq]
  push_cast
  field_simp
  ring

/-- The value at the rank is not above the quotient, and the one at the next rank is. -/
theorem unitsAt_rankBelow_le :
    (unitsAt (rankBelow numerator denominator) : ℚ) ≤ numerator / denominator := by
  rw [← sub_nonneg, quotient_sub_below numerator hdenominator]
  positivity

theorem lt_unitsAt_above :
    (numerator : ℚ) / denominator < unitsAt (rankBelow numerator denominator + 1) := by
  have hpos : (0 : ℚ) < denominator := by exact_mod_cast hdenominator
  have hstride : 0 < stride numerator denominator := by
    rw [stride_eq]
    positivity
  have hmod : ((numerator % stride numerator denominator : Nat) : ℚ) <
      stride numerator denominator := by
    exact_mod_cast Nat.mod_lt numerator hstride
  have hbelow := quotient_sub_below numerator hdenominator
  have habove := above_sub_below numerator hdenominator
  have hlt := div_lt_div_of_pos_right hmod hpos
  linarith

/-- How far the neighbours are, in terms of what the division by the stride leaves. -/
theorem abs_sub_neighbours :
    |(numerator : ℚ) / denominator - unitsAt (rankBelow numerator denominator)| =
        (numerator % stride numerator denominator : Nat) / denominator ∧
      |(numerator : ℚ) / denominator - unitsAt (rankBelow numerator denominator + 1)| =
        (stride numerator denominator - (numerator % stride numerator denominator : Nat)) /
          denominator := by
  have hbelow := quotient_sub_below numerator hdenominator
  have habove := above_sub_below numerator hdenominator
  have hle := unitsAt_rankBelow_le numerator hdenominator
  have hlt := lt_unitsAt_above numerator hdenominator
  rw [abs_of_nonneg (sub_nonneg.mpr hle), abs_of_neg (sub_neg.mpr hlt), sub_div]
  exact ⟨hbelow, by linarith⟩

theorem settles_rank : Settles (numerator / denominator) (rankBelow numerator denominator)
    (spareBits numerator denominator * leadingBit +
      roundDiv numerator (stride numerator denominator)) := by
  have hpos : (0 : ℚ) < denominator := by exact_mod_cast hdenominator
  obtain ⟨hbelow, habove⟩ := abs_sub_neighbours numerator hdenominator
  rcases roundDiv_cases numerator (stride numerator denominator) with
    ⟨hrest, hround⟩ | ⟨hrest, hround⟩ | ⟨hrest, hround⟩
  · -- Less than half a stride is left.
    have hrest' : (2 * (numerator % stride numerator denominator : Nat) : ℚ) <
        stride numerator denominator := by exact_mod_cast hrest
    rw [hround]
    apply settles_below
    rw [hbelow, habove]
    exact div_lt_div_of_pos_right (by linarith) hpos
  · -- Both are half a stride away.
    have hrest' : (2 * (numerator % stride numerator denominator : Nat) : ℚ) =
        stride numerator denominator := by exact_mod_cast hrest
    have hbit := Nat.mod_two_eq_zero_or_one (numerator / stride numerator denominator)
    rw [hround]
    apply settles_of_tie
    · rw [hbelow, habove, ← hrest']
      ring
    · rw [rankBelow]
      omega
    · apply (even_mul_leadingBit _).add
      rw [Nat.even_iff]
      omega
  · -- More than half a stride is left.
    have hrest' : (stride numerator denominator : ℚ) <
        2 * (numerator % stride numerator denominator : Nat) := by exact_mod_cast hrest
    rw [hround, ← Nat.add_assoc]
    apply settles_above
    rw [hbelow, habove]
    exact div_lt_div_of_pos_right (by linarith) hpos

end

/-! ### The nearest magnitude -/

/-- The value of a magnitude. Infinity stands where the finite values would go on. -/
def toRat (magnitude : Magnitude) : ℚ :=
  magnitude.units / 2 ^ scaleBits

theorem eq_of_rank_eq {first second : Magnitude} (hrank : first.rank = second.rank) :
    first = second := by
  cases first
  cases second
  cases hrank
  rfl

/-- No other magnitude is nearer to the value, and where another one is as near the rank is even. -/
structure IsNearest (value : ℚ) (magnitude : Magnitude) : Prop where
  closest : ∀ other : Magnitude, |value - magnitude.toRat| ≤ |value - other.toRat|
  even_of_tie : ∀ other : Magnitude, other ≠ magnitude →
    |value - magnitude.toRat| = |value - other.toRat| → Even magnitude.rank

theorem abs_sub_toRat (value : ℚ) (magnitude : Magnitude) :
    |value / 2 ^ scaleBits - magnitude.toRat| = |value - magnitude.units| / 2 ^ scaleBits := by
  have hpos : (0 : ℚ) < 2 ^ scaleBits := pow_pos two_pos scaleBits
  rw [toRat, ← sub_div, abs_div, abs_of_pos hpos]

/-- Values may be counted in units throughout. -/
theorem isNearest_of_units {value : ℚ} {magnitude : Magnitude}
    (hclosest : ∀ other : Magnitude, |value - magnitude.units| ≤ |value - other.units|)
    (heven : ∀ other : Magnitude, other ≠ magnitude →
      |value - magnitude.units| = |value - other.units| → Even magnitude.rank) :
    IsNearest (value / 2 ^ scaleBits) magnitude := by
  have hpos : (0 : ℚ) < 2 ^ scaleBits := pow_pos two_pos scaleBits
  constructor
  · intro other
    rw [abs_sub_toRat, abs_sub_toRat]
    exact div_le_div_of_nonneg_right (hclosest other) hpos.le
  · intro other hne htie
    rw [abs_sub_toRat, abs_sub_toRat, div_left_inj' hpos.ne'] at htie
    exact heven other hne htie

/-- What lies past the finite values is rounded to infinity. -/
theorem isNearest_infinity {value : ℚ} (hvalue : unitsAt infinityRank ≤ value) :
    IsNearest (value / 2 ^ scaleBits) infinity := by
  have hfarther (other : Magnitude) (hne : other ≠ infinity) :
      |value - infinity.units| < |value - other.units| := by
    apply abs_sub_below_lt hvalue
    apply Nat.lt_of_le_of_ne other.rank_le
    intro hrank
    exact hne (eq_of_rank_eq hrank)
  apply isNearest_of_units
  · intro other
    by_cases hne : other = infinity
    · rw [hne]
    · exact (hfarther other hne).le
  · intro other hne htie
    exact absurd htie (hfarther other hne).ne

theorem rank_nearest (numerator denominator : Nat) :
    (nearest numerator denominator).rank =
      min (spareBits numerator denominator * leadingBit +
        roundDiv numerator (stride numerator denominator)) infinityRank := rfl

/-- **Rounding.** The magnitude that a quotient of units is rounded to is the nearest one. -/
theorem isNearest_nearest (numerator : Nat) {denominator : Nat} (hdenominator : 0 < denominator) :
    IsNearest (numerator / denominator / 2 ^ scaleBits) (nearest numerator denominator) := by
  have hsettles := settles_rank numerator hdenominator
  have hbelow := unitsAt_rankBelow_le numerator hdenominator
  have habove := lt_unitsAt_above numerator hdenominator
  have hcases := hsettles.rank_eq
  by_cases hrange : infinityRank ≤ rankBelow numerator denominator
  · have hinfinity : nearest numerator denominator = infinity := by
      apply eq_of_rank_eq
      rw [rank_nearest]
      exact Nat.min_eq_right (by omega)
    rw [hinfinity]
    apply isNearest_infinity
    refine le_trans ?_ hbelow
    exact_mod_cast unitsAt_strictMono.monotone hrange
  · have hrank : (nearest numerator denominator).rank =
        spareBits numerator denominator * leadingBit +
          roundDiv numerator (stride numerator denominator) := by
      rw [rank_nearest]
      exact Nat.min_eq_left (by omega)
    rw [← hrank] at hsettles
    apply isNearest_of_units
    · exact fun other => hsettles.closest hbelow habove other.rank
    · intro other hne htie
      exact hsettles.even hbelow habove (fun heq => hne (eq_of_rank_eq heq)) htie

theorem isNearest_ofNat (value : Nat) : IsNearest value (ofNat value) := by
  have hscale : (2 : ℚ) ^ scaleBits ≠ 0 := pow_ne_zero scaleBits two_ne_zero
  have hvalue : ((value <<< scaleBits : Nat) : ℚ) / (1 : Nat) / 2 ^ scaleBits = value := by
    rw [Nat.shiftLeft_eq, Nat.cast_mul, Nat.cast_pow, Nat.cast_one, div_one, Nat.cast_ofNat,
      mul_div_cancel_right₀ _ hscale]
  rw [← hvalue]
  exact isNearest_nearest _ Nat.one_pos

end Magnitude

end FormulaScript.Number
