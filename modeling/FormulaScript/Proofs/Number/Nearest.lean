import FormulaScript.Proofs.Number.Rounding

/-!
# The nearest number

Only one magnitude is the nearest to a value, since between two even ranks there is another rank.
With a sign there are two zeros, and these have the same value.
-/

namespace FormulaScript.Number

namespace Magnitude

theorem toRat_lt {first second : Magnitude} (hlt : first.rank < second.rank) :
    first.toRat < second.toRat := by
  have hunits : (first.units : ℚ) < second.units := by
    exact_mod_cast unitsAt_strictMono hlt
  exact div_lt_div_of_pos_right hunits (pow_pos two_pos scaleBits)

theorem toRat_ne {first second : Magnitude} (hne : first ≠ second) :
    first.toRat ≠ second.toRat := by
  rcases Nat.lt_or_gt_of_ne (fun hrank => hne (eq_of_rank_eq hrank)) with hlt | hgt
  · exact (toRat_lt hlt).ne
  · exact (toRat_lt hgt).ne'

theorem IsNearest.not_rank_lt {value : ℚ} {first second : Magnitude}
    (hfirst : first.IsNearest value) (hsecond : second.IsNearest value) :
    ¬first.rank < second.rank := by
  intro hlt
  have hne : first ≠ second := by
    rintro rfl
    exact Nat.lt_irrefl _ hlt
  have htie := le_antisymm (hfirst.closest second) (hsecond.closest first)
  have hfirstEven := hfirst.even_of_tie second hne.symm htie
  have hsecondEven := hsecond.even_of_tie first hne htie.symm
  -- Between two even ranks there is another one, and the value is midway between the two.
  have hgap : first.rank + 1 < second.rank := by
    rw [Nat.even_iff] at hfirstEven hsecondEven
    omega
  let middle : Magnitude := ⟨first.rank + 1, hgap.le.trans second.rank_le⟩
  have hlow : first.toRat < middle.toRat := toRat_lt (Nat.lt_succ_self first.rank)
  have hhigh : middle.toRat < second.toRat := toRat_lt hgap
  have hmid : value - first.toRat = -(value - second.toRat) := by
    rcases abs_eq_abs.mp htie with hsame | hopposite
    · linarith
    · exact hopposite
  have hnearer := hfirst.closest middle
  rw [abs_of_pos (show 0 < value - first.toRat by linarith)] at hnearer
  rcases le_abs'.mp hnearer with hside | hside
  · linarith
  · linarith

/-- Only one magnitude is the nearest. -/
theorem IsNearest.unique {value : ℚ} {first second : Magnitude} (hfirst : first.IsNearest value)
    (hsecond : second.IsNearest value) : first = second := by
  apply eq_of_rank_eq
  have hle := hsecond.not_rank_lt hfirst
  have hge := hfirst.not_rank_lt hsecond
  omega

end Magnitude

/-! ### With a sign -/

namespace Binary64

/-- The value, of infinities too. A NaN has none. -/
def toRat? : Binary64 → Option ℚ
  | .nan => none
  | .signed negative magnitude => some (if negative then -magnitude.toRat else magnitude.toRat)

def isEven : Binary64 → Bool
  | .nan => false
  | .signed _ magnitude => magnitude.rank % 2 == 0

/-- No other number is nearer to the value, and where one of another value is as near the number is
even. Ties are between neighbours, so this is rounding to nearest with ties to even. -/
def IsNearest (value : ℚ) (number : Binary64) : Prop :=
  ∃ own, number.toRat? = some own ∧ ∀ (other : Binary64) (away : ℚ), other.toRat? = some away →
    |value - own| ≤ |value - away| ∧
      (away ≠ own → |value - own| = |value - away| → number.isEven)

end Binary64

theorem Magnitude.toRat_nonneg (magnitude : Magnitude) : 0 ≤ magnitude.toRat := by
  unfold toRat
  positivity

theorem Magnitude.toRat_zero : zero.toRat = 0 := by
  simp [toRat, units, unitsAt, zero, leadingBit_eq]

theorem Magnitude.IsNearest.isEven {value : ℚ} {magnitude other : Magnitude}
    (hnearest : magnitude.IsNearest value) (hne : other.toRat ≠ magnitude.toRat)
    (htie : |value - magnitude.toRat| = |value - other.toRat|) (negative : Bool) :
    (Binary64.signed negative magnitude).isEven := by
  have hother : other ≠ magnitude := by
    rintro rfl
    exact hne rfl
  have heven := hnearest.even_of_tie other hother htie
  rw [Nat.even_iff] at heven
  rw [Binary64.isEven, heven]
  rfl

/-- Numbers below zero are no nearer to a value that is not below it than zero is. -/
theorem Magnitude.IsNearest.signed {value : ℚ} {magnitude : Magnitude} (hvalue : 0 ≤ value)
    (hnearest : magnitude.IsNearest value) : (Binary64.signed false magnitude).IsNearest value := by
  refine ⟨magnitude.toRat, rfl, fun other away haway => ?_⟩
  match other with
  | .nan => cases haway
  | .signed false other =>
      obtain rfl : other.toRat = away := Option.some.inj haway
      exact ⟨hnearest.closest other, fun hne htie => hnearest.isEven hne htie false⟩
  | .signed true other =>
      obtain rfl : -other.toRat = away := Option.some.inj haway
      have hother := other.toRat_nonneg
      have hzero := hnearest.closest zero
      have hvalueZero : |value - zero.toRat| = value := by
        rw [toRat_zero, sub_zero, abs_of_nonneg hvalue]
      have hvalueOther : |value - -other.toRat| = value + other.toRat := by
        rw [sub_neg_eq_add, abs_of_nonneg (add_nonneg hvalue hother)]
      constructor
      · linarith
      · intro hne htie
        -- A tie leaves nothing but zero.
        have hother : other.toRat = 0 := by linarith
        refine hnearest.isEven (?_ : zero.toRat ≠ magnitude.toRat) ?_ true
        · rw [toRat_zero]
          rwa [hother, neg_zero] at hne
        · linarith

namespace Binary64

/-- Below zero only the negative zero is a nearest number, and it has the value of the other. -/
theorem IsNearest.exists_magnitude {value : ℚ} (hvalue : 0 ≤ value) {number : Binary64}
    (hnearest : number.IsNearest value) :
    ∃ magnitude : Magnitude, magnitude.IsNearest value ∧ number.toRat? = some magnitude.toRat := by
  obtain ⟨own, hown, hothers⟩ := hnearest
  match number with
  | .nan => cases hown
  | .signed false magnitude =>
      obtain rfl : magnitude.toRat = own := Option.some.inj hown
      refine ⟨magnitude, ⟨fun other => (hothers (.signed false other) _ rfl).1, ?_⟩, rfl⟩
      intro other hne htie
      have heven := (hothers (.signed false other) _ rfl).2 (Magnitude.toRat_ne hne) htie
      rw [Nat.even_iff]
      simpa [isEven] using heven
  | .signed true magnitude =>
      obtain rfl : -magnitude.toRat = own := Option.some.inj hown
      have hmagnitude := magnitude.toRat_nonneg
      have hzero := (hothers (.signed false .zero) _ rfl).1
      simp only [Bool.false_eq_true, if_false] at hzero
      rw [Magnitude.toRat_zero, sub_zero, abs_of_nonneg hvalue, sub_neg_eq_add,
        abs_of_nonneg (add_nonneg hvalue hmagnitude)] at hzero
      have hmagnitudeZero : magnitude.toRat = 0 := by linarith
      have hneg : -magnitude.toRat = Magnitude.zero.toRat := by
        rw [hmagnitudeZero, neg_zero, Magnitude.toRat_zero]
      refine ⟨.zero, ⟨fun other => ?_, fun _ _ _ => Even.zero⟩, ?_⟩
      · have hother := (hothers (.signed false other) _ rfl).1
        rwa [hneg] at hother
      · exact congrArg some hneg

/-- All the nearest numbers have one value. -/
theorem IsNearest.toRat?_eq {value : ℚ} (hvalue : 0 ≤ value) {first second : Binary64}
    (hfirst : first.IsNearest value) (hsecond : second.IsNearest value) :
    first.toRat? = second.toRat? := by
  obtain ⟨magnitude, hmagnitude, htoRat⟩ := hfirst.exists_magnitude hvalue
  obtain ⟨magnitude', hmagnitude', htoRat'⟩ := hsecond.exists_magnitude hvalue
  rw [htoRat, htoRat', hmagnitude.unique hmagnitude']

end Binary64

end FormulaScript.Number
