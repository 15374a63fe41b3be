/-!
Nonnegative binary64 values, ordered by rank: the words of the format without its sign, read as
numbers, run through them from zero to infinity. Values are exact multiples of the least positive
one, and infinity stands one step past the greatest finite one.
-/

namespace FormulaScript.Number

/-- Bits of a significand after its leading one. -/
def fractionBits : Nat := 52

/-- The leading one of a significand. -/
def leadingBit : Nat := 1 <<< fractionBits

/-- There are `2 ^ scaleBits` units in one. -/
def scaleBits : Nat := 1074

/-- The rank of infinity: all ones in the exponent field, above an empty fraction. -/
def infinityRank : Nat := 2047 * leadingBit

structure Magnitude where
  rank : Nat
  rank_le : rank ≤ infinityRank
deriving DecidableEq, Repr

/-- The value at a rank, counted in units of the least positive value. -/
def unitsAt (rank : Nat) : Nat :=
  if rank < 2 * leadingBit then rank
  else (leadingBit + rank % leadingBit) <<< (rank / leadingBit - 1)

/-- The integer nearest to a quotient; a half goes to the even neighbour. -/
def roundDiv (numerator denominator : Nat) : Nat :=
  let quotient := numerator / denominator
  match compare (2 * (numerator % denominator)) denominator with
  | .lt => quotient
  | .eq => quotient + quotient % 2
  | .gt => quotient + 1

namespace Magnitude

def zero : Magnitude :=
  ⟨0, Nat.zero_le _⟩

def infinity : Magnitude :=
  ⟨infinityRank, Nat.le_refl _⟩

def units (magnitude : Magnitude) : Nat :=
  unitsAt magnitude.rank

/-- The magnitude nearest to `numerator / denominator` units; a half goes to the even rank, and what rounds past the finite ones is infinity. -/
def nearest (numerator denominator : Nat) : Magnitude :=
  let spare := (numerator / denominator).log2 - fractionBits
  let rank := spare * leadingBit + roundDiv numerator (denominator <<< spare)
  ⟨min rank infinityRank, Nat.min_le_right _ _⟩

def ofNat (value : Nat) : Magnitude :=
  nearest (value <<< scaleBits) 1

/-- The rounded product with a positive integer. -/
def mulNat (magnitude : Magnitude) (factor : Nat) : Magnitude :=
  nearest (magnitude.units * factor) 1

/-- The rounded sum with an integer. -/
def addNat (magnitude : Magnitude) (term : Nat) : Magnitude :=
  nearest (magnitude.units + term <<< scaleBits) 1

/-- A nonzero decimal whose power of ten exceeds this is past the finite range. -/
def maxPower : Nat := 310

/-- The magnitude nearest to `significand * 10 ^ power`. Powers that put the value past the finite range, or under half of the least unit, are answered without computing them. -/
def ofDecimal (significand : Nat) (power : Int) : Magnitude :=
  if significand = 0 then zero
  else
    match power with
    | .ofNat power =>
        if maxPower < power then infinity else ofNat (significand * Nat.pow 10 power)
    | .negSucc power =>
        if significand.log2 + scaleBits + 2 ≤ 3 * (power + 1) then zero
        else nearest (significand <<< scaleBits) (Nat.pow 10 (power + 1))

end Magnitude

/-- A binary64 value. The payload of a NaN is not kept. -/
inductive Binary64 where
  | nan
  | signed (negative : Bool) (magnitude : Magnitude)
deriving DecidableEq, Repr

namespace Binary64

def ofInt (value : Int) : Binary64 :=
  .signed (value < 0) (.ofNat value.natAbs)

def signBit : Nat := 1 <<< 63

/-- Reads a word: a sign bit above the rank of the magnitude, where ranks past infinity are NaNs. -/
def ofBits (word : UInt64) : Binary64 :=
  let rank := word.toNat % signBit
  if hrank : rank ≤ infinityRank then .signed (signBit ≤ word.toNat) ⟨rank, hrank⟩
  else .nan

/-- The word of a value, `none` for a NaN. -/
def bits? : Binary64 → Option UInt64
  | .nan => none
  | .signed negative magnitude =>
      some (.ofNat (magnitude.rank + if negative then signBit else 0))

end Binary64

end FormulaScript.Number
