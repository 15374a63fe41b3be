import FormulaScript.Text.Character
import Mathlib.Tactic

/-!
# Digits

A digit is put behind a number by one multiplication and one addition. Stopping at a limit after each
of these steps is the same as stopping once, at the end, and so is giving up when the limit is passed.
-/

namespace FormulaScript.Text

section

variable {base limit : Nat} {digits : List Char} {digit : Char}

theorem digitValue_lt_of_isDigit (hdigit : isDigit digit) : digitValue digit < 10 := by
  unfold isDigit at hdigit
  have hbounds := hdigit
  simp only [Char.isDigit, Bool.and_eq_true, decide_eq_true_eq, UInt32.le_iff_toNat_le] at hbounds
  have hhigh : digit.toNat ≤ 57 := hbounds.2
  rw [digitValue, if_pos hdigit]
  change digit.toNat - 48 < 10
  omega

theorem digitValue_lt_of_isHexDigit (hdigit : isHexDigit digit) :
    digitValue digit < 16 := by
  by_cases hdecimal : isDigit digit
  · exact (digitValue_lt_of_isDigit hdecimal).trans (by decide)
  · have hletter : ('a' ≤ digit ∧ digit ≤ 'f') ∨ 'A' ≤ digit ∧ digit ≤ 'F' := by
      simp only [isHexDigit, Bool.or_eq_true, Bool.and_eq_true, decide_eq_true_eq] at hdigit
      rcases hdigit with (hdigit | hlower) | hupper
      · exact absurd hdigit hdecimal
      · exact .inl hlower
      · exact .inr hupper
    have hlower : 'a' ≤ digit ↔ 97 ≤ digit.toNat := UInt32.le_iff_toNat_le
    change ('a' ≤ digit ∧ digit.toNat ≤ 102) ∨ 65 ≤ digit.toNat ∧ digit.toNat ≤ 70 at hletter
    have hvalue : digitValue digit =
        if 97 ≤ digit.toNat then digit.toNat - 97 + 10 else digit.toNat - 65 + 10 :=
      (if_neg hdecimal).trans (if_congr hlower rfl rfl)
    rw [hlower] at hletter
    rw [hvalue]
    split_ifs <;> omega

theorem digitsValue_append (front : List Char) :
    digitsValue base (front ++ digits) =
      digits.foldl (fun value digit => base * value + digitValue digit)
        (digitsValue base front) :=
  List.foldl_append

theorem digitsValue_concat :
    digitsValue base (digits ++ [digit]) = base * digitsValue base digits + digitValue digit :=
  digitsValue_append digits

theorem digitsValue_lt (hdigits : ∀ digit ∈ digits, digitValue digit < base) :
    digitsValue base digits < base ^ digits.length := by
  induction digits using List.reverseRecOn with
  | nil => exact Nat.one_pos
  | append_singleton digits digit ih =>
      obtain ⟨hfront, hlast⟩ := List.forall_mem_append.mp hdigits
      have hvalue := Nat.mul_le_mul_left base (ih hfront)
      have hdigit := hlast digit (List.mem_singleton_self digit)
      rw [digitsValue_concat, List.length_append, List.length_singleton, Nat.pow_succ]
      calc base * digitsValue base digits + digitValue digit
          < base * digitsValue base digits + base := Nat.add_lt_add_left hdigit _
        _ = base * (digitsValue base digits + 1) := (Nat.mul_succ _ _).symm
        _ ≤ base * base ^ digits.length := hvalue
        _ = base ^ digits.length * base := Nat.mul_comm _ _

theorem digitsValue_append_mul (front back : List Char) :
    digitsValue base (front ++ back) =
      digitsValue base front * base ^ back.length + digitsValue base back := by
  induction back using List.reverseRecOn with
  | nil => simp [digitsValue]
  | append_singleton back digit ih =>
      rw [← List.append_assoc, digitsValue_concat, ih, digitsValue_concat, List.length_append,
        List.length_singleton, Nat.pow_succ]
      ring

/-! ### With a limit -/

/-- Puts a digit behind a number that stops at the limit. -/
def capDigit (base limit value : Nat) (digit : Char) : Nat :=
  min (min (base * value) limit + digitValue digit) limit

/-- The number, unless the limit is passed. -/
def fit? (limit value : Nat) : Option Nat :=
  if value ≤ limit then some value else none

/-- Puts a digit behind a number as long as the limit is not passed. -/
def fitDigit (base limit : Nat) (value? : Option Nat) (digit : Char) : Option Nat := do
  let value ← value?
  let product ← fit? limit (base * value)
  fit? limit (product + digitValue digit)

theorem capDigit_min (hbase : 0 < base) (value : Nat) :
    capDigit base limit (min value limit) digit = min (base * value + digitValue digit) limit := by
  have hle : limit ≤ base * limit := Nat.le_mul_of_pos_left limit hbase
  unfold capDigit
  rcases Nat.le_total value limit with hvalue | hvalue
  · rw [Nat.min_eq_left hvalue]
    omega
  · have hproduct := Nat.mul_le_mul_left base hvalue
    rw [Nat.min_eq_right hvalue]
    omega

theorem foldl_capDigit (hbase : 0 < base) (digits : List Char) :
    digits.foldl (capDigit base limit) 0 = min (digitsValue base digits) limit := by
  have hstep (value : Nat) (digit : Char) :
      capDigit base limit (min value limit) digit = min (base * value + digitValue digit) limit :=
    capDigit_min hbase value
  have hfold : digits.foldl (capDigit base limit) (min 0 limit) =
      min (digitsValue base digits) limit :=
    List.foldl_hom (min · limit) hstep
  rwa [Nat.zero_min] at hfold

theorem fitDigit_fit? (hbase : 0 < base) (value : Nat) :
    fitDigit base limit (fit? limit value) digit =
      fit? limit (base * value + digitValue digit) := by
  have hle : value ≤ base * value := Nat.le_mul_of_pos_left value hbase
  unfold fitDigit fit?
  grind

theorem foldl_fitDigit (hbase : 0 < base) (digits : List Char) :
    digits.foldl (fitDigit base limit) (some 0) = fit? limit (digitsValue base digits) := by
  have hstep (value : Nat) (digit : Char) : fitDigit base limit (fit? limit value) digit =
      fit? limit (base * value + digitValue digit) :=
    fitDigit_fit? hbase value
  have hzero : fit? limit 0 = some 0 := if_pos (Nat.zero_le limit)
  rw [← hzero]
  exact List.foldl_hom (fit? limit) hstep

end

end FormulaScript.Text
