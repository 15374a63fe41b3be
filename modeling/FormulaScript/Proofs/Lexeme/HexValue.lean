import FormulaScript.Proofs.Lexeme.DecimalValue
import FormulaScript.Proofs.Lexeme.Hex
import FormulaScript.Proofs.Number.Truncation

/-!
# What a hexadecimal literal denotes

The digits of a large number are put behind one another with a rounding after each of them. Up to the
digit that takes the number to `2 ^ 53` no rounding happens, that digit is rounded in, and all later
ones are lost. So the number is the one nearest to the literal with zeros in place of its later digits.
-/

namespace FormulaScript

namespace HexLiteral

open Number

/-! ### The digits that are kept -/

/-- The digits up to the one that takes their number to `2 ^ 53`, and the digits behind it. -/
structure Keeps (digits kept dropped : List Char) : Prop where
  digits_eq : digits = kept ++ dropped
  front_lt : Text.digitsValue 16 kept.dropLast < 2 ^ 53
  le_kept : 2 ^ 53 ≤ Text.digitsValue 16 kept

/-- The number of a literal with zeros in place of the digits that are dropped. -/
def cut (kept dropped : List Char) : Nat :=
  Text.digitsValue 16 kept * 16 ^ dropped.length

theorem exists_keeps {digits : List Char} (hlarge : 2 ^ 53 ≤ Text.digitsValue 16 digits) :
    ∃ kept dropped, Keeps digits kept dropped := by
  induction digits using List.reverseRecOn with
  | nil => simp [Text.digitsValue] at hlarge
  | append_singleton digits digit ih =>
      by_cases hfront : 2 ^ 53 ≤ Text.digitsValue 16 digits
      · obtain ⟨kept, dropped, hkeeps⟩ := ih hfront
        refine ⟨kept, dropped ++ [digit], ?_, hkeeps.front_lt, hkeeps.le_kept⟩
        rw [hkeeps.digits_eq, List.append_assoc]
      · refine ⟨digits ++ [digit], [], (List.append_nil _).symm, ?_, hlarge⟩
        rw [List.dropLast_concat]
        exact Nat.lt_of_not_le hfront

theorem Keeps.value_eq {digits kept dropped : List Char} (hkeeps : Keeps digits kept dropped) :
    Text.digitsValue 16 digits = cut kept dropped + Text.digitsValue 16 dropped := by
  rw [hkeeps.digits_eq, Text.digitsValue_append_mul, cut]

/-! ### The number that is approximated -/

/-- The digit behind an exact number is rounded in. -/
theorem isNearest_approximate_concat {digits : List Char}
    (hexact : (approximate digits).toRat = Text.digitsValue 16 digits)
    (hsmall : Text.digitsValue 16 digits < 2 ^ 53) (digit : Char) :
    (approximate (digits ++ [digit])).IsNearest (Text.digitsValue 16 (digits ++ [digit]) : Nat) := by
  obtain ⟨product, hproduct⟩ := Magnitude.exists_toRat_eq hsmall 4 (by decide)
  have hsixteen : product.toRat = (16 : Nat) * (approximate digits).toRat := by
    rw [hproduct, hexact]
    push_cast
    ring
  have hmul := (Magnitude.isNearest_mulNat (approximate digits) 16).eq_of_toRat_eq hsixteen
  have hadd := Magnitude.isNearest_addNat product (Text.digitValue digit)
  rw [approximate_concat, Text.digitsValue_concat, hmul]
  rw [hsixteen, hexact] at hadd
  exact_mod_cast hadd

/-- Up to `2 ^ 53` the number is exact. -/
theorem toRat_approximate {digits : List Char} (hsmall : Text.digitsValue 16 digits < 2 ^ 53) :
    (approximate digits).toRat = Text.digitsValue 16 digits := by
  induction digits using List.reverseRecOn with
  | nil => exact Magnitude.toRat_zero
  | append_singleton digits digit ih =>
      have hfront : Text.digitsValue 16 digits < 2 ^ 53 := by
        rw [Text.digitsValue_concat] at hsmall
        omega
      exact (isNearest_approximate_concat (ih hfront) hfront digit).toRat_eq hsmall

/-- Behind a large number digits are lost. -/
theorem isNearest_approximate_append {kept : List Char}
    (hkept : (approximate kept).IsNearest (Text.digitsValue 16 kept : Nat))
    (hlarge : 2 ^ 53 ≤ Text.digitsValue 16 kept) {dropped : List Char}
    (hdigits : ∀ digit ∈ dropped, Text.isHexDigit digit) :
    (approximate (kept ++ dropped)).IsNearest (cut kept dropped) := by
  induction dropped using List.reverseRecOn with
  | nil => simpa [cut] using hkept
  | append_singleton dropped digit ih =>
      obtain ⟨hfront, hlast⟩ := List.forall_mem_append.mp hdigits
      have hdigit := Text.digitValue_lt_of_isHexDigit (hlast digit (List.mem_singleton_self digit))
      have hcut : 2 ^ 53 ≤ cut kept dropped :=
        hlarge.trans (Nat.le_mul_of_pos_right _ (Nat.pow_pos (by decide)))
      have hcutRat : (2 : ℚ) ^ 53 ≤ cut kept dropped := by exact_mod_cast hcut
      have hproduct := (ih hfront).mulNat_sixteen (by linarith)
      have hvalue : ((cut kept (dropped ++ [digit]) : Nat) : ℚ) = 16 * cut kept dropped := by
        rw [cut, cut, List.length_append, List.length_singleton, Nat.pow_succ]
        push_cast
        ring
      rw [← List.append_assoc, approximate_concat, hvalue, Magnitude.addNat_eq_self _ hdigit]
      · exact hproduct
      · obtain ⟨bound, hbound⟩ := Magnitude.exists_toRat_eq (show 1 < 2 ^ 53 by decide) 57
          (by decide)
        rw [Nat.cast_one, one_mul] at hbound
        rw [← hbound]
        apply hproduct.le_toRat
        rw [hbound]
        linarith

theorem Keeps.isNearest_approximate {digits kept dropped : List Char}
    (hkeeps : Keeps digits kept dropped) (hdigits : ∀ digit ∈ digits, Text.isHexDigit digit) :
    (approximate digits).IsNearest (cut kept dropped) := by
  have hne : kept ≠ [] := by
    rintro rfl
    have := hkeeps.le_kept
    simp [Text.digitsValue] at this
  have hkept : (approximate kept).IsNearest (Text.digitsValue 16 kept : Nat) := by
    rw [← List.dropLast_append_getLast hne]
    exact isNearest_approximate_concat (toRat_approximate hkeeps.front_lt) hkeeps.front_lt _
  rw [hkeeps.digits_eq] at hdigits ⊢
  exact isNearest_approximate_append hkept hkeeps.le_kept
    fun digit hmem => hdigits digit (List.mem_append_right _ hmem)

/-- The digits that are lost matter only where the number without them lies midway. -/
theorem Keeps.isNearest_value_iff {digits kept dropped : List Char}
    (hkeeps : Keeps digits kept dropped) (hdigits : ∀ digit ∈ digits, Text.isHexDigit digit) :
    (approximate digits).IsNearest (Text.digitsValue 16 digits : Nat) ↔
      ¬(cut kept dropped < Text.digitsValue 16 digits ∧
        (approximate digits).TiesBelow (cut kept dropped)) := by
  have hnearest := hkeeps.isNearest_approximate hdigits
  have hvalue := hkeeps.value_eq
  rcases Nat.eq_zero_or_pos (Text.digitsValue 16 dropped) with hzero | hpos
  · rw [hzero, Nat.add_zero] at hvalue
    rw [hvalue]
    exact iff_of_true hnearest fun hlost => Nat.lt_irrefl _ hlost.1
  · have hpower : 16 ^ dropped.length = 2 ^ (4 * dropped.length) :=
      (Nat.pow_mul 2 4 _).symm
    have hrest : Text.digitsValue 16 dropped < 2 ^ (4 * dropped.length) := by
      rw [← hpower]
      refine Text.digitsValue_lt fun digit hmem => ?_
      apply Text.digitValue_lt_of_isHexDigit
      exact hdigits digit (hkeeps.digits_eq ▸ List.mem_append_right kept hmem)
    have hcut : (cut kept dropped : ℚ) =
        (Text.digitsValue 16 kept : Nat) * 2 ^ (4 * dropped.length) := by
      rw [cut, hpower]
      push_cast
      rfl
    have hlost : cut kept dropped < Text.digitsValue 16 digits := by omega
    rw [and_iff_right hlost, hvalue, Nat.cast_add]
    rw [hcut] at hnearest ⊢
    exact hnearest.add_iff hkeeps.le_kept (by exact_mod_cast hpos) (by exact_mod_cast hrest)

end HexLiteral

end FormulaScript
