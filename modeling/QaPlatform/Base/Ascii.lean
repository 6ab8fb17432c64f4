import Mathlib.Init

/-! The letters and digits of ASCII as ranges of code points. -/

namespace QaPlatform.Ascii

theorem isUpper_iff {c : Char} : c.isUpper ↔ 65 ≤ c.toNat ∧ c.toNat ≤ 90 := by
  have hdef : c.isUpper = decide (c.val ≥ 'A'.val ∧ c.val ≤ 'Z'.val) := rfl
  rw [hdef, decide_eq_true_eq, ge_iff_le, UInt32.le_iff_toNat_le, UInt32.le_iff_toNat_le]
  exact Iff.rfl

theorem isLower_iff {c : Char} : c.isLower ↔ 97 ≤ c.toNat ∧ c.toNat ≤ 122 := by
  have hdef : c.isLower = (decide (c.val ≥ 'a'.val) && decide (c.val ≤ 'z'.val)) := rfl
  rw [hdef, Bool.and_eq_true, decide_eq_true_eq, decide_eq_true_eq, ge_iff_le,
    UInt32.le_iff_toNat_le, UInt32.le_iff_toNat_le]
  exact Iff.rfl

theorem isDigit_iff {c : Char} : c.isDigit ↔ 48 ≤ c.toNat ∧ c.toNat ≤ 57 :=
  Char.isDigit_iff_toNat

theorem isAlphanum_iff {c : Char} : c.isAlphanum
    ↔ (65 ≤ c.toNat ∧ c.toNat ≤ 90) ∨ (97 ≤ c.toNat ∧ c.toNat ≤ 122)
      ∨ (48 ≤ c.toNat ∧ c.toNat ≤ 57) := by
  have hdef : c.isAlphanum = ((c.isUpper || c.isLower) || c.isDigit) := rfl
  rw [hdef, Bool.or_eq_true, Bool.or_eq_true, isUpper_iff, isLower_iff, isDigit_iff, or_assoc]

end QaPlatform.Ascii
