import Mathlib.Algebra.Ring.Nat
import Mathlib.Data.Nat.Log

/-!
# Seconds as doubles

The quotient of a number of microseconds by a million, rounded to 53 binary digits with ties
to even. What is cut off behind the point is the whole quotient, as long as twenty of the
digits stand behind it. Milliseconds are counted from the same quotient, a thousand times it:
they may come late, and never early.
-/

namespace QaPlatform.Doubles

/-- The nearest natural number to a quotient; of two the even one. -/
def roundHalfEven (n d : Nat) : Nat :=
  if 2 * (n % d) < d ∨ 2 * (n % d) = d ∧ n / d % 2 = 0 then n / d else n / d + 1

theorem div_le_roundHalfEven (n d : Nat) : n / d ≤ roundHalfEven n d := by
  unfold roundHalfEven
  split <;> omega

/-- A quotient that is nearer to the one number than a half is not rounded up to the next. -/
theorem roundHalfEven_lt {n d bound : Nat} (hd : 0 < d) (h : 2 * n + d < 2 * (d * bound)) :
    roundHalfEven n d < bound := by
  have hn : d * (n / d) + n % d = n := Nat.div_add_mod n d
  have hr : n % d < d := Nat.mod_lt n hd
  have hle : n / d < bound := by
    rw [Nat.div_lt_iff_lt_mul hd, Nat.mul_comm]
    omega
  unfold roundHalfEven
  split
  · exact hle
  · next hup =>
    -- the remainder is at least a half
    have hhalf : d ≤ 2 * (n % d) := by omega
    by_contra hge
    have hlast : bound = n / d + 1 := by omega
    rw [hlast, Nat.mul_add, Nat.mul_one] at h
    omega

/-- How many of the 53 digits stand behind the point. -/
def fractionBits (micros : Nat) : Nat :=
  if 1000000 ≤ micros then 52 - Nat.log2 (micros / 1000000) else 53 + Nat.log2 (999999 / micros)

/-- The quotient is `mantissa / 2 ^ fractionBits`. -/
def mantissa (micros : Nat) : Nat := roundHalfEven (micros * 2 ^ fractionBits micros) 1000000

/-- The part before the point. -/
def wholePart (micros : Nat) : Nat := mantissa micros / 2 ^ fractionBits micros

theorem le_wholePart (micros : Nat) : micros / 1000000 ≤ wholePart micros := by
  unfold wholePart mantissa
  generalize fractionBits micros = k
  rw [Nat.le_div_iff_mul_le (Nat.two_pow_pos k)]
  refine Nat.le_trans ?_ (div_le_roundHalfEven _ _)
  rw [Nat.le_div_iff_mul_le (by decide)]
  calc micros / 1000000 * 2 ^ k * 1000000 = micros / 1000000 * 1000000 * 2 ^ k := by
        rw [Nat.mul_right_comm]
    _ ≤ micros * 2 ^ k := Nat.mul_le_mul_right _ (Nat.div_mul_le_self _ _)

theorem fractionBits_ge {micros e : Nat} (h : micros / 1000000 < 2 ^ e) :
    53 - e ≤ fractionBits micros := by
  unfold fractionBits
  split
  · next hsecond =>
    have hpos : micros / 1000000 ≠ 0 := by omega
    have hlog : Nat.log2 (micros / 1000000) < e := (Nat.log2_lt hpos).mpr h
    omega
  · omega

/-- Until the year 2514 the whole part is not rounded up. -/
theorem wholePart_eq {micros : Nat} (h : micros / 1000000 < 2 ^ 34) :
    wholePart micros = micros / 1000000 := by
  apply Nat.le_antisymm _ (le_wholePart micros)
  have hbits : 19 ≤ fractionBits micros := fractionBits_ge h
  unfold wholePart mantissa
  generalize fractionBits micros = k at hbits
  rw [← Nat.lt_succ_iff, Nat.div_lt_iff_lt_mul (Nat.two_pow_pos k)]
  apply roundHalfEven_lt (by decide)
  have hpow : 2 ^ 19 ≤ 2 ^ k := Nat.pow_le_pow_right (by decide) hbits
  have hlast : micros + 1 ≤ (micros / 1000000 + 1) * 1000000 := by omega
  have hscaled : (micros + 1) * 2 ^ k ≤ (micros / 1000000 + 1) * 1000000 * 2 ^ k :=
    Nat.mul_le_mul_right _ hlast
  rw [Nat.add_mul, Nat.one_mul] at hscaled
  have hcomm : (micros / 1000000 + 1) * 1000000 * 2 ^ k
      = 1000000 * ((micros / 1000000 + 1) * 2 ^ k) := by
    rw [Nat.mul_comm (micros / 1000000 + 1), Nat.mul_assoc]
  rw [hcomm] at hscaled
  have hsucc : (micros / 1000000).succ = micros / 1000000 + 1 := rfl
  rw [hsucc]
  omega

/-! ## Milliseconds -/

/-- A number with 53 binary digits at most. -/
def roundTo53 (n : Nat) : Nat :=
  let unit := 2 ^ (Nat.log2 n - 52)
  roundHalfEven n unit * unit

/-- A thousand times the quotient, rounded once more, without what stands behind the point. -/
def millis (micros : Nat) : Nat :=
  roundTo53 (mantissa micros * 1000) / 2 ^ fractionBits micros

theorem roundHalfEven_le (n d : Nat) : 2 * (roundHalfEven n d * d) ≤ 2 * n + d := by
  have hn : n / d * d + n % d = n := by
    rw [Nat.mul_comm]
    exact Nat.div_add_mod n d
  unfold roundHalfEven
  split
  · omega
  · next hup =>
    -- the remainder is at least a half
    have hhalf : d ≤ 2 * (n % d) := by omega
    rw [Nat.add_mul, Nat.one_mul]
    omega

/-- Fewer digits than `bits` in front of the 53 are lost. -/
theorem unit_le {n bits : Nat} (h : n < 2 ^ (bits + 53)) : 2 ^ (Nat.log2 n - 52) ≤ 2 ^ bits := by
  apply Nat.pow_le_pow_right (by decide)
  by_cases hzero : n = 0
  · subst hzero
    simp [Nat.log2_zero]
  · have hlog : Nat.log2 n < bits + 53 := (Nat.log2_lt hzero).mpr h
    omega

/-- Within 139 years no millisecond is counted before it has passed. -/
theorem le_of_le_millis {k micros : Nat} (hk : k ≤ 2 ^ 42) (h : k ≤ millis micros) :
    k * 1000 ≤ micros := by
  by_contra hless
  have hbits : 20 ≤ fractionBits micros := fractionBits_ge (e := 33) (by omega)
  unfold millis at h
  rw [Nat.le_div_iff_mul_le (Nat.two_pow_pos _)] at h
  have hmantissa := roundHalfEven_le (micros * 2 ^ fractionBits micros) 1000000
  have hfold : roundHalfEven (micros * 2 ^ fractionBits micros) 1000000 = mantissa micros := rfl
  rw [hfold] at hmantissa
  generalize mantissa micros = m at h hmantissa
  obtain ⟨bits, hfraction⟩ : ∃ bits, fractionBits micros = bits + 11 :=
    ⟨fractionBits micros - 11, by omega⟩
  rw [hfraction] at h hmantissa hbits
  have hpow : 2 ^ (bits + 11) = 2048 * 2 ^ bits := by
    rw [Nat.pow_add, Nat.mul_comm]
  have hlow : 2 ^ 9 ≤ 2 ^ bits := Nat.pow_le_pow_right (by decide) (by omega)
  have hwhole : micros * 2 ^ (bits + 11) + 2 ^ (bits + 11) ≤ 1000 * (k * 2 ^ (bits + 11)) := by
    calc micros * 2 ^ (bits + 11) + 2 ^ (bits + 11) = (micros + 1) * 2 ^ (bits + 11) := by
          rw [Nat.add_mul, Nat.one_mul]
      _ ≤ k * 1000 * 2 ^ (bits + 11) := Nat.mul_le_mul_right _ (by omega)
      _ = 1000 * (k * 2 ^ (bits + 11)) := by rw [Nat.mul_comm k 1000, Nat.mul_assoc]
  have hfits : k * 2 ^ (bits + 11) ≤ 2 ^ (bits + 53) := by
    calc k * 2 ^ (bits + 11) ≤ 2 ^ 42 * 2 ^ (bits + 11) := Nat.mul_le_mul_right _ hk
      _ = 2 ^ (bits + 53) := by rw [← Nat.pow_add, Nat.add_comm]
  generalize micros * 2 ^ (bits + 11) = product at hmantissa hwhole
  have hunit : 2 ^ (Nat.log2 (m * 1000) - 52) ≤ 2 ^ bits := unit_le (by omega)
  have hround := roundHalfEven_le (m * 1000) (2 ^ (Nat.log2 (m * 1000) - 52))
  unfold roundTo53 at h
  dsimp only at h
  omega

@[simp] theorem millis_zero : millis 0 = 0 := by
  simp [millis, mantissa, roundTo53, roundHalfEven]

end QaPlatform.Doubles
