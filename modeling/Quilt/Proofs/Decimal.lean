import Mathlib
import Quilt.Number.Decimal
import Quilt.Proofs.Rounding

namespace Quilt

namespace Binary64

theorem roundHalfEven_mul_mul (num den : ℕ) {m : ℕ} (hm : 0 < m) :
    roundHalfEven (num * m) (den * m) = roundHalfEven num den := by
  have hleft : 2 * (num % den * m) < den * m ↔ 2 * (num % den) < den := by
    rw [← mul_assoc, Nat.mul_lt_mul_right hm]
  have hright : den * m < 2 * (num % den * m) ↔ den < 2 * (num % den) := by
    rw [← mul_assoc, Nat.mul_lt_mul_right hm]
  simp only [roundHalfEven, Nat.mul_div_mul_right _ _ hm, Nat.mul_mod_mul_right, hleft, hright]

theorem nearest_mul_mul (num den : ℕ) {m : ℕ} (hm : 0 < m) :
    nearest (num * m) (den * m) = nearest num den := by
  have hscaled : num * m * unitsPerOne = num * unitsPerOne * m := Nat.mul_right_comm ..
  have hblock : den * m * (2 * leadingBit) = den * (2 * leadingBit) * m := Nat.mul_right_comm ..
  have hstep : ∀ k, (den * m) <<< k = den <<< k * m := by
    intro k
    rw [Nat.shiftLeft_eq, Nat.shiftLeft_eq, Nat.mul_right_comm]
  simp only [nearest, hscaled, hblock, hstep, Nat.mul_div_mul_right _ _ hm,
    roundHalfEven_mul_mul _ _ hm]

theorem nearest_congr {a b c d : ℕ} (hb : 0 < b) (hd : 0 < d) (h : a * d = c * b) :
    nearest a b = nearest c d := by
  rw [← nearest_mul_mul a b hd, h, mul_comm b d, nearest_mul_mul c d hb]

theorem nearest_eq_zero {num den : ℕ} (h : 2 * (num * unitsPerOne) < den) :
    nearest num den = 0 := by
  have hlt : num * unitsPerOne < den := by omega
  have hblock : num * unitsPerOne < den * (2 * leadingBit) :=
    hlt.trans_le (Nat.le_mul_of_pos_right _ (by decide))
  simp only [nearest, Nat.div_eq_of_lt hblock, bitLength, if_true, Nat.shiftLeft_zero,
    roundHalfEven, Nat.div_eq_of_lt hlt, Nat.mod_eq_of_lt hlt, h]
  rfl

theorem nearest_eq_infinity {num : ℕ} (h : units infinity ≤ num * unitsPerOne) :
    nearest num 1 = infinity := by
  have hnearest := isNearest_nearest num one_pos
  by_contra hne
  have hlt := units_strictMono (lt_of_le_of_ne hnearest.le_infinity hne)
  have hdist := hnearest.nearest infinity le_rfl (Ne.symm hne)
  unfold distance Nat.dist at hdist
  omega

end Binary64

namespace Decimal
open Binary64

theorem lt_pow_digitCount (n : ℕ) : n < 10 ^ digitCount n :=
  (Nat.length_toDigits_le_iff (by decide) Nat.length_toDigits_pos).1 le_rfl

theorem pow_ten_pos (n : ℕ) : 0 < 10 ^ n := Nat.pow_pos (by decide)

/-- The bounds of the exponents only save the work of writing powers of ten out. -/
theorem toMagnitude_eq_nearest (c : ℕ) (e : ℤ) :
    toMagnitude ⟨c, e⟩ = nearest (c * 10 ^ e.toNat) (10 ^ (-e).toNat) := by
  have hpowerOfTen : ∀ n, powerOfTen n = 10 ^ n := fun n => rfl
  simp only [toMagnitude, hpowerOfTen]
  split_ifs with hc he hgreat hsmall
  · rw [hc, nearest_eq_zero]
    rw [zero_mul, zero_mul]
    exact pow_ten_pos _
  · have hneg : (-e).toNat = 0 := by omega
    have hunit : units infinity ≤ 10 ^ 310 * unitsPerOne := by decide +kernel
    rw [hneg, pow_zero, nearest_eq_infinity]
    refine hunit.trans (Nat.mul_le_mul_right _ ?_)
    calc 10 ^ 310 ≤ 10 ^ e.toNat := pow_le_pow_right₀ (by decide) (by omega)
      _ ≤ c * 10 ^ e.toNat := Nat.le_mul_of_pos_left _ (Nat.pos_of_ne_zero hc)
  · have hneg : (-e).toNat = 0 := by omega
    rw [hneg, pow_zero]
  · have hpos : e.toNat = 0 := by omega
    have hunit : 2 * unitsPerOne ≤ 10 ^ 330 := by decide +kernel
    rw [hpos, pow_zero, mul_one, nearest_eq_zero]
    calc 2 * (c * unitsPerOne) = c * (2 * unitsPerOne) := mul_left_comm ..
      _ < 10 ^ digitCount c * (2 * unitsPerOne) :=
          Nat.mul_lt_mul_of_pos_right (lt_pow_digitCount c) (Nat.mul_pos two_pos unitsPerOne_pos)
      _ ≤ 10 ^ digitCount c * 10 ^ 330 := Nat.mul_le_mul_left _ hunit
      _ = 10 ^ (digitCount c + 330) := (pow_add ..).symm
      _ ≤ 10 ^ (-e).toNat := Nat.pow_le_pow_right (by decide) hsmall
  · have hpos : e.toNat = 0 := by omega
    rw [hpos, pow_zero, mul_one]

/-- Zeros may move from the exponent to the coefficient. -/
theorem toMagnitude_shift (c : ℕ) (e : ℤ) (k : ℕ) :
    toMagnitude ⟨c * 10 ^ k, e - k⟩ = toMagnitude ⟨c, e⟩ := by
  have hexp : k + ((e - k).toNat + (-e).toNat) = e.toNat + (-(e - k)).toNat := by omega
  rw [toMagnitude_eq_nearest, toMagnitude_eq_nearest]
  apply nearest_congr (pow_ten_pos _) (pow_ten_pos _)
  rw [mul_assoc, mul_assoc, mul_assoc, ← pow_add, ← pow_add, ← pow_add, hexp]

theorem toMagnitude_stripZeros (d : Decimal) :
    (stripZeros d.coefficient d.exponent).toMagnitude = d.toMagnitude := by
  obtain ⟨c, e⟩ := d
  change (stripZeros c e).toMagnitude = _
  fun_induction stripZeros c e with
  | case1 c e h ih =>
    have hshift := toMagnitude_shift (c / 10) (e + 1) 1
    rw [pow_one, Nat.div_mul_cancel (Nat.dvd_of_mod_eq_zero h.2), Nat.cast_one,
      add_sub_cancel_right] at hshift
    rw [ih, hshift]
  | case2 => rfl

theorem roundHalfEven_eq_or (num den : ℕ) :
    roundHalfEven num den = num / den ∨ roundHalfEven num den = num / den + 1 := by
  dsimp only [roundHalfEven]
  split_ifs <;> omega

theorem toMagnitude_of_onGrid? {bits c : ℕ} {e : ℤ} (h : onGrid? bits e = some c) :
    toMagnitude ⟨c, e⟩ = bits := by
  simp only [onGrid?, beq_iff_eq] at h
  split_ifs at h with hlow hhigh hhigh
  · obtain rfl := Option.some.inj h
    obtain heq | heq := roundHalfEven_eq_or (units bits * powerOfTen (-e).toNat)
      (unitsPerOne * powerOfTen e.toNat)
    · rw [heq, hlow]
    · rw [heq, hhigh]
  · obtain rfl := Option.some.inj h
    exact hlow
  · obtain rfl := Option.some.inj h
    exact hhigh

theorem toMagnitude_last {bits : ℕ} (h : bits < infinity) :
    toMagnitude ⟨units bits * Nat.pow 5 1074, -1074⟩ = bits := by
  have hone : Nat.pow 5 1074 * unitsPerOne = 10 ^ 1074 := by decide +kernel
  have hpos : (-1074 : ℤ).toNat = 0 := rfl
  have hneg : (- -1074 : ℤ).toNat = 1074 := rfl
  rw [toMagnitude_eq_nearest, hpos, hneg, pow_zero, mul_one]
  have hquot : units bits * Nat.pow 5 1074 * unitsPerOne = units bits * 10 ^ 1074 := by
    rw [mul_assoc, hone]
  rw [nearest_congr (pow_ten_pos _) unitsPerOne_pos hquot, nearest_units h]

theorem toMagnitude_search {bits : ℕ} (h : bits < infinity) (n : ℕ) :
    (search bits n).toMagnitude = bits := by
  induction n with
  | zero => exact toMagnitude_last h
  | succ n ih =>
    rw [search]
    split
    · next c hc => exact toMagnitude_of_onGrid? hc
    · exact ih

theorem toMagnitude_shortest {bits : ℕ} (h : bits < infinity) :
    (shortest bits).toMagnitude = bits := by
  by_cases hzero : bits = 0
  · rw [shortest, if_pos hzero, hzero, toMagnitude, if_pos rfl]
  · rw [shortest, if_neg hzero, toMagnitude_stripZeros, toMagnitude_search h]

end Decimal

end Quilt
