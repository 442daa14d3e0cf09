import Mathlib
import Quilt.Number.Binary64

namespace Quilt.Binary64

theorem unitsPerOne_pos : 0 < unitsPerOne := by decide +kernel

theorem roundHalfEven_mul_right (q : ℕ) {d : ℕ} (hd : 0 < d) : roundHalfEven (q * d) d = q := by
  simp [roundHalfEven, Nat.mul_div_cancel _ hd, hd]

theorem bitLength_eq_succ {n k : ℕ} (hlo : 2 ^ k ≤ n) (hhi : n < 2 ^ (k + 1)) :
    bitLength n = k + 1 := by
  have hn : n ≠ 0 := by have := Nat.two_pow_pos k; omega
  have hlog : n.log2 = k := (Nat.log2_eq_iff hn).2 ⟨hlo, hhi⟩
  simp [bitLength, hn, hlog]

theorem significand_of_lt {bits : ℕ} (h : bits < leadingBit) : significand bits = bits := if_pos h

theorem significand_of_le {bits : ℕ} (h : leadingBit ≤ bits) :
    significand bits = leadingBit + bits % leadingBit := if_neg (Nat.not_lt.2 h)

theorem scale_add_significand (bits : ℕ) : scale bits * leadingBit + significand bits = bits := by
  rcases Nat.lt_or_ge bits leadingBit with h | h
  · rw [significand_of_lt h, scale, Nat.div_eq_of_lt h, Nat.zero_sub, zero_mul, zero_add]
  · rw [significand_of_le h, scale, leadingBit]
    rw [leadingBit] at h
    omega

theorem significand_lt (bits : ℕ) : significand bits < 2 * leadingBit := by
  rcases Nat.lt_or_ge bits leadingBit with h | h
  · rw [significand_of_lt h]
    omega
  · rw [significand_of_le h]
    have := Nat.mod_lt bits (show 0 < leadingBit by decide)
    omega

theorem leadingBit_le_significand {bits : ℕ} (h : scale bits ≠ 0) :
    leadingBit ≤ significand bits := by
  rcases Nat.lt_or_ge bits leadingBit with hb | hb
  · exact absurd (by rw [scale, Nat.div_eq_of_lt hb]) h
  · rw [significand_of_le hb]
    exact Nat.le_add_right _ _

theorem bitLength_units (bits : ℕ) :
    bitLength (units bits / (2 * leadingBit)) = scale bits := by
  have hhi := significand_lt bits
  by_cases hs : scale bits = 0
  · rw [units, hs, Nat.shiftLeft_zero, Nat.div_eq_of_lt hhi]
    rfl
  · obtain ⟨k, hk⟩ := Nat.exists_eq_succ_of_ne_zero hs
    have hlo := leadingBit_le_significand hs
    have hdiv : units bits / (2 * leadingBit) = significand bits * 2 ^ k / leadingBit := by
      rw [units, Nat.shiftLeft_eq, hk, pow_succ, ← mul_assoc, mul_comm 2,
        Nat.mul_div_mul_right _ _ (by decide)]
    have hpos : 0 < leadingBit := by decide
    rw [hk, hdiv]
    apply bitLength_eq_succ
    · rw [Nat.le_div_iff_mul_le hpos, mul_comm]
      exact Nat.mul_le_mul_right _ hlo
    · rw [Nat.div_lt_iff_lt_mul hpos, pow_succ, mul_assoc, mul_comm]
      exact Nat.mul_lt_mul_of_pos_left hhi (Nat.two_pow_pos k)

theorem nearest_units {bits : ℕ} (h : bits < infinity) :
    nearest (units bits) unitsPerOne = bits := by
  have hone := unitsPerOne_pos
  have hquot : units bits * unitsPerOne / (unitsPerOne * (2 * leadingBit)) =
      units bits / (2 * leadingBit) := by
    rw [mul_comm, Nat.mul_div_mul_left _ _ hone]
  have hround : roundHalfEven (units bits * unitsPerOne) (unitsPerOne <<< scale bits) =
      significand bits := by
    rw [units, Nat.shiftLeft_eq, Nat.shiftLeft_eq, mul_assoc, mul_comm (2 ^ scale bits)]
    exact roundHalfEven_mul_right _ (Nat.mul_pos hone (Nat.two_pow_pos _))
  rw [nearest, hquot, bitLength_units, hround, scale_add_significand]
  exact Nat.min_eq_right (Nat.le_of_lt h)

end Quilt.Binary64
