import Mathlib
import Quilt.Proofs.Decimal

namespace Quilt

namespace Binary64

/-- Whether a magnitude is that of a whole number. -/
def IsWhole (bits : ℕ) : Prop := unitsPerOne ∣ units bits

theorem isWhole_nearest {n : ℕ} (h : nearest n 1 < infinity) : IsWhole (nearest n 1) := by
  obtain ⟨k, q, heq, hunits, hq, -⟩ := exists_units_nearest n one_pos
  have hbits : nearest n 1 = k * leadingBit + q := by
    rw [heq, min_lt_iff] at h
    rw [heq]
    exact min_eq_right (h.resolve_left (lt_irrefl _)).le
  obtain ⟨m, hone⟩ : ∃ m, unitsPerOne = 2 ^ m := ⟨1074, by decide +kernel⟩
  rw [IsWhole, hbits, hunits]
  rcases Nat.le_total k m with hk | hk
  · rw [hq, roundHalfEven_units n hone hk]
    exact dvd_mul_left _ _
  · rw [hone]
    exact (pow_dvd_pow 2 hk).mul_left q

end Binary64

namespace Decimal
open Binary64

variable {bits : ℕ}

theorem onGrid?_zero_ne_none (h : bits < infinity) (hwhole : IsWhole bits) :
    onGrid? bits 0 ≠ none := by
  obtain ⟨n, hn⟩ := hwhole
  have hpow : powerOfTen 0 = 1 := rfl
  have hlow : units bits / unitsPerOne = n := by
    rw [hn, Nat.mul_div_cancel_left _ unitsPerOne_pos]
  have hreads : toMagnitude ⟨n, 0⟩ = bits := by
    have hquot : n * 1 * unitsPerOne = units bits * 1 := by rw [hn, mul_one, mul_one, mul_comm]
    rw [toMagnitude_eq_nearest]
    change nearest (n * 1) 1 = bits
    rw [nearest_congr one_pos unitsPerOne_pos hquot, nearest_units h]
  unfold onGrid?
  simp only [neg_zero, Int.toNat_zero, hpow, mul_one, hlow, hreads, BEq.rfl, if_true]
  split_ifs <;> simp

theorem exponent_search_nonneg (h : bits < infinity) (hwhole : IsWhole bits) {n : ℕ}
    (hn : 1074 ≤ n) : 0 ≤ (search bits n).exponent := by
  induction n with
  | zero => omega
  | succ n ih =>
    rw [search]
    split
    · change (0 : ℤ) ≤ n - 1073
      omega
    · next hnone =>
      apply ih
      by_contra hlast
      have hzero : (n : ℤ) - 1073 = 0 := by omega
      rw [hzero] at hnone
      exact onGrid?_zero_ne_none h hwhole hnone

theorem lt_digitCount {n k : ℕ} (h : powerOfTen k ≤ n) : k < digitCount n :=
  (Nat.pow_lt_pow_iff_right (by decide)).1 (h.trans_lt (lt_pow_digitCount n))

theorem leadingExponent_nonneg (hpos : bits ≠ 0) (hwhole : IsWhole bits) :
    0 ≤ leadingExponent bits := by
  obtain ⟨n, hn⟩ := hwhole
  have hunits : 0 < units bits := Nat.zero_lt_of_lt (units_strictMono (Nat.pos_of_ne_zero hpos))
  have hone : 1 ≤ n := by
    rw [hn] at hunits
    exact Nat.pos_of_mul_pos_left hunits
  have hscaled : units bits * powerOfTen 324 / unitsPerOne = n * powerOfTen 324 := by
    rw [hn, mul_assoc, Nat.mul_div_cancel_left _ unitsPerOne_pos]
  have hdigits := lt_digitCount (Nat.le_mul_of_pos_left (powerOfTen 324) hone)
  rw [leadingExponent, hscaled]
  omega

theorem exponent_le_stripZeros (c : ℕ) (e : ℤ) : e ≤ (stripZeros c e).exponent := by
  fun_induction stripZeros c e with
  | case1 c e h ih => omega
  | case2 c e h => exact le_rfl

/-- The length of the search has a name here, or the kernel would compute with it. -/
theorem exists_shortest_eq_stripZeros (hpos : bits ≠ 0) :
    ∃ n, n = (leadingExponent bits + 1074).toNat ∧
      shortest bits = stripZeros (search bits n).coefficient (search bits n).exponent :=
  ⟨_, rfl, if_neg hpos⟩

theorem exponent_shortest_nonneg (h : bits < infinity) (hwhole : IsWhole bits) :
    0 ≤ (shortest bits).exponent := by
  by_cases hzero : bits = 0
  · rw [shortest, if_pos hzero]
  · obtain ⟨n, hn, heq⟩ := exists_shortest_eq_stripZeros hzero
    have hlead := leadingExponent_nonneg hzero hwhole
    rw [heq]
    exact (exponent_search_nonneg h hwhole (by omega)).trans (exponent_le_stripZeros _ _)

theorem exists_positional_shortest (h : bits < infinity) (hwhole : IsWhole bits) :
    ∃ n, (shortest bits).positional = Nat.toDigits 10 n ∧ nearest n 1 = bits := by
  have hexp := exponent_shortest_nonneg h hwhole
  have hneg : (-(shortest bits).exponent).toNat = 0 := by omega
  have hreads := toMagnitude_shortest h
  rw [toMagnitude_eq_nearest, hneg, pow_zero] at hreads
  exact ⟨_, if_pos hexp, hreads⟩

end Decimal

end Quilt
