import Mathlib
import Quilt.Json.Scaling
import Quilt.Proofs.Numeral

namespace Quilt

namespace Binary64

/-- A natural number of no more bits than a significand is a double. -/
theorem units_nearest_of_lt {n : ℕ} (h : n < 2 * leadingBit) :
    units (nearest n 1) = n * unitsPerOne := by
  obtain ⟨k, q, heq, hunits, hq, hnormal⟩ := exists_units_nearest n one_pos
  obtain ⟨m, hone⟩ : ∃ m, unitsPerOne = 2 ^ m := ⟨1074, by decide +kernel⟩
  have hk : k ≤ m := by
    refine hnormal.elim (by omega) fun hle => Nat.lt_succ_iff.1 ?_
    rw [one_mul, hone] at hle
    apply (Nat.pow_lt_pow_iff_right (a := 2) (by decide)).1
    rw [pow_succ]
    have hlt := Nat.mul_lt_mul_of_pos_right h (Nat.two_pow_pos m)
    nlinarith [show 0 < leadingBit by decide]
  have hexact : units (k * leadingBit + q) = n * unitsPerOne := by
    rw [hunits, hq, roundHalfEven_units n hone hk]
  have hbits : k * leadingBit + q ≤ infinity := by
    rw [← units_strictMono.le_iff_le, hexact]
    calc n * unitsPerOne ≤ 2 * leadingBit * unitsPerOne := Nat.mul_le_mul_right _ h.le
      _ ≤ units infinity := by decide +kernel
  rw [heq, min_eq_right hbits, hexact]

theorem units_powerOfTen {n : ℕ} (h : n ≤ 22) : units (powerOfTen n) = 10 ^ n * unitsPerOne := by
  have hall : ∀ k : Fin 23, units (powerOfTen k) = 10 ^ (k : ℕ) * unitsPerOne := by decide +kernel
  exact hall ⟨n, Nat.lt_succ_iff.2 h⟩

end Binary64

namespace Decimal
open Binary64

/-- When the coefficient and the power of ten are both doubles, only the result is rounded. -/
theorem scaled_eq_toMagnitude {c : ℕ} {e : ℤ} (hc : c < 2 * leadingBit) (he : e.natAbs ≤ 22) :
    scaled ⟨c, e⟩ = toMagnitude ⟨c, e⟩ := by
  have hone := unitsPerOne_pos
  have hlimit : greatestPower = 308 := rfl
  rw [toMagnitude_eq_nearest, scaled]
  dsimp only
  split_ifs with hneg hsmall hzero
  · have hpos : e.toNat = 0 := by omega
    have hplaces : (-e).toNat = e.natAbs := by omega
    rw [shrink, if_pos (by omega), overPower, units_nearest_of_lt hc, units_powerOfTen he,
      nearest_mul_mul _ _ hone, hpos, hplaces, pow_zero, mul_one]
  · have hplaces : (-e).toNat = 0 := by omega
    rw [timesPower, units_nearest_of_lt hc, units_powerOfTen (by omega), hplaces, pow_zero]
    apply nearest_congr (Nat.mul_pos hone hone) one_pos
    ring
  · omega
  · omega

end Decimal

namespace Json
open Binary64

namespace Numeral
variable {n : Numeral}

theorem takeDigits_of_lt {word : ℕ} {ds : List Char}
    (h : Nat.ofDigitChars 10 ds word < UInt64.size) :
    takeDigits word ds = (Nat.ofDigitChars 10 ds word, ds.length) := by
  induction ds generalizing word with
  | nil => rfl
  | cons d ds ih =>
    rw [Nat.ofDigitChars_cons] at h ⊢
    have hnext : 10 * word + (d.toNat - '0'.toNat) < UInt64.size := by
      refine lt_of_le_of_lt ?_ h
      rw [Nat.ofDigitChars_eq_ofDigitChars_zero]
      exact le_add_right (Nat.le_mul_of_pos_left _ (Nat.pow_pos (by decide)))
    rw [takeDigits]
    dsimp only
    rw [if_pos hnext, ih h]
    rfl

theorem leading_of_lt (h : n.toDecimal.coefficient < UInt64.size) : n.leading = n.toDecimal := by
  have hwhole : n.whole ≤ n.toDecimal.coefficient := by
    rw [toDecimal, Nat.ofDigitChars_eq_ofDigitChars_zero]
    exact le_add_right (Nat.le_mul_of_pos_left _ (Nat.pow_pos (by decide)))
  have hdigits := Nat.ofDigitChars_ten_toDigits (n := n.whole)
  have htake := takeDigits_of_lt (hdigits.symm ▸ hwhole.trans_lt h)
  rw [hdigits] at htake
  rw [leading]
  dsimp only
  rw [htake, takeDigits_of_lt h, toDecimal]
  dsimp only
  rw [Nat.sub_self, Nat.cast_zero, add_zero]

end Numeral

/-- Whether the digits of a double make up a number below `2 ^ 53`, and its point is no farther than
22 places away. -/
def IsShort (x : Float) : Prop :=
  (Numeral.ofFloat x).toDecimal.coefficient < 2 ^ 53 ∧
    (Numeral.ofFloat x).toDecimal.exponent.natAbs ≤ 22

instance {x : Float} : Decidable (IsShort x) := inferInstanceAs (Decidable (_ ∧ _))

theorem readsBack_of_isShort {x : Float} (hfinite : isFinite x) (h : IsShort x) :
    ReadsBack x := by
  have hleading := Numeral.leading_of_lt (h.1.trans (by decide))
  have hscaled := Decimal.scaled_eq_toMagnitude h.1 h.2
  change ofMagnitude _ (Numeral.ofFloat x).leading.scaled = x
  rw [hleading, hscaled, Numeral.toMagnitude_ofFloat hfinite, Numeral.negative_ofFloat,
    ofMagnitude_isNegative_magnitude]

example : ¬ReadsBack (100.49999999999999 : Float) := by decide +kernel

end Json

end Quilt
