import Mathlib
import Quilt.Proofs.Binary64

namespace Quilt.Binary64

theorem scale_significand_add {k q : ℕ} (hhi : q < 2 * leadingBit) (hlo : k = 0 ∨ leadingBit ≤ q) :
    scale (k * leadingBit + q) = k ∧ significand (k * leadingBit + q) = q := by
  unfold scale significand
  unfold leadingBit at *
  split_ifs <;> omega

theorem units_add {k q : ℕ} (hhi : q ≤ 2 * leadingBit) (hlo : k = 0 ∨ leadingBit ≤ q) :
    units (k * leadingBit + q) = q * 2 ^ k := by
  rcases hhi.lt_or_eq with hlt | rfl
  · obtain ⟨hscale, hsig⟩ := scale_significand_add hlt hlo
    rw [units, hscale, hsig, Nat.shiftLeft_eq]
  · obtain ⟨hscale, hsig⟩ := scale_significand_add (k := k + 1) (q := leadingBit) (by decide)
      (.inr le_rfl)
    have hcarry : k * leadingBit + 2 * leadingBit = (k + 1) * leadingBit + leadingBit := by ring
    rw [hcarry, units, hscale, hsig, Nat.shiftLeft_eq]
    ring

theorem units_lt_units_succ (bits : ℕ) : units bits < units (bits + 1) := by
  have hlo : scale bits = 0 ∨ leadingBit ≤ significand bits + 1 :=
    (Nat.eq_zero_or_pos _).imp_right fun h =>
      (leadingBit_le_significand (Nat.ne_of_gt h)).trans (Nat.le_succ _)
  have hsucc : units (bits + 1) = (significand bits + 1) * 2 ^ scale bits := by
    conv_lhs => rw [← scale_add_significand bits, add_assoc]
    exact units_add (significand_lt bits) hlo
  rw [hsucc, units, Nat.shiftLeft_eq]
  exact Nat.mul_lt_mul_of_pos_right (Nat.lt_succ_self _) (Nat.two_pow_pos _)

theorem units_strictMono : StrictMono units := strictMono_nat_of_lt_succ units_lt_units_succ

theorem units_eq_mul_or_lt (bits k : ℕ) :
    (∃ j, units bits = j * 2 ^ k) ∨ k ≠ 0 ∧ units bits < leadingBit * 2 ^ k := by
  rcases Nat.lt_or_ge (scale bits) k with h | h
  · right
    refine ⟨Nat.ne_of_gt (Nat.zero_lt_of_lt h), ?_⟩
    have hsig := significand_lt bits
    calc units bits = significand bits * 2 ^ scale bits := Nat.shiftLeft_eq _ _
      _ < 2 * leadingBit * 2 ^ scale bits := Nat.mul_lt_mul_of_pos_right hsig (Nat.two_pow_pos _)
      _ = leadingBit * 2 ^ (scale bits + 1) := by ring
      _ ≤ leadingBit * 2 ^ k := Nat.mul_le_mul_left _ (Nat.pow_le_pow_right two_pos h)
  · left
    refine ⟨significand bits * 2 ^ (scale bits - k), ?_⟩
    rw [units, Nat.shiftLeft_eq, mul_assoc, ← pow_add, Nat.sub_add_cancel h]

theorem roundHalfEven_cases (num : ℕ) {den : ℕ} (hden : 0 < den) :
    ∃ q r, num = q * den + r ∧ r < den ∧
      (2 * r < den ∧ roundHalfEven num den = q ∨ den < 2 * r ∧ roundHalfEven num den = q + 1 ∨
        2 * r = den ∧ (roundHalfEven num den = q ∨ roundHalfEven num den = q + 1) ∧
          Even (roundHalfEven num den)) := by
  refine ⟨num / den, num % den, (Nat.div_add_mod' num den).symm, Nat.mod_lt _ hden, ?_⟩
  dsimp only [roundHalfEven]
  split_ifs with hlow hhigh
  · exact .inl ⟨hlow, rfl⟩
  · exact .inr (.inl ⟨hhigh, rfl⟩)
  · refine .inr (.inr ⟨by omega, by omega, ?_⟩)
    rw [Nat.even_iff]
    omega

theorem mul_step (i j den : ℕ) :
    i = j ∨ i * den + den ≤ j * den ∨ j * den + den ≤ i * den := by
  rw [← Nat.succ_mul, ← Nat.succ_mul]
  rcases Nat.lt_trichotomy i j with h | h | h
  · exact .inr (.inl (Nat.mul_le_mul_right _ h))
  · exact .inl h
  · exact .inr (.inr (Nat.mul_le_mul_right _ h))

theorem roundHalfEven_nearest {num den : ℕ} (hden : 0 < den) {j : ℕ}
    (hj : j ≠ roundHalfEven num den) :
    (roundHalfEven num den * den).dist num < (j * den).dist num ∨
      (roundHalfEven num den * den).dist num = (j * den).dist num ∧
        Even (roundHalfEven num den) := by
  obtain ⟨q, r, hnum, hr, h⟩ := roundHalfEven_cases num hden
  have hstep := (mul_step j (roundHalfEven num den) den).resolve_left hj
  unfold Nat.dist
  -- Below a half, above a half, and a tie with the even one below or above.
  obtain ⟨hlt, h⟩ | ⟨hlt, h⟩ | ⟨heq, h | h, heven⟩ := h
  · rw [h] at hstep ⊢
    omega
  · rw [h, Nat.succ_mul] at hstep ⊢
    omega
  · rw [h] at hstep ⊢
    rw [h] at heven
    simp only [heven, and_true]
    omega
  · rw [h] at heven
    rw [h, Nat.succ_mul] at hstep ⊢
    simp only [heven, and_true]
    omega

theorem roundHalfEven_dist_le {den : ℕ} (hden : 0 < den) (num j : ℕ) :
    (roundHalfEven num den * den).dist num ≤ (j * den).dist num := by
  by_cases hj : j = roundHalfEven num den
  · rw [hj]
  · exact (roundHalfEven_nearest hden hj).elim le_of_lt fun h => h.1.le

theorem le_roundHalfEven {num den q : ℕ} (hden : 0 < den) (h : q * den ≤ num) :
    q ≤ roundHalfEven num den := by
  obtain ⟨p, r, rfl, hr, hround⟩ := roundHalfEven_cases num hden
  have hp : q ≤ p := by
    by_contra hlt
    have hle := Nat.mul_le_mul_right den (Nat.lt_of_not_le hlt)
    rw [Nat.succ_mul] at hle
    omega
  omega

theorem roundHalfEven_le {num den q : ℕ} (hden : 0 < den) (h : num < q * den) :
    roundHalfEven num den ≤ q := by
  obtain ⟨p, r, rfl, hr, hround⟩ := roundHalfEven_cases num hden
  have hp : p < q := by
    by_contra hge
    have hle := Nat.mul_le_mul_right den (Nat.le_of_not_lt hge)
    omega
  omega

theorem bitLength_bounds (n : ℕ) :
    n < 2 ^ bitLength n ∧ (bitLength n = 0 ∨ 2 ^ bitLength n ≤ 2 * n) := by
  unfold bitLength
  split_ifs with h
  · simp [h]
  · have hlo := Nat.log2_self_le h
    rw [pow_succ, mul_comm]
    exact ⟨by rw [mul_comm, ← pow_succ]; exact Nat.lt_log2_self, .inr (Nat.mul_le_mul_left 2 hlo)⟩

/-- How far a magnitude is from `num / den`, in parts of `den` of the least double. -/
def distance (num den bits : ℕ) : ℕ := (units bits * den).dist (num * unitsPerOne)

/-- The magnitude nearest to `num / den`, the one with the even pattern of two that are equally
near. Infinity stands where the next finite magnitude would. -/
structure IsNearest (num den bits : ℕ) : Prop where
  le_infinity : bits ≤ infinity
  nearest : ∀ other ≤ infinity, other ≠ bits → distance num den bits < distance num den other ∨
    distance num den bits = distance num den other ∧ Even bits

/-- The exponent of the nearest magnitude is chosen so that its rounded significand has its leading
bit in place. -/
theorem exists_units_nearest (num : ℕ) {den : ℕ} (hden : 0 < den) :
    ∃ k q, nearest num den = min infinity (k * leadingBit + q) ∧
      units (k * leadingBit + q) = q * 2 ^ k ∧
        q = roundHalfEven (num * unitsPerOne) (den * 2 ^ k) ∧
          (k = 0 ∨ leadingBit * (den * 2 ^ k) ≤ num * unitsPerOne) := by
  set scaled := num * unitsPerOne with hscaled
  set k := bitLength (scaled / (den * (2 * leadingBit))) with hk
  set q := roundHalfEven scaled (den * 2 ^ k) with hq
  have hstep : 0 < den * 2 ^ k := Nat.mul_pos hden (Nat.two_pow_pos k)
  have hblock : 0 < den * (2 * leadingBit) := Nat.mul_pos hden (by decide)
  obtain ⟨hhi, hlo⟩ := bitLength_bounds (scaled / (den * (2 * leadingBit)))
  rw [← hk, Nat.div_lt_iff_lt_mul hblock] at hhi
  have hnormal : k = 0 ∨ leadingBit * (den * 2 ^ k) ≤ scaled := by
    refine hlo.imp_right fun h => ?_
    have hle := Nat.div_mul_le_self scaled (den * (2 * leadingBit))
    nlinarith
  have hqhi : q ≤ 2 * leadingBit := roundHalfEven_le hstep (by nlinarith)
  have hqlo : k = 0 ∨ leadingBit ≤ q := hnormal.imp_right (le_roundHalfEven hstep)
  exact ⟨k, q, by rw [nearest, ← hscaled, ← hk, Nat.shiftLeft_eq], units_add hqhi hqlo, rfl,
    hnormal⟩

/-- A step of an exponent that divides the unit rounds no natural number. -/
theorem roundHalfEven_units (n : ℕ) {k m : ℕ} (hone : unitsPerOne = 2 ^ m) (hk : k ≤ m) :
    roundHalfEven (n * unitsPerOne) (1 * 2 ^ k) * 2 ^ k = n * unitsPerOne := by
  have hsplit : unitsPerOne = 2 ^ (m - k) * 2 ^ k := by rw [hone, ← pow_add, Nat.sub_add_cancel hk]
  rw [one_mul, hsplit, ← mul_assoc, roundHalfEven_mul_right _ (Nat.two_pow_pos k)]

/-- Without a greatest magnitude the rounded significand with its exponent is nearest. -/
theorem exists_nearest (num : ℕ) {den : ℕ} (hden : 0 < den) :
    ∃ bits, nearest num den = min infinity bits ∧ ∀ other ≠ bits,
      distance num den bits < distance num den other ∨
        distance num den bits = distance num den other ∧ Even bits := by
  obtain ⟨k, q, heq, hunits, hq, hnormal⟩ := exists_units_nearest num hden
  have hstep : 0 < den * 2 ^ k := Nat.mul_pos hden (Nat.two_pow_pos k)
  have hdist : ∀ {bits j : ℕ}, units bits = j * 2 ^ k →
      distance num den bits = (j * (den * 2 ^ k)).dist (num * unitsPerOne) := by
    intro bits j h
    rw [distance, h, mul_assoc, mul_comm (2 ^ k)]
  refine ⟨k * leadingBit + q, heq, fun other hother => ?_⟩
  rw [hdist hunits]
  obtain ⟨j, hj⟩ | ⟨hne, hbelow⟩ := units_eq_mul_or_lt other k
  · have hjq : j ≠ q := by
      rintro rfl
      exact hother (units_strictMono.injective (hj.trans hunits.symm))
    rw [hdist hj, hq]
    refine (roundHalfEven_nearest hstep (hq ▸ hjq)).imp_right (And.imp_right fun heven => ?_)
    exact (Nat.even_mul.2 (.inr (by decide))).add heven
  · -- The least normal magnitude of the exponent lies between this one and the quotient.
    left
    have hmul : units other * den < leadingBit * (den * 2 ^ k) := by nlinarith
    have hleast := roundHalfEven_dist_le hstep (num * unitsPerOne) leadingBit
    have hle := hnormal.resolve_left hne
    rw [← hq] at hleast
    unfold distance Nat.dist at *
    omega

theorem isNearest_nearest (num : ℕ) {den : ℕ} (hden : 0 < den) :
    IsNearest num den (nearest num den) := by
  obtain ⟨bits, heq, hbits⟩ := exists_nearest num hden
  rw [heq]
  rcases Nat.lt_or_ge infinity bits with h | h
  · rw [min_eq_left h.le]
    refine ⟨le_rfl, fun other hle hne => .inl ?_⟩
    have hlow := Nat.mul_lt_mul_of_pos_right (units_strictMono (lt_of_le_of_ne hle hne)) hden
    have hhigh := Nat.mul_lt_mul_of_pos_right (units_strictMono h) hden
    have hinf := hbits infinity h.ne
    unfold distance Nat.dist at *
    omega
  · rw [min_eq_right h]
    exact ⟨h, fun other _ => hbits other⟩

theorem IsNearest.not_lt {num den a b : ℕ} (hden : 0 < den) (ha : IsNearest num den a)
    (hb : IsNearest num den b) : ¬a < b := by
  intro hlt
  have hab := ha.nearest b hb.le_infinity hlt.ne'
  have hba := hb.nearest a ha.le_infinity hlt.ne
  -- Two that are equally near are both even, and the magnitude between them is nearer than both.
  have heq : distance num den a = distance num den b := by omega
  have ha' : Even a := (hab.resolve_left (by omega)).2
  have hb' : Even b := (hba.resolve_left (by omega)).2
  have hbetween : a + 1 < b := by
    rw [Nat.even_iff] at ha' hb'
    omega
  have hmid := ha.nearest (a + 1) (hbetween.le.trans hb.le_infinity) (Nat.succ_ne_self a)
  have hlow := Nat.mul_lt_mul_of_pos_right (units_lt_units_succ a) hden
  have hhigh := Nat.mul_lt_mul_of_pos_right (units_strictMono hbetween) hden
  unfold distance Nat.dist at *
  omega

theorem IsNearest.unique {num den a b : ℕ} (hden : 0 < den) (ha : IsNearest num den a)
    (hb : IsNearest num den b) : a = b := by
  rcases Nat.lt_trichotomy a b with h | h | h
  · exact absurd h (ha.not_lt hden hb)
  · exact h
  · exact absurd h (hb.not_lt hden ha)

open Float.Model.UnpackedFloat in
theorem toBits_ofBits {b : UInt64} (h : b.toNat % signBit ≤ infinity) :
    (Float.ofBits b).toBits = b := by
  have hnan : @isNaNBits Float.Model.Format.binary64 b.toBitVec = false := by
    simp only [isNaNBits, unpackExponent_def, unpackMantissa_def, decide_eq_false_iff_not,
      not_and, not_not]
    intro hexp
    have hexp := congrArg BitVec.toNat hexp
    apply BitVec.eq_of_toNat_eq
    simp [BitVec.extractLsb'_toNat, Nat.shiftRight_eq_div_pow, signBit, infinity] at *
    omega
  apply UInt64.toBitVec_inj.1
  change pack Float.Model.Format.binary64 (unpack Float.Model.Format.binary64 b.toBitVec) = _
  rw [pack_unpack, hnan]
  rfl

theorem toBits_ofMagnitude {bits : ℕ} (h : bits ≤ infinity) :
    (ofMagnitude false bits).toBits.toNat = bits := by
  have hsmall : bits < signBit := h.trans_lt (by decide)
  have hword : (UInt64.ofNat bits).toNat = bits :=
    UInt64.toNat_ofNat_of_lt' (hsmall.trans (by decide))
  change (Float.ofBits (UInt64.ofNat bits)).toBits.toNat = bits
  rw [toBits_ofBits, hword]
  rwa [hword, Nat.mod_eq_of_lt hsmall]

/-- The double that stands for a natural number. -/
structure RoundsTo (n : ℕ) (x : Float) : Prop where
  isNegative_eq : isNegative x = false
  isNearest : IsNearest n 1 (magnitude x)

theorem magnitude_ofMagnitude {bits : ℕ} (h : bits ≤ infinity) :
    isNegative (ofMagnitude false bits) = false ∧ magnitude (ofMagnitude false bits) = bits := by
  have hsmall : bits < signBit := h.trans_lt (by decide)
  rw [isNegative, magnitude, toBits_ofMagnitude h, Nat.mod_eq_of_lt hsmall]
  exact ⟨decide_eq_false (Nat.not_le_of_lt hsmall), rfl⟩

theorem ofMagnitude_magnitude {x : Float} (h : isNegative x = false) :
    ofMagnitude false (magnitude x) = x := by
  have hsmall : x.toBits.toNat < signBit := Nat.lt_of_not_le (of_decide_eq_false h)
  rw [magnitude, Nat.mod_eq_of_lt hsmall]
  change Float.ofBits (UInt64.ofNat x.toBits.toNat) = x
  rw [UInt64.ofNat_toNat, Float.ofBits_toBits]

theorem roundsTo_iff {n : ℕ} {x : Float} : RoundsTo n x ↔ x = ofMagnitude false (nearest n 1) := by
  have hnearest := isNearest_nearest n one_pos
  constructor
  · rintro ⟨hsign, hx⟩
    rw [← hx.unique one_pos hnearest, ofMagnitude_magnitude hsign]
  · rintro rfl
    obtain ⟨hsign, hmag⟩ := magnitude_ofMagnitude hnearest.le_infinity
    exact ⟨hsign, hmag.symm ▸ hnearest⟩

end Quilt.Binary64
