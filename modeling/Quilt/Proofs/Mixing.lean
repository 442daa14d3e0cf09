import Mathlib
import Quilt.Proofs.Draws

namespace Quilt.Random

/-- Takes back the xor of a word with itself shifted to the right. -/
def unshift (n z : UInt64) : UInt64 := z ^^^ (z >>> n) ^^^ (z >>> n >>> n)

/-- What has been shifted three times is gone if each shift is a third of the word or more. -/
theorem unshift_xor_shift {n : UInt64} (hn : 64 ≤ 3 * (n.toNat % 64)) (z : UInt64) :
    unshift n (z ^^^ (z >>> n)) = z := by
  apply UInt64.toNat_inj.1
  simp only [unshift, UInt64.toNat_xor, UInt64.toNat_shiftRight, Nat.shiftRight_xor_distrib]
  generalize n.toNat % 64 = k at hn
  have hgone : z.toNat >>> k >>> k >>> k = 0 := by
    rw [← Nat.shiftRight_add, ← Nat.shiftRight_add]
    apply Nat.shiftRight_eq_zero
    exact z.toNat_lt.trans_le (Nat.pow_le_pow_right two_pos (by omega))
  rw [hgone, Nat.xor_zero]
  -- The word shifted once and the word shifted twice each stand here two times.
  generalize z.toNat >>> k >>> k = twice
  generalize z.toNat >>> k = once
  rw [Nat.xor_assoc, Nat.xor_assoc, Nat.xor_assoc, Nat.xor_self, Nat.xor_zero, Nat.xor_self,
    Nat.xor_zero]

theorem xor_shift_injective {n : UInt64} (hn : 64 ≤ 3 * (n.toNat % 64)) :
    Function.Injective fun z : UInt64 => z ^^^ (z >>> n) :=
  Function.LeftInverse.injective (unshift_xor_shift hn)

theorem mul_injective {m inverse : UInt64} (h : m * inverse = 1) :
    Function.Injective fun z : UInt64 => z * m := by
  apply Function.LeftInverse.injective (g := fun z => z * inverse)
  intro z
  simp only [UInt64.mul_assoc, h, UInt64.mul_one]

theorem mix_injective : Function.Injective mix := by
  have hfirst : (0xBF58476D1CE4E5B9 : UInt64) * 0x96DE1B173F119089 = 1 := by decide
  have hsecond : (0x94D049BB133111EB : UInt64) * 0x319642B2D24D8EC3 = 1 := by decide
  have hshift : Function.Injective fun z : UInt64 => z ^^^ (z >>> 30) :=
    xor_shift_injective (by decide)
  have hshift' : Function.Injective fun z : UInt64 => z ^^^ (z >>> 27) :=
    xor_shift_injective (by decide)
  have hlast : Function.Injective fun z : UInt64 => z ^^^ (z >>> 31) :=
    xor_shift_injective (by decide)
  exact hlast.comp <| (mul_injective hsecond).comp <| hshift'.comp <|
    (mul_injective hfirst).comp hshift

theorem ofNat_mul_step_eq_iff {m n : ℕ} :
    UInt64.ofNat m * step = .ofNat n * step ↔ m ≡ n [MOD 2 ^ 64] := by
  have hstep : step * 0xF1DE83E19937733D = 1 := by decide
  rw [(mul_injective hstep).eq_iff, ← UInt64.toNat_inj, UInt64.toNat_ofNat', UInt64.toNat_ofNat']
  rfl

/-- The number drawn after some others. -/
def drawn (random : Random) (count : ℕ) : UInt64 := (next (random.after count)).1

theorem drawn_eq (random : Random) (count : ℕ) :
    random.drawn count = mix (random.state + .ofNat (count + 1) * step) := by
  have hnext : random.drawn count = mix ((random.after count).state + step) := rfl
  rw [hnext, state_after, UInt64.ofNat_add, UInt64.ofNat_one, UInt64.add_mul, UInt64.one_mul,
    UInt64.add_assoc]

theorem drawn_eq_iff {random random' : Random} {i j : ℕ} :
    random.drawn i = random'.drawn j ↔
      random.state + .ofNat (i + 1) * step = random'.state + .ofNat (j + 1) * step := by
  rw [drawn_eq, drawn_eq, mix_injective.eq_iff]

theorem drawn_ofSeed_eq_iff {seed seed' : UInt64} {count : ℕ} :
    (ofSeed seed).drawn count = (ofSeed seed').drawn count ↔ seed = seed' := by
  rw [drawn_eq_iff, UInt64.add_left_inj]
  rfl

theorem drawn_eq_drawn_iff {random : Random} {i j : ℕ} :
    random.drawn i = random.drawn j ↔ i ≡ j [MOD 2 ^ 64] := by
  rw [drawn_eq_iff, UInt64.add_right_inj, ofNat_mul_step_eq_iff]
  exact ⟨Nat.ModEq.add_right_cancel' 1, Nat.ModEq.add_right 1⟩

theorem existsUnique_drawn (random : Random) (first : ℕ) (v : UInt64) :
    ∃! k, k < 2 ^ 64 ∧ random.drawn (first + k) = v := by
  have heq : ∀ i j, random.drawn (first + i) = random.drawn (first + j) ↔ i ≡ j [MOD 2 ^ 64] := by
    intro i j
    rw [drawn_eq_drawn_iff]
    exact ⟨Nat.ModEq.add_left_cancel' first, Nat.ModEq.add_left first⟩
  have hinjective : Function.Injective fun word : UInt64 => random.drawn (first + word.toNat) := by
    intro word word' h
    apply UInt64.toNat_inj.1
    exact ((heq _ _).1 h).eq_of_lt_of_lt word.toNat_lt word'.toNat_lt
  obtain ⟨word, hword⟩ := Finite.surjective_of_injective hinjective v
  refine ⟨word.toNat, ⟨word.toNat_lt, hword⟩, ?_⟩
  rintro k ⟨hk, hdrawn⟩
  exact ((heq _ _).1 (hdrawn.trans hword.symm)).eq_of_lt_of_lt hk word.toNat_lt

/-- After as many draws, only equal seeds draw the same number. One seed draws a number again exactly
after a multiple of `2 ^ 64` draws, and any `2 ^ 64` draws in a row give every word once. -/
theorem drawn_once_in_period :
    (∀ seed seed' count, (ofSeed seed).drawn count = (ofSeed seed').drawn count ↔ seed = seed') ∧
      (∀ seed i j, (ofSeed seed).drawn i = (ofSeed seed).drawn j ↔ i ≡ j [MOD 2 ^ 64]) ∧
      ∀ seed first v, ∃! k, k < 2 ^ 64 ∧ (ofSeed seed).drawn (first + k) = v :=
  ⟨fun _ _ _ => drawn_ofSeed_eq_iff, fun _ _ _ => drawn_eq_drawn_iff,
    fun seed => existsUnique_drawn (ofSeed seed)⟩

end Quilt.Random
