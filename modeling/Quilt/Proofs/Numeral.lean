import Mathlib
import Quilt.Json.NumberReader
import Quilt.Proofs.Decimal

namespace Quilt

namespace Text
variable {width n : ℕ}

theorem isDigit_of_mem_toDigits {d : Char} (h : d ∈ Nat.toDigits 10 n) : d.isDigit :=
  Nat.isDigit_of_mem_toDigits (by decide) (by decide) h

theorem isDigit_of_mem_paddedDigits {d : Char} (h : d ∈ paddedDigits 10 width n) : d.isDigit := by
  obtain h | h := List.mem_append.1 h
  · rw [List.eq_of_mem_replicate h]
    rfl
  · exact isDigit_of_mem_toDigits h

theorem ofDigitChars_paddedDigits (width n init : ℕ) :
    Nat.ofDigitChars 10 (paddedDigits 10 width n) init =
      10 ^ (paddedDigits 10 width n).length * init + n := by
  have hzero : Nat.ofDigitChars 10 (paddedDigits 10 width n) 0 = n := by
    rw [paddedDigits, Nat.ofDigitChars_append, Nat.ofDigitChars_replicate_zero, mul_zero,
      Nat.ofDigitChars_ten_toDigits]
  rw [Nat.ofDigitChars_eq_ofDigitChars_zero, hzero]

theorem readDigits_paddedDigits (width n : ℕ) : readDigits (paddedDigits 10 width n) = some n := by
  have hall : (paddedDigits 10 width n).all Char.isDigit :=
    List.all_eq_true.2 fun _ => isDigit_of_mem_paddedDigits
  have hvalue := ofDigitChars_paddedDigits width n 0
  rw [mul_zero, zero_add] at hvalue
  unfold readDigits
  split
  next hnil =>
    have hempty : Nat.toDigits 10 n = [] := (List.append_eq_nil_iff.1 hnil).2
    exact absurd hempty Nat.toDigits_ne_nil
  next => rw [if_pos hall, hvalue]

theorem length_paddedDigits_of_lt (hwidth : 0 < width) (h : n < 10 ^ width) :
    (paddedDigits 10 width n).length = width := by
  have hle := (Nat.length_toDigits_le_iff (by decide) hwidth).2 h
  rw [paddedDigits, List.length_append, List.length_replicate, Nat.sub_add_cancel hle]

theorem exists_toDigits_eq_cons (hn : 0 < n) : ∃ d ds, Nat.toDigits 10 n = d :: ds ∧ d ≠ '0' := by
  induction n using Nat.strong_induction_on with
  | h n ih =>
    rcases Nat.lt_or_ge n 10 with hlt | hge
    · refine ⟨n.digitChar, [], Nat.toDigits_of_lt_base hlt, fun h => ?_⟩
      rw [Nat.digitChar_eq_zero] at h
      omega
    · obtain ⟨d, ds, hds, hd⟩ := ih (n / 10) (by omega) (by omega)
      refine ⟨d, ds ++ [(n % 10).digitChar], ?_, hd⟩
      rw [Nat.toDigits_of_base_le (by decide) hge, hds, List.cons_append]

end Text

namespace Binary64

theorem ofMagnitude_isNegative_magnitude (x : Float) :
    ofMagnitude (isNegative x) (magnitude x) = x := by
  have hbits : (if isNegative x then magnitude x + signBit else magnitude x) = x.toBits.toNat := by
    have hlt : x.toBits.toNat < 2 * signBit := x.toBits.toNat_lt
    unfold isNegative magnitude
    split_ifs with hsign
    · have hle : signBit ≤ x.toBits.toNat := of_decide_eq_true hsign
      rw [Nat.mod_eq_sub_mod hle, Nat.mod_eq_of_lt (by omega), Nat.sub_add_cancel hle]
    · have hsmall : x.toBits.toNat < signBit := by simpa using hsign
      exact Nat.mod_eq_of_lt hsmall
  rw [ofMagnitude, hbits, UInt64.ofNat_toNat, Float.ofBits_toBits]

end Binary64

namespace Json

namespace Numeral
open Binary64
open Decimal (toMagnitude toMagnitude_shift toMagnitude_shortest)

variable {x : Float} {n : Numeral}

/-- The number that a numeral is. -/
def toDecimal (n : Numeral) : Decimal :=
  ⟨Nat.ofDigitChars 10 n.fraction n.whole, n.exponent.getD 0 - n.fraction.length⟩

theorem toMagnitude_split (c places : ℕ) (e : ℤ) (hplaces : 0 < places) :
    toMagnitude ⟨Nat.ofDigitChars 10
        (Text.paddedDigits 10 places (c % 10 ^ places)) (c / 10 ^ places),
      e + places - (Text.paddedDigits 10 places (c % 10 ^ places)).length⟩ =
    toMagnitude ⟨c, e⟩ := by
  have hlength : (Text.paddedDigits 10 places (c % 10 ^ places)).length = places :=
    Text.length_paddedDigits_of_lt hplaces (Nat.mod_lt _ (Nat.pow_pos (by decide)))
  rw [Text.ofDigitChars_paddedDigits, hlength, Nat.div_add_mod, add_sub_cancel_right]

theorem toMagnitude_plain (negative : Bool) (d : Decimal) :
    (plain negative d).toDecimal.toMagnitude = d.toMagnitude := by
  obtain ⟨c, e⟩ := d
  unfold plain
  dsimp only
  split_ifs with he
  · have hexp : e - ((e.toNat + 1 : ℕ) : ℤ) = -1 := by omega
    have hcoefficient : c * 10 ^ (e.toNat + 1) =
        Nat.ofDigitChars 10 ['0'] (c * Decimal.powerOfTen e.toNat) := by
      rw [pow_succ, ← mul_assoc, mul_comm _ 10]
      rfl
    rw [← toMagnitude_shift c e (e.toNat + 1), hexp, hcoefficient]
    rfl
  · have hplaces : 0 < (-e).toNat := by omega
    have hexp : e + ((-e).toNat : ℤ) = 0 := by omega
    have hsplit := toMagnitude_split c (-e).toNat e hplaces
    rw [hexp] at hsplit
    exact hsplit

theorem toMagnitude_scientific (negative : Bool) (d : Decimal) :
    (scientific negative d).toDecimal.toMagnitude = d.toMagnitude := by
  obtain ⟨c, e⟩ := d
  unfold scientific
  dsimp only
  split_ifs with hplaces
  · rw [hplaces]
    change toMagnitude ⟨c / 1, e + ((0 : ℕ) : ℤ) - ((0 : ℕ) : ℤ)⟩ = _
    rw [Nat.div_one, Nat.cast_zero, add_zero, sub_zero]
  · exact toMagnitude_split c _ e (Nat.pos_of_ne_zero hplaces)

theorem ofFloat_cases (x : Float) :
    ofFloat x = plain (isNegative x) (Decimal.shortest (magnitude x)) ∨
      ofFloat x = scientific (isNegative x) (Decimal.shortest (magnitude x)) := by
  unfold ofFloat
  dsimp only
  split_ifs
  · exact .inl rfl
  · exact .inr rfl

theorem negative_ofFloat (x : Float) : (ofFloat x).negative = isNegative x := by
  obtain h | h := ofFloat_cases x
  · rw [h, plain]
    split_ifs <;> rfl
  · rw [h]
    rfl

theorem toMagnitude_ofFloat (h : isFinite x) :
    (ofFloat x).toDecimal.toMagnitude = magnitude x := by
  have hshortest := toMagnitude_shortest (of_decide_eq_true h)
  obtain heq | heq := ofFloat_cases x
  · rw [heq, toMagnitude_plain, hshortest]
  · rw [heq, toMagnitude_scientific, hshortest]

theorem isDigit_of_mem_fraction {d : Char} (h : d ∈ (ofFloat x).fraction) : d.isDigit := by
  obtain heq | heq := ofFloat_cases x
  · rw [heq, plain] at h
    dsimp only at h
    split_ifs at h
    · obtain rfl := List.mem_singleton.1 h
      rfl
    · exact Text.isDigit_of_mem_paddedDigits h
  · rw [heq, scientific] at h
    dsimp only at h
    split_ifs at h
    · cases h
    · exact Text.isDigit_of_mem_paddedDigits h

end Numeral

section Reading
variable [NumberReader] {x : Float} {n : Numeral}

/-- Whether a double is read back from its numeral. -/
def ReadsBack (x : Float) : Prop := NumberReader.read (Numeral.ofFloat x) = x

instance : Decidable (ReadsBack x) := inferInstanceAs (Decidable (_ = _))

theorem ReadsBack.toFloat?_ofFloat (h : ReadsBack x) (hfinite : Binary64.isFinite x) :
    (Numeral.ofFloat x).toFloat? = some x := by
  rw [ReadsBack] at h
  rw [Numeral.toFloat?, h]
  exact if_pos hfinite

theorem Numeral.isFinite_of_toFloat? (h : n.toFloat? = some x) : Binary64.isFinite x := by
  dsimp only [toFloat?] at h
  split_ifs at h with hfinite
  rwa [← Option.some.inj h]

end Reading

end Json

end Quilt
