import Mathlib
import Quilt.Formula.Printer
import Quilt.Proofs.Concatenation
import Quilt.Proofs.Whole

namespace Quilt

theorem Chain.text_cons (head operand : Operand) (op : Op) (tail : List (Op × Operand)) :
    text ⟨head, (op, operand) :: tail⟩ = head.text ++ op.symbol :: text ⟨operand, tail⟩ := by
  simp only [text, List.flatMap_cons, List.cons_append]

def Operand.IsFinite : Operand → Prop
  | component _ _ => True
  | literal value => Binary64.magnitude value ≠ Binary64.infinity

instance : DecidablePred Operand.IsFinite
  | .component _ _ => inferInstanceAs (Decidable True)
  | .literal value => inferInstanceAs (Decidable (Binary64.magnitude value ≠ Binary64.infinity))

/-- Whether no literal of a chain is infinite. -/
def Chain.IsFinite (c : Chain) : Prop := ∀ operand ∈ c.operands, operand.IsFinite

instance (c : Chain) : Decidable c.IsFinite :=
  inferInstanceAs (Decidable (∀ operand ∈ c.operands, operand.IsFinite))

namespace Formula
variable {numcolors : ℕ} {text : List Char} {operand : Operand} {c d : Chain}
  {tail : List (Op × Operand)}

theorem digitValue_lt_ten {digit : Char} (h : digit.isDigit) : digitValue digit < 10 :=
  (Nat.sub_le_sub_right (Char.isDigit_iff_toNat.1 h).2 _).trans_lt (by decide)

theorem exists_literalText {n : ℕ} {value : Float} (h : Binary64.RoundsTo n value)
    (hfinite : Binary64.magnitude value ≠ Binary64.infinity) :
    ∃ m, literalText value = Nat.toDigits 10 m ∧ Binary64.RoundsTo m value := by
  have hlt := lt_of_le_of_ne h.isNearest.le_infinity hfinite
  have hvalue := Binary64.ofMagnitude_magnitude h.isNegative_eq
  have hnearest : Binary64.magnitude value = Binary64.nearest n 1 :=
    h.isNearest.unique one_pos (Binary64.isNearest_nearest n one_pos)
  have hwhole : Binary64.IsWhole (Binary64.magnitude value) := by
    rw [hnearest] at hlt ⊢
    exact Binary64.isWhole_nearest hlt
  obtain ⟨m, hdigits, hm⟩ := Decimal.exists_positional_shortest hlt hwhole
  refine ⟨m, ?_, Binary64.roundsTo_iff.2 ?_⟩
  · rw [literalText, if_neg hfinite, hdigits]
  · rw [hm, hvalue]

theorem OperandText.text_self (h : OperandText numcolors text operand)
    (hfinite : operand.IsFinite) : OperandText numcolors operand.text operand := by
  cases h with
  | component ch hdigit hslot => exact operandText_component ch hslot (digitValue_lt_ten hdigit)
  | literal _ _ hvalue =>
    obtain ⟨m, hdigits, hm⟩ := exists_literalText hvalue hfinite
    rw [Operand.text, hdigits]
    exact operandText_toDigits hm

theorem operand_isFinite_of_chainText_text (h : ChainText numcolors operand.text d) :
    operand.IsFinite := by
  cases operand with
  | component ch slot => trivial
  | literal value =>
    have hscan : tokens "inf" = .error ⟨0, .strayCharacter 'i'⟩ := by decide +kernel
    intro hinfinite
    rw [Operand.text, literalText, if_pos hinfinite] at h
    have hcompile : compile numcolors "inf" = .ok ⟨"inf", d⟩ :=
      compile_eq_ok_iff_chainText.2 ⟨rfl, h⟩
    rw [compile, hscan] at hcompile
    cases hcompile

theorem tailText_text (htail : ∀ link ∈ tail, OperandText numcolors link.2.text link.2) :
    TailText numcolors (tail.flatMap fun link => link.1.symbol :: link.2.text) tail := by
  induction tail with
  | nil => exact .nil
  | cons link tail ih =>
    obtain ⟨hlink, htail⟩ := List.forall_mem_cons.1 htail
    exact .cons link.1 hlink (ih htail)

theorem chainText_text (hc : ∀ operand ∈ c.operands, OperandText numcolors operand.text operand) :
    ChainText numcolors c.text c := by
  obtain ⟨hhead, htail⟩ := List.forall_mem_cons.1 hc
  exact .cons hhead (tailText_text (List.forall_mem_map.1 htail))

theorem exists_chainText_of_text (h : ChainText numcolors c.text d) :
    ∀ operand ∈ c.operands, ∃ e, ChainText numcolors operand.text e := by
  obtain ⟨head, tail⟩ := c
  induction tail generalizing head d with
  | nil =>
    rw [Chain.text, List.flatMap_nil, List.append_nil] at h
    exact List.forall_mem_singleton.2 ⟨d, h⟩
  | cons link tail ih =>
    rw [Chain.text_cons] at h
    obtain ⟨f, g, hf, hg, -⟩ := h.exists_split
    exact List.forall_mem_cons.2 ⟨⟨f, hf⟩, ih link.2 hg⟩

theorem ChainText.text_self (h : ChainText numcolors text c) (hfinite : c.IsFinite) :
    ChainText numcolors c.text c := by
  refine chainText_text fun operand hoperand => ?_
  obtain ⟨_, htext⟩ := h.exists_operandText operand hoperand
  exact htext.text_self (hfinite operand hoperand)

theorem isFinite_of_chainText_text (h : ChainText numcolors c.text d) : c.IsFinite := by
  intro operand hoperand
  obtain ⟨_, htext⟩ := exists_chainText_of_text h operand hoperand
  exact operand_isFinite_of_chainText_text htext

theorem compile_display {source : String} {f : Formula} (h : compile numcolors source = .ok f)
    (hfinite : f.chain.IsFinite) :
    compile numcolors f.display = .ok ⟨f.display, f.chain⟩ := by
  refine compile_eq_ok_iff_chainText.2 ⟨rfl, ?_⟩
  rw [display, String.toList_ofList]
  exact (compile_eq_ok_iff_chainText.1 h).2.text_self hfinite

theorem isFinite_of_compile_display {f g : Formula} (h : compile numcolors f.display = .ok g) :
    f.chain.IsFinite := by
  have htext := (compile_eq_ok_iff_chainText.1 h).2
  rw [display, String.toList_ofList] at htext
  exact isFinite_of_chainText_text htext

/-- What a compiled formula is written as compiles unless one of its literals is infinite, and then
to the same chain: it has the same value in every state, and is written the same way again. -/
theorem display_reads_back {source : String} {f : Formula}
    (h : compile numcolors source = .ok f) :
    ((∃ g, compile numcolors f.display = .ok g) ↔ f.chain.IsFinite) ∧
      ∀ g, compile numcolors f.display = .ok g →
        g.chain = f.chain ∧ (∀ s, g.eval s = f.eval s) ∧ g.display = f.display := by
  constructor
  · constructor
    · rintro ⟨g, hg⟩
      exact isFinite_of_compile_display hg
    · intro hfinite
      exact ⟨_, compile_display h hfinite⟩
  · intro g hg
    have hagain := compile_display h (isFinite_of_compile_display hg)
    obtain rfl := Except.ok.inj (hagain.symm.trans hg)
    exact ⟨rfl, fun _ => rfl, rfl⟩

/-- A long literal is written with the digits that its double needs. -/
theorem display_reads_back_long_literal :
    ∃ f g, compile 2 "g0*007 - 12345678901234567890123" = .ok f ∧ f.chain.IsFinite ∧
      f.display = "g0*7-12345678901234568000000" ∧ compile 2 f.display = .ok g ∧
        g.chain = f.chain := by
  have hf : compile 2 "g0*007 - 12345678901234567890123" =
      .ok ⟨"g0*007 - 12345678901234567890123", .component .green 0,
        [(.mul, .literal 7), (.sub, .literal 12345678901234567890123)]⟩ := by decide +kernel
  obtain ⟨hcompiles, hagain⟩ := display_reads_back hf
  have hfinite : Chain.IsFinite ⟨.component .green 0,
      [(.mul, .literal 7), (.sub, .literal 12345678901234567890123)]⟩ := by decide +kernel
  obtain ⟨g, hg⟩ := hcompiles.2 hfinite
  exact ⟨_, g, hf, hfinite, by decide +kernel, hg, (hagain g hg).1⟩

example : ¬Chain.IsFinite ⟨.literal (readLiteral (List.replicate 309 '9')), []⟩ := by
  decide +kernel

end Formula

end Quilt
