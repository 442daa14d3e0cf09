import Mathlib
import Quilt.Proofs.Grammar

namespace Quilt

theorem Op.symbol_inj {a b : Op} : a.symbol = b.symbol ↔ a = b := by
  refine ⟨fun h => ?_, congrArg symbol⟩
  have hof := ofSymbol?_symbol a
  rw [h, ofSymbol?_symbol] at hof
  exact (Option.some.inj hof).symm

theorem Chain.eval_append_cons (s : ColorState) (c d : Chain) (op : Op) :
    Chain.eval s ⟨c.head, c.tail ++ (op, d.head) :: d.tail⟩ =
      evalFrom s (op.apply (c.eval s) (d.head.eval s)) d.tail := by
  simp only [eval, evalFrom, List.foldl_append, List.foldl_cons]

theorem exists_append_of_notMem {α : Type} {u v a b : List α} {x : α} (hx : x ∉ u)
    (h : u ++ v = a ++ x :: b) : ∃ a', a = u ++ a' ∧ v = a' ++ x :: b := by
  obtain h | ⟨c, hu, hc⟩ := List.append_eq_append_iff.1 h
  · exact h
  · cases c with
    | nil => exact ⟨[], by simp [hu], hc.symm⟩
    | cons y c =>
      obtain ⟨rfl, -⟩ := List.cons.inj hc
      exact absurd (by simp [hu]) hx

namespace Formula
variable {numcolors : ℕ} {text a b : List Char} {operand : Operand} {op : Op} {c : Chain}
  {tail : List (Op × Operand)}

theorem symbol_notMem_blanks (op : Op) {blanks : List Char}
    (hblanks : ∀ c ∈ blanks, Text.isBlank c) : op.symbol ∉ blanks := by
  intro hmem
  have hblank := hblanks _ hmem
  rw [isBlank_symbol] at hblank
  cases hblank

theorem OperandText.symbol_notMem (h : OperandText numcolors text operand) (op : Op) :
    op.symbol ∉ text := by
  cases h with
  | component ch hdigit hslot =>
    rw [List.mem_pair, not_or]
    constructor
    · intro hletter
      have hnone := ofSymbol?_letter ch
      rw [← hletter, Op.ofSymbol?_symbol] at hnone
      cases hnone
    · rintro rfl
      rw [isDigit_symbol] at hdigit
      cases hdigit
  | literal hne hdigits hvalue =>
    intro hmem
    have hdigit := hdigits _ hmem
    rw [isDigit_symbol] at hdigit
    cases hdigit

theorem TailText.exists_split (h : TailText numcolors text tail)
    (htext : text = a ++ op.symbol :: b) :
    ∃ links d, TailText numcolors a links ∧ ChainText numcolors b d ∧
      tail = links ++ (op, d.head) :: d.tail := by
  induction h generalizing a with
  | done hblanks =>
    refine absurd ?_ (symbol_notMem_blanks op hblanks)
    rw [htext]
    exact List.mem_append_right _ (List.mem_cons_self ..)
  | @link before after value rest op' operand tail hbefore hafter hoperand hrest ih =>
    obtain ⟨a, rfl, hlink⟩ := exists_append_of_notMem (symbol_notMem_blanks op hbefore) htext
    -- The operator is the first of the tail, or it stands behind the first operand.
    cases a with
    | nil =>
      obtain ⟨hsymbol, rfl⟩ := List.cons.inj hlink
      obtain rfl := Op.symbol_inj.1 hsymbol
      rw [List.append_nil]
      exact ⟨[], ⟨operand, tail⟩, .done hbefore, .intro hafter hoperand hrest, rfl⟩
    | cons symbol a =>
      obtain ⟨rfl, hspace⟩ := List.cons.inj hlink
      obtain ⟨a, rfl, hvalue⟩ := exists_append_of_notMem (symbol_notMem_blanks op hafter) hspace
      obtain ⟨a, rfl, hfollow⟩ := exists_append_of_notMem (hoperand.symbol_notMem op) hvalue
      obtain ⟨links, d, hlinks, hd, rfl⟩ := ih hfollow
      exact ⟨(op', operand) :: links, d, .link hbefore hafter hoperand hlinks, hd, rfl⟩

theorem ChainText.exists_split (h : ChainText numcolors (a ++ op.symbol :: b) c) :
    ∃ f g, ChainText numcolors a f ∧ ChainText numcolors b g ∧
      c = ⟨f.head, f.tail ++ (op, g.head) :: g.tail⟩ := by
  generalize htext : a ++ op.symbol :: b = text at h
  cases h with
  | @intro before value rest head tail hbefore hhead hrest =>
    obtain ⟨a, rfl, hvalue⟩ := exists_append_of_notMem (symbol_notMem_blanks op hbefore) htext.symm
    obtain ⟨a, rfl, hfollow⟩ := exists_append_of_notMem (hhead.symbol_notMem op) hvalue
    obtain ⟨links, g, hlinks, hg, rfl⟩ := hrest.exists_split hfollow
    exact ⟨⟨head, links⟩, g, .intro hbefore hhead hlinks, hg, rfl⟩

theorem ChainText.tailText (h : ChainText numcolors b c) (op : Op) :
    TailText numcolors (op.symbol :: b) ((op, c.head) :: c.tail) := by
  obtain ⟨hbefore, hhead, hrest⟩ := h
  exact .link (List.forall_mem_nil _) hbefore hhead hrest

theorem chainText_append_symbol_iff : ChainText numcolors (a ++ op.symbol :: b) c ↔
    ∃ f g, ChainText numcolors a f ∧ ChainText numcolors b g ∧
      c = ⟨f.head, f.tail ++ (op, g.head) :: g.tail⟩ := by
  constructor
  · exact ChainText.exists_split
  · rintro ⟨f, g, hf, hg, rfl⟩
    exact hf.append (hg.tailText op)

/-- Two texts with an operator between them compile when both of them do. The chain of the first
then goes on with the operator and the chain of the second, and so does the value. -/
theorem compile_concatenation (numcolors : ℕ) (a b : String) (op : Op) :
    ((∃ h, compile numcolors (a ++ op.symbol.toString ++ b) = .ok h) ↔
      (∃ f, compile numcolors a = .ok f) ∧ ∃ g, compile numcolors b = .ok g) ∧
    ∀ f g, compile numcolors a = .ok f → compile numcolors b = .ok g →
      ∃ h, compile numcolors (a ++ op.symbol.toString ++ b) = .ok h ∧
        h.chain = ⟨f.chain.head, f.chain.tail ++ (op, g.chain.head) :: g.chain.tail⟩ ∧
        ∀ s, h.eval s =
          Chain.evalFrom s (op.apply (f.eval s) (g.chain.head.eval s)) g.chain.tail := by
  have htext : (a ++ op.symbol.toString ++ b).toList = a.toList ++ op.symbol :: b.toList := by
    simp [Char.toString]
  constructor
  · simp only [compile_eq_ok_iff_chainText, htext, chainText_append_symbol_iff]
    constructor
    · rintro ⟨-, -, f, g, hf, hg, -⟩
      exact ⟨⟨⟨a, f⟩, rfl, hf⟩, ⟨b, g⟩, rfl, hg⟩
    · rintro ⟨⟨f, -, hf⟩, g, -, hg⟩
      exact ⟨⟨_, _⟩, rfl, f.chain, g.chain, hf, hg, rfl⟩
  · intro f g hf hg
    have hf := (compile_eq_ok_iff_chainText.1 hf).2
    have hg := (compile_eq_ok_iff_chainText.1 hg).2
    refine ⟨⟨_, _⟩, compile_eq_ok_iff_chainText.2 ⟨rfl, ?_⟩, rfl, fun s => ?_⟩
    · rw [htext]
      exact chainText_append_symbol_iff.2 ⟨_, _, hf, hg, rfl⟩
    · exact Chain.eval_append_cons s f.chain g.chain op

/-- The value goes on from the left: twice `1+2`, and one less. -/
theorem compile_concatenation_product :
    compile 1 "1+2" = .ok ⟨"1+2", .literal 1, [(.add, .literal 2)]⟩ ∧
      compile 1 " 2-1" = .ok ⟨" 2-1", .literal 2, [(.sub, .literal 1)]⟩ ∧
      ∃ h, compile 1 "1+2* 2-1" = .ok h ∧ h.eval ⟨[.black]⟩ = 5 := by
  have hf : compile 1 "1+2" = .ok ⟨"1+2", .literal 1, [(.add, .literal 2)]⟩ := by decide +kernel
  have hg : compile 1 " 2-1" = .ok ⟨" 2-1", .literal 2, [(.sub, .literal 1)]⟩ := by decide +kernel
  obtain ⟨h, hh, -, heval⟩ := (compile_concatenation 1 "1+2" " 2-1" .mul).2 _ _ hf hg
  refine ⟨hf, hg, h, hh, ?_⟩
  rw [heval]
  decide +kernel

end Formula

end Quilt
