import Mathlib
import Quilt.Formula.Parser
import Quilt.Proofs.Rounding
import Quilt.Proofs.Tokens

namespace Quilt

/-- The value of a chain, one operator after the other: the last one is applied last. -/
inductive Chain.FoldsTo (s : ColorState) : Chain → Float → Prop
  | head (operand : Operand) : FoldsTo s ⟨operand, []⟩ (operand.eval s)
  | link {head operand : Operand} {tail : List (Op × Operand)} {op : Op} {value : Float}
      (h : FoldsTo s ⟨head, tail⟩ value) :
      FoldsTo s ⟨head, tail ++ [(op, operand)]⟩ (op.apply value (operand.eval s))

theorem Chain.eval_append_singleton (s : ColorState) (head : Operand) (tail : List (Op × Operand))
    (link : Op × Operand) : Chain.eval s ⟨head, tail ++ [link]⟩ =
      link.1.apply (Chain.eval s ⟨head, tail⟩) (link.2.eval s) := by
  simp only [eval, evalFrom, List.foldl_append, List.foldl_cons, List.foldl_nil]

theorem Chain.foldsTo_eval (s : ColorState) (c : Chain) : c.FoldsTo s (c.eval s) := by
  obtain ⟨head, tail⟩ := c
  induction tail using List.reverseRecOn with
  | nil => exact .head head
  | append_singleton tail link ih =>
    rw [eval_append_singleton]
    exact .link ih

theorem Chain.FoldsTo.eq_eval {s : ColorState} {c : Chain} {value : Float} (h : c.FoldsTo s value) :
    value = c.eval s := by
  induction h with
  | head operand => rfl
  | link _ ih => rw [ih, eval_append_singleton]

namespace Formula
variable {numcolors offset : ℕ} {text rest : List Char} {operand : Operand} {c : Chain}
  {tail : List (Op × Operand)}

/-- The text of an operand: a channel letter and one digit for a slot that there is, or digits. -/
inductive OperandText (numcolors : ℕ) : List Char → Operand → Prop
  | component (ch : Channel) {digit : Char} (hdigit : digit.isDigit)
      (hslot : digitValue digit < numcolors) :
      OperandText numcolors [ch.letter, digit] (.component ch (digitValue digit))
  | literal {digits : List Char} {value : Float} (hne : digits ≠ [])
      (hdigits : ∀ d ∈ digits, d.isDigit)
      (hvalue : Binary64.RoundsTo (Nat.ofDigitChars 10 digits 0) value) :
      OperandText numcolors digits (.literal value)

/-- The text after an operand: operators, each with an operand, and blanks between all of them. -/
inductive TailText (numcolors : ℕ) : List Char → List (Op × Operand) → Prop
  | done {blanks : List Char} (hblanks : ∀ c ∈ blanks, Text.isBlank c) :
      TailText numcolors blanks []
  | link {before after text rest : List Char} {op : Op} {operand : Operand}
      {tail : List (Op × Operand)} (hbefore : ∀ c ∈ before, Text.isBlank c)
      (hafter : ∀ c ∈ after, Text.isBlank c) (hoperand : OperandText numcolors text operand)
      (hrest : TailText numcolors rest tail) :
      TailText numcolors (before ++ op.symbol :: (after ++ (text ++ rest))) ((op, operand) :: tail)

/-- The text of a whole formula, where `WS` is a blank:

    Operand := ('r' | 'g' | 'b') Digit | Digit+
    Chain   := WS* Operand (WS* Op WS* Operand)* WS* -/
inductive ChainText (numcolors : ℕ) : List Char → Chain → Prop
  | intro {before text rest : List Char} {head : Operand} {tail : List (Op × Operand)}
      (hbefore : ∀ c ∈ before, Text.isBlank c) (hhead : OperandText numcolors text head)
      (hrest : TailText numcolors rest tail) :
      ChainText numcolors (before ++ (text ++ rest)) ⟨head, tail⟩

theorem isDigit_head_blanks {blanks : List Char} (hblanks : ∀ c ∈ blanks, Text.isBlank c)
    (hrest : ∀ d ∈ rest.head?, d.isDigit = false) :
    ∀ d ∈ (blanks ++ rest).head?, d.isDigit = false := by
  cases blanks with
  | nil => exact hrest
  | cons b blanks =>
    rintro d ⟨⟩
    have hb : Text.isBlank b = true := hblanks b (List.mem_cons_self ..)
    by_contra hd
    rw [Text.isBlank_eq_false_of_isDigit (by simpa using hd)] at hb
    cases hb

theorem TailText.isDigit_head (h : TailText numcolors text tail) :
    ∀ d ∈ text.head?, d.isDigit = false := by
  cases h with
  | done hblanks =>
    rw [← text.append_nil]
    exact isDigit_head_blanks hblanks (by simp)
  | link hbefore =>
    apply isDigit_head_blanks hbefore
    rintro d ⟨⟩
    exact isDigit_symbol _

theorem OperandText.exists_kind (h : OperandText numcolors text operand) :
    ∃ kind : TokenKind, kind.text = text ∧ kind.IsSpelled ∧
      (∀ rest : List Char, (∀ d ∈ rest.head?, d.isDigit = false) → kind.EndsBefore rest) ∧
      ∀ offset, readOperand numcolors (kind.placedAt offset) = .ok operand := by
  cases h with
  | component ch hdigit hslot =>
    refine ⟨.component ch _, rfl, hdigit, fun _ _ => trivial, fun offset => ?_⟩
    exact if_pos hslot
  | literal hne hdigits hvalue =>
    refine ⟨.number _, rfl, ⟨hne, hdigits⟩, fun _ h => h, fun offset => ?_⟩
    rw [Binary64.roundsTo_iff.1 hvalue]
    rfl

theorem OperandText.exists_tiles {blanks : List Char} (h : OperandText numcolors text operand)
    (hblanks : ∀ c ∈ blanks, Text.isBlank c) (hrest : ∀ d ∈ rest.head?, d.isDigit = false)
    (htail : ∀ offset, ∃ ts, Tiles offset rest ts ∧ readTail numcolors ts = .ok tail)
    (offset : ℕ) :
    ∃ t ts, Tiles offset (blanks ++ (text ++ rest)) (t :: ts) ∧
      readOperand numcolors t = .ok operand ∧ readTail numcolors ts = .ok tail := by
  obtain ⟨kind, rfl, hspelled, hends, hread⟩ := h.exists_kind
  obtain ⟨ts, htiles, hts⟩ := htail (offset + byteLength blanks + byteLength kind.text)
  exact ⟨_, ts, .token kind hblanks hspelled (hends rest hrest) htiles, hread _, hts⟩

theorem readTail_operator (op : Op) {start stop : ℕ} {t : Token} {ts : List Token}
    (hread : readOperand numcolors t = .ok operand) (hts : readTail numcolors ts = .ok tail) :
    readTail numcolors (⟨.operator op, start, stop⟩ :: t :: ts) = .ok ((op, operand) :: tail) := by
  rw [readTail, hread]
  change (readTail numcolors ts >>= _) = _
  rw [hts]
  rfl

theorem TailText.exists_tiles (h : TailText numcolors text tail) (offset : ℕ) :
    ∃ ts, Tiles offset text ts ∧ readTail numcolors ts = .ok tail := by
  induction h generalizing offset with
  | done hblanks => exact ⟨_, .finish hblanks, rfl⟩
  | @link before after text rest op operand tail hbefore hafter hoperand hrest ih =>
    obtain ⟨t, ts, htiles, hread, hts⟩ := hoperand.exists_tiles hafter hrest.isDigit_head ih
      (offset + byteLength before + byteLength [op.symbol])
    exact ⟨_, .token (.operator op) hbefore trivial trivial htiles,
      readTail_operator op hread hts⟩

theorem ChainText.exists_tiles (h : ChainText numcolors text c) (offset : ℕ) :
    ∃ ts, Tiles offset text ts ∧ readChain numcolors ts = .ok c := by
  obtain ⟨hbefore, hhead, hrest⟩ := h
  obtain ⟨t, ts, htiles, hread, hts⟩ :=
    hhead.exists_tiles hbefore hrest.isDigit_head hrest.exists_tiles offset
  refine ⟨_, htiles, ?_⟩
  rw [readChain, hread]
  change (readTail numcolors ts >>= _) = _
  rw [hts]
  rfl

theorem OperandText.of_readOperand {t : Token} (hspelled : t.kind.IsSpelled)
    (h : readOperand numcolors t = .ok operand) : OperandText numcolors t.kind.text operand := by
  obtain ⟨kind, start, stop⟩ := t
  cases kind with
  | component ch digit =>
    dsimp only [readOperand] at h
    split_ifs at h with hslot
    cases h
    exact .component ch hspelled hslot
  | number digits =>
    cases h
    exact .literal hspelled.1 hspelled.2 (Binary64.roundsTo_iff.2 rfl)
  | operator op => cases h
  | finish => cases h

theorem exists_text_of_tiles {t : Token} {ts : List Token} (htiles : Tiles offset text (t :: ts))
    (h : readOperand numcolors t = .ok operand) :
    ∃ blanks value rest offset', text = blanks ++ (value ++ rest) ∧
      (∀ c ∈ blanks, Text.isBlank c) ∧ OperandText numcolors value operand ∧
        Tiles offset' rest ts := by
  cases htiles with
  | finish => cases h
  | token kind hblanks hspelled hends hrest =>
    exact ⟨_, _, _, _, rfl, hblanks, .of_readOperand hspelled h, hrest⟩

theorem TailText.of_readTail {ts : List Token} (htiles : Tiles offset text ts)
    (h : readTail numcolors ts = .ok tail) : TailText numcolors text tail := by
  fun_induction readTail numcolors ts generalizing text offset tail with
  | case1 => cases htiles
  | case2 start stop ts =>
    cases h
    cases htiles with
    | finish hblanks => exact .done hblanks
    | token _ _ hspelled => cases hspelled
  | case3 op start stop t ts ih =>
    obtain ⟨operand, hread, h⟩ := bind_eq_ok.1 h
    obtain ⟨tail, htail, h⟩ := bind_eq_ok.1 h
    obtain rfl := pure_eq_ok.1 h
    cases htiles with
    | token _ hbefore _ _ hrest =>
      obtain ⟨after, value, rest, _, rfl, hafter, hvalue, hrest⟩ := exists_text_of_tiles hrest hread
      change TailText numcolors (_ ++ op.symbol :: (after ++ (value ++ rest))) _
      exact .link hbefore hafter hvalue (ih hrest htail)
  | case4 => cases h

theorem ChainText.of_readChain {ts : List Token} (htiles : Tiles offset text ts)
    (h : readChain numcolors ts = .ok c) : ChainText numcolors text c := by
  cases ts with
  | nil => cases h
  | cons t ts =>
    obtain ⟨head, hread, h⟩ := bind_eq_ok.1 h
    obtain ⟨tail, htail, h⟩ := bind_eq_ok.1 h
    obtain rfl := pure_eq_ok.1 h
    obtain ⟨before, value, rest, _, rfl, hbefore, hvalue, hrest⟩ :=
      exists_text_of_tiles htiles hread
    exact .intro hbefore hvalue (.of_readTail hrest htail)

theorem compile_eq_ok_iff_chainText {source : String} {f : Formula} :
    compile numcolors source = .ok f ↔
      f.source = source ∧ ChainText numcolors source.toList f.chain := by
  constructor
  · intro h
    obtain ⟨ts, hts, h⟩ := bind_eq_ok.1 h
    obtain ⟨c, hc, h⟩ := bind_eq_ok.1 h
    obtain rfl := pure_eq_ok.1 h
    exact ⟨rfl, .of_readChain (scan_eq_ok_iff.1 hts) hc⟩
  · rintro ⟨rfl, h⟩
    obtain ⟨ts, htiles, hc⟩ := h.exists_tiles 0
    exact bind_eq_ok.2 ⟨ts, scan_eq_ok_iff.2 htiles, bind_eq_ok.2 ⟨_, hc, rfl⟩⟩

/-- A formula compiles when the grammar derives it, to the chain that is derived, and its value in a
state is that of the chain folded from the left. -/
theorem compile_follows_grammar (numcolors : ℕ) (source : String) :
    ((∃ f, compile numcolors source = .ok f) ↔ ∃ c, ChainText numcolors source.toList c) ∧
      (∀ f, compile numcolors source = .ok f ↔
        f.source = source ∧ ChainText numcolors source.toList f.chain) ∧
      ∀ (f : Formula) (s : ColorState) (value : Float),
        f.chain.FoldsTo s value ↔ value = f.eval s := by
  refine ⟨?_, fun f => compile_eq_ok_iff_chainText, fun f s value => ?_⟩
  · constructor
    · rintro ⟨f, hf⟩
      exact ⟨f.chain, (compile_eq_ok_iff_chainText.1 hf).2⟩
    · rintro ⟨c, hc⟩
      exact ⟨⟨source, c⟩, compile_eq_ok_iff_chainText.2 ⟨rfl, hc⟩⟩
  · constructor
    · exact Chain.FoldsTo.eq_eval
    · rintro rfl
      exact f.chain.foldsTo_eval s

example : compile 2 "\u2003r1*12 \t-g0" =
    .ok ⟨"\u2003r1*12 \t-g0",
      ⟨.component .red 1, [(.mul, .literal 12), (.sub, .component .green 0)]⟩⟩ := by
  decide +kernel

theorem TailText.exists_operandText (h : TailText numcolors text tail) :
    ∀ link ∈ tail, ∃ value, OperandText numcolors value link.2 := by
  induction h with
  | done => exact List.forall_mem_nil _
  | link _ _ hoperand _ ih => exact List.forall_mem_cons.2 ⟨⟨_, hoperand⟩, ih⟩

theorem ChainText.exists_operandText (h : ChainText numcolors text c) :
    ∀ operand ∈ c.operands, ∃ value, OperandText numcolors value operand := by
  obtain ⟨-, hhead, hrest⟩ := h
  exact List.forall_mem_cons.2 ⟨⟨_, hhead⟩, List.forall_mem_map.2 hrest.exists_operandText⟩

theorem operandText_component (ch : Channel) {slot : ℕ} (hslot : slot < numcolors)
    (hten : slot < 10) :
    OperandText numcolors (ch.letter :: Nat.toDigits 10 slot) (.component ch slot) := by
  have hdigit : slot.digitChar.isDigit := by rw [Nat.isDigit_digitChar, decide_eq_true hten]
  have hvalue : digitValue slot.digitChar = slot := by
    rw [digitValue, Nat.toNat_digitChar_of_lt_ten hten]
    exact Nat.add_sub_cancel_left 48 slot
  have htext : OperandText numcolors _ _ := .component ch hdigit (by rwa [hvalue])
  rwa [hvalue, ← Nat.toDigits_of_lt_base hten] at htext

theorem operandText_toDigits {n : ℕ} {value : Float} (h : Binary64.RoundsTo n value) :
    OperandText numcolors (Nat.toDigits 10 n) (.literal value) := by
  refine .literal Nat.toDigits_ne_nil
    (fun d hd => Nat.isDigit_of_mem_toDigits (by decide) (by decide) hd) ?_
  rwa [Nat.ofDigitChars_toDigits (by decide) (by decide)]

theorem TailText.cons (op : Op) (hoperand : OperandText numcolors text operand)
    (hrest : TailText numcolors rest tail) :
    TailText numcolors (op.symbol :: (text ++ rest)) ((op, operand) :: tail) :=
  .link (List.forall_mem_nil _) (List.forall_mem_nil _) hoperand hrest

theorem ChainText.cons (hhead : OperandText numcolors text operand)
    (hrest : TailText numcolors rest tail) :
    ChainText numcolors (text ++ rest) ⟨operand, tail⟩ :=
  .intro (List.forall_mem_nil _) hhead hrest

theorem TailText.nil : TailText numcolors [] [] := .done (List.forall_mem_nil _)

theorem TailText.blanks_append {blanks : List Char} (hblanks : ∀ c ∈ blanks, Text.isBlank c)
    (h : TailText numcolors text tail) : TailText numcolors (blanks ++ text) tail := by
  cases h with
  | done htext => exact .done (List.forall_mem_append.2 ⟨hblanks, htext⟩)
  | link hbefore hafter hoperand hrest =>
    rw [← List.append_assoc]
    exact .link (List.forall_mem_append.2 ⟨hblanks, hbefore⟩) hafter hoperand hrest

theorem TailText.append {links : List (Op × Operand)} (h : TailText numcolors text tail)
    (hrest : TailText numcolors rest links) :
    TailText numcolors (text ++ rest) (tail ++ links) := by
  induction h with
  | done hblanks => exact hrest.blanks_append hblanks
  | link hbefore hafter hoperand _ ih =>
    simp only [List.append_assoc, List.cons_append]
    exact .link hbefore hafter hoperand ih

theorem ChainText.append {links : List (Op × Operand)} (h : ChainText numcolors text c)
    (hrest : TailText numcolors rest links) :
    ChainText numcolors (text ++ rest) ⟨c.head, c.tail ++ links⟩ := by
  cases h with
  | intro hbefore hhead htail =>
    simp only [List.append_assoc]
    exact .intro hbefore hhead (htail.append hrest)

theorem compile_append {source rest : String} {f : Formula} {links : List (Op × Operand)}
    (h : compile numcolors source = .ok f) (hrest : TailText numcolors rest.toList links) :
    compile numcolors (source ++ rest) =
      .ok ⟨source ++ rest, ⟨f.chain.head, f.chain.tail ++ links⟩⟩ := by
  rw [compile_eq_ok_iff_chainText] at h ⊢
  refine ⟨rfl, ?_⟩
  rw [String.toList_append]
  exact h.2.append hrest

end Formula

end Quilt
