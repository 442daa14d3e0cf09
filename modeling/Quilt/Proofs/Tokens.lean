import Mathlib
import Quilt.Formula.Token
import Quilt.Proofs.Checks

namespace Quilt

theorem Op.ofSymbol?_eq_none {c : Char} (h : ∀ op : Op, op.symbol ≠ c) : Op.ofSymbol? c = none := by
  simpa [Op.ofSymbol?, List.find?_eq_none] using fun op _ => h op

theorem Channel.ofLetter?_eq_none {c : Char} (h : ∀ ch : Channel, ch.letter ≠ c) :
    Channel.ofLetter? c = none := by
  simpa [Channel.ofLetter?, List.find?_eq_none] using fun ch _ => h ch

namespace Formula

theorem isBlank_symbol (op : Op) : Text.isBlank op.symbol = false := by cases op <;> decide

theorem utf8Size_symbol (op : Op) : op.symbol.utf8Size = 1 := by cases op <;> decide

theorem isDigit_symbol (op : Op) : op.symbol.isDigit = false := by cases op <;> decide

theorem isBlank_letter (ch : Channel) : Text.isBlank ch.letter = false := by cases ch <;> decide

theorem utf8Size_letter (ch : Channel) : ch.letter.utf8Size = 1 := by cases ch <;> decide

theorem isDigit_letter (ch : Channel) : ch.letter.isDigit = false := by cases ch <;> decide

theorem ofSymbol?_letter (ch : Channel) : Op.ofSymbol? ch.letter = none := by cases ch <;> rfl

theorem ofSymbol?_digit {d : Char} (hd : d.isDigit) : Op.ofSymbol? d = none := by
  apply Op.ofSymbol?_eq_none
  rintro op rfl
  rw [isDigit_symbol] at hd
  cases hd

theorem ofLetter?_digit {d : Char} (hd : d.isDigit) : Channel.ofLetter? d = none := by
  apply Channel.ofLetter?_eq_none
  rintro ch rfl
  rw [isDigit_letter] at hd
  cases hd

theorem utf8Size_digit {d : Char} (hd : d.isDigit) : d.utf8Size = 1 := by
  have hrange : 48 ≤ d.toNat ∧ d.toNat ≤ 57 := by
    simpa [Char.isDigit, UInt32.le_iff_toNat_le] using hd
  rw [Char.utf8Size_eq_one_iff, UInt32.le_iff_toNat_le]
  exact hrange.2.trans (by decide)

theorem byteLength_digits {ds : List Char} (h : ∀ d ∈ ds, d.isDigit) :
    byteLength ds = ds.length := by
  induction ds with
  | nil => rfl
  | cons d ds ih =>
    rw [List.forall_mem_cons] at h
    rw [byteLength, utf8Size_digit h.1, ih h.2, List.length_cons, add_comm]

theorem byteLength_eq_utf8Len (cs : List Char) : byteLength cs = String.utf8Len cs := by
  induction cs with
  | nil => rfl
  | cons c cs ih => rw [byteLength, String.utf8Len_cons, ih, add_comm]

theorem byteLength_append (cs ds : List Char) :
    byteLength (cs ++ ds) = byteLength cs + byteLength ds := by
  simp only [byteLength_eq_utf8Len, String.utf8Len_append]

theorem byteLength_eq_utf8ByteSize (cs : List Char) :
    byteLength cs = (String.ofList cs).utf8ByteSize := by
  rw [byteLength_eq_utf8Len, String.utf8ByteSize_ofList]

/-- The texts that a token may have in a source. The end of a source is no text. -/
def TokenKind.IsSpelled : TokenKind → Prop
  | .component _ digit => digit.isDigit
  | .number digits => digits ≠ [] ∧ ∀ d ∈ digits, d.isDigit
  | .operator _ => True
  | .finish => False

/-- Whether a token may end before the rest of a source: a number takes every digit there is. -/
def TokenKind.EndsBefore (kind : TokenKind) (rest : List Char) : Prop :=
  match kind with
  | .number _ => ∀ d ∈ rest.head?, d.isDigit = false
  | _ => True

/-- The tokens of a source that starts at the given offset, with the blanks around them. -/
inductive Tiles : ℕ → List Char → List Token → Prop
  | finish {offset : ℕ} {blanks : List Char} (hblanks : ∀ c ∈ blanks, Text.isBlank c) :
      Tiles offset blanks [TokenKind.finish.placedAt (offset + byteLength blanks)]
  | token (kind : TokenKind) {offset : ℕ} {blanks rest : List Char} {ts : List Token}
      (hblanks : ∀ c ∈ blanks, Text.isBlank c) (hspelled : kind.IsSpelled)
      (hends : kind.EndsBefore rest)
      (hrest : Tiles (offset + byteLength blanks + byteLength kind.text) rest ts) :
      Tiles offset (blanks ++ (kind.text ++ rest))
        (kind.placedAt (offset + byteLength blanks) :: ts)

variable {offset : ℕ} {cs : List Char} {ts : List Token} {kind : TokenKind}

theorem Tiles.blank {c : Char} (hc : Text.isBlank c) (h : Tiles (offset + c.utf8Size) cs ts) :
    Tiles offset (c :: cs) ts := by
  cases h with
  | finish hblanks =>
    rw [add_assoc]
    exact .finish (List.forall_mem_cons.2 ⟨hc, hblanks⟩)
  | token kind hblanks hspelled hends hrest =>
    rw [add_assoc offset] at hrest ⊢
    exact .token kind (List.forall_mem_cons.2 ⟨hc, hblanks⟩) hspelled hends hrest

theorem Tiles.text (kind : TokenKind) (hspelled : kind.IsSpelled) (hends : kind.EndsBefore cs)
    (h : Tiles (offset + byteLength kind.text) cs ts) :
    Tiles offset (kind.text ++ cs) (kind.placedAt offset :: ts) :=
  .token kind (List.forall_mem_nil _) hspelled hends h

theorem byteLength_operator (op : Op) : byteLength (TokenKind.operator op).text = 1 := by
  rw [TokenKind.text, byteLength, byteLength, utf8Size_symbol]

theorem byteLength_component (ch : Channel) {d : Char} (hd : d.isDigit) :
    byteLength (TokenKind.component ch d).text = 2 := by
  rw [TokenKind.text, byteLength, byteLength, byteLength, utf8Size_letter, utf8Size_digit hd]

theorem scan_blanks {blanks : List Char} (h : ∀ c ∈ blanks, Text.isBlank c) (offset : ℕ)
    (cs : List Char) : scan offset (blanks ++ cs) = scan (offset + byteLength blanks) cs := by
  induction blanks generalizing offset with
  | nil => rfl
  | cons c blanks ih =>
    rw [List.forall_mem_cons] at h
    rw [List.cons_append, scan, if_pos h.1, ih h.2, byteLength, add_assoc]

theorem takeWhile_digits {ds : List Char} (hds : ∀ d ∈ ds, d.isDigit)
    (hcs : ∀ d ∈ cs.head?, d.isDigit = false) :
    (ds ++ cs).takeWhile Char.isDigit = ds ∧ (ds ++ cs).dropWhile Char.isDigit = cs := by
  rw [List.takeWhile_append_of_pos hds, List.dropWhile_append_of_pos hds]
  cases cs with
  | nil => simp
  | cons c cs =>
    have hc : c.isDigit = false := hcs c rfl
    simp [hc]

theorem number_isSpelled {c : Char} (hc : c.isDigit) (cs : List Char) :
    c :: cs = (c :: cs.takeWhile Char.isDigit) ++ cs.dropWhile Char.isDigit ∧
      (TokenKind.number (c :: cs.takeWhile Char.isDigit)).IsSpelled ∧
      (TokenKind.number (c :: cs.takeWhile Char.isDigit)).EndsBefore
        (cs.dropWhile Char.isDigit) := by
  refine ⟨?_, ⟨List.cons_ne_nil _ _, ?_⟩, ?_⟩
  · rw [List.cons_append, List.takeWhile_append_dropWhile]
  · exact List.forall_mem_cons.2 ⟨hc, fun d hmem => List.mem_takeWhile_imp hmem⟩
  · intro d hmem
    have hstop := List.head?_dropWhile_not Char.isDigit cs
    rw [hmem] at hstop
    simpa using hstop

theorem scan_text (hspelled : kind.IsSpelled) (hends : kind.EndsBefore cs) (offset : ℕ) :
    scan offset (kind.text ++ cs) =
      (scan (offset + byteLength kind.text) cs).map (kind.placedAt offset :: ·) := by
  cases kind with
  | component ch digit =>
    have hdigit : digit.isDigit = true := hspelled
    rw [byteLength_component ch hdigit, TokenKind.text, List.cons_append, scan,
      if_neg (by simp [isBlank_letter])]
    simp only [ofSymbol?_letter, Channel.ofLetter?_letter, List.cons_append, List.nil_append,
      hdigit, if_true]
  | number digits =>
    obtain ⟨hne, hdigits⟩ := hspelled
    obtain ⟨d, ds, rfl⟩ := List.exists_cons_of_ne_nil hne
    obtain ⟨hd, hds⟩ := List.forall_mem_cons.1 hdigits
    obtain ⟨htake, hdrop⟩ := takeWhile_digits hds hends
    rw [TokenKind.text, byteLength_digits hdigits, List.cons_append, scan,
      if_neg (by simp [Text.isBlank_eq_false_of_isDigit hd])]
    simp only [ofSymbol?_digit hd, ofLetter?_digit hd, hd, if_true, htake, hdrop]
  | operator op =>
    rw [byteLength_operator, TokenKind.text, List.cons_append, scan,
      if_neg (by simp [isBlank_symbol])]
    simp only [Op.ofSymbol?_symbol, List.nil_append]
  | finish => cases hspelled

theorem Tiles.of_scan (h : scan offset cs = .ok ts) : Tiles offset cs ts := by
  fun_induction scan offset cs generalizing ts with
  | case1 offset =>
    cases h
    exact .finish (List.forall_mem_nil _)
  | case2 offset c rest hc ih => exact .blank hc (ih h)
  | case3 offset c rest hc op hop ih =>
    obtain ⟨ts, hts, rfl⟩ := map_eq_ok.1 h
    obtain rfl := Op.symbol_of_ofSymbol? hop
    apply Tiles.text (.operator op) trivial trivial
    rw [byteLength_operator]
    exact ih hts
  | case4 offset c hc ch hch d rest hd hop ih =>
    obtain ⟨ts, hts, rfl⟩ := map_eq_ok.1 h
    obtain rfl := Channel.letter_of_ofLetter? hch
    apply Tiles.text (.component ch d) hd trivial
    rw [byteLength_component ch hd]
    exact ih hts
  | case5 | case6 | case8 => cases h
  | case7 offset c cs hc hd digits hop hch =>
    rename_i ih
    obtain ⟨ts, hts, rfl⟩ := map_eq_ok.1 h
    obtain ⟨hsplit, hspelled, hends⟩ := number_isSpelled hd cs
    rw [hsplit]
    apply Tiles.text (.number digits) hspelled hends
    rw [TokenKind.text, byteLength_digits hspelled.2]
    exact ih hts

/-- The scanner finds the tokens that tile its source, and there is but one way to tile a source. -/
theorem scan_eq_ok_iff : scan offset cs = .ok ts ↔ Tiles offset cs ts := by
  constructor
  · exact Tiles.of_scan
  · intro h
    induction h with
    | @finish offset blanks hblanks =>
      rw [← blanks.append_nil, scan_blanks hblanks, scan, List.append_nil]
    | token kind hblanks hspelled hends _ ih =>
      rw [scan_blanks hblanks, scan_text hspelled hends, ih]
      rfl

section Faults
variable {place : ℕ} {before after : List Char} {e : Error}

/-- The characters that neither a token nor a blank begins with. -/
def IsStray (c : Char) : Prop :=
  Text.isBlank c = false ∧ (∀ op : Op, op.symbol ≠ c) ∧ (∀ ch : Channel, ch.letter ≠ c) ∧
    c.isDigit = false

/-- What tokens do not go on with, and the error for it at the place where the text stands. A channel
letter without a digit is reported right behind the letter. -/
inductive FaultAt (place : ℕ) : List Char → Error → Prop
  | stray {c : Char} {rest : List Char} (hc : IsStray c) :
      FaultAt place (c :: rest) ⟨place, .strayCharacter c⟩
  | missingDigit (ch : Channel) {rest : List Char} (hrest : ∀ d ∈ rest.head?, d.isDigit = false) :
      FaultAt place (ch.letter :: rest) ⟨place + 1, .missingDigit ch⟩

/-- Blanks and whole tokens, and then a fault. -/
inductive LexicalFault : ℕ → List Char → Error → Prop
  | intro {offset : ℕ} {before after : List Char} {ts : List Token} {e : Error}
      (hbefore : Tiles offset before ts) (hafter : FaultAt (offset + byteLength before) after e) :
      LexicalFault offset (before ++ after) e

namespace TokenKind.EndsBefore

theorem of_head (kind : TokenKind) (h : ∀ d ∈ cs.head?, d.isDigit = false) :
    kind.EndsBefore cs := by
  cases kind with
  | number digits => exact h
  | _ => trivial

theorem of_append (h : kind.EndsBefore (before ++ after)) : kind.EndsBefore before := by
  cases before with
  | nil => exact of_head kind (by simp)
  | cons c before =>
    cases kind with
    | number digits => exact h
    | _ => trivial

theorem append (h : kind.EndsBefore before) (hafter : ∀ d ∈ after.head?, d.isDigit = false) :
    kind.EndsBefore (before ++ after) := by
  cases before with
  | nil => exact of_head kind hafter
  | cons c before =>
    cases kind with
    | number digits => exact h
    | _ => trivial

end TokenKind.EndsBefore

namespace FaultAt

theorem isDigit_head (h : FaultAt place cs e) : ∀ d ∈ cs.head?, d.isDigit = false := by
  cases h with
  | stray hc =>
    rintro _ ⟨⟩
    exact hc.2.2.2
  | missingDigit ch =>
    rintro _ ⟨⟩
    exact isDigit_letter ch

theorem scan_eq (h : FaultAt offset cs e) : scan offset cs = .error e := by
  cases h with
  | @stray c rest hc =>
    obtain ⟨hblank, hop, hletter, hdigit⟩ := hc
    rw [scan, if_neg (by simp [hblank])]
    simp only [Op.ofSymbol?_eq_none hop, Channel.ofLetter?_eq_none hletter, hdigit,
      Bool.false_eq_true, if_false]
  | @missingDigit ch rest hrest =>
    rw [scan, if_neg (by simp [isBlank_letter])]
    simp only [ofSymbol?_letter, Channel.ofLetter?_letter]
    cases rest with
    | nil => rfl
    | cons d rest =>
      have hd : d.isDigit = false := hrest d rfl
      simp only [hd, Bool.false_eq_true, if_false]

end FaultAt

namespace LexicalFault

theorem of_faultAt (h : FaultAt offset cs e) : LexicalFault offset cs e :=
  .intro (.finish (List.forall_mem_nil _)) h

theorem blank {c : Char} (hc : Text.isBlank c) (h : LexicalFault (offset + c.utf8Size) cs e) :
    LexicalFault offset (c :: cs) e := by
  obtain ⟨hbefore, hafter⟩ := h
  rw [← List.cons_append]
  refine .intro (hbefore.blank hc) ?_
  rwa [byteLength, ← Nat.add_assoc]

theorem token (hspelled : kind.IsSpelled) (hends : kind.EndsBefore cs)
    (h : LexicalFault (offset + byteLength kind.text) cs e) :
    LexicalFault offset (kind.text ++ cs) e := by
  obtain ⟨hbefore, hafter⟩ := h
  rw [← List.append_assoc]
  refine .intro (hbefore.text kind hspelled hends.of_append) ?_
  rwa [byteLength_append, ← Nat.add_assoc]

theorem of_scan (h : scan offset cs = .error e) : LexicalFault offset cs e := by
  fun_induction scan offset cs with
  | case1 => cases h
  | case2 offset c rest hc ih => exact .blank hc (ih h)
  | case3 offset c rest hc op hop ih =>
    obtain rfl := Op.symbol_of_ofSymbol? hop
    have hspelled : (TokenKind.operator op).IsSpelled := trivial
    apply LexicalFault.token hspelled trivial
    rw [byteLength_operator]
    exact ih (map_eq_error.1 h)
  | case4 offset c hc ch hch d rest hd hop ih =>
    obtain rfl := Channel.letter_of_ofLetter? hch
    have hspelled : (TokenKind.component ch d).IsSpelled := hd
    apply LexicalFault.token hspelled trivial
    rw [byteLength_component ch hd]
    exact ih (map_eq_error.1 h)
  | case5 offset c hc ch hch d rest hd hop =>
    cases h
    obtain rfl := Channel.letter_of_ofLetter? hch
    refine .of_faultAt (.missingDigit ch ?_)
    rintro _ ⟨⟩
    simpa using hd
  | case6 offset c hc ch hch hop =>
    cases h
    obtain rfl := Channel.letter_of_ofLetter? hch
    exact .of_faultAt (.missingDigit ch (by simp))
  | case7 offset c cs hc hd digits hop hch ih =>
    obtain ⟨hsplit, hspelled, hends⟩ := number_isSpelled hd cs
    rw [hsplit]
    apply LexicalFault.token hspelled hends
    rw [TokenKind.text, byteLength_digits hspelled.2]
    exact ih (map_eq_error.1 h)
  | case8 offset c rest hc hd hop hch =>
    cases h
    refine .of_faultAt (.stray ⟨by simpa using hc, ?_, ?_, by simpa using hd⟩)
    · rintro op rfl
      exact hop _ (Op.ofSymbol?_symbol op)
    · rintro ch rfl
      exact hch _ (Channel.ofLetter?_letter ch)

end LexicalFault

theorem Tiles.scan_append (h : Tiles offset before ts)
    (hafter : ∀ d ∈ after.head?, d.isDigit = false)
    (herror : scan (offset + byteLength before) after = .error e) :
    scan offset (before ++ after) = .error e := by
  induction h with
  | finish hblanks => rw [scan_blanks hblanks, herror]
  | token kind hblanks hspelled hends _ ih =>
    rw [byteLength_append, byteLength_append, ← Nat.add_assoc, ← Nat.add_assoc] at herror
    rw [List.append_assoc, List.append_assoc, scan_blanks hblanks,
      scan_text hspelled (hends.append hafter), ih herror]
    rfl

/-- The scanner fails at a fault behind whole tokens, and there is but one such place in a source. -/
theorem scan_eq_error_iff : scan offset cs = .error e ↔ LexicalFault offset cs e := by
  constructor
  · exact LexicalFault.of_scan
  · rintro ⟨hbefore, hafter⟩
    exact hbefore.scan_append hafter.isDigit_head hafter.scan_eq

end Faults

end Formula

end Quilt
