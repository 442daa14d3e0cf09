import Mathlib
import Quilt.Formula.ByteScan
import Quilt.Proofs.Tokens

namespace Quilt.Formula

theorem getElem?_toByteArray (bytes : List UInt8) (i : ℕ) : bytes.toByteArray[i]? = bytes[i]? := by
  simp [getElem?_def]

theorem length_utf8 (cs : List Char) :
    (cs.flatMap String.utf8EncodeChar).length = byteLength cs := by
  induction cs with
  | nil => rfl
  | cons c cs ih => rw [List.flatMap_cons, List.length_append, String.length_utf8EncodeChar, ih,
      byteLength]

theorem size_utf8Encode (cs : List Char) : cs.utf8Encode.size = byteLength cs := by
  rw [List.utf8Encode, List.size_toByteArray, length_utf8]

theorem isDigit_ofUInt8_or {b m : UInt8} (hm : 0x80 ≤ m.toNat) :
    (Char.ofUInt8 (b ||| m)).isDigit = false := by
  have hle : m.toNat ≤ (Char.ofUInt8 (b ||| m)).val.toNat := by
    change m.toNat ≤ (b ||| m).toNat
    rw [UInt8.toNat_or]
    exact Nat.right_le_or
  rw [Char.isDigit, Bool.and_eq_false_iff, decide_eq_false_iff_not, decide_eq_false_iff_not]
  right
  rw [UInt32.le_iff_toNat_le]
  change ¬_ ≤ 57
  omega

theorem ofUInt8_toUInt8 {c : Char} (h : c.utf8Size = 1) : Char.ofUInt8 c.val.toUInt8 = c := by
  have hle := UInt32.le_iff_toNat_le.1 (Char.utf8Size_eq_one_iff.1 h)
  change c.val.toNat ≤ 127 at hle
  apply Char.ext
  apply UInt32.toNat_inj.1
  change c.val.toNat % 256 = c.val.toNat
  omega

/-- The first byte of a character is a digit only if the character is this digit. -/
theorem filter_isDigit_utf8EncodeChar (c : Char) :
    ((String.utf8EncodeChar c).head?.map Char.ofUInt8).filter Char.isDigit =
      (some c).filter Char.isDigit := by
  have hlong : c.utf8Size ≠ 1 → (some c).filter Char.isDigit = none := by
    intro hsize
    rw [Option.filter_some, if_neg]
    exact fun hdigit => hsize (utf8Size_digit hdigit)
  obtain h | h | h | h := c.utf8Size_eq
  · rw [String.utf8EncodeChar_eq_singleton h, List.head?_cons, Option.map_some, ofUInt8_toUInt8 h]
  · rw [hlong (by omega), String.utf8EncodeChar_eq_cons_cons h, List.head?_cons, Option.map_some,
      Option.filter_some, isDigit_ofUInt8_or (by decide)]
    rfl
  · rw [hlong (by omega), String.utf8EncodeChar_eq_cons_cons_cons h, List.head?_cons,
      Option.map_some, Option.filter_some, isDigit_ofUInt8_or (by decide)]
    rfl
  · rw [hlong (by omega), String.utf8EncodeChar_eq_cons_cons_cons_cons h, List.head?_cons,
      Option.map_some, Option.filter_some, isDigit_ofUInt8_or (by decide)]
    rfl

section Cuts
variable {source : String} {before text after : List Char}

theorem toByteArray_of_toList (h : source.toList = before ++ after) :
    source.toByteArray = before.utf8Encode ++ after.utf8Encode := by
  rw [← List.utf8Encode_append, ← h, ← String.toByteArray_ofList, String.ofList_toList]

theorem utf8ByteSize_of_toList (h : source.toList = before ++ after) :
    source.utf8ByteSize = byteLength before + byteLength after := by
  rw [← byteLength_append, ← h, byteLength_eq_utf8ByteSize, String.ofList_toList]

theorem isBoundary_byteLength (h : source.toList = before ++ after) :
    isBoundary source (byteLength before) = true := by
  rw [isBoundary, String.Pos.Raw.isValid_eq_true_iff, String.Pos.Raw.isValid_iff_exists_append]
  refine ⟨.ofList before, .ofList after, ?_, ?_⟩
  · rw [← String.ofList_append, ← h, String.ofList_toList]
  · rw [byteLength_eq_utf8ByteSize]
    rfl

theorem charFrom?_byteLength (h : source.toList = before ++ after) :
    charFrom? source (byteLength before) = some after.head? := by
  rw [charFrom?, if_pos (isBoundary_byteLength h), toByteArray_of_toList h,
    ByteArray.utf8DecodeChar?_eq_utf8DecodeChar?_extract, ← size_utf8Encode,
    ByteArray.extract_append_eq_right rfl ByteArray.size_append]
  cases after with
  | nil => rfl
  | cons c after => rw [List.utf8DecodeChar?_utf8Encode_cons, List.head?_cons]

theorem slice?_byteLength (h : source.toList = before ++ (text ++ after)) :
    slice? source (byteLength before) (byteLength before + byteLength text) = some text := by
  have hsource : source = .ofList (before ++ text ++ after) := by
    rw [List.append_assoc, ← h, String.ofList_toList]
  have hstop : isBoundary source (byteLength before + byteLength text) = true := by
    rw [← byteLength_append]
    exact isBoundary_byteLength (by rw [h, List.append_assoc])
  have hcut : (decide (byteLength before ≤ byteLength before + byteLength text) &&
      isBoundary source (byteLength before) &&
      isBoundary source (byteLength before + byteLength text)) = true := by
    rw [isBoundary_byteLength h, hstop, decide_eq_true (Nat.le_add_right _ _)]
    rfl
  rw [slice?, if_pos hcut, hsource, byteLength_eq_utf8Len, byteLength_eq_utf8Len,
    String.extract_of_valid, String.toList_ofList]

theorem digitAt?_byteLength (h : source.toList = before ++ after) :
    digitAt? source.toByteArray (byteLength before) = after.head?.filter Char.isDigit := by
  rw [digitAt?, toByteArray_of_toList h, ← List.utf8Encode_append, List.utf8Encode,
    getElem?_toByteArray, List.flatMap_append, ← length_utf8,
    List.getElem?_append_right le_rfl, Nat.sub_self, ← List.head?_eq_getElem?]
  cases after with
  | nil => rfl
  | cons c after =>
    have hne : String.utf8EncodeChar c ≠ [] := by
      rw [← List.length_pos_iff, String.length_utf8EncodeChar]
      exact c.utf8Size_pos
    rw [List.flatMap_cons, List.head?_append_of_ne_nil _ hne, List.head?_cons,
      filter_isDigit_utf8EncodeChar]

theorem digitsEnd_byteLength (h : source.toList = before ++ (text ++ after))
    (htext : ∀ d ∈ text, d.isDigit) (hafter : ∀ d ∈ after.head?, d.isDigit = false) :
    digitsEnd source.toByteArray (byteLength before) = byteLength before + byteLength text := by
  induction text generalizing before with
  | nil =>
    have hnone : digitAt? source.toByteArray (byteLength before) = none := by
      rw [digitAt?_byteLength h, List.nil_append, Option.filter_eq_none_iff]
      simpa using hafter
    rw [digitsEnd, hnone, dif_neg (by simp)]
    rfl
  | cons d text ih =>
    obtain ⟨hd, htext⟩ := List.forall_mem_cons.1 htext
    have hsome : digitAt? source.toByteArray (byteLength before) = some d := by
      rw [digitAt?_byteLength h, List.cons_append, List.head?_cons, Option.filter_some, if_pos hd]
    have hnext : byteLength (before ++ [d]) = byteLength before + 1 := by
      rw [byteLength_append, byteLength, byteLength, utf8Size_digit hd]
    rw [digitsEnd, hsome, dif_pos Option.isSome_some, ← hnext, ih (by rw [h]; simp) htext, hnext,
      byteLength, utf8Size_digit hd, Nat.add_assoc]

end Cuts

theorem TokenKind.byteLength_text_pos {kind : TokenKind} (h : kind.IsSpelled) :
    0 < byteLength kind.text := by
  cases kind with
  | component ch digit =>
    rw [byteLength_component ch h]
    exact two_pos
  | number digits =>
    rw [TokenKind.text, byteLength_digits h.2]
    exact List.length_pos_iff.2 h.1
  | operator op =>
    rw [byteLength_operator]
    exact one_pos
  | finish => cases h

theorem byteLength_concat_letter (cs : List Char) (ch : Channel) :
    byteLength (cs ++ [ch.letter]) = byteLength cs + 1 := by
  rw [byteLength_append, byteLength, byteLength, utf8Size_letter]

theorem cases_cons (c : Char) (cs : List Char) :
    Text.isBlank c ∨
      (∃ kind rest, c :: cs = TokenKind.text kind ++ rest ∧ kind.IsSpelled ∧
        kind.EndsBefore rest) ∨
      ∀ place, ∃ e, FaultAt place (c :: cs) e := by
  by_cases hblank : Text.isBlank c
  · exact .inl hblank
  right
  by_cases hdigit : c.isDigit
  · obtain ⟨hsplit, hspelled, hends⟩ := number_isSpelled hdigit cs
    exact .inl ⟨_, _, hsplit, hspelled, hends⟩
  by_cases hop : ∃ op : Op, op.symbol = c
  · obtain ⟨op, rfl⟩ := hop
    exact .inl ⟨.operator op, cs, rfl, trivial, trivial⟩
  by_cases hletter : ∃ ch : Channel, ch.letter = c
  · obtain ⟨ch, rfl⟩ := hletter
    -- A letter without a digit is as much a fault as a stray character.
    by_cases hrest : ∀ d ∈ cs.head?, d.isDigit = false
    · exact .inr fun place => ⟨_, .missingDigit ch hrest⟩
    · cases cs with
      | nil => simp at hrest
      | cons d rest =>
        have hd : (TokenKind.component ch d).IsSpelled := by
          change d.isDigit = true
          simpa using hrest
        exact .inl ⟨.component ch d, rest, rfl, hd, trivial⟩
  · exact .inr fun place => ⟨_, .stray ⟨by simpa using hblank, not_exists.1 hop,
      not_exists.1 hletter, by simpa using hdigit⟩⟩

section Rounds
variable {source : String} {before after : List Char} {found : List Token}

theorem round_end (h : source.toList = before) :
    round source ⟨byteLength before, found⟩ =
      .over (.ok (found ++ [TokenKind.finish.placedAt (byteLength before)])) := by
  rw [← List.append_nil before] at h
  simp only [round, charFrom?_byteLength h, List.head?_nil, utf8ByteSize_of_toList h]
  rfl

theorem round_blank {c : Char} (h : source.toList = before ++ c :: after) (hc : Text.isBlank c) :
    round source ⟨byteLength before, found⟩ = .next ⟨byteLength (before ++ [c]), found⟩ := by
  simp only [round, charFrom?_byteLength h, List.head?_cons, hc, if_true, byteLength_append,
    byteLength, Nat.add_zero]

theorem round_text {kind : TokenKind} (h : source.toList = before ++ (kind.text ++ after))
    (hspelled : kind.IsSpelled) (hends : kind.EndsBefore after) :
    round source ⟨byteLength before, found⟩ = .next ⟨byteLength (before ++ kind.text),
      found ++ [kind.placedAt (byteLength before)]⟩ := by
  rw [byteLength_append, TokenKind.placedAt]
  cases kind with
  | component ch digit =>
    have hdigit : digit.isDigit = true := hspelled
    have hnext : source.toList = (before ++ [ch.letter]) ++ (digit :: after) := by
      rw [h]
      simp [TokenKind.text]
    -- The letter takes a single byte, and the digit is looked for in the next one.
    have hat : digitAt? source.toByteArray (byteLength before + 1) = some digit := by
      rw [← byteLength_concat_letter, digitAt?_byteLength hnext, List.head?_cons,
        Option.filter_some, if_pos hdigit]
    simp only [round, charFrom?_byteLength h, TokenKind.text, List.cons_append, List.head?_cons,
      isBlank_letter, isDigit_letter, Bool.false_eq_true, if_false, Channel.ofLetter?_letter, hat,
      Cursor.take]
    rw [← TokenKind.text, byteLength_component ch hdigit]
  | number digits =>
    obtain ⟨hne, hdigits⟩ := hspelled
    obtain ⟨d, ds, rfl⟩ := List.exists_cons_of_ne_nil hne
    have hd : d.isDigit = true := (List.forall_mem_cons.1 hdigits).1
    have hend := digitsEnd_byteLength h hdigits hends
    have hslice := slice?_byteLength h
    simp only [TokenKind.text] at hend hslice
    simp only [round, charFrom?_byteLength h, TokenKind.text, List.cons_append, List.head?_cons,
      Text.isBlank_eq_false_of_isDigit hd, hd, Bool.false_eq_true, if_false, if_true, hend, hslice,
      Cursor.take]
  | operator op =>
    have hletter := Channel.ofLetter?_eq_none (c := op.symbol) fun ch => by
      cases ch <;> cases op <;> decide
    simp only [round, charFrom?_byteLength h, TokenKind.text, List.cons_append, List.head?_cons,
      isBlank_symbol, isDigit_symbol, Bool.false_eq_true, if_false, hletter, Op.ofSymbol?_symbol,
      Cursor.take]
    rw [← TokenKind.text, byteLength_operator]
  | finish => cases hspelled

theorem round_fault {e : Error} (h : source.toList = before ++ after)
    (hfault : FaultAt (byteLength before) after e) :
    round source ⟨byteLength before, found⟩ = .over (.error e) := by
  cases hfault with
  | stray hc =>
    obtain ⟨hblank, hop, hletter, hdigit⟩ := hc
    simp only [round, charFrom?_byteLength h, List.head?_cons, hblank, hdigit, Bool.false_eq_true,
      if_false, Channel.ofLetter?_eq_none hletter, Op.ofSymbol?_eq_none hop]
  | @missingDigit ch rest hrest =>
    have hnext : source.toList = (before ++ [ch.letter]) ++ rest := by
      rw [h]
      simp
    have hat : digitAt? source.toByteArray (byteLength before + 1) = none := by
      rw [← byteLength_concat_letter, digitAt?_byteLength hnext, Option.filter_eq_none_iff]
      simpa using hrest
    simp only [round, charFrom?_byteLength h, List.head?_cons, isBlank_letter, isDigit_letter,
      Bool.false_eq_true, if_false, Channel.ofLetter?_letter, hat]

theorem rounds_of_next {cursor cursor' : Cursor} (h : round source cursor = .next cursor')
    (count : ℕ) : rounds source (count + 1) cursor = rounds source count cursor' := by
  rw [rounds, h]

theorem rounds_of_over {cursor : Cursor} {result : Except Error (List Token)}
    (h : round source cursor = .over result) (count : ℕ) :
    rounds source (count + 1) cursor = .over result := by
  rw [rounds, h]

theorem rounds_eq_scan (h : source.toList = before ++ after) {count : ℕ}
    (hcount : byteLength after < count) :
    rounds source count ⟨byteLength before, found⟩ =
      .over ((scan (byteLength before) after).map (found ++ ·)) := by
  -- Each round that goes on shortens the rest by the bytes that it goes on by.
  induction count generalizing before after found with
  | zero => exact absurd hcount (Nat.not_lt_zero _)
  | succ count ih =>
    cases after with
    | nil =>
      rw [List.append_nil] at h
      rw [rounds_of_over (round_end h), scan]
      rfl
    | cons c cs =>
      obtain hblank | ⟨kind, rest, hsplit, hspelled, hends⟩ | hfault := cases_cons c cs
      · have hlt : byteLength cs < count := by
          have hpos := c.utf8Size_pos
          rw [byteLength] at hcount
          omega
        have hnext : source.toList = (before ++ [c]) ++ cs := by simp [h]
        have hscan := scan_blanks (List.forall_mem_singleton.2 hblank) (byteLength before) cs
        rw [List.singleton_append] at hscan
        rw [rounds_of_next (round_blank h hblank), ih hnext hlt, hscan, byteLength_append]
      · rw [hsplit] at h hcount ⊢
        have hlt : byteLength rest < count := by
          have hpos := TokenKind.byteLength_text_pos hspelled
          rw [byteLength_append] at hcount
          omega
        have hnext : source.toList = (before ++ kind.text) ++ rest := by
          rw [h, List.append_assoc]
        rw [rounds_of_next (round_text h hspelled hends), ih hnext hlt, scan_text hspelled hends,
          byteLength_append]
        cases scan (byteLength before + byteLength kind.text) rest with
        | error e => rfl
        | ok ts => simp [Except.map]
      · obtain ⟨e, hfault⟩ := hfault (byteLength before)
        rw [rounds_of_over (round_fault h hfault), hfault.scan_eq]
        rfl

/-- The loop is over after one round more than there are bytes, and has cut no character in two. -/
theorem rounds_eq_tokens (source : String) :
    rounds source (source.utf8ByteSize + 1) ⟨0, []⟩ = .over (tokens source) := by
  have hsource : source.toList = [] ++ source.toList := rfl
  have hsize := utf8ByteSize_of_toList hsource
  rw [byteLength, Nat.zero_add] at hsize
  have hrounds : rounds source (source.utf8ByteSize + 1) ⟨byteLength [], []⟩ = _ :=
    rounds_eq_scan hsource (Nat.lt_succ_of_le hsize.ge)
  rw [byteLength] at hrounds
  rw [hrounds, tokens]
  cases scan 0 source.toList <;> rfl

end Rounds

end Quilt.Formula
