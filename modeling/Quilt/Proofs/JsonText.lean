import Mathlib
import Quilt.Json.Printer
import Quilt.Proofs.JsonGrammar
import Quilt.Proofs.Numeral

namespace Quilt.Json

variable {depth : ℕ}

namespace Numeral

theorem isDigits_toDigits (n : ℕ) : IsDigits (Nat.toDigits 10 n) :=
  ⟨Nat.toDigits_ne_nil, fun _ => Text.isDigit_of_mem_toDigits⟩

theorem wholeText (n : ℕ) : WholeText (Nat.toDigits 10 n) n := by
  obtain rfl | hn := Nat.eq_zero_or_pos n
  · exact .zero
  · obtain ⟨d, ds, hds, hd⟩ := Text.exists_toDigits_eq_cons hn
    have hfirst : (Nat.toDigits 10 n).head? ≠ some '0' := by
      rw [hds]
      exact fun h => hd (Option.some.inj h)
    have htext := WholeText.digits (isDigits_toDigits n) hfirst
    rwa [Nat.ofDigitChars_ten_toDigits] at htext

theorem fractionText {fraction : List Char} (h : ∀ d ∈ fraction, d.isDigit) :
    FractionText (if fraction.isEmpty then [] else '.' :: fraction) fraction := by
  split_ifs with hempty
  · rw [List.isEmpty_iff.1 hempty]
    exact .none
  · exact .digits ⟨by simpa using hempty, h⟩

theorem exponentText_isText (e : ℤ) : ExponentText (exponentText e) (some e) := by
  have hds := isDigits_toDigits e.natAbs
  unfold exponentText
  split_ifs with he
  · have htext := ExponentText.minus (.inl rfl) hds
    rwa [Nat.ofDigitChars_ten_toDigits, Int.natCast_natAbs, abs_of_neg he, neg_neg] at htext
  · have htext := ExponentText.plus (.inl rfl) (.inr rfl) hds
    rwa [Nat.ofDigitChars_ten_toDigits, Int.natCast_natAbs, abs_of_nonneg (not_lt.1 he)] at htext

theorem tokenText (n : Numeral) (h : ∀ d ∈ n.fraction, d.isDigit) :
    TokenText n.text (.number n) := by
  obtain ⟨negative, whole, fraction, exponent⟩ := n
  have hexponent : ExponentText ((exponent.map exponentText).getD []) exponent := by
    cases exponent with
    | none => exact .none
    | some e => exact exponentText_isText e
  have htext : ∀ negative, NumeralText negative _ ⟨negative, whole, fraction, exponent⟩ :=
    fun _ => .intro (wholeText whole) (fractionText h) hexponent
  simp only [text, List.append_assoc]
  cases negative with
  | true => exact .negative (htext true)
  | false => exact .positive (htext false)

end Numeral

theorem joinPieces_unit {code : ℕ} (h : code < 0xD800) (pieces : List Piece) :
    joinPieces (.unit code :: pieces) = (joinPieces pieces).map (Char.ofNat code :: ·) := by
  have hleading : isLeadingSurrogate code = false := by simp [isLeadingSurrogate, h]
  have htrailing : isTrailingSurrogate code = false := by
    simp [isTrailingSurrogate, h.trans (by decide : 0xD800 < 0xDC00)]
  rcases pieces with _ | ⟨_ | _, pieces⟩ <;> simp [joinPieces, hleading, htrailing]

theorem exists_hexDigits {n : ℕ} (h : n < 0x20) :
    ∃ a b c d, Text.paddedDigits 16 4 n = [a, b, c, d] ∧ hexCode? [a, b, c, d] = some n := by
  have hall : ∀ n < 0x20, (Text.paddedDigits 16 4 n).length = 4 ∧
      hexCode? (Text.paddedDigits 16 4 n) = some n := by decide +kernel
  obtain ⟨hlength, hcode⟩ := hall n h
  obtain ⟨a, b, c, d, hdigits⟩ := List.length_eq_four.1 hlength
  exact ⟨a, b, c, d, hdigits, hdigits ▸ hcode⟩

theorem exists_piece (c : Char) :
    ∃ piece, (∀ {cs pieces}, PiecesText cs pieces → PiecesText (escape c ++ cs) (piece :: pieces)) ∧
      ∀ pieces, joinPieces (piece :: pieces) = (joinPieces pieces).map (c :: ·) := by
  unfold escape
  split
  -- All forms but the last are a backslash and a letter.
  case h_8 _ hquote hbackslash _ _ _ _ _ =>
    split_ifs with hcontrol
    · obtain ⟨w, x, y, z, hdigits, hcode⟩ := exists_hexDigits hcontrol
      have hjoin := joinPieces_unit (hcontrol.trans (by decide : 0x20 < 0xD800))
      rw [Char.ofNat_toNat] at hjoin
      refine ⟨.unit c.toNat, fun h => ?_, hjoin⟩
      rw [hdigits]
      exact .unit hcode h
    · exact ⟨.char c, .char (not_lt.1 hcontrol) hquote hbackslash, fun _ => rfl⟩
  all_goals exact ⟨.char _, .escape rfl, fun _ => rfl⟩

theorem exists_pieces (s : List Char) :
    ∃ pieces, PiecesText (s.flatMap escape) pieces ∧ joinPieces pieces = some s := by
  induction s with
  | nil => exact ⟨[], .nil, rfl⟩
  | cons c s ih =>
    obtain ⟨pieces, htext, hjoin⟩ := ih
    obtain ⟨piece, hpiece, hcons⟩ := exists_piece c
    exact ⟨piece :: pieces, hpiece htext, by rw [hcons, hjoin, Option.map_some]⟩

theorem tokenText_quote (s : String) : TokenText (quote s) (.string (some s)) := by
  obtain ⟨pieces, htext, hjoin⟩ := exists_pieces s.toList
  have hquote := TokenText.string htext
  rwa [hjoin, Option.map_some, String.ofList_toList] at hquote

/-- Values that can be written: their strings are whole, and only digits stand after the points of
their numerals. -/
inductive Value.Writable : Value → Prop
  | null : Writable .null
  | bool (b : Bool) : Writable (.bool b)
  | number {n : Numeral} (h : ∀ d ∈ n.fraction, d.isDigit) : Writable (.number n)
  | string (s : String) : Writable (.string (some s))
  | array {items : List Value} (h : ∀ item ∈ items, Writable item) : Writable (.array items)
  | object {members : List (Option String × Value)} (hkeys : ∀ m ∈ members, m.1.isSome)
      (hvalues : ∀ m ∈ members, Writable m.2) : Writable (.object members)

theorem isSpace_of_mem_newline {c : Char} (h : c ∈ newline depth) : isSpace c := by
  obtain rfl | h := List.mem_cons.1 h
  · rfl
  · rw [List.eq_of_mem_replicate h]
    rfl

theorem tokensText_lines {texts : List (List Char)} {entries : List (List Token)}
    {opens closes : Token} {first last : Char} (hfirst : opens.plainText? = some [first])
    (hlast : closes.plainText? = some [last]) (h : List.Forall₂ TokensText texts entries)
    (inner outer : ℕ) :
    TokensText (first :: lines inner texts ++ newline outer ++ [last])
      (opens :: separated entries ++ [closes]) := by
  have hlines : List.Forall₂ TokensText (texts.map (newline inner ++ ·)) entries :=
    List.forall₂_map_left_iff.2 (h.imp fun _ _ => .spaces fun _ => isSpace_of_mem_newline)
  rw [List.append_assoc]
  exact .bracketed hfirst hlast (fun _ => isSpace_of_mem_newline) hlines

theorem forall₂_itemTexts {items : List Value}
    (h : ∀ item ∈ items, ∀ depth, ValueText (item.text depth) item) (depth : ℕ) :
    List.Forall₂ TokensText (itemTexts depth items) (itemTokens items) := by
  induction items with
  | nil => exact .nil
  | cons item items ih =>
    obtain ⟨hitem, hitems⟩ := List.forall_mem_cons.1 h
    exact .cons (hitem depth) (ih hitems)

theorem tokensText_member {k : Option String} {v : Value} (hk : k.isSome)
    (h : ValueText (v.text depth) v) :
    TokensText (quote (k.getD "") ++ ':' :: ' ' :: v.text depth)
      (.string k :: .colon :: v.tokens) := by
  obtain ⟨k, rfl⟩ := Option.isSome_iff_exists.1 hk
  have hvalue : TokensText (':' :: ' ' :: v.text depth) (.colon :: v.tokens) :=
    .mark rfl (.space rfl h)
  exact .token (tokenText_quote k) trivial hvalue

theorem forall₂_memberTexts {members : List (Option String × Value)}
    (hkeys : ∀ m ∈ members, m.1.isSome)
    (h : ∀ m ∈ members, ∀ depth, ValueText (m.2.text depth) m.2) (depth : ℕ) :
    List.Forall₂ TokensText (memberTexts depth members) (memberTokens members) := by
  induction members with
  | nil => exact .nil
  | cons member members ih =>
    obtain ⟨hkey, hkeys⟩ := List.forall_mem_cons.1 hkeys
    obtain ⟨hmember, hmembers⟩ := List.forall_mem_cons.1 h
    exact .cons (tokensText_member hkey (hmember depth)) (ih hkeys hmembers)

theorem Value.Writable.valueText {v : Value} (h : v.Writable) (depth : ℕ) :
    ValueText (v.text depth) v := by
  induction h generalizing depth with
  | null => exact (TokenText.plain rfl).tokensText
  | bool b => cases b <;> exact (TokenText.plain rfl).tokensText
  | number hfraction => exact (Numeral.tokenText _ hfraction).tokensText
  | string s => exact (tokenText_quote s).tokensText
  | @array items _ ih =>
    cases items with
    | nil => exact .mark rfl (.mark rfl .done)
    | cons item items =>
      exact tokensText_lines rfl rfl (forall₂_itemTexts ih (depth + 1)) (depth + 1) depth
  | @object members hkeys _ ih =>
    cases members with
    | nil => exact .mark rfl (.mark rfl .done)
    | cons member members =>
      exact tokensText_lines rfl rfl (forall₂_memberTexts hkeys ih (depth + 1)) (depth + 1) depth

/-- The text of a value is read back as the value. -/
theorem Value.Writable.parse?_pretty {v : Value} (h : v.Writable) : parse? v.pretty = some v := by
  rw [parse?_eq_some_iff, pretty, String.toList_ofList]
  exact h.valueText 0

end Quilt.Json
