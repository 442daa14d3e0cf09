import Mathlib
import Quilt.Proofs.ByteScan

namespace Quilt.Formula

def TokenKind.IsNumber : TokenKind → Prop
  | .number _ => True
  | _ => False

/-- A token that can be cut out of a source, and whose text is what its kind says. The end of a
source has the empty text. -/
structure IsPlaced (source : String) (t : Token) : Prop where
  slice_eq : slice? source t.start t.stop = some t.kind.text
  stop_le : t.stop ≤ source.utf8ByteSize
  spelled : t.kind.IsSpelled ∨ t.kind = .finish
  /-- No number goes on with another digit. -/
  ends : t.kind.IsNumber → ∀ c, charFrom? source t.stop = some (some c) → c.isDigit = false

/-- Whether there is a text between two tokens, and it begins with a blank or with a token that is
no number. -/
def IsApart (source : String) (ts : List Token) (a b : Token) : Prop :=
  a.stop < b.start ∧ ∃ c, charFrom? source a.stop = some (some c) ∧
    (Text.isBlank c ∨ ∃ t ∈ ts, t.start = a.stop ∧ t.stop ≤ b.start ∧ ¬t.kind.IsNumber)

/-- The tokens of a source: one after the other, with blanks around them, up to the end. -/
structure IsTiling (source : String) (ts : List Token) : Prop where
  placed : ∀ t ∈ ts, IsPlaced source t
  sorted : ts.Pairwise fun a b => a.start < a.stop ∧ a.stop ≤ b.start
  blank : ∀ i c, charFrom? source i = some (some c) →
    (∀ t ∈ ts, ¬(t.start ≤ i ∧ i < t.stop)) → Text.isBlank c
  apart : ts.Pairwise fun a b => a.kind.IsNumber → b.kind.IsNumber → IsApart source ts a b
  finish : ∃ spelled, ts = spelled ++ [⟨.finish, source.utf8ByteSize, source.utf8ByteSize⟩] ∧
    ∀ t ∈ spelled, t.kind.IsSpelled

theorem TokenKind.isDigit_of_isNumber {kind : TokenKind} {d : Char} (hspelled : kind.IsSpelled)
    (hd : kind.text.head? = some d) (hnumber : kind.IsNumber) : d.isDigit := by
  cases kind with
  | number digits => exact hspelled.2 d (List.mem_of_head? hd)
  | _ => cases hnumber

theorem append_eq_append_cons {α : Type*} {front back before after : List α} {c : α}
    (h : front ++ back = before ++ c :: after) :
    (∃ mid, front = before ++ c :: mid) ∨
      ∃ before', before = front ++ before' ∧ back = before' ++ c :: after := by
  obtain ⟨mid, hbefore, hback⟩ | ⟨mid, hfront, hafter⟩ := List.append_eq_append_iff.1 h
  · exact .inr ⟨mid, hbefore, hback⟩
  · cases mid with
    | nil => exact .inr ⟨[], by simpa using hfront.symm, hafter.symm⟩
    | cons d mid =>
      obtain ⟨rfl, -⟩ := List.cons.inj hafter
      exact .inl ⟨mid, hfront⟩

section Characters
variable {offset : ℕ} {cs before after : List Char} {ts : List Token} {t : Token} {c : Char}

theorem Tiles.exists_split (h : Tiles offset cs ts) (ht : t ∈ ts) :
    ∃ before after, cs = before ++ (t.kind.text ++ after) ∧
      t = t.kind.placedAt (offset + byteLength before) ∧ t.kind.EndsBefore after := by
  induction h with
  | @finish offset blanks hblanks =>
    obtain rfl := List.mem_singleton.1 ht
    exact ⟨blanks, [], (List.append_nil _).symm, rfl, trivial⟩
  | @token kind offset blanks rest ts hblanks hspelled hends hrest ih =>
    obtain rfl | ht := List.mem_cons.1 ht
    · exact ⟨blanks, rest, rfl, rfl, hends⟩
    · obtain ⟨before, after, hsplit, hplace, hends'⟩ := ih ht
      refine ⟨blanks ++ (kind.text ++ before), after, ?_, ?_, hends'⟩
      · rw [hsplit, List.append_assoc, List.append_assoc]
      · rwa [byteLength_append, byteLength_append, ← Nat.add_assoc, ← Nat.add_assoc]

theorem Tiles.exists_finish (h : Tiles offset cs ts) :
    ∃ spelled, ts = spelled ++ [⟨.finish, offset + byteLength cs, offset + byteLength cs⟩] ∧
      ∀ t ∈ spelled, t.kind.IsSpelled := by
  induction h with
  | finish hblanks => exact ⟨[], rfl, List.forall_mem_nil _⟩
  | @token kind offset blanks rest ts hblanks hspelled hends hrest ih =>
    obtain ⟨spelled, rfl, hall⟩ := ih
    refine ⟨kind.placedAt (offset + byteLength blanks) :: spelled, ?_,
      List.forall_mem_cons.2 ⟨hspelled, hall⟩⟩
    rw [List.cons_append, byteLength_append, byteLength_append, ← Nat.add_assoc, ← Nat.add_assoc]

theorem Tiles.le_start (h : Tiles offset cs ts) (ht : t ∈ ts) : offset ≤ t.start := by
  obtain ⟨before, after, -, hplace, -⟩ := h.exists_split ht
  rw [hplace]
  exact Nat.le_add_right _ _

theorem Tiles.sorted (h : Tiles offset cs ts) :
    ts.Pairwise fun a b => a.start < a.stop ∧ a.stop ≤ b.start := by
  induction h with
  | finish hblanks => exact List.pairwise_singleton _ _
  | token kind hblanks hspelled hends hrest ih =>
    have hpos := TokenKind.byteLength_text_pos hspelled
    exact List.pairwise_cons.2 ⟨fun b hb => ⟨Nat.lt_add_of_pos_right hpos, hrest.le_start hb⟩, ih⟩

theorem Tiles.isBlank (h : Tiles offset cs ts) (hcs : cs = before ++ c :: after)
    (hfree : ∀ t ∈ ts, ¬(t.start ≤ offset + byteLength before ∧
      offset + byteLength before < t.stop)) : Text.isBlank c := by
  induction h generalizing before with
  | finish hblanks => exact hblanks c (by simp [hcs])
  | @token kind offset blanks rest ts hblanks hspelled hends hrest ih =>
    obtain ⟨hkind, hfree⟩ := List.forall_mem_cons.1 hfree
    obtain ⟨mid, rfl⟩ | ⟨inner, rfl, hinner⟩ := append_eq_append_cons hcs
    · exact hblanks c (by simp)
    obtain ⟨mid, htext⟩ | ⟨outer, rfl, houter⟩ := append_eq_append_cons hinner
    · -- The token covers each character of its text.
      have hpos := c.utf8Size_pos
      simp only [TokenKind.placedAt, htext, byteLength_append, byteLength] at hkind
      omega
    · apply ih houter
      simpa only [byteLength_append, Nat.add_assoc] using hfree

end Characters

section Source
variable {source : String} {before cs : List Char} {ts : List Token} {a b t : Token} {c : Char}

theorem exists_split_of_charFrom? {i : ℕ} (h : charFrom? source i = some (some c)) :
    ∃ before after, source.toList = before ++ c :: after ∧ i = byteLength before := by
  have hvalid : isBoundary source i = true := by
    by_contra hvalid
    rw [charFrom?, if_neg hvalid] at h
    cases h
  rw [isBoundary, String.Pos.Raw.isValid_eq_true_iff, String.Pos.Raw.isValid_iff_exists_append]
    at hvalid
  obtain ⟨front, back, rfl, hi⟩ := hvalid
  have hsplit : (front ++ back).toList = front.toList ++ back.toList := String.toList_append
  have hindex : i = byteLength front.toList := by
    rw [byteLength_eq_utf8ByteSize, String.ofList_toList]
    exact congrArg String.Pos.Raw.byteIdx hi
  rw [hindex, charFrom?_byteLength hsplit] at h
  obtain ⟨after, hafter⟩ := List.head?_eq_some_iff.1 (Option.some.inj h)
  exact ⟨front.toList, after, by rw [hsplit, hafter], hindex⟩

theorem IsApart.mono {ts' : List Token} (h : IsApart source ts a b) (hsub : ts ⊆ ts') :
    IsApart source ts' a b := by
  obtain ⟨hlt, c, hc, hblank | ⟨t, ht, hrest⟩⟩ := h
  · exact ⟨hlt, c, hc, .inl hblank⟩
  · exact ⟨hlt, c, hc, .inr ⟨t, hsub ht, hrest⟩⟩

theorem Tiles.isApart {offset : ℕ} (h : Tiles offset cs ts) (hsource : source.toList = before ++ cs)
    (hoffset : offset = byteLength before) (ha : a.stop = offset)
    (hhead : ∀ d ∈ cs.head?, d.isDigit = false) (hb : b ∈ ts) (hnumber : b.kind.IsNumber) :
    IsApart source ts a b := by
  have hcut := charFrom?_byteLength hsource
  rw [← hoffset, ← ha] at hcut
  cases h with
  | finish hblanks =>
    obtain rfl := List.mem_singleton.1 hb
    cases hnumber
  | @token kind _ blanks rest ts hblanks hspelled hends hrest =>
    have hpos := TokenKind.byteLength_text_pos hspelled
    obtain ⟨c, text, htext⟩ : ∃ c text, kind.text = c :: text := by
      apply List.exists_cons_of_ne_nil
      intro hnil
      rw [hnil] at hpos
      exact lt_irrefl _ hpos
    cases blanks with
    | nil =>
      -- The number before would have gone on with this one.
      have hkind : ¬kind.IsNumber := by
        intro hkind
        have hc := TokenKind.isDigit_of_isNumber hspelled (by rw [htext]; rfl) hkind
        have hc' : c.isDigit = false := hhead c (by simp [htext])
        rw [hc] at hc'
        cases hc'
      obtain rfl | hb := List.mem_cons.1 hb
      · exact absurd hnumber hkind
      have hle := hrest.le_start hb
      have hlt : a.stop < b.start := by
        rw [byteLength] at hle
        omega
      exact ⟨hlt, c, by rw [hcut, htext]; rfl, .inr ⟨_, List.mem_cons_self, ha.symm, hle, hkind⟩⟩
    | cons d blanks =>
      have hle : offset + byteLength (d :: blanks) ≤ b.start := by
        obtain rfl | hb := List.mem_cons.1 hb
        · exact le_rfl
        · exact (Nat.le_add_right _ _).trans (hrest.le_start hb)
      have hlt : a.stop < b.start := by
        have hd := d.utf8Size_pos
        rw [byteLength] at hle
        omega
      exact ⟨hlt, d, hcut, .inl (hblanks d List.mem_cons_self)⟩

theorem Tiles.apart {offset : ℕ} (h : Tiles offset cs ts) (hsource : source.toList = before ++ cs)
    (hoffset : offset = byteLength before) :
    ts.Pairwise fun a b => a.kind.IsNumber → b.kind.IsNumber → IsApart source ts a b := by
  -- The tokens that are left stand behind whole characters, as the cuts of the source need it.
  induction h generalizing before with
  | finish hblanks => exact List.pairwise_singleton _ _
  | @token kind offset blanks rest ts hblanks hspelled hends hrest ih =>
    have hsource' : source.toList = (before ++ (blanks ++ kind.text)) ++ rest := by
      rw [hsource, List.append_assoc, List.append_assoc]
    have hoffset' : offset + byteLength blanks + byteLength kind.text =
        byteLength (before ++ (blanks ++ kind.text)) := by
      rw [hoffset, byteLength_append, byteLength_append, Nat.add_assoc]
    refine List.pairwise_cons.2 ⟨fun b hb hkind hnumber => ?_, ?_⟩
    · have hhead : ∀ d ∈ rest.head?, d.isDigit = false := by
        cases kind with
        | number digits => exact hends
        | _ => cases hkind
      exact (hrest.isApart hsource' hoffset' rfl hhead hb hnumber).mono (List.subset_cons_self _ _)
    · refine (ih hsource' hoffset').imp fun hapart ha hb => ?_
      exact (hapart ha hb).mono (List.subset_cons_self _ _)

theorem Tiles.isPlaced (h : Tiles 0 source.toList ts) (ht : t ∈ ts) : IsPlaced source t := by
  obtain ⟨before, after, hsplit, hplace, hends⟩ := h.exists_split ht
  obtain ⟨spelled, hts, hall⟩ := h.exists_finish
  have hstart : t.start = byteLength before := by rw [hplace, Nat.zero_add]; rfl
  have hstop : t.stop = byteLength before + byteLength t.kind.text := by
    rw [hplace, Nat.zero_add]
    rfl
  constructor
  case slice_eq => rw [hstart, hstop, slice?_byteLength hsplit]
  case stop_le =>
    rw [hstop, utf8ByteSize_of_toList hsplit, byteLength_append]
    omega
  case spelled =>
    rw [hts, List.mem_append, List.mem_singleton] at ht
    obtain ht | rfl := ht
    · exact .inl (hall t ht)
    · exact .inr rfl
  case ends =>
    intro hnumber c hc
    rw [hstop, ← byteLength_append, charFrom?_byteLength (by rw [hsplit, List.append_assoc])] at hc
    cases hkind : t.kind with
    | number digits =>
      rw [hkind] at hends
      exact hends c (by simpa using hc)
    | _ =>
      rw [hkind] at hnumber
      cases hnumber

theorem Tiles.isTiling (h : Tiles 0 source.toList ts) : IsTiling source ts := by
  have hsize : byteLength source.toList = source.utf8ByteSize := by
    rw [byteLength_eq_utf8ByteSize, String.ofList_toList]
  constructor
  case placed => exact fun t => h.isPlaced
  case sorted => exact h.sorted
  case blank =>
    intro i c hc hfree
    obtain ⟨before, after, hsplit, rfl⟩ := exists_split_of_charFrom? hc
    rw [← Nat.zero_add (byteLength before)] at hfree
    exact h.isBlank hsplit hfree
  case apart => exact h.apart (List.nil_append _).symm rfl
  case finish =>
    have hfinish := h.exists_finish
    rwa [Nat.zero_add, hsize] at hfinish

end Source

/-- The loop over the bytes of a source comes to an end and cuts no character in two, and the tokens
that it finds tile the source. -/
theorem tokens_tile_source (source : String) :
    rounds source (source.utf8ByteSize + 1) ⟨0, []⟩ = .over (tokens source) ∧
      ∀ ts, tokens source = .ok ts → IsTiling source ts := by
  refine ⟨rounds_eq_tokens source, fun ts h => ?_⟩
  exact (scan_eq_ok_iff.1 h).isTiling

/-- A blank of two bytes keeps the numbers apart. -/
theorem tokens_tile_source_no_break_space :
    tokens "r0+12\u00a034" = .ok [⟨.component .red '0', 0, 2⟩, ⟨.operator .add, 2, 3⟩,
        ⟨.number ['1', '2'], 3, 5⟩, ⟨.number ['3', '4'], 7, 9⟩, ⟨.finish, 9, 9⟩] ∧
      IsTiling "r0+12\u00a034" [⟨.component .red '0', 0, 2⟩, ⟨.operator .add, 2, 3⟩,
        ⟨.number ['1', '2'], 3, 5⟩, ⟨.number ['3', '4'], 7, 9⟩, ⟨.finish, 9, 9⟩] := by
  have htokens : tokens "r0+12\u00a034" = .ok [⟨.component .red '0', 0, 2⟩, ⟨.operator .add, 2, 3⟩,
      ⟨.number ['1', '2'], 3, 5⟩, ⟨.number ['3', '4'], 7, 9⟩, ⟨.finish, 9, 9⟩] := by decide +kernel
  exact ⟨htokens, (tokens_tile_source "r0+12\u00a034").2 _ htokens⟩

end Quilt.Formula
