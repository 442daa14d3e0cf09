import Mathlib
import Quilt.Json.Token
import Quilt.Proofs.Tokens

namespace Quilt.Json

variable {cs ds rest text : List Char} {c : Char} {t : Token} {ts us : List Token}

def IsDigits (ds : List Char) : Prop := ds ≠ [] ∧ ∀ d ∈ ds, d.isDigit

/-- The text of a whole part: a zero, or digits that begin with none. -/
inductive WholeText : List Char → ℕ → Prop
  | zero : WholeText ['0'] 0
  | digits {ds : List Char} (hds : IsDigits ds) (hfirst : ds.head? ≠ some '0') :
      WholeText ds (Nat.ofDigitChars 10 ds 0)

inductive FractionText : List Char → List Char → Prop
  | none : FractionText [] []
  | digits {ds : List Char} (hds : IsDigits ds) : FractionText ('.' :: ds) ds

inductive ExponentText : List Char → Option ℤ → Prop
  | none : ExponentText [] none
  | plus {letter : Char} {sign ds : List Char} (hletter : letter = 'e' ∨ letter = 'E')
      (hsign : sign = [] ∨ sign = ['+']) (hds : IsDigits ds) :
      ExponentText (letter :: (sign ++ ds)) (some (Nat.ofDigitChars 10 ds 0))
  | minus {letter : Char} {ds : List Char} (hletter : letter = 'e' ∨ letter = 'E')
      (hds : IsDigits ds) :
      ExponentText (letter :: '-' :: ds) (some (-Nat.ofDigitChars 10 ds 0))

/-- The text of a numeral behind its sign. -/
inductive NumeralText (negative : Bool) : List Char → Numeral → Prop
  | intro {w f e fraction : List Char} {whole : ℕ} {exponent : Option ℤ} (hw : WholeText w whole)
      (hf : FractionText f fraction) (he : ExponentText e exponent) :
      NumeralText negative (w ++ (f ++ e)) ⟨negative, whole, fraction, exponent⟩

/-- The text of a string between its quotes. -/
inductive PiecesText : List Char → List Piece → Prop
  | nil : PiecesText [] []
  | char {c : Char} {cs : List Char} {pieces : List Piece} (hcontrol : 0x20 ≤ c.toNat)
      (hquote : c ≠ '"') (hbackslash : c ≠ '\\') (h : PiecesText cs pieces) :
      PiecesText (c :: cs) (.char c :: pieces)
  | escape {letter c : Char} {cs : List Char} {pieces : List Piece}
      (hletter : unescape? letter = some c) (h : PiecesText cs pieces) :
      PiecesText ('\\' :: letter :: cs) (.char c :: pieces)
  | unit {w x y z : Char} {code : ℕ} {cs : List Char} {pieces : List Piece}
      (hcode : hexCode? [w, x, y, z] = some code) (h : PiecesText cs pieces) :
      PiecesText ('\\' :: 'u' :: w :: x :: y :: z :: cs) (.unit code :: pieces)

/-- The text of a token that has but one. -/
def Token.plainText? : Token → Option (List Char)
  | .openArray => some ['[']
  | .closeArray => some [']']
  | .openObject => some ['\x7b']
  | .closeObject => some ['\x7d']
  | .comma => some [',']
  | .colon => some [':']
  | .null => some ['n', 'u', 'l', 'l']
  | .bool true => some ['t', 'r', 'u', 'e']
  | .bool false => some ['f', 'a', 'l', 's', 'e']
  | .number _ => none
  | .string _ => none

inductive TokenText : List Char → Token → Prop
  | plain {cs : List Char} {t : Token} (h : t.plainText? = some cs) : TokenText cs t
  | positive {cs : List Char} {n : Numeral} (h : NumeralText false cs n) :
      TokenText cs (.number n)
  | negative {cs : List Char} {n : Numeral} (h : NumeralText true cs n) :
      TokenText ('-' :: cs) (.number n)
  | string {cs : List Char} {pieces : List Piece} (h : PiecesText cs pieces) :
      TokenText ('"' :: (cs ++ ['"'])) (.string ((joinPieces pieces).map String.ofList))

/-- Whether a numeral is over where the rest begins. -/
def EndsNumeral (rest : List Char) : Prop :=
  ∀ c ∈ rest.head?, c.isDigit = false ∧ c ≠ '.' ∧ c ≠ 'e' ∧ c ≠ 'E'

/-- Whether a token may end before the rest of a text: a numeral takes all that could belong to
it. -/
def Token.EndsBefore (t : Token) (rest : List Char) : Prop :=
  match t with
  | .number _ => EndsNumeral rest
  | _ => True

/-- Texts of tokens, with blanks between and around them, where `WS` is one of the four blanks:

    Numeral := '-'? ('0' | [1-9] Digit*) ('.' Digit+)? ([eE] [+-]? Digit+)?
    String  := '"' (Unescaped | '\' Letter | '\u' Hex Hex Hex Hex)* '"'
    Text    := WS* (Token WS*)* -/
inductive TokensText : List Char → List Token → Prop
  | done : TokensText [] []
  | space {c : Char} {cs : List Char} {ts : List Token} (hc : isSpace c) (h : TokensText cs ts) :
      TokensText (c :: cs) ts
  | token {text cs : List Char} {t : Token} {ts : List Token} (htext : TokenText text t)
      (hends : t.EndsBefore cs) (h : TokensText cs ts) : TokensText (text ++ cs) (t :: ts)

theorem isDigits_of_scanDigits (h : scanDigits cs = some (ds, rest)) :
    cs = ds ++ rest ∧ IsDigits ds := by
  simp only [scanDigits, Option.ite_none_left_eq_some, Option.some.injEq, Prod.mk.injEq] at h
  obtain ⟨hempty, rfl, rfl⟩ := h
  refine ⟨List.takeWhile_append_dropWhile.symm, by simpa using hempty, ?_⟩
  exact fun d hd => List.mem_takeWhile_imp hd

theorem IsDigits.scanDigits_append (hds : IsDigits ds)
    (hrest : ∀ d ∈ rest.head?, d.isDigit = false) : scanDigits (ds ++ rest) = some (ds, rest) := by
  obtain ⟨htake, hdrop⟩ := Formula.takeWhile_digits hds.2 hrest
  have hempty : ¬ ds.isEmpty := by simpa using hds.1
  rw [scanDigits, htake, hdrop, if_neg hempty]

theorem WholeText.scanWhole_append {w : List Char} {n : ℕ} (h : WholeText w n)
    (hrest : ∀ d ∈ rest.head?, d.isDigit = false) : scanWhole (w ++ rest) = some (n, rest) := by
  cases h with
  | zero => rfl
  | digits hds hfirst =>
    rw [scanWhole.eq_2, hds.scanDigits_append hrest]
    · rfl
    · intro r hzero
      obtain ⟨d, ds, rfl⟩ := List.exists_cons_of_ne_nil hds.1
      rw [List.cons_append] at hzero
      exact hfirst (by rw [(List.cons.inj hzero).1]; rfl)

theorem exists_wholeText {n : ℕ} (h : scanWhole cs = some (n, rest)) :
    ∃ w, cs = w ++ rest ∧ WholeText w n := by
  unfold scanWhole at h
  split at h
  · obtain ⟨rfl, rfl⟩ := Prod.mk.inj (Option.some.inj h)
    exact ⟨['0'], rfl, .zero⟩
  · next hzero =>
    obtain ⟨⟨ds, rest⟩, hscan, hn⟩ := Option.map_eq_some_iff.1 h
    obtain ⟨rfl, rfl⟩ := Prod.mk.inj hn
    obtain ⟨rfl, hds⟩ := isDigits_of_scanDigits hscan
    refine ⟨ds, rfl, .digits hds fun hfirst => ?_⟩
    obtain ⟨ds, rfl⟩ := List.head?_eq_some_iff.1 hfirst
    exact hzero _ rfl

theorem FractionText.scanFraction_append {f fraction : List Char} (h : FractionText f fraction)
    (hrest : ∀ d ∈ rest.head?, d.isDigit = false ∧ d ≠ '.') :
    scanFraction (f ++ rest) = some (fraction, rest) := by
  cases h with
  | none =>
    refine scanFraction.eq_2 _ fun r hpoint => ?_
    rw [List.nil_append] at hpoint
    exact (hrest '.' (by rw [hpoint]; rfl)).2 rfl
  | digits hds => exact hds.scanDigits_append fun d hd => (hrest d hd).1

theorem exists_fractionText {fraction : List Char} (h : scanFraction cs = some (fraction, rest)) :
    ∃ f, cs = f ++ rest ∧ FractionText f fraction := by
  unfold scanFraction at h
  split at h
  · obtain ⟨rfl, hds⟩ := isDigits_of_scanDigits h
    exact ⟨_, rfl, .digits hds⟩
  · obtain ⟨rfl, rfl⟩ := Prod.mk.inj (Option.some.inj h)
    exact ⟨[], rfl, .none⟩

theorem scanSign_cases (cs : List Char) :
    (∃ rest, cs = '-' :: rest ∧ scanSign cs = (true, rest)) ∨
      ∃ sign rest, (sign = [] ∨ sign = ['+']) ∧ cs = sign ++ rest ∧
        scanSign cs = (false, rest) := by
  unfold scanSign
  split
  · exact .inl ⟨_, rfl, rfl⟩
  · exact .inr ⟨['+'], _, .inr rfl, rfl, rfl⟩
  · exact .inr ⟨[], _, .inl rfl, rfl, rfl⟩

theorem scanSign_digits {sign : List Char} (hsign : sign = [] ∨ sign = ['+']) (hds : IsDigits ds)
    (rest : List Char) : scanSign (sign ++ (ds ++ rest)) = (false, ds ++ rest) := by
  obtain rfl | rfl := hsign
  · obtain ⟨d, ds, rfl⟩ := List.exists_cons_of_ne_nil hds.1
    have hd : d.isDigit = true := hds.2 d List.mem_cons_self
    have hne : ∀ c : Char, c.isDigit = false → ∀ r, [] ++ (d :: ds ++ rest) ≠ c :: r := by
      intro c hc r heq
      rw [(List.cons.inj heq).1, hc] at hd
      cases hd
    exact scanSign.eq_3 _ (hne _ rfl) (hne _ rfl)
  · rfl

theorem ExponentText.scanExponent_append {e : List Char} {exponent : Option ℤ}
    (h : ExponentText e exponent) (hrest : EndsNumeral rest) :
    scanExponent (e ++ rest) = some (exponent, rest) := by
  have hdigit : ∀ d ∈ rest.head?, d.isDigit = false := fun d hd => (hrest d hd).1
  cases h with
  | none =>
    cases rest with
    | nil => rfl
    | cons c rest =>
      obtain ⟨-, -, he, hE⟩ := hrest c rfl
      simp [scanExponent, he, hE]
  | plus hletter hsign hds =>
    rw [List.cons_append, List.append_assoc, scanExponent, if_pos (by simpa using hletter),
      scanSign_digits hsign hds]
    simp [hds.scanDigits_append hdigit]
  | minus hletter hds =>
    rw [List.cons_append, List.cons_append, scanExponent, if_pos (by simpa using hletter)]
    simp [scanSign, hds.scanDigits_append hdigit]

theorem exists_exponentText {exponent : Option ℤ} (h : scanExponent cs = some (exponent, rest)) :
    ∃ e, cs = e ++ rest ∧ ExponentText e exponent := by
  unfold scanExponent at h
  split at h
  · obtain ⟨rfl, rfl⟩ := Prod.mk.inj (Option.some.inj h)
    exact ⟨[], rfl, .none⟩
  next letter cs =>
  split_ifs at h with hletter
  swap
  · obtain ⟨rfl, rfl⟩ := Prod.mk.inj (Option.some.inj h)
    exact ⟨[], rfl, .none⟩
  replace hletter : letter = 'e' ∨ letter = 'E' := by simpa using hletter
  obtain ⟨r, rfl, hsign⟩ | ⟨sign, r, hplus, rfl, hsign⟩ := scanSign_cases cs
  · rw [hsign] at h
    obtain ⟨⟨ds, _⟩, hscan, heq⟩ := Option.bind_eq_some_iff.1 h
    obtain ⟨rfl, rfl⟩ := Prod.mk.inj (Option.some.inj heq)
    obtain ⟨rfl, hds⟩ := isDigits_of_scanDigits hscan
    exact ⟨_, rfl, .minus hletter hds⟩
  · rw [hsign] at h
    obtain ⟨⟨ds, _⟩, hscan, heq⟩ := Option.bind_eq_some_iff.1 h
    obtain ⟨rfl, rfl⟩ := Prod.mk.inj (Option.some.inj heq)
    obtain ⟨rfl, hds⟩ := isDigits_of_scanDigits hscan
    exact ⟨_, by rw [List.cons_append, List.append_assoc], .plus hletter hplus hds⟩

theorem ExponentText.head {e : List Char} {exponent : Option ℤ} (h : ExponentText e exponent)
    (hrest : EndsNumeral rest) : ∀ d ∈ (e ++ rest).head?, d.isDigit = false ∧ d ≠ '.' := by
  have hletters : ∀ letter : Char, letter = 'e' ∨ letter = 'E' →
      letter.isDigit = false ∧ letter ≠ '.' := by
    rintro letter (rfl | rfl) <;> decide
  cases h with
  | none => exact fun d hd => ⟨(hrest d hd).1, (hrest d hd).2.1⟩
  | plus hletter =>
    rintro d ⟨⟩
    exact hletters _ hletter
  | minus hletter =>
    rintro d ⟨⟩
    exact hletters _ hletter

theorem NumeralText.scanNumeral_append {negative : Bool} {n : Numeral}
    (h : NumeralText negative cs n) (hrest : EndsNumeral rest) :
    scanNumeral negative (cs ++ rest) = some (n, rest) := by
  obtain @⟨w, f, e, fraction, whole, exponent, hw, hf, he⟩ := h
  have hhead := he.head hrest
  have hdigit : ∀ d ∈ (f ++ (e ++ rest)).head?, d.isDigit = false := by
    cases hf with
    | none => exact fun d hd => (hhead d hd).1
    | digits =>
      rintro d ⟨⟩
      rfl
  rw [List.append_assoc, List.append_assoc, scanNumeral, hw.scanWhole_append hdigit]
  change (scanFraction _ >>= _) = _
  rw [hf.scanFraction_append hhead]
  change (scanExponent _ >>= _) = _
  rw [he.scanExponent_append hrest]
  rfl

theorem exists_numeralText {negative : Bool} {n : Numeral}
    (h : scanNumeral negative cs = some (n, rest)) :
    ∃ text, cs = text ++ rest ∧ NumeralText negative text n := by
  simp only [scanNumeral, bind, Option.bind_eq_some_iff, pure, Option.some.injEq,
    Prod.mk.injEq] at h
  obtain ⟨⟨whole, c₁⟩, hwhole, ⟨fraction, c₂⟩, hfraction, ⟨exponent, c₃⟩, hexponent, rfl, rfl⟩ := h
  obtain ⟨w, rfl, hw⟩ := exists_wholeText hwhole
  obtain ⟨f, hf', hf⟩ := exists_fractionText hfraction
  obtain ⟨e, he', he⟩ := exists_exponentText hexponent
  dsimp only at hf' he'
  refine ⟨w ++ (f ++ e), ?_, .intro hw hf he⟩
  rw [hf', he', List.append_assoc, List.append_assoc]

theorem PiecesText.scanString_append {pieces : List Piece} (h : PiecesText cs pieces)
    (rest : List Char) : scanString (cs ++ '"' :: rest) = some (pieces, rest) := by
  induction h with
  | nil => rfl
  | @char c cs pieces hcontrol hquote hbackslash _ ih =>
    rw [List.cons_append, scanString.eq_5 _ _ hquote (fun _ _ _ _ _ h _ => hbackslash h)
      fun _ _ h _ => hbackslash h, ih]
    simp [hcontrol, hbackslash]
  | @escape letter c cs pieces hletter _ ih =>
    have hu : letter ≠ 'u' := by
      rintro rfl
      cases hletter
    rw [List.cons_append, List.cons_append, scanString.eq_4 _ _ (fun _ _ _ _ _ h _ => hu h),
      hletter, ih]
    rfl
  | unit hcode _ ih =>
    simp only [List.cons_append, scanString, hcode, ih]
    rfl

theorem exists_piecesText {pieces : List Piece} (h : scanString cs = some (pieces, rest)) :
    ∃ text, cs = text ++ '"' :: rest ∧ PiecesText text pieces := by
  fun_induction scanString cs generalizing pieces with
  | case1 => cases h
  | case2 rest =>
    obtain ⟨rfl, rfl⟩ := Prod.mk.inj (Option.some.inj h)
    exact ⟨[], rfl, .nil⟩
  | case3 w x y z cs ih =>
    simp only [bind, Option.bind_eq_some_iff, pure, Option.some.injEq, Prod.mk.injEq] at h
    obtain ⟨code, hcode, ⟨pieces, _⟩, hscan, rfl, rfl⟩ := h
    obtain ⟨text, rfl, htext⟩ := ih hscan
    exact ⟨_, rfl, .unit hcode htext⟩
  | case4 letter cs _ ih =>
    simp only [bind, Option.bind_eq_some_iff, pure, Option.some.injEq, Prod.mk.injEq] at h
    obtain ⟨c, hletter, ⟨pieces, _⟩, hscan, rfl, rfl⟩ := h
    obtain ⟨text, rfl, htext⟩ := ih hscan
    exact ⟨_, rfl, .escape hletter htext⟩
  | case5 => cases h
  | case6 c cs hquote _ _ hplain ih =>
    simp only [bind, Option.bind_eq_some_iff, pure, Option.some.injEq, Prod.mk.injEq] at h
    obtain ⟨⟨pieces, _⟩, hscan, rfl, rfl⟩ := h
    obtain ⟨text, rfl, htext⟩ := ih hscan
    obtain ⟨hcontrol, hbackslash⟩ : 0x20 ≤ c.toNat ∧ c ≠ '\\' := by simpa using hplain
    exact ⟨_, rfl, .char hcontrol hquote hbackslash htext⟩

theorem scanToken_digit {c : Char} (hc : c.isDigit) (cs : List Char) :
    scanToken (c :: cs) = (scanNumeral false (c :: cs)).map fun (n, rest) => (.number n, rest) := by
  have hne : ∀ d : Char, d.isDigit = false → ∀ ds, c :: cs = d :: ds → False := by
    intro d hd ds h
    rw [(List.cons.inj h).1, hd] at hc
    cases hc
  exact scanToken.eq_12 _ (hne _ rfl) (hne _ rfl) (hne _ rfl) (hne _ rfl) (hne _ rfl) (hne _ rfl)
    (fun _ => hne _ rfl _) (fun _ => hne _ rfl _) (fun _ => hne _ rfl _) (hne _ rfl) (hne _ rfl)

theorem NumeralText.exists_digit {negative : Bool} {n : Numeral} (h : NumeralText negative cs n) :
    ∃ d ds, cs = d :: ds ∧ d.isDigit := by
  obtain ⟨hw, -, -⟩ := h
  cases hw with
  | zero => exact ⟨'0', _, rfl, rfl⟩
  | digits hds =>
    obtain ⟨d, ds, rfl⟩ := List.exists_cons_of_ne_nil hds.1
    exact ⟨d, _, rfl, hds.2 d List.mem_cons_self⟩

theorem TokenText.scanToken_append (h : TokenText text t) (hends : t.EndsBefore rest) :
    scanToken (text ++ rest) = some (t, rest) := by
  cases h with
  | plain h =>
    cases t with
    | number | string => cases h
    | bool b => cases b <;> cases h <;> rfl
    | _ => cases h; rfl
  | positive h =>
    have hscan := h.scanNumeral_append hends
    obtain ⟨d, ds, rfl, hd⟩ := h.exists_digit
    rw [List.cons_append] at hscan ⊢
    rw [scanToken_digit hd, hscan]
    rfl
  | negative h =>
    rw [List.cons_append]
    change (scanNumeral true _).map _ = _
    rw [h.scanNumeral_append hends]
    rfl
  | @string cs pieces h =>
    have hscan := h.scanString_append rest
    rw [List.cons_append, List.append_assoc, List.singleton_append]
    change (scanString _).map _ = _
    rw [hscan]
    rfl

theorem exists_tokenText (h : scanToken cs = some (t, rest)) :
    ∃ text, cs = text ++ rest ∧ TokenText text t := by
  unfold scanToken at h
  split at h
  case h_10 =>
    obtain ⟨⟨pieces, _⟩, hscan, heq⟩ := Option.map_eq_some_iff.1 h
    obtain ⟨rfl, rfl⟩ := Prod.mk.inj heq
    obtain ⟨text, rfl, htext⟩ := exists_piecesText hscan
    exact ⟨_, by simp, .string htext⟩
  case h_11 =>
    obtain ⟨⟨n, _⟩, hscan, heq⟩ := Option.map_eq_some_iff.1 h
    obtain ⟨rfl, rfl⟩ := Prod.mk.inj heq
    obtain ⟨text, rfl, htext⟩ := exists_numeralText hscan
    exact ⟨_, rfl, .negative htext⟩
  case h_12 =>
    obtain ⟨⟨n, _⟩, hscan, heq⟩ := Option.map_eq_some_iff.1 h
    obtain ⟨rfl, rfl⟩ := Prod.mk.inj heq
    obtain ⟨text, rfl, htext⟩ := exists_numeralText hscan
    exact ⟨_, rfl, .positive htext⟩
  all_goals
    obtain ⟨rfl, rfl⟩ := Prod.mk.inj (Option.some.inj h)
    refine ⟨_, ?_, .plain rfl⟩
    rfl

theorem scanToken_space (hc : isSpace c) (cs : List Char) : scanToken (c :: cs) = none := by
  simp only [isSpace, Bool.or_eq_true, beq_iff_eq] at hc
  obtain ((rfl | rfl) | rfl) | rfl := hc <;> rfl

theorem tokens_space (hc : isSpace c) (cs : List Char) : tokens (c :: cs) = tokens cs := by
  rw [tokens, if_pos hc]

theorem tokens_of_scanToken (h : scanToken cs = some (t, rest)) :
    tokens cs = (tokens rest).map (t :: ·) := by
  cases cs with
  | nil => cases h
  | cons c cs =>
    have hc : ¬ isSpace c := by
      intro hc
      rw [scanToken_space hc] at h
      cases h
    rw [tokens, if_neg hc]
    split
    · next heq =>
      rw [h] at heq
      obtain ⟨rfl, rfl⟩ := Prod.mk.inj (Option.some.inj heq)
      rfl
    · next heq =>
      rw [h] at heq
      cases heq

theorem TokensText.tokens_eq (h : TokensText cs ts) : tokens cs = some ts := by
  induction h with
  | done => rw [tokens]
  | space hc _ ih => rw [tokens_space hc, ih]
  | token htext hends _ ih =>
    rw [tokens_of_scanToken (htext.scanToken_append hends), ih]
    rfl

theorem endsNumeral_cons : EndsNumeral (c :: rest) ↔
    c.isDigit = false ∧ c ≠ '.' ∧ c ≠ 'e' ∧ c ≠ 'E' := by
  simp [EndsNumeral]

theorem TokenText.endsNumeral (h : TokenText text t) (ht : ∀ n, t ≠ .number n)
    (rest : List Char) : EndsNumeral (text ++ rest) := by
  cases h with
  | plain h =>
    cases t with
    | number | string => cases h
    | bool b => cases b <;> cases h <;> exact endsNumeral_cons.2 (by decide)
    | _ => cases h; exact endsNumeral_cons.2 (by decide)
  | positive | negative => exact absurd rfl (ht _)
  | string => exact endsNumeral_cons.2 (by decide)

theorem isSpace_endsNumeral {c : Char} (hc : isSpace c) (rest : List Char) :
    EndsNumeral (c :: rest) := by
  simp only [isSpace, Bool.or_eq_true, beq_iff_eq] at hc
  obtain ((rfl | rfl) | rfl) | rfl := hc <;> exact endsNumeral_cons.2 (by decide)

theorem TokensText.endsNumeral (h : TokensText cs ts) (ht : ∀ n, ts.head? ≠ some (.number n)) :
    EndsNumeral cs := by
  cases h with
  | done => simp [EndsNumeral]
  | space hc => exact isSpace_endsNumeral hc _
  | token htext => exact htext.endsNumeral (fun n hn => ht n (by rw [hn]; rfl)) _

theorem Token.EndsBefore.append (h : t.EndsBefore cs) (hds : EndsNumeral ds) :
    t.EndsBefore (cs ++ ds) := by
  cases t with
  | number n =>
    cases cs with
    | nil => exact hds
    | cons c cs => exact h
  | _ => trivial

theorem TokenText.tokensText (h : TokenText text t) : TokensText text [t] := by
  have hends : t.EndsBefore [] := by
    cases t with
    | number => simp [Token.EndsBefore, EndsNumeral]
    | _ => trivial
  rw [← text.append_nil]
  exact .token h hends .done

namespace TokensText

theorem append (h : TokensText cs ts) (h' : TokensText ds us) (hds : EndsNumeral ds) :
    TokensText (cs ++ ds) (ts ++ us) := by
  induction h with
  | done => exact h'
  | space hc _ ih => exact .space hc ih
  | token htext hends _ ih =>
    rw [List.append_assoc]
    exact .token htext (hends.append hds) ih

theorem spaces {blanks : List Char} (h : ∀ c ∈ blanks, isSpace c) (hcs : TokensText cs ts) :
    TokensText (blanks ++ cs) ts := by
  induction blanks with
  | nil => exact hcs
  | cons c blanks ih =>
    obtain ⟨hc, hblanks⟩ := List.forall_mem_cons.1 h
    exact .space hc (ih hblanks)

theorem mark (ht : t.plainText? = some [c]) (h : TokensText cs ts) :
    TokensText (c :: cs) (t :: ts) := by
  refine .token (.plain ht) ?_ h
  cases t with
  | number => cases ht
  | _ => trivial

end TokensText

/-- Entries with commas between. -/
def separated (entries : List (List Token)) : List Token := (entries.intersperse [.comma]).flatten

theorem flatten_intersperse_cons {α : Type} (sep item : List α) (items : List (List α)) :
    ((item :: items).intersperse sep).flatten = item ++ items.flatMap (sep ++ ·) := by
  induction items generalizing item with
  | nil => simp
  | cons next items ih => simp [ih]

namespace TokensText
variable {texts : List (List Char)} {entries : List (List Token)} {opens closes : Token}
  {first last : Char} {blanks : List Char}

theorem moreEntries (hlast : closes.plainText? = some [last]) (hblanks : ∀ c ∈ blanks, isSpace c)
    (h : List.Forall₂ TokensText texts entries) :
    TokensText (texts.flatMap ([','] ++ ·) ++ (blanks ++ [last]))
        (entries.flatMap ([.comma] ++ ·) ++ [closes]) ∧
      EndsNumeral (texts.flatMap ([','] ++ ·) ++ (blanks ++ [last])) := by
  induction h with
  | nil =>
    have hend : TokensText (blanks ++ [last]) [closes] := .spaces hblanks (.mark hlast .done)
    refine ⟨hend, hend.endsNumeral ?_⟩
    rintro n ⟨⟩
    cases hlast
  | @cons text entry texts entries hentry _ ih =>
    refine ⟨?_, endsNumeral_cons.2 (by decide)⟩
    have hall := (hentry.append ih.1 ih.2).mark (c := ',') (t := .comma) rfl
    simpa using hall

theorem bracketed (hfirst : opens.plainText? = some [first])
    (hlast : closes.plainText? = some [last]) (hblanks : ∀ c ∈ blanks, isSpace c)
    (h : List.Forall₂ TokensText texts entries) :
    TokensText (first :: ((texts.intersperse [',']).flatten ++ (blanks ++ [last])))
      (opens :: separated entries ++ [closes]) := by
  cases h with
  | nil =>
    have hend : TokensText (blanks ++ [last]) [closes] := .spaces hblanks (.mark hlast .done)
    exact .mark hfirst hend
  | @cons text entry texts entries hentry hmore =>
    obtain ⟨hrest, hends⟩ := moreEntries hlast hblanks hmore
    have hall := (hentry.append hrest hends).mark hfirst
    rw [separated, flatten_intersperse_cons, flatten_intersperse_cons]
    simpa using hall

end TokensText

end Quilt.Json
