import Quilt.Json.Numeral

namespace Quilt.Json

inductive Token where
  | openArray | closeArray | openObject | closeObject | comma | colon
  | null
  | bool (value : Bool)
  | number (n : Numeral)
  /-- The characters of a string, unless an escape stands for half a surrogate pair. -/
  | string (value : Option String)
deriving DecidableEq, Repr

def isSpace (c : Char) : Bool := c == ' ' || c == '\n' || c == '\r' || c == '\t'

/-- A piece of a string: a character, or the code unit of an escape `\u`. -/
inductive Piece where
  | char (c : Char)
  | unit (code : Nat)
deriving DecidableEq, Repr

def hexValue? (c : Char) : Option Nat :=
  if '0' ≤ c ∧ c ≤ '9' then some (c.toNat - '0'.toNat)
  else if 'a' ≤ c ∧ c ≤ 'f' then some (c.toNat - 'a'.toNat + 10)
  else if 'A' ≤ c ∧ c ≤ 'F' then some (c.toNat - 'A'.toNat + 10)
  else none

def hexCode? (digits : List Char) : Option Nat :=
  digits.foldlM (fun code c => (hexValue? c).map (16 * code + ·)) 0

def unescape? : Char → Option Char
  | '"' => some '"'
  | '\\' => some '\\'
  | '/' => some '/'
  | 'b' => some '\x08'
  | 'f' => some '\x0c'
  | 'n' => some '\n'
  | 'r' => some '\r'
  | 't' => some '\t'
  | _ => none

/-- The pieces of a string up to its closing quote, and what follows the quote. Control characters
must be escaped. -/
def scanString : List Char → Option (List Piece × List Char)
  | [] => none
  | '"' :: rest => some ([], rest)
  | '\\' :: 'u' :: a :: b :: c :: d :: rest => do
    let code ← hexCode? [a, b, c, d]
    let (pieces, rest) ← scanString rest
    return (.unit code :: pieces, rest)
  | '\\' :: letter :: rest => do
    let c ← unescape? letter
    let (pieces, rest) ← scanString rest
    return (.char c :: pieces, rest)
  | c :: rest =>
    if c.toNat < 0x20 || c == '\\' then none
    else do
      let (pieces, rest) ← scanString rest
      return (.char c :: pieces, rest)

def isLeadingSurrogate (code : Nat) : Bool := 0xD800 ≤ code && code < 0xDC00

def isTrailingSurrogate (code : Nat) : Bool := 0xDC00 ≤ code && code < 0xE000

/-- The characters of the pieces. Surrogates must come in pairs. -/
def joinPieces : List Piece → Option (List Char)
  | [] => some []
  | .char c :: rest => (joinPieces rest).map (c :: ·)
  | .unit high :: .unit low :: rest =>
    if isLeadingSurrogate high && isTrailingSurrogate low then
      (joinPieces rest).map
        (Char.ofNat (0x10000 + (high - 0xD800) * 0x400 + (low - 0xDC00)) :: ·)
    else if isLeadingSurrogate high || isTrailingSurrogate high then none
    else (joinPieces (.unit low :: rest)).map (Char.ofNat high :: ·)
  | .unit code :: rest =>
    if isLeadingSurrogate code || isTrailingSurrogate code then none
    else (joinPieces rest).map (Char.ofNat code :: ·)

def scanDigits (cs : List Char) : Option (List Char × List Char) :=
  let digits := cs.takeWhile Char.isDigit
  if digits.isEmpty then none else some (digits, cs.dropWhile Char.isDigit)

/-- A zero stands alone before the point. -/
def scanWhole : List Char → Option (Nat × List Char)
  | '0' :: rest => some (0, rest)
  | cs => (scanDigits cs).map fun (digits, rest) => (Nat.ofDigitChars 10 digits 0, rest)

def scanFraction : List Char → Option (List Char × List Char)
  | '.' :: rest => scanDigits rest
  | cs => some ([], cs)

def scanSign : List Char → Bool × List Char
  | '-' :: rest => (true, rest)
  | '+' :: rest => (false, rest)
  | cs => (false, cs)

def scanExponent : List Char → Option (Option Int × List Char)
  | [] => some (none, [])
  | c :: rest =>
    if c == 'e' || c == 'E' then do
      let (negative, rest) := scanSign rest
      let (digits, rest) ← scanDigits rest
      let size : Int := Nat.ofDigitChars 10 digits 0
      return (some (if negative then -size else size), rest)
    else some (none, c :: rest)

def scanNumeral (negative : Bool) (cs : List Char) : Option (Numeral × List Char) := do
  let (whole, cs) ← scanWhole cs
  let (fraction, cs) ← scanFraction cs
  let (exponent, cs) ← scanExponent cs
  return (⟨negative, whole, fraction, exponent⟩, cs)

def scanToken : List Char → Option (Token × List Char)
  | '[' :: rest => some (.openArray, rest)
  | ']' :: rest => some (.closeArray, rest)
  | '{' :: rest => some (.openObject, rest)
  | '}' :: rest => some (.closeObject, rest)
  | ',' :: rest => some (.comma, rest)
  | ':' :: rest => some (.colon, rest)
  | 'n' :: 'u' :: 'l' :: 'l' :: rest => some (.null, rest)
  | 't' :: 'r' :: 'u' :: 'e' :: rest => some (.bool true, rest)
  | 'f' :: 'a' :: 'l' :: 's' :: 'e' :: rest => some (.bool false, rest)
  | '"' :: rest => (scanString rest).map fun (pieces, rest) =>
    (.string ((joinPieces pieces).map String.ofList), rest)
  | '-' :: rest => (scanNumeral true rest).map fun (n, rest) => (.number n, rest)
  | cs => (scanNumeral false cs).map fun (n, rest) => (.number n, rest)

section Length

theorem length_of_scanDigits {cs digits rest : List Char} (h : scanDigits cs = some (digits, rest)) :
    rest.length < cs.length := by
  simp only [scanDigits] at h
  split at h
  · simp at h
  · next hne =>
    simp only [Option.some.injEq, Prod.mk.injEq] at h
    obtain ⟨rfl, rfl⟩ := h
    have hlen := congrArg List.length (List.takeWhile_append_dropWhile (p := Char.isDigit) (l := cs))
    have hpos := List.length_pos_iff.2 (mt List.isEmpty_iff.2 hne)
    simp only [List.length_append] at hlen
    omega

theorem length_of_scanString {cs rest : List Char} {pieces : List Piece}
    (h : scanString cs = some (pieces, rest)) : rest.length < cs.length := by
  fun_induction scanString cs generalizing pieces with
  | case1 => simp at h
  | case2 => simp at h; simp [h.2]
  | case3 a b c d r ih =>
    simp only [bind, Option.bind_eq_some_iff, pure, Option.some.injEq, Prod.mk.injEq] at h
    obtain ⟨_, _, ⟨p, r'⟩, hr, _, rfl⟩ := h
    have : r'.length < r.length := ih hr
    simp only [List.length_cons]
    omega
  | case4 letter r _ ih =>
    simp only [bind, Option.bind_eq_some_iff, pure, Option.some.injEq, Prod.mk.injEq] at h
    obtain ⟨_, _, ⟨p, r'⟩, hr, _, rfl⟩ := h
    have : r'.length < r.length := ih hr
    simp only [List.length_cons]
    omega
  | case5 => simp at h
  | case6 c r _ _ _ _ ih =>
    simp only [bind, Option.bind_eq_some_iff, pure, Option.some.injEq, Prod.mk.injEq] at h
    obtain ⟨⟨p, r'⟩, hr, _, rfl⟩ := h
    have : r'.length < r.length := ih hr
    simp only [List.length_cons]
    omega

theorem length_of_scanWhole {cs rest : List Char} {n : Nat} (h : scanWhole cs = some (n, rest)) :
    rest.length < cs.length := by
  unfold scanWhole at h
  split at h
  · simp at h; simp [h.2]
  · simp only [Option.map_eq_some_iff, Prod.mk.injEq] at h
    obtain ⟨⟨digits, r⟩, hd, _, rfl⟩ := h
    exact length_of_scanDigits hd

theorem length_of_scanFraction {cs digits rest : List Char}
    (h : scanFraction cs = some (digits, rest)) : rest.length ≤ cs.length := by
  unfold scanFraction at h
  split at h
  · have := length_of_scanDigits h
    simp only [List.length_cons]
    omega
  · simp at h
    simp [h.2]

theorem length_scanSign_le (cs : List Char) : (scanSign cs).2.length ≤ cs.length := by
  unfold scanSign
  split <;> simp

theorem length_of_scanExponent {cs rest : List Char} {e : Option Int}
    (h : scanExponent cs = some (e, rest)) : rest.length ≤ cs.length := by
  unfold scanExponent at h
  split at h
  · simp at h; simp [h.2]
  · next c r =>
    split at h
    · simp only [bind, Option.bind_eq_some_iff, pure, Option.some.injEq, Prod.mk.injEq] at h
      obtain ⟨⟨digits, r'⟩, hd, _, rfl⟩ := h
      have hlt := length_of_scanDigits hd
      have hle := length_scanSign_le r
      simp only [List.length_cons]
      omega
    · simp only [Option.some.injEq, Prod.mk.injEq] at h
      simp [h.2.symm]

theorem length_of_scanNumeral {negative : Bool} {cs rest : List Char} {n : Numeral}
    (h : scanNumeral negative cs = some (n, rest)) : rest.length < cs.length := by
  simp only [scanNumeral, bind, Option.bind_eq_some_iff, pure, Option.some.injEq,
    Prod.mk.injEq] at h
  obtain ⟨⟨w, c₁⟩, hw, ⟨f, c₂⟩, hf, ⟨e, c₃⟩, he, _, rfl⟩ := h
  have h₁ : c₁.length < cs.length := length_of_scanWhole hw
  have h₂ : c₂.length ≤ c₁.length := length_of_scanFraction hf
  have h₃ : c₃.length ≤ c₂.length := length_of_scanExponent he
  show c₃.length < cs.length
  omega

theorem length_of_scanToken {cs rest : List Char} {t : Token}
    (h : scanToken cs = some (t, rest)) : rest.length < cs.length := by
  unfold scanToken at h
  split at h <;> try (simp at h; obtain ⟨_, rfl⟩ := h; simp only [List.length_cons]; omega)
  · simp only [Option.map_eq_some_iff, Prod.mk.injEq] at h
    obtain ⟨⟨pieces, r⟩, hs, _, rfl⟩ := h
    have := length_of_scanString hs
    simp only [List.length_cons]
    omega
  · simp only [Option.map_eq_some_iff, Prod.mk.injEq] at h
    obtain ⟨⟨n, r⟩, hs, _, rfl⟩ := h
    have := length_of_scanNumeral hs
    simp only [List.length_cons]
    omega
  · simp only [Option.map_eq_some_iff, Prod.mk.injEq] at h
    obtain ⟨⟨n, r⟩, hs, _, rfl⟩ := h
    exact length_of_scanNumeral hs

end Length

def tokens : List Char → Option (List Token)
  | [] => some []
  | c :: cs =>
    if isSpace c then tokens cs
    else
      match _h : scanToken (c :: cs) with
      | some (t, rest) => (tokens rest).map (t :: ·)
      | none => none
termination_by cs => cs.length
decreasing_by
  · simp
  · exact length_of_scanToken _h

end Quilt.Json
