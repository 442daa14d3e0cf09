import Mathlib
import Quilt.Proofs.Grammar

namespace Quilt.Formula
variable {numcolors offset place : ℕ} {text cs before after : List Char} {ts : List Token} {t : Token}
  {kind : TokenKind} {op : Op} {operand : Operand} {e : Error}

def ReadsTail (numcolors : ℕ) (ts : List Token) : Prop := ∃ tail, readTail numcolors ts = .ok tail

def ReadsChain (numcolors : ℕ) (ts : List Token) : Prop := ∃ c, readChain numcolors ts = .ok c

theorem readsChain_cons_iff : ReadsChain numcolors (t :: ts) ↔
    (∃ operand, readOperand numcolors t = .ok operand) ∧ ReadsTail numcolors ts := by
  simp only [ReadsChain, ReadsTail, readChain, bind_eq_ok, pure_eq_ok]
  constructor
  · rintro ⟨c, operand, hoperand, tail, htail, -⟩
    exact ⟨⟨operand, hoperand⟩, tail, htail⟩
  · rintro ⟨⟨operand, hoperand⟩, tail, htail⟩
    exact ⟨_, operand, hoperand, tail, htail, rfl⟩

theorem readTail_operator_cons (start stop : ℕ) :
    readTail numcolors (⟨.operator op, start, stop⟩ :: t :: ts) =
      (readChain numcolors (t :: ts)).map fun c => (op, c.head) :: c.tail := by
  rw [readTail, readChain]
  cases readOperand numcolors t with
  | error e => rfl
  | ok operand =>
    change (readTail numcolors ts >>= _) = (readTail numcolors ts >>= _).map _
    cases readTail numcolors ts <;> rfl

theorem readsTail_operator_iff (hkind : t.kind = .operator op) :
    ReadsTail numcolors (t :: ts) ↔ ReadsChain numcolors ts := by
  obtain ⟨kind, start, stop⟩ := t
  obtain rfl : kind = .operator op := hkind
  cases ts with
  | nil => simp [ReadsTail, ReadsChain, readTail, readChain]
  | cons t ts =>
    simp only [ReadsTail, ReadsChain, readTail_operator_cons, map_eq_ok]
    constructor
    · rintro ⟨_, c, hc, -⟩
      exact ⟨c, hc⟩
    · rintro ⟨c, hc⟩
      exact ⟨_, c, hc, rfl⟩

theorem readOperand_congr {t' : Token} (hkind : t'.kind = t.kind)
    (h : readOperand numcolors t = .ok operand) : readOperand numcolors t' = .ok operand := by
  obtain ⟨_, start, stop⟩ := t
  obtain ⟨kind, start', stop'⟩ := t'
  obtain rfl : kind = _ := hkind
  cases kind with
  | component ch digit =>
    dsimp only [readOperand] at h ⊢
    split_ifs at h ⊢
    exact h
  | number digits => exact h
  | operator op => cases h
  | finish => cases h

theorem offset_of_readOperand (h : readOperand numcolors t = .error e) : e.offset = t.start := by
  obtain ⟨kind, start, stop⟩ := t
  cases kind with
  | component ch digit =>
    dsimp only [readOperand] at h
    split_ifs at h
    cases h
    rfl
  | number digits => cases h
  | operator op =>
    cases h
    rfl
  | finish =>
    cases h
    rfl

theorem Tiles.exists_blanks (h : Tiles offset text (t :: ts)) :
    ∃ blanks rest, text = blanks ++ rest ∧ (∀ c ∈ blanks, Text.isBlank c) ∧
      t.start = offset + byteLength blanks ∧ (t.kind = .finish → rest = []) := by
  cases h with
  | finish hblanks => exact ⟨_, [], (List.append_nil _).symm, hblanks, rfl, fun _ => rfl⟩
  | token kind hblanks hspelled =>
    refine ⟨_, _, rfl, hblanks, rfl, fun hkind => ?_⟩
    obtain rfl : kind = .finish := hkind
    cases hspelled

theorem Tiles.ne_singleton_operator {start stop : ℕ} :
    ¬Tiles offset text [⟨.operator op, start, stop⟩] := by
  intro h
  cases h with
  | token _ _ _ _ hrest => cases hrest

theorem exists_cons_of_prefix {kinds : List TokenKind} (h : kind :: kinds <+: ts.map Token.kind) :
    ∃ t rest, ts = t :: rest ∧ t.kind = kind ∧ kinds <+: rest.map Token.kind := by
  cases ts with
  | nil => simp at h
  | cons t rest =>
    rw [List.map_cons, List.cons_prefix_cons] at h
    exact ⟨t, rest, rfl, h.1.symm, h.2⟩

/-- The first token that reading does not go on with. The text before it and the tokens in it do go
on, in some other way. Together with that token they are not read, whatever follows. -/
inductive StopsAt (Reads : List Token → Prop) (place : ℕ) : ℕ → List Char → List Token → Prop
  | intro {offset : ℕ} {before after rest : List Char} {earlier later more : List Token} {t : Token}
      (hplace : place = offset + byteLength before) (hstart : t.start = place)
      (hfinish : t.kind = .finish → after = [])
      (htiles : Tiles offset (before ++ rest) (earlier ++ more)) (hreads : Reads (earlier ++ more))
      (hstops : ∀ ts, (earlier ++ [t]).map Token.kind <+: ts.map Token.kind → ¬Reads ts) :
      StopsAt Reads place offset (before ++ after) (earlier ++ t :: later)

namespace StopsAt
variable {Reads Reads' : List Token → Prop} {blanks : List Char} {later more : List Token}

theorem first (hstart : t.start = offset + byteLength blanks)
    (hfinish : t.kind = .finish → after = []) {rest : List Char}
    (htiles : Tiles offset (blanks ++ rest) more) (hreads : Reads more)
    (hstops : ∀ t' ts, t'.kind = t.kind → ¬Reads (t' :: ts)) :
    StopsAt Reads t.start offset (blanks ++ after) (t :: later) := by
  rw [← List.nil_append (t :: later)]
  refine .intro hstart rfl hfinish htiles hreads fun ts hts => ?_
  obtain ⟨t', ts, rfl, hkind, -⟩ := exists_cons_of_prefix hts
  exact hstops t' ts hkind

theorem token (hblanks : ∀ c ∈ blanks, Text.isBlank c) (hspelled : kind.IsSpelled)
    (hreads : ∀ t' ts, t'.kind = kind → (Reads' (t' :: ts) ↔ Reads ts))
    (hends : ∀ {offset cs ts}, Tiles offset cs ts → Reads ts → kind.EndsBefore cs)
    (h : StopsAt Reads place (offset + byteLength blanks + byteLength kind.text) cs ts) :
    StopsAt Reads' place offset (blanks ++ (kind.text ++ cs))
      (kind.placedAt (offset + byteLength blanks) :: ts) := by
  cases h with
  | @intro before after rest earlier later more t hplace hstart hfinish htiles hread hstops =>
    -- One more token stands before the place; what could follow there still can.
    have hlonger : Tiles offset (blanks ++ (kind.text ++ before) ++ rest)
        (kind.placedAt (offset + byteLength blanks) :: earlier ++ more) := by
      simp only [List.append_assoc]
      exact .token kind hblanks hspelled (hends htiles hread) htiles
    have hlength : place = offset + byteLength (blanks ++ (kind.text ++ before)) := by
      rw [hplace, byteLength_append, byteLength_append]
      omega
    have htext : blanks ++ (kind.text ++ (before ++ after)) =
        blanks ++ (kind.text ++ before) ++ after := by
      simp only [List.append_assoc]
    rw [htext, ← List.cons_append]
    refine .intro hlength hstart hfinish hlonger ((hreads _ _ rfl).2 hread) fun ts hts hmore => ?_
    obtain ⟨t', ts, rfl, hkind, hts⟩ := exists_cons_of_prefix hts
    exact hstops ts hts ((hreads t' ts hkind).1 hmore)

theorem of_readChain_cons
    (htail : ∀ {offset text e}, Tiles offset text ts → readTail numcolors ts = .error e →
      StopsAt (ReadsTail numcolors) e.offset offset text ts)
    (htiles : Tiles offset text (t :: ts)) (h : readChain numcolors (t :: ts) = .error e) :
    StopsAt (ReadsChain numcolors) e.offset offset text (t :: ts) := by
  obtain hoperand | ⟨operand, hoperand, hrest⟩ := bind_eq_error.1 h
  · obtain ⟨blanks, rest, rfl, hblanks, hstart, hfinish⟩ := htiles.exists_blanks
    rw [offset_of_readOperand hoperand]
    -- Any operand would do in place of the token.
    have hspelled : (TokenKind.number ['1']).IsSpelled :=
      ⟨List.cons_ne_nil _ _, List.forall_mem_singleton.2 rfl⟩
    have hone : Tiles offset (blanks ++ ['1']) _ :=
      .token (.number ['1']) hblanks hspelled (by simp [TokenKind.EndsBefore])
        (.finish (List.forall_mem_nil _))
    refine first hstart hfinish hone (readsChain_cons_iff.2 ⟨⟨_, rfl⟩, [], rfl⟩) ?_
    intro t' ts hkind hchain
    obtain ⟨⟨operand, hread⟩, -⟩ := readsChain_cons_iff.1 hchain
    cases hoperand.symm.trans (readOperand_congr hkind.symm hread)
  · obtain hend | ⟨tail, -, hpure⟩ := bind_eq_error.1 hrest
    · cases htiles with
      | finish => cases hoperand
      | token kind hblanks hspelled _ hrest =>
        refine (htail hrest hend).token hblanks hspelled (fun t' ts hkind => ?_) ?_
        · exact readsChain_cons_iff.trans
            (and_iff_right ⟨operand, readOperand_congr hkind hoperand⟩)
        · rintro offset cs ts htiles ⟨tail, htail⟩
          exact .of_head kind (TailText.of_readTail htiles htail).isDigit_head
    · cases hpure

theorem of_readTail (htiles : Tiles offset text ts) (h : readTail numcolors ts = .error e) :
    StopsAt (ReadsTail numcolors) e.offset offset text ts := by
  fun_induction readTail numcolors ts generalizing text offset e with
  | case1 | case2 => cases h
  | case3 op start stop t ts ih =>
    have hchain : readChain numcolors (t :: ts) = .error e :=
      map_eq_error.1 ((readTail_operator_cons start stop).symm.trans h)
    cases htiles with
    | token _ hblanks _ _ hrest =>
      exact (of_readChain_cons ih hrest hchain).token hblanks trivial
        (fun _ _ => readsTail_operator_iff) fun _ _ => trivial
  | case4 t ts hkinds hoperator =>
    -- Only an operator or the end can be read here, whatever comes behind it.
    have hstops : ∀ t' ts, t'.kind = t.kind → ¬ReadsTail numcolors (t' :: ts) := by
      rintro ⟨kind, start', stop'⟩ ts' hkind
      obtain ⟨_, start, stop⟩ := t
      obtain rfl : kind = _ := hkind
      cases kind with
      | finish => exact (hkinds start stop rfl).elim
      | operator op =>
        cases ts with
        | nil => exact absurd htiles Tiles.ne_singleton_operator
        | cons t ts => exact (hoperator op start stop t ts rfl rfl).elim
      | component | number =>
        rintro ⟨tail, htail⟩
        cases htail
    obtain ⟨blanks, rest, rfl, hblanks, hstart, hfinish⟩ := htiles.exists_blanks
    cases h
    have hend : Tiles offset (blanks ++ [])
        [TokenKind.finish.placedAt (offset + byteLength blanks)] := by
      rw [List.append_nil]
      exact .finish hblanks
    exact first hstart hfinish hend ⟨[], rfl⟩ hstops

theorem of_readChain (htiles : Tiles offset text ts) (h : readChain numcolors ts = .error e) :
    StopsAt (ReadsChain numcolors) e.offset offset text ts := by
  cases ts with
  | nil => cases htiles
  | cons t ts => exact of_readChain_cons of_readTail htiles h

end StopsAt

/-- Some formula that compiles begins with tokens of these kinds. -/
def Continues (numcolors : ℕ) (kinds : List TokenKind) : Prop :=
  ∃ source ts f, tokens source = .ok ts ∧ kinds <+: ts.map Token.kind ∧
    compile numcolors source = .ok f

/-- The first token that a formula cannot go on with. The text before it goes on with another one, to
a formula that compiles, and no formula that compiles begins with the same tokens and that one. -/
inductive SyntaxFault (numcolors : ℕ) (source : String) (ts : List Token) (place : ℕ) : Prop
  | intro {before after rest : String} {earlier later more : List Token} {t : Token} {f : Formula}
      (hsource : source = before ++ after) (hplace : before.utf8ByteSize = place)
      (hts : ts = earlier ++ t :: later) (hstart : t.start = place)
      (hfinish : t.kind = .finish → after = "")
      (htokens : tokens (before ++ rest) = .ok (earlier ++ more))
      (hcompile : compile numcolors (before ++ rest) = .ok f)
      (hstops : ¬Continues numcolors ((earlier ++ [t]).map Token.kind))

theorem exists_compile_iff {source : String} : (∃ f, compile numcolors source = .ok f) ↔
    ∃ ts, tokens source = .ok ts ∧ ReadsChain numcolors ts := by
  simp only [compile, ReadsChain, bind_eq_ok, pure_eq_ok]
  constructor
  · rintro ⟨_, ts, hts, c, hc, -⟩
    exact ⟨ts, hts, c, hc⟩
  · rintro ⟨ts, hts, c, hc⟩
    exact ⟨_, ts, hts, c, hc, rfl⟩

theorem compile_eq_error {source : String} : compile numcolors source = .error e ↔
    tokens source = .error e ∨ ∃ ts, tokens source = .ok ts ∧ readChain numcolors ts = .error e := by
  simp [compile, bind_eq_error, pure, Except.pure]

theorem StopsAt.syntaxFault {source : String}
    (h : StopsAt (ReadsChain numcolors) place 0 source.toList ts) :
    SyntaxFault numcolors source ts place := by
  generalize htext : source.toList = text at h
  cases h with
  | @intro before after rest earlier later more t hplace hstart hfinish htiles hreads hstops =>
    have hsource : source = String.ofList before ++ String.ofList after := by
      rw [← String.ofList_append, ← htext, String.ofList_toList]
    have htokens : tokens (String.ofList before ++ String.ofList rest) = .ok (earlier ++ more) := by
      rw [tokens, ← String.ofList_append, String.toList_ofList]
      exact scan_eq_ok_iff.2 htiles
    obtain ⟨f, hf⟩ := exists_compile_iff.2 ⟨_, htokens, hreads⟩
    refine .intro hsource ?_ rfl hstart (fun hkind => ?_) htokens hf ?_
    · rw [hplace, Nat.zero_add, byteLength_eq_utf8ByteSize]
    · rw [hfinish hkind, String.ofList_nil]
    · rintro ⟨other, ts, g, hts, hkinds, hg⟩
      obtain ⟨_, hts', hread⟩ := exists_compile_iff.1 ⟨g, hg⟩
      obtain rfl := Except.ok.inj (hts.symm.trans hts')
      exact hstops ts hkinds hread

theorem LexicalFault.isValid {source : String} (h : LexicalFault 0 source.toList e) :
    (⟨e.offset⟩ : String.Pos.Raw).IsValid source := by
  generalize htext : source.toList = text at h
  -- The text splits into whole characters at the fault.
  have hvalid : ∀ before after : List Char, text = before ++ after →
      (⟨byteLength before⟩ : String.Pos.Raw).IsValid source := by
    intro before after hsplit
    refine String.Pos.Raw.isValid_iff_exists_append.2
      ⟨String.ofList before, String.ofList after, ?_, ?_⟩
    · rw [← String.ofList_append, ← hsplit, ← htext, String.ofList_toList]
    · rw [byteLength_eq_utf8ByteSize]
      rfl
  cases h with
  | @intro before _ _ _ _ hafter =>
    rw [Nat.zero_add] at hafter
    cases hafter with
    | stray => exact hvalid before _ rfl
    | @missingDigit ch rest =>
      have hletter := hvalid (before ++ [ch.letter]) rest (by simp)
      rwa [byteLength_append, byteLength, utf8Size_letter] at hletter

theorem SyntaxFault.isValid {source : String} (h : SyntaxFault numcolors source ts place) :
    (⟨place⟩ : String.Pos.Raw).IsValid source := by
  obtain ⟨rfl, rfl⟩ := h
  exact String.Pos.Raw.isValid_iff_exists_append.2 ⟨_, _, rfl, rfl⟩

/-- The error of a text that does not compile points into the text or at its end, between two
characters. If the text is not cut into tokens, the error is at the first character that keeps it
from being so. Otherwise it is at the first token that a formula cannot go on with. -/
theorem compile_error_leftmost {source : String} (h : compile numcolors source = .error e) :
    ((⟨e.offset⟩ : String.Pos.Raw).IsValid source ∧ e.offset ≤ source.utf8ByteSize) ∧
      (∀ e', tokens source = .error e' → e' = e ∧ LexicalFault 0 source.toList e) ∧
      ∀ ts, tokens source = .ok ts → SyntaxFault numcolors source ts e.offset := by
  obtain htokens | ⟨ts, hts, hread⟩ := compile_eq_error.1 h
  · have hfault : LexicalFault 0 source.toList e := scan_eq_error_iff.1 htokens
    refine ⟨⟨hfault.isValid, hfault.isValid.le_utf8ByteSize⟩, fun e' he' => ?_, fun ts hts => ?_⟩
    · exact ⟨Except.error.inj (he'.symm.trans htokens), hfault⟩
    · cases htokens.symm.trans hts
  · have hfault := (StopsAt.of_readChain (scan_eq_ok_iff.1 hts) hread).syntaxFault
    refine ⟨⟨hfault.isValid, hfault.isValid.le_utf8ByteSize⟩, fun e' he' => ?_, fun ts' hts' => ?_⟩
    · cases hts.symm.trans he'
    · obtain rfl := Except.ok.inj (hts.symm.trans hts')
      exact hfault

/-- A stray character behind a missing operator, and a slot that there is not behind a blank of two
bytes. -/
theorem compile_error_leftmost_stray :
    (compile 1 "5 5 é" = .error ⟨4, .strayCharacter 'é'⟩ ∧
      LexicalFault 0 "5 5 é".toList ⟨4, .strayCharacter 'é'⟩) ∧
    compile 2 "\u00a0r0+b2" = .error ⟨5, .unknownSlot .blue 2 2⟩ ∧
      ∃ ts, SyntaxFault 2 "\u00a0r0+b2" ts 5 := by
  have hstray : compile 1 "5 5 é" = .error ⟨4, .strayCharacter 'é'⟩ := by decide +kernel
  have htokens : tokens "5 5 é" = .error ⟨4, .strayCharacter 'é'⟩ := by decide +kernel
  have hslot : compile 2 "\u00a0r0+b2" = .error ⟨5, .unknownSlot .blue 2 2⟩ := by decide +kernel
  have hcut : tokens "\u00a0r0+b2" = .ok [⟨.component .red '0', 2, 4⟩, ⟨.operator .add, 4, 5⟩,
      ⟨.component .blue '2', 5, 7⟩, ⟨.finish, 7, 7⟩] := by decide +kernel
  exact ⟨⟨hstray, ((compile_error_leftmost hstray).2.1 _ htokens).2⟩, hslot, _,
    (compile_error_leftmost hslot).2.2 _ hcut⟩

end Quilt.Formula
