import Mathlib
import Quilt.Json.Value
import Quilt.Proofs.JsonTokens

namespace Quilt.Json

variable {cs : List Char} {t : Token} {ts : List Token}

mutual

def Value.tokens : Value → List Token
  | .null => [.null]
  | .bool b => [.bool b]
  | .number n => [.number n]
  | .string s => [.string s]
  | .array items => .openArray :: separated (itemTokens items) ++ [.closeArray]
  | .object members => .openObject :: separated (memberTokens members) ++ [.closeObject]

def itemTokens : List Value → List (List Token)
  | [] => []
  | item :: items => item.tokens :: itemTokens items

def memberTokens : List (Option String × Value) → List (List Token)
  | [] => []
  | (k, v) :: members => (.string k :: .colon :: v.tokens) :: memberTokens members

end

/-- A text of a value, with the blanks around it. -/
def ValueText (cs : List Char) (v : Value) : Prop := TokensText cs v.tokens

theorem Value.induction {P : Value → Prop} (null : P .null) (bool : ∀ b, P (.bool b))
    (number : ∀ n, P (.number n)) (string : ∀ s, P (.string s))
    (array : ∀ items, (∀ item ∈ items, P item) → P (.array items))
    (object : ∀ members, (∀ m ∈ members, P m.2) → P (.object members)) (v : Value) : P v :=
  @Value.rec P (fun items => ∀ item ∈ items, P item) (fun members => ∀ m ∈ members, P m.2)
    (fun m => P m.2) null bool number string array object (by simp) (by simp +contextual)
    (by simp) (by simp +contextual) (by simp) v

theorem Value.exists_tokens_eq_cons (v : Value) :
    ∃ t ts, v.tokens = t :: ts ∧ t ≠ .closeArray := by
  cases v <;> exact ⟨_, _, rfl, by simp⟩

namespace Reading

theorem foldlM_arrayStart (stack : List Open) (v : Value) :
    v.tokens.foldlM step (arrayStart stack) =
      v.tokens.foldlM step (value (.array [] :: stack)) := by
  obtain ⟨t, ts, htokens, ht⟩ := v.exists_tokens_eq_cons
  have hstep : step (arrayStart stack) t = step (value (.array [] :: stack)) t := by
    cases t <;> first | rfl | exact absurd rfl ht
  rw [htokens, List.foldlM_cons, List.foldlM_cons, hstep]

theorem foldlM_moreItems {items : List Value} (stack : List Open)
    (h : ∀ item ∈ items, ∀ stack, item.tokens.foldlM step (value stack) = some (after stack item))
    (before : List Value) (v : Value) :
    ((itemTokens items).flatMap ([Token.comma] ++ ·) ++ [Token.closeArray]).foldlM step
        (after (.array before :: stack) v) =
      some (after stack (.array (before.reverse ++ v :: items))) := by
  induction items generalizing before v with
  | nil =>
    change some (after stack (.array (v :: before).reverse)) = _
    rw [List.reverse_cons]
  | cons item items ih =>
    obtain ⟨hitem, hitems⟩ := List.forall_mem_cons.1 h
    have hrest := ih hitems (v :: before) item
    rw [List.reverse_cons, List.append_assoc] at hrest
    rw [itemTokens, List.flatMap_cons, List.append_assoc, List.append_assoc, List.foldlM_append]
    change (item.tokens ++ _).foldlM step (value (.array (v :: before) :: stack)) = _
    rw [List.foldlM_append, hitem]
    exact hrest

theorem foldlM_moreMembers {members : List (Option String × Value)} (stack : List Open)
    (h : ∀ m ∈ members, ∀ stack, m.2.tokens.foldlM step (value stack) = some (after stack m.2))
    (before : List (Option String × Value)) (k : Option String) (v : Value) :
    ((memberTokens members).flatMap ([Token.comma] ++ ·) ++ [Token.closeObject]).foldlM step
        (after (.object before k :: stack) v) =
      some (after stack (.object (before.reverse ++ (k, v) :: members))) := by
  induction members generalizing before k v with
  | nil =>
    change some (after stack (.object ((k, v) :: before).reverse)) = _
    rw [List.reverse_cons]
  | cons member members ih =>
    obtain ⟨hmember, hmembers⟩ := List.forall_mem_cons.1 h
    have hrest := ih hmembers ((k, v) :: before) member.1 member.2
    rw [List.reverse_cons, List.append_assoc] at hrest
    rw [memberTokens, List.flatMap_cons, List.append_assoc, List.append_assoc, List.foldlM_append]
    change (member.2.tokens ++ _).foldlM step
      (value (.object ((k, v) :: before) member.1 :: stack)) = _
    rw [List.foldlM_append, hmember]
    exact hrest

theorem foldlM_tokens (v : Value) (stack : List Open) :
    v.tokens.foldlM step (value stack) = some (after stack v) := by
  -- The stack is free, since the items of an array are read with the array on top of it.
  induction v using Value.induction generalizing stack with
  | null | bool | number | string => rfl
  | array items ih =>
    cases items with
    | nil => rfl
    | cons item items =>
      obtain ⟨hitem, hitems⟩ := List.forall_mem_cons.1 ih
      rw [Value.tokens, itemTokens, separated, flatten_intersperse_cons]
      change (item.tokens ++ _ ++ _).foldlM step (arrayStart stack) = _
      rw [List.append_assoc, List.foldlM_append, foldlM_arrayStart, hitem]
      exact foldlM_moreItems stack hitems [] item
  | object members ih =>
    cases members with
    | nil => rfl
    | cons member members =>
      obtain ⟨hmember, hmembers⟩ := List.forall_mem_cons.1 ih
      rw [Value.tokens, memberTokens, separated, flatten_intersperse_cons]
      change (member.2.tokens ++ _ ++ _).foldlM step (value (.object [] member.1 :: stack)) = _
      rw [List.append_assoc, List.foldlM_append, hmember]
      exact foldlM_moreMembers stack hmembers [] member.1 member.2

end Reading

theorem Value.ofTokens?_tokens (v : Value) : ofTokens? v.tokens = some v := by
  rw [ofTokens?, Reading.foldlM_tokens]
  rfl

namespace Reading

theorem foldlM_cons_eq_some {reading final : Reading} :
    (t :: ts).foldlM step reading = some final ↔
      ∃ next, step reading t = some next ∧ ts.foldlM step next = some final := by
  rw [List.foldlM_cons]
  exact Option.bind_eq_some_iff

theorem exists_after_of_number {reading next : Reading} {n : Numeral}
    (h : step reading (.number n) = some next) : ∃ stack v, next = after stack v := by
  cases reading with
  | value stack | arrayStart stack =>
    cases h
    exact ⟨_, _, rfl⟩
  | objectStart | key | colon => cases h
  | after stack => obtain _ | ⟨_ | _, stack⟩ := stack <;> cases h

theorem step_after_number (stack : List Open) (v : Value) (n : Numeral) :
    step (after stack v) (.number n) = none := by
  obtain _ | ⟨_ | _, stack⟩ := stack <;> rfl

theorem head_ne_number {reading final : Reading} {n : Numeral}
    (h : (Token.number n :: ts).foldlM step reading = some final) (n' : Numeral) :
    ts.head? ≠ some (.number n') := by
  intro hhead
  obtain ⟨ts, rfl⟩ := List.head?_eq_some_iff.1 hhead
  obtain ⟨next, hstep, hnext⟩ := foldlM_cons_eq_some.1 h
  obtain ⟨stack, v, rfl⟩ := exists_after_of_number hstep
  obtain ⟨_, hnone, -⟩ := foldlM_cons_eq_some.1 hnext
  rw [step_after_number] at hnone
  cases hnone

end Reading

theorem TokensText.of_tokens {reading final : Reading} (h : tokens cs = some ts)
    (hread : ts.foldlM Reading.step reading = some final) : TokensText cs ts := by
  fun_induction tokens cs generalizing ts reading with
  | case1 =>
    obtain rfl := Option.some.inj h
    exact .done
  | case2 c cs hc ih => exact .space hc (ih h hread)
  | case3 c cs hc t rest hscan ih =>
    obtain ⟨ts, hts, rfl⟩ := Option.map_eq_some_iff.1 h
    obtain ⟨text, hsplit, htext⟩ := exists_tokenText hscan
    obtain ⟨next, -, hnext⟩ := Reading.foldlM_cons_eq_some.1 hread
    have hall := ih hts hnext
    rw [hsplit]
    refine .token htext ?_ hall
    cases t with
    -- Two numbers in a row cannot be read, and so a numeral takes all that could belong to it.
    | number n => exact hall.endsNumeral (Reading.head_ne_number hread)
    | _ => trivial
  | case4 => cases h

theorem itemTokens_eq_map (items : List Value) : itemTokens items = items.map Value.tokens := by
  induction items with
  | nil => rfl
  | cons item items ih => rw [itemTokens, ih, List.map_cons]

def entryTokens (m : Option String × Value) : List Token := .string m.1 :: .colon :: m.2.tokens

theorem memberTokens_eq_map (members : List (Option String × Value)) :
    memberTokens members = members.map entryTokens := by
  induction members with
  | nil => rfl
  | cons m members ih =>
    rw [memberTokens, ih, List.map_cons]
    rfl

theorem separated_concat (entries : List (List Token)) (entry : List Token) :
    separated (entries ++ [entry]) = entries.flatMap (· ++ [.comma]) ++ entry := by
  induction entries with
  | nil => simp [separated]
  | cons first entries ih =>
    have hfirst : separated (first :: (entries ++ [entry])) =
        first ++ (.comma :: separated (entries ++ [entry])) := by
      obtain ⟨second, more, hne⟩ := List.exists_cons_of_ne_nil (l := entries ++ [entry]) (by simp)
      rw [hne]
      rfl
    rw [List.cons_append, hfirst, ih, List.flatMap_cons]
    simp

/-- The tokens of what is still open, up to where it goes on. -/
def Open.tokens : Open → List Token
  | .array items => .openArray :: items.reverse.flatMap (·.tokens ++ [.comma])
  | .object members key =>
    .openObject :: members.reverse.flatMap (entryTokens · ++ [.comma]) ++ [.string key, .colon]

def openTokens (stack : List Open) : List Token := stack.reverse.flatMap Open.tokens

/-- The tokens that lead to a state of reading. -/
def Reading.tokens : Reading → List Token
  | .value stack => openTokens stack
  | .arrayStart stack => openTokens stack ++ [.openArray]
  | .objectStart stack => openTokens stack ++ [.openObject]
  | .key stack members =>
    openTokens stack ++ .openObject :: members.reverse.flatMap (entryTokens · ++ [.comma])
  | .colon stack members k =>
    openTokens stack ++
      .openObject :: members.reverse.flatMap (entryTokens · ++ [.comma]) ++ [.string k]
  | .after stack v => openTokens stack ++ v.tokens

theorem openTokens_cons (o : Open) (stack : List Open) :
    openTokens (o :: stack) = openTokens stack ++ o.tokens := by
  simp [openTokens]

theorem Value.tokens_array_concat (items : List Value) (v : Value) :
    (Value.array (v :: items).reverse).tokens =
      (Open.array items).tokens ++ v.tokens ++ [.closeArray] := by
  rw [Value.tokens, itemTokens_eq_map, List.reverse_cons, List.map_append, List.map_singleton,
    separated_concat, Open.tokens, List.flatMap_map]
  simp

theorem Value.tokens_object_concat (members : List (Option String × Value)) (k : Option String)
    (v : Value) : (Value.object ((k, v) :: members).reverse).tokens =
      (Open.object members k).tokens ++ v.tokens ++ [.closeObject] := by
  rw [Value.tokens, memberTokens_eq_map, List.reverse_cons, List.map_append, List.map_singleton,
    separated_concat, Open.tokens, List.flatMap_map]
  simp [entryTokens]

namespace Reading
variable {reading next : Reading}

theorem tokens_startValue {stack : List Open} (h : startValue stack t = some next) :
    next.tokens = openTokens stack ++ [t] := by
  cases t <;> cases h <;> rfl

theorem tokens_step (h : step reading t = some next) : next.tokens = reading.tokens ++ [t] := by
  unfold step at h
  split at h
  case h_1 => exact tokens_startValue h
  case h_3 =>
    rw [tokens_startValue h, openTokens_cons]
    rfl
  case h_9 =>
    obtain rfl := Option.some.inj h
    rw [Reading.tokens, Reading.tokens, Value.tokens_array_concat, openTokens_cons]
    simp only [List.append_assoc]
  case h_11 =>
    obtain rfl := Option.some.inj h
    rw [Reading.tokens, Reading.tokens, Value.tokens_object_concat, openTokens_cons]
    simp only [List.append_assoc]
  case h_12 => cases h
  -- In all other cases an entry is begun, or ended by a comma.
  all_goals
    obtain rfl := Option.some.inj h
    simp [Reading.tokens, Open.tokens, openTokens_cons, entryTokens, Value.tokens, itemTokens,
      memberTokens, separated]

theorem tokens_foldlM {final : Reading} (h : ts.foldlM step reading = some final) :
    final.tokens = reading.tokens ++ ts := by
  induction ts generalizing reading with
  | nil =>
    obtain rfl := Option.some.inj h
    rw [List.append_nil]
  | cons t ts ih =>
    obtain ⟨next, hstep, hnext⟩ := foldlM_cons_eq_some.1 h
    rw [ih hnext, tokens_step hstep, List.append_assoc, List.singleton_append]

end Reading

namespace Value
variable {v : Value}

/-- The tokens of a value are the only ones that are read as it. -/
theorem ofTokens?_eq_some_iff : ofTokens? ts = some v ↔ ts = v.tokens := by
  constructor
  · intro h
    obtain ⟨final, hread, hresult⟩ := Option.bind_eq_some_iff.1 h
    have hfinal : final = .after [] v := by
      unfold Reading.result? at hresult
      split at hresult
      · rw [Option.some.inj hresult]
      · cases hresult
    have htokens := Reading.tokens_foldlM hread
    rw [hfinal] at htokens
    exact htokens.symm
  · rintro rfl
    exact ofTokens?_tokens v

theorem tokens_eq_some_iff : Json.tokens cs = some v.tokens ↔ ValueText cs v := by
  constructor
  · intro h
    exact .of_tokens h (Reading.foldlM_tokens v [])
  · exact TokensText.tokens_eq

/-- A text is read as a value just if it is a text of that value. -/
theorem parse?_eq_some_iff {text : String} : parse? text = some v ↔ ValueText text.toList v := by
  rw [← tokens_eq_some_iff]
  constructor
  · intro h
    obtain ⟨ts, htokens, hread⟩ := Option.bind_eq_some_iff.1 h
    rw [htokens, ofTokens?_eq_some_iff.1 hread]
  · intro h
    rw [parse?, h]
    exact ofTokens?_tokens v

end Value

end Quilt.Json
