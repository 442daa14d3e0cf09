import Mathlib
import Quilt.Json.Scaling
import Quilt.Proofs.JsonGrammar
import Quilt.Request.Json

namespace Quilt.Json

variable {cs : List Char}

/-- Blanks before and after a text. -/
structure Margin where
  front : List Char
  back : List Char
  isSpace_front : ∀ c ∈ front, isSpace c
  isSpace_back : ∀ c ∈ back, isSpace c

def Margin.bare : Margin := ⟨[], [], List.forall_mem_nil _, List.forall_mem_nil _⟩

def Margin.around (margin : Margin) (text : List Char) : String :=
  String.ofList (margin.front ++ (text ++ margin.back))

/-- Entries with commas between, in brackets. -/
def bracketed (first last : Char) (entries : List (List Char)) : List Char :=
  first :: ((entries.intersperse [',']).flatten ++ [last])

/-- A member of an object: texts of a key and of a value, with the blanks around each. -/
structure Member where
  keyText : List Char
  valueText : List Char
  key : Option String
  value : Value
  isText_key : ValueText keyText (.string key)
  isText_value : ValueText valueText value

namespace Member

def text (m : Member) : List Char := m.keyText ++ ':' :: m.valueText

def entry (m : Member) : Option String × Value := (m.key, m.value)

/-- A member from two texts whose tokens are known. -/
def ofTokens (keyText valueText : String) (key : Option String) (value : Value)
    (hkey : Json.tokens keyText.toList = some (Value.string key).tokens)
    (hvalue : Json.tokens valueText.toList = some value.tokens) : Member :=
  ⟨keyText.toList, valueText.toList, key, value, Value.tokens_eq_some_iff.1 hkey,
    Value.tokens_eq_some_iff.1 hvalue⟩

theorem isText (m : Member) : TokensText m.text (entryTokens m.entry) := by
  have hvalue : TokensText (':' :: m.valueText) (.colon :: m.value.tokens) :=
    .mark rfl m.isText_value
  exact TokensText.append m.isText_key hvalue (endsNumeral_cons.2 (by decide))

end Member

def objectText (margin : Margin) (ms : List Member) : String :=
  margin.around (bracketed '\x7b' '\x7d' (ms.map Member.text))

def arrayText (margin : Margin) (items : List (List Char)) : String :=
  margin.around (bracketed '[' ']' items)

theorem Margin.parse?_around (margin : Margin) {v : Value} (h : ValueText cs v) :
    Value.parse? (margin.around cs) = some v := by
  have hback : EndsNumeral margin.back := by
    cases hback : margin.back with
    | nil => simp [EndsNumeral]
    | cons c back => exact isSpace_endsNumeral (margin.isSpace_back c (by simp [hback])) back
  have hblanks : TokensText (margin.back ++ []) [] := .spaces margin.isSpace_back .done
  rw [List.append_nil] at hblanks
  have hall := (TokensText.append h hblanks hback).spaces margin.isSpace_front
  rw [List.append_nil] at hall
  rw [Value.parse?_eq_some_iff, Margin.around, String.toList_ofList]
  exact hall

theorem tokensText_bracketed {texts : List (List Char)} {entries : List (List Token)}
    {opens closes : Token} {first last : Char} (hfirst : opens.plainText? = some [first])
    (hlast : closes.plainText? = some [last]) (h : List.Forall₂ TokensText texts entries) :
    TokensText (bracketed first last texts) (opens :: separated entries ++ [closes]) := by
  have hall := TokensText.bracketed hfirst hlast (List.forall_mem_nil _) h
  exact hall

theorem parse?_objectText (margin : Margin) (ms : List Member) :
    Value.parse? (objectText margin ms) = some (.object (ms.map Member.entry)) := by
  apply margin.parse?_around
  rw [ValueText, Value.tokens, memberTokens_eq_map]
  refine tokensText_bracketed rfl rfl ?_
  rw [List.forall₂_map_left_iff, List.forall₂_map_right_iff, List.forall₂_map_right_iff,
    List.forall₂_same]
  exact fun m _ => m.isText

theorem parse?_arrayText (margin : Margin) (ms : List Member) :
    Value.parse? (arrayText margin (ms.map Member.valueText)) =
      some (.array (ms.map Member.value)) := by
  apply margin.parse?_around
  rw [ValueText, Value.tokens, itemTokens_eq_map]
  refine tokensText_bracketed rfl rfl ?_
  rw [List.forall₂_map_left_iff, List.forall₂_map_right_iff, List.forall₂_map_right_iff,
    List.forall₂_same]
  exact fun m _ => m.isText_value

end Quilt.Json

namespace Quilt.Request

open Json (Value Member Margin NumberReader objectText arrayText)

def fieldNames : List String := ["iterations", "colors", "functions", "numframes"]

/-- A key that is whole and names no field. -/
def IsExtra (key : Option String) : Prop := ∃ name, key = some name ∧ name ∉ fieldNames

variable {members members' fields extras : List (Option String × Value)} {ms ms' : List Member}

/-- What a list holds, if it holds one thing. -/
def sole? {α : Type} : List α → Option α
  | [a] => some a
  | _ => none

/-- What a list holds, if it holds no more than one thing. -/
def atMostOne? {α : Type} : List α → Option (Option α)
  | [] => some none
  | [a] => some (some a)
  | _ => none

theorem congr_of_perm {α β : Type} {f : List α → Option β} (hmany : ∀ a b l, f (a :: b :: l) = none)
    {l l' : List α} (h : l.Perm l') : f l = f l' := by
  match l, l' with
  | [], l' => rw [h.nil_eq]
  | [a], l' => rw [List.singleton_perm.1 h]
  | a :: b :: l, c :: d :: l' => rw [hmany, hmany]
  | a :: b :: l, [c] => cases h.length_eq
  | a :: b :: l, [] => cases h.length_eq

theorem sole?_congr {α : Type} {l l' : List α} (h : l.Perm l') : sole? l = sole? l' :=
  congr_of_perm (fun _ _ _ => rfl) h

theorem atMostOne?_congr {α : Type} {l l' : List α} (h : l.Perm l') :
    atMostOne? l = atMostOne? l' := congr_of_perm (fun _ _ _ => rfl) h

theorem valuesAt_append (name : String) :
    Value.valuesAt name (members ++ members') =
      Value.valuesAt name members ++ Value.valuesAt name members' :=
  List.filterMap_append

theorem valuesAt_extras {name : String} (hname : name ∈ fieldNames)
    (h : ∀ m ∈ extras, IsExtra m.1) : Value.valuesAt name extras = [] := by
  refine List.filterMap_eq_nil_iff.2 fun m hm => if_neg ?_
  obtain ⟨key, hkey, hne⟩ := h m hm
  rw [hkey]
  rintro ⟨⟩
  exact hne hname

theorem any_isNone_extras (h : ∀ m ∈ extras, IsExtra m.1) :
    extras.any (·.1.isNone) = false := by
  rw [List.any_eq_false]
  intro m hm
  obtain ⟨key, hkey, -⟩ := h m hm
  rw [hkey]
  exact Bool.false_ne_true

section Reading
variable [NumberReader]

theorem ofValue?_object (members : List (Option String × Value)) :
    ofValue? (.object members) =
      if members.any (·.1.isNone) then none
      else
        (sole? (Value.valuesAt "iterations" members)).bind fun iterations =>
        (sole? (Value.valuesAt "colors" members)).bind fun colors =>
        (sole? (Value.valuesAt "functions" members)).bind fun functions =>
        (atMostOne? (Value.valuesAt "numframes" members)).bind fun numframes =>
        ofParts? iterations colors functions numframes := by
  unfold ofValue?
  dsimp only
  split_ifs with hkeys
  · rfl
  generalize Value.valuesAt "iterations" members = iterations
  generalize Value.valuesAt "colors" members = colors
  generalize Value.valuesAt "functions" members = functions
  generalize Value.valuesAt "numframes" members = numframes
  rcases iterations with _ | ⟨_, _ | _⟩
  case nil => rfl
  case cons.cons => rfl
  rcases colors with _ | ⟨_, _ | _⟩
  case nil => rfl
  case cons.cons => rfl
  rcases functions with _ | ⟨_, _ | _⟩
  case nil => rfl
  case cons.cons => rfl
  rcases numframes with _ | ⟨_, _ | _⟩ <;> rfl

theorem ofValue?_congr (hkeys : members.any (·.1.isNone) = members'.any (·.1.isNone))
    (hvalues : ∀ name ∈ fieldNames,
      (Value.valuesAt name members).Perm (Value.valuesAt name members')) :
    ofValue? (.object members) = ofValue? (.object members') := by
  have hnames : ∀ name, name ∈ fieldNames →
      sole? (Value.valuesAt name members) = sole? (Value.valuesAt name members') :=
    fun name hname => sole?_congr (hvalues name hname)
  rw [ofValue?_object, ofValue?_object, hkeys, hnames "iterations" (by decide),
    hnames "colors" (by decide), hnames "functions" (by decide),
    atMostOne?_congr (hvalues "numframes" (by decide))]

theorem ofValue?_perm (h : members.Perm members') :
    ofValue? (.object members) = ofValue? (.object members') :=
  ofValue?_congr h.any_eq fun _ _ => h.filterMap _

theorem ofValue?_append_extras (h : ∀ m ∈ extras, IsExtra m.1) :
    ofValue? (.object (members ++ extras)) = ofValue? (.object members) := by
  refine ofValue?_congr ?_ fun name hname => ?_
  · rw [List.any_append, any_isNone_extras h, Bool.or_false]
  · rw [valuesAt_append, valuesAt_extras hname h, List.append_nil]

theorem ofValue?_fields {names : List String}
    (hnames : names = fieldNames ∨ names = fieldNames.dropLast)
    (hkeys : fields.map Prod.fst = names.map some) :
    ofValue? (.object fields) = ofValue? (.array (fields.map Prod.snd)) := by
  obtain rfl | rfl := hnames
  · obtain ⟨i, c, f, n, rfl⟩ : ∃ i c f n, fields = [(some "iterations", i), (some "colors", c),
        (some "functions", f), (some "numframes", n)] := by
      simpa [fieldNames, List.map_eq_cons_iff] using hkeys
    simp [ofValue?, Value.valuesAt]
  · obtain ⟨i, c, f, rfl⟩ : ∃ i c f, fields = [(some "iterations", i), (some "colors", c),
        (some "functions", f)] := by
      simpa [fieldNames, List.map_eq_cons_iff] using hkeys
    simp [ofValue?, Value.valuesAt]

theorem ofJson_of_parse? {text : String} {v : Value} (h : Value.parse? text = some v) :
    ofJson text = (ofValue? v).elim (.error .requestSyntax) .ok := by
  rw [ofJson, h, Option.bind_some]
  cases ofValue? v <;> rfl

theorem ofJson_eq_ok_iff {text : String} {v : Value} (h : Value.parse? text = some v)
    (req : Request) : ofJson text = .ok req ↔ ofValue? v = some req := by
  rw [ofJson_of_parse? h]
  cases ofValue? v <;> simp

theorem ofJson_congr (margin margin' : Margin)
    (h : ofValue? (.object (ms.map Member.entry)) = ofValue? (.object (ms'.map Member.entry))) :
    ofJson (objectText margin ms) = ofJson (objectText margin' ms') := by
  rw [ofJson_of_parse? (Json.parse?_objectText margin ms),
    ofJson_of_parse? (Json.parse?_objectText margin' ms'), h]

theorem ofJson_perm (margin margin' : Margin) (h : ms.Perm ms') :
    ofJson (objectText margin ms) = ofJson (objectText margin' ms') :=
  ofJson_congr margin margin' (ofValue?_perm (h.map Member.entry))

theorem ofJson_append_extras (margin margin' : Margin) {extras : List Member}
    (h : ∀ m ∈ extras, IsExtra m.key) :
    ofJson (objectText margin (ms ++ extras)) = ofJson (objectText margin' ms) := by
  apply ofJson_congr
  rw [List.map_append]
  exact ofValue?_append_extras (List.forall_mem_map.2 h)

theorem ofJson_fields (margin margin' : Margin) {names : List String}
    (hnames : names = fieldNames ∨ names = fieldNames.dropLast)
    (hkeys : ms.map Member.key = names.map some) :
    ofJson (objectText margin ms) = ofJson (arrayText margin' (ms.map Member.valueText)) := by
  have hentries : (ms.map Member.entry).map Prod.fst = names.map some := by
    rw [List.map_map]
    exact hkeys
  have hvalues : (ms.map Member.entry).map Prod.snd = ms.map Member.value := List.map_map
  rw [ofJson_of_parse? (Json.parse?_objectText margin ms),
    ofJson_of_parse? (Json.parse?_arrayText margin' ms), ofValue?_fields hnames hentries, hvalues]

/-- The order of the members of an object does not matter, members whose keys name no field do not,
and neither do the keys if the values stand in the order of the fields. What is read then is what the
values of the fields are read as. -/
theorem ofJson_presentation (margin margin' : Margin) (ms : List Member) :
    (∀ ms', ms.Perm ms' → ofJson (objectText margin ms) = ofJson (objectText margin' ms')) ∧
      (∀ before after m, ms = before ++ after → IsExtra m.key →
        ofJson (objectText margin (before ++ m :: after)) = ofJson (objectText margin' ms)) ∧
      ∀ fields extras names, (names = fieldNames ∨ names = fieldNames.dropLast) →
        fields.map Member.key = names.map some → (∀ m ∈ extras, IsExtra m.key) →
        ms.Perm (fields ++ extras) →
        ofJson (objectText margin ms) =
            ofJson (arrayText margin' (fields.map Member.valueText)) ∧
          ∀ req, ofJson (objectText margin ms) = .ok req ↔
            ofValue? (.array (fields.map Member.value)) = some req := by
  refine ⟨fun ms' => ofJson_perm margin margin', ?_, ?_⟩
  · rintro before after m rfl hm
    -- An extra member may stand last, where it can be left out.
    have hlast : (before ++ m :: after).Perm (before ++ after ++ [m]) :=
      List.perm_middle.trans (List.perm_append_singleton m _).symm
    calc
      ofJson (objectText margin (before ++ m :: after))
      _ = ofJson (objectText margin (before ++ after ++ [m])) := ofJson_perm margin margin hlast
      _ = ofJson (objectText margin' (before ++ after)) :=
        ofJson_append_extras margin margin' (List.forall_mem_singleton.2 hm)
  · intro fields extras names hnames hkeys hextras h
    have harray : ofJson (objectText margin ms) =
        ofJson (arrayText margin' (fields.map Member.valueText)) := by
      calc
        ofJson (objectText margin ms)
        _ = ofJson (objectText margin (fields ++ extras)) := ofJson_perm margin margin h
        _ = ofJson (objectText margin fields) := ofJson_append_extras margin margin hextras
        _ = ofJson (arrayText margin' (fields.map Member.valueText)) :=
          ofJson_fields margin margin' hnames hkeys
    refine ⟨harray, fun req => ?_⟩
    rw [harray]
    exact ofJson_eq_ok_iff (Json.parse?_arrayText margin' fields) req

end Reading

/-- The fields of a request. An escape stands in one of the keys. -/
def spelledFields : List Member :=
  [.ofTokens "\"\\u0069terations\"" " 1" (some "iterations") (.number (.ofNat 1))
      (by decide +kernel) (by decide +kernel),
    .ofTokens "\"colors\" " "[ ]" (some "colors") (.array [])
      (by decide +kernel) (by decide +kernel),
    .ofTokens "\"functions\"" "[]\n" (some "functions") (.array [])
      (by decide +kernel) (by decide +kernel)]

/-- A member that is ignored, and so may hold half a surrogate pair. -/
def spelledNote : Member :=
  .ofTokens "\"note\"" "\"\\ud800\"" (some "note") (.string none)
    (by decide +kernel) (by decide +kernel)

theorem ofJson_presentation_spelled :
    ofJson (objectText .bare (spelledNote :: spelledFields)) =
        ofJson (objectText .bare (spelledFields ++ [spelledNote])) ∧
      ofJson (objectText .bare (spelledNote :: spelledFields)) =
        ofJson (objectText .bare spelledFields) ∧
      ofJson ("\x7b\"note\":\"\\ud800\",\"\\u0069terations\": 1,\"colors\" :[ ]," ++
          "\"functions\":[]\n\x7d") =
        ofJson "[ 1,[ ],[]\n]" ∧
      ofJson ("\x7b\"note\":\"\\ud800\",\"\\u0069terations\": 1,\"colors\" :[ ]," ++
          "\"functions\":[]\n\x7d") =
        .ok ⟨1, [], .expressions [], none⟩ := by
  have hextra : IsExtra spelledNote.key := ⟨"note", rfl, by decide⟩
  have hlast : (spelledNote :: spelledFields).Perm (spelledFields ++ [spelledNote]) :=
    (List.perm_append_singleton _ _).symm
  have hobject : objectText .bare (spelledNote :: spelledFields) =
      "\x7b\"note\":\"\\ud800\",\"\\u0069terations\": 1,\"colors\" :[ ]," ++
        "\"functions\":[]\n\x7d" := by decide +kernel
  have harray : arrayText .bare (spelledFields.map Member.valueText) = "[ 1,[ ],[]\n]" := by
    decide +kernel
  obtain ⟨horder, -, hfields⟩ :=
    ofJson_presentation .bare .bare (spelledNote :: spelledFields)
  obtain ⟨hvalues, hread⟩ := hfields spelledFields [spelledNote] _ (.inr rfl) rfl
    (List.forall_mem_singleton.2 hextra) hlast
  rw [← hobject, ← harray]
  exact ⟨horder _ hlast, (ofJson_presentation .bare .bare spelledFields).2.1 [] spelledFields
    spelledNote rfl hextra, hvalues, (hread _).2 rfl⟩

end Quilt.Request
