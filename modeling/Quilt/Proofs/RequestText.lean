import Mathlib
import Quilt.Proofs.Compile
import Quilt.Proofs.JsonText
import Quilt.Proofs.Scaling
import Quilt.Request.Json

namespace Quilt

open Json (Value Numeral NumberReader ReadsBack)

variable {α β : Type} {v : Value}

namespace Json.Value
variable {item? : Value → Option α} {other? : Value → Option β} {toValue : α → Value}
  {items : List α} {limit n : ℕ} {x : Float}

theorem list?_eq_some : list? item? v = some items ↔ ∃ values,
    v = .array values ∧ List.Forall₂ (fun v item => item? v = some item) values items := by
  cases v <;> simp [list?, mapM_eq_some]

theorem forall_mem_of_list? {P : α → Prop} (h : list? item? v = some items)
    (hitem : ∀ w item, item? w = some item → P item) : ∀ item ∈ items, P item := by
  obtain ⟨values, -, hvalues⟩ := list?_eq_some.1 h
  intro item hmem
  obtain ⟨w, -, hw⟩ := exists_of_mem_right hvalues hmem
  exact hitem w item hw

theorem isSome_list? (h : list? item? v = some items)
    (hitem : ∀ item ∈ items, ∀ w, item? w = some item → (other? w).isSome) :
    (list? other? v).isSome := by
  obtain ⟨values, rfl, hvalues⟩ := list?_eq_some.1 h
  have hothers : ∀ w ∈ values, ∃ other, other? w = some other := by
    intro w hw
    obtain ⟨item, hmem, hread⟩ := exists_of_mem_right hvalues.flip hw
    exact Option.isSome_iff_exists.1 (hitem item hmem w hread)
  obtain ⟨others, hothers⟩ := exists_forall₂_iff.2 hothers
  rw [list?_eq_some.2 ⟨values, rfl, hothers⟩]
  rfl

theorem list?_nested (h : ∀ item ∈ items, item? (toValue item) = some item) :
    list? item? (Functions.nested toValue items) = some items :=
  list?_eq_some.2 ⟨_, rfl, List.forall₂_map_left_iff.2 (List.forall₂_same.2 h)⟩

theorem isSome_of_list?_nested (h : (list? other? (Functions.nested toValue items)).isSome) :
    ∀ item ∈ items, (other? (toValue item)).isSome := by
  obtain ⟨read, hread⟩ := Option.isSome_iff_exists.1 h
  obtain ⟨values, heq, hvalues⟩ := list?_eq_some.1 hread
  obtain rfl := Value.array.inj heq
  intro item hmem
  obtain ⟨other, -, hother⟩ := exists_of_mem_right hvalues.flip (List.mem_map_of_mem hmem)
  exact Option.isSome_iff_exists.2 ⟨other, hother⟩

theorem lt_of_nat? (h : v.nat? limit = some n) : n < limit := by
  cases v with
  | number =>
    obtain ⟨-, hlt⟩ := Option.filter_eq_some_iff.1 h
    exact of_decide_eq_true hlt
  | _ => cases h

theorem nat?_natValue (h : n < limit) : (natValue n).nat? limit = some n := by
  change (some n).filter (· < limit) = some n
  rw [Option.filter_some, if_pos (decide_eq_true h)]

theorem isFinite_of_float? [NumberReader] (h : v.float? = some x) : Binary64.isFinite x := by
  cases v with
  | number => exact Numeral.isFinite_of_toFloat? h
  | _ => cases h

end Json.Value

theorem writable_natValue (n : ℕ) : (natValue n).Writable := .number (List.forall_mem_nil _)

theorem writable_channelValue (x : Float) : (channelValue x).Writable := by
  unfold channelValue
  split_ifs
  · exact .number fun _ => Numeral.isDigit_of_mem_fraction
  · exact .null

theorem writable_nested {toValue : α → Value} (h : ∀ item, (toValue item).Writable)
    (items : List α) : (Functions.nested toValue items).Writable := by
  refine .array fun v hv => ?_
  obtain ⟨item, -, rfl⟩ := List.mem_map.1 hv
  exact h item

theorem channelValue_of_isFinite {x : Float} (h : Binary64.isFinite x) :
    channelValue x = .number (Numeral.ofFloat x) := if_pos h

namespace ColorSpec
variable {spec : ColorSpec}

theorem writable_toValue (spec : ColorSpec) : spec.toValue.Writable := by
  cases spec with
  | triple channels => exact writable_nested writable_channelValue channels
  | named => exact .object (by simp) (by simp [writable_channelValue])

section Reading
variable [NumberReader]

/-- Whether the channels of a color are read back, those that are written as numerals. -/
def ReadsBack (spec : ColorSpec) : Prop :=
  ∀ x ∈ spec.channels, Binary64.isFinite x → Json.ReadsBack x

instance : Decidable spec.ReadsBack :=
  inferInstanceAs (Decidable (∀ x ∈ spec.channels, Binary64.isFinite x → Json.ReadsBack x))

theorem float?_channelValue {x : Float} (h : Binary64.isFinite x) (hreads : Json.ReadsBack x) :
    (channelValue x).float? = some x := by
  rw [channelValue_of_isFinite h]
  exact hreads.toFloat?_ofFloat h

theorem decodes_channelValue {x : Float} (h : Binary64.isFinite x) (hreads : Json.ReadsBack x)
    (depth : ℕ) : (channelValue x).decodes depth := by
  rw [channelValue_of_isFinite h]
  cases depth <;> simp [Value.decodes, hreads.toFloat?_ofFloat h]

theorem decodes_toValue (h : ∀ x ∈ spec.channels, Binary64.isFinite x) (hreads : spec.ReadsBack) :
    spec.toValue.decodes colorDepth := by
  have hall : ∀ x ∈ spec.channels, ∀ depth, (channelValue x).decodes depth := fun x hx =>
    decodes_channelValue (h x hx) (hreads x hx (h x hx))
  cases spec with
  | triple channels =>
    refine List.all_eq_true.2 fun v hv => ?_
    obtain ⟨x, hx, rfl⟩ := List.mem_map.1 hv
    exact hall x hx _
  | named red green blue =>
    simp only [channels, List.forall_mem_cons] at hall
    obtain ⟨hred, hgreen, hblue, -⟩ := hall
    simp [toValue, colorDepth, Value.decodes, hred, hgreen, hblue]

theorem ofValue?_toValue (h : ∀ x ∈ spec.channels, Binary64.isFinite x) (hreads : spec.ReadsBack) :
    ofValue? spec.toValue = some spec := by
  have hdecodes := decodes_toValue h hreads
  unfold ofValue?
  rw [if_neg (by simp [hdecodes])]
  have hall : ∀ x ∈ spec.channels, (channelValue x).float? = some x := fun x hx =>
    float?_channelValue (h x hx) (hreads x hx (h x hx))
  cases spec with
  | triple channels =>
    have hlist : Value.list? Value.float? (.array (channels.map channelValue)) = some channels :=
      Value.list?_nested hall
    change (Value.list? Value.float? (.array (channels.map channelValue))).map triple = _
    rw [hlist, Option.map_some]
  | named red green blue =>
    simp only [channels, List.forall_mem_cons] at hall
    obtain ⟨hred, hgreen, hblue, -⟩ := hall
    simp [toValue, Value.valuesAt, hred, hgreen, hblue]

theorem isFinite_of_ofValue? (h : ofValue? v = some spec) :
    ∀ x ∈ spec.channels, Binary64.isFinite x := by
  unfold ofValue? at h
  split at h
  · cases h
  · split at h
    · obtain ⟨channels, hchannels, rfl⟩ := Option.map_eq_some_iff.1 h
      exact Value.forall_mem_of_list? hchannels fun _ _ => Value.isFinite_of_float?
    · split at h <;> try cases h
      split at h <;> try cases h
      split at h <;> try cases h
      simp only [Option.bind_eq_bind, Option.bind_eq_some_iff, Option.pure_def,
        Option.some.injEq] at h
      obtain ⟨red, hred, green, hgreen, blue, hblue, rfl⟩ := h
      simp [channels, Value.isFinite_of_float? hred, Value.isFinite_of_float? hgreen,
        Value.isFinite_of_float? hblue]
    · cases h

end Reading

end ColorSpec

namespace Functions
variable {functions : Functions} {rows : List (List (List ℕ))}

/-- The slots that the cells select, all in one list. -/
def slots : Functions → List ℕ
  | expressions _ => []
  | permutations rows => rows.flatten.flatten

/-- Whether the text of the functions shows their form. Selections without any slot are written as
formulas without any source are. -/
def KeepsForm : Functions → Prop
  | expressions _ => True
  | permutations rows => rows.flatten.flatten ≠ []

theorem isSome_formulas_of_flatten_eq_nil
    (h : Value.list? (Value.list? (Value.list? (Value.nat? UInt64.size))) v = some rows)
    (hempty : rows.flatten.flatten = []) :
    (Value.list? (Value.list? (Value.list? (Value.list? Value.string?))) v).isSome := by
  simp only [List.flatten_eq_nil_iff, List.mem_flatten, forall_exists_index, and_imp] at hempty
  refine Value.isSome_list? h fun row hrow _ h => ?_
  refine Value.isSome_list? h fun cell hcell _ h => ?_
  refine Value.isSome_list? h fun slot hslot _ _ => ?_
  rw [hempty cell row hrow hcell] at hslot
  cases hslot

theorem keepsForm_of_ofValue? (h : ofValue? v = some functions) : functions.KeepsForm := by
  obtain h | ⟨hnone, h⟩ := Option.or_eq_some_iff.1 h
  · obtain ⟨rows, -, rfl⟩ := Option.map_eq_some_iff.1 h
    trivial
  · obtain ⟨rows, hrows, rfl⟩ := Option.map_eq_some_iff.1 h
    intro hempty
    have hformulas := isSome_formulas_of_flatten_eq_nil hrows hempty
    rw [Option.map_eq_none_iff.1 hnone] at hformulas
    cases hformulas

theorem slots_lt_of_ofValue? (h : ofValue? v = some functions) :
    ∀ slot ∈ functions.slots, slot < UInt64.size := by
  obtain h | ⟨-, h⟩ := Option.or_eq_some_iff.1 h
  · obtain ⟨rows, -, rfl⟩ := Option.map_eq_some_iff.1 h
    exact List.forall_mem_nil _
  · obtain ⟨rows, hrows, rfl⟩ := Option.map_eq_some_iff.1 h
    simp only [slots, List.mem_flatten, forall_exists_index, and_imp]
    have hall := Value.forall_mem_of_list? hrows fun _ _ h =>
      Value.forall_mem_of_list? h fun _ _ h => Value.forall_mem_of_list? h fun _ _ =>
        Value.lt_of_nat?
    exact fun slot cell row hrow hcell hslot => hall row hrow cell hcell slot hslot

theorem ofValue?_toValue (hform : functions.KeepsForm)
    (hslots : ∀ slot ∈ functions.slots, slot < UInt64.size) :
    ofValue? functions.toValue = some functions := by
  cases functions with
  | expressions rows =>
    have hread : Value.list? (Value.list? (Value.list? (Value.list? Value.string?)))
        (nested (nested (nested (nested textValue))) rows) = some rows :=
      Value.list?_nested fun _ _ => Value.list?_nested fun _ _ => Value.list?_nested fun _ _ =>
        Value.list?_nested fun _ _ => rfl
    rw [ofValue?, toValue, hread, Option.map_some, Option.some_or]
  | permutations rows =>
    simp only [slots, List.mem_flatten, forall_exists_index, and_imp] at hslots
    have hread : Value.list? (Value.list? (Value.list? (Value.nat? UInt64.size)))
        (nested (nested (nested natValue)) rows) = some rows :=
      Value.list?_nested fun row hrow => Value.list?_nested fun cell hcell =>
        Value.list?_nested fun slot hslot =>
          Value.nat?_natValue (hslots slot cell row hrow hcell hslot)
    -- A slot is no list, so that there are no formulas.
    have hformulas : Value.list? (Value.list? (Value.list? (Value.list? Value.string?)))
        (nested (nested (nested natValue)) rows) = none := by
      refine Option.eq_none_iff_forall_ne_some.2 fun formulas h => hform ?_
      simp only [List.flatten_eq_nil_iff, List.mem_flatten, forall_exists_index, and_imp]
      refine fun cell row hrow hcell => List.eq_nil_iff_forall_not_mem.2 fun slot hslot => ?_
      have hrow' := Value.isSome_of_list?_nested (Option.isSome_iff_exists.2 ⟨_, h⟩) row hrow
      have hslot' := Value.isSome_of_list?_nested
        (Value.isSome_of_list?_nested hrow' cell hcell) slot hslot
      cases hslot'
    rw [ofValue?, toValue, hformulas, hread, Option.map_none, Option.none_or, Option.map_some]

theorem writable_toValue (functions : Functions) : functions.toValue.Writable := by
  cases functions with
  | expressions rows =>
    exact writable_nested (writable_nested (writable_nested (writable_nested .string))) rows
  | permutations rows =>
    exact writable_nested (writable_nested (writable_nested writable_natValue)) rows

end Functions

namespace Request
variable {req : Request}

/-- Whether the numbers of a request fit the words that hold them. -/
structure FitsWords (req : Request) : Prop where
  iterations_lt : req.iterations < UInt32.size
  numframes_lt : ∀ count ∈ req.numframes, count < UInt32.size
  slots_lt : ∀ slot ∈ req.functions.slots, slot < UInt64.size

/-- The requests that a text can hold. -/
structure Storable (req : Request) : Prop where
  fits : req.FitsWords
  finite : ∀ spec ∈ req.colors, ∀ x ∈ spec.channels, Binary64.isFinite x
  form : req.functions.KeepsForm

theorem numframes_lt_of_framesOfValue? {numframes : Option ℕ}
    (h : framesOfValue? v = some numframes) : ∀ count ∈ numframes, count < UInt32.size := by
  unfold framesOfValue? at h
  split at h
  · obtain rfl := Option.some.inj h
    simp
  · obtain ⟨count, hcount, rfl⟩ := Option.map_eq_some_iff.1 h
    simpa using Value.lt_of_nat? hcount

theorem writable_toValue (req : Request) : req.toValue.Writable := by
  have hcolors := writable_nested ColorSpec.writable_toValue req.colors
  have hfunctions := req.functions.writable_toValue
  obtain ⟨iterations, colors, functions, numframes⟩ := req
  cases numframes <;> refine .object (by simp) ?_ <;>
    simpa [writable_natValue] using ⟨hcolors, hfunctions⟩

section Reading
variable [NumberReader]

/-- Whether the channels of a request are read back, those that are written as numerals. -/
def ReadsBack (req : Request) : Prop := ∀ spec ∈ req.colors, spec.ReadsBack

instance : Decidable req.ReadsBack :=
  inferInstanceAs (Decidable (∀ spec ∈ req.colors, spec.ReadsBack))

theorem ofParts?_eq_some {iterations colors functions : Value} {numframes : Option Value} :
    ofParts? iterations colors functions numframes = some req ↔
      iterations.nat? UInt32.size = some req.iterations ∧
        Value.list? ColorSpec.ofValue? colors = some req.colors ∧
        Functions.ofValue? functions = some req.functions ∧
        (numframes.map framesOfValue?).getD (some none) = some req.numframes := by
  obtain ⟨_, _, _, _⟩ := req
  simp [ofParts?, Option.bind_eq_some_iff]

theorem storable_of_ofParts? {iterations colors functions : Value} {numframes : Option Value}
    (h : ofParts? iterations colors functions numframes = some req) : req.Storable := by
  obtain ⟨hiterations, hcolors, hfunctions, hnumframes⟩ := ofParts?_eq_some.1 h
  refine ⟨⟨Value.lt_of_nat? hiterations, ?_, Functions.slots_lt_of_ofValue? hfunctions⟩, ?_, ?_⟩
  · cases numframes with
    | none =>
      rw [← Option.some.inj hnumframes]
      simp
    | some value => exact numframes_lt_of_framesOfValue? hnumframes
  · exact Value.forall_mem_of_list? hcolors fun _ _ => ColorSpec.isFinite_of_ofValue?
  · exact Functions.keepsForm_of_ofValue? hfunctions

theorem storable_of_ofValue? (h : ofValue? v = some req) : req.Storable := by
  unfold ofValue? at h
  split at h
  · exact storable_of_ofParts? h
  · exact storable_of_ofParts? h
  · dsimp only at h
    split_ifs at h
    · cases h
    split at h <;> try cases h
    split at h <;> try cases h
    split at h <;> try cases h
    split at h <;> first | exact storable_of_ofParts? h | cases h
  · cases h

theorem storable_of_ofJson {text : String} (h : ofJson text = .ok req) : req.Storable := by
  unfold ofJson at h
  split at h
  · next heq =>
    obtain ⟨v, -, hv⟩ := Option.bind_eq_some_iff.1 heq
    obtain rfl := Except.ok.inj h
    exact storable_of_ofValue? hv
  · cases h

theorem ofValue?_toValue (h : req.Storable) (hreads : req.ReadsBack) :
    ofValue? req.toValue = some req := by
  have hiterations := Value.nat?_natValue h.fits.iterations_lt
  have hcolors : Value.list? ColorSpec.ofValue? (.array (req.colors.map ColorSpec.toValue)) =
      some req.colors :=
    Value.list?_nested fun spec hspec =>
      ColorSpec.ofValue?_toValue (h.finite spec hspec) (hreads spec hspec)
  have hfunctions := Functions.ofValue?_toValue h.form h.fits.slots_lt
  obtain ⟨iterations, colors, functions, numframes⟩ := req
  cases numframes with
  | none =>
    change ofParts? _ _ _ none = _
    exact ofParts?_eq_some.2 ⟨hiterations, hcolors, hfunctions, rfl⟩
  | some count =>
    have hcount := Value.nat?_natValue (h.fits.numframes_lt count rfl)
    change ofParts? _ _ _ (some (natValue count)) = _
    refine ofParts?_eq_some.2 ⟨hiterations, hcolors, hfunctions, ?_⟩
    change ((natValue count).nat? UInt32.size).map some = _
    rw [hcount, Option.map_some]

theorem ofJson_toJson (h : req.Storable) (hreads : req.ReadsBack) :
    ofJson req.toJson = .ok req := by
  rw [ofJson, toJson, (writable_toValue req).parse?_pretty, Option.bind_some,
    ofValue?_toValue h hreads]

/-- A request whose finite channels are read back from their numerals is read back from its own text,
with every number, form and sign as it was, if and only if its numbers fit their words, its channels
are finite, and its selections, if it has no formulas, have a slot. -/
theorem ofJson_toJson_iff (hreads : req.ReadsBack) : ofJson req.toJson = .ok req ↔
    req.FitsWords ∧ (∀ spec ∈ req.colors, ∀ x ∈ spec.channels, Binary64.isFinite x) ∧
      req.functions.KeepsForm := by
  constructor
  · intro h
    obtain ⟨fits, finite, form⟩ := storable_of_ofJson h
    exact ⟨fits, finite, form⟩
  · rintro ⟨fits, finite, form⟩
    exact ofJson_toJson ⟨fits, finite, form⟩ hreads

end Reading

theorem readsBack_of_isShort (h : ∀ spec ∈ req.colors, ∀ x ∈ spec.channels, Json.IsShort x) :
    req.ReadsBack := fun spec hspec x hx hfinite =>
  Json.readsBack_of_isShort hfinite (h spec hspec x hx)

theorem ofJson_toJson_iff_signed_zero :
    ofJson (toJson ⟨3, [.named (-0.0) 0.1 255, .triple [1e21]], .permutations [[[0]]], some 4⟩) =
        .ok ⟨3, [.named (-0.0) 0.1 255, .triple [1e21]], .permutations [[[0]]], some 4⟩ ∧
      ofJson (toJson ⟨3, [.triple [1e21]], .permutations [[[]]], none⟩) ≠
        .ok ⟨3, [.triple [1e21]], .permutations [[[]]], none⟩ := by
  constructor
  · have hreads : ReadsBack
        ⟨3, [.named (-0.0) 0.1 255, .triple [1e21]], .permutations [[[0]]], some 4⟩ :=
      readsBack_of_isShort (by decide +kernel)
    refine (ofJson_toJson_iff hreads).2 ⟨⟨by decide, ?_, ?_⟩, by decide +kernel, ?_⟩
    · rintro count ⟨⟩
      decide
    · simp [Functions.slots]
    · simp [Functions.KeepsForm]
  · intro h
    obtain ⟨-, -, hform⟩ := (ofJson_toJson_iff (readsBack_of_isShort (by decide +kernel))).1 h
    exact hform rfl

end Request

end Quilt
