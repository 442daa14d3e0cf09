import Mathlib
import Quilt.Request.Drift

namespace Quilt

namespace Random
variable {α β : Type} {m n : ℕ} {x : StateM Random α} {P : α → Prop}

/-- The generator after a number of draws. -/
def after (random : Random) (count : ℕ) : Random := (fun random => (next random).2)^[count] random

theorem after_after (random : Random) (m n : ℕ) :
    (random.after m).after n = random.after (m + n) := by
  rw [after, after, after, Nat.add_comm, Function.iterate_add_apply]

theorem state_after (random : Random) (count : ℕ) :
    (random.after count).state = random.state + .ofNat count * step := by
  induction count with
  | zero => simp [after]
  | succ count ih =>
    have hnext : (random.after (count + 1)).state = (random.after count).state + step := by
      rw [after, Function.iterate_succ_apply']
      rfl
    rw [hnext, ih, UInt64.ofNat_add, UInt64.add_mul, UInt64.add_assoc, UInt64.ofNat_one,
      UInt64.one_mul]

/-- The draws are as many as said, whatever the generator is at, and what comes of them satisfies
`P`. -/
def Takes (x : StateM Random α) (count : ℕ) (P : α → Prop) : Prop :=
  ∀ random, ∃ a, x random = (a, random.after count) ∧ P a

theorem takes_pure {a : α} (h : P a) : Takes (pure a) 0 P := fun _ => ⟨a, rfl, h⟩

/-- A word is drawn before its remainder is taken. -/
theorem takes_below (hn : 0 < n) : Takes (below n) 1 fun k => k < n ∧ k < UInt64.size :=
  fun random => ⟨_, rfl, Nat.mod_lt _ hn, (Nat.mod_le _ n).trans_lt (next random).1.toNat_lt⟩

theorem takes_coin : Takes coin 1 fun _ => True := fun _ => ⟨_, rfl, trivial⟩

theorem Takes.bind {f : α → StateM Random β} {Q : β → Prop} (hx : Takes x m P)
    (hf : ∀ a, P a → Takes (f a) n Q) : Takes (x >>= f) (n + m) Q := by
  intro random
  obtain ⟨a, hrun, ha⟩ := hx random
  obtain ⟨b, hrun', hb⟩ := hf a ha (random.after m)
  refine ⟨b, ?_, hb⟩
  rw [after_after, Nat.add_comm] at hrun'
  rw [← hrun']
  change f (x random).1 (x random).2 = _
  rw [hrun]

end Random

section Modify
variable {α β : Type} {f : α → α} {g : α → Option β} {u : β → β} {P : Prop} [Decidable P]

theorem bind_getElem?_modify (h : ∀ a, g (f a) = if P then (g a).map u else g a) (l : List α)
    (i j : ℕ) : ((l.modify i f)[j]? >>= g) =
      if i = j ∧ P then (l[j]? >>= g).map u else l[j]? >>= g := by
  rw [List.getElem?_modify]
  cases l[j]? with
  | none => simp
  | some a =>
    change g (if i = j then f a else a) = if i = j ∧ P then (g a).map u else g a
    by_cases hij : i = j
    · simp only [hij, if_true, true_and, h]
    · simp only [hij, if_false, false_and]

theorem getElem?_modify_eq_ite (l : List α) (i j : ℕ) (f : α → α) :
    (l.modify i f)[j]? = if i = j then l[j]?.map f else l[j]? := by
  rw [List.getElem?_modify]
  cases l[j]? <;> split_ifs <;> rfl

theorem getElem?_set_eq_ite (l : List α) (i j : ℕ) (a : α) :
    (l.set i a)[j]? = if i = j then l[j]?.map fun _ => a else l[j]? := by
  rw [List.set_eq_modify, getElem?_modify_eq_ite]

theorem forall_mem_modify {Q : α → Prop} (hf : ∀ a, Q a → Q (f a)) {l : List α} (hl : ∀ a ∈ l, Q a)
    (i : ℕ) : ∀ a ∈ l.modify i f, Q a := by
  intro b hb
  obtain ⟨j, hj⟩ := List.mem_iff_getElem?.1 hb
  rw [getElem?_modify_eq_ite] at hj
  split_ifs at hj
  · obtain ⟨a, ha, rfl⟩ := Option.map_eq_some_iff.1 hj
    exact hf a (hl a (List.mem_of_getElem? ha))
  · exact hl b (List.mem_of_getElem? hj)

theorem map_modify_of_eq {γ : Type} {k : α → γ} (h : ∀ a, k (f a) = k a) (l : List α) (i : ℕ) :
    (l.modify i f).map k = l.map k := by
  apply List.ext_getElem?
  intro j
  rw [List.getElem?_map, List.getElem?_map, getElem?_modify_eq_ite]
  split_ifs
  · rw [Option.map_map, Function.comp_def]
    simp only [h]
  · rfl

end Modify

namespace Functions

theorem formula?_modify (rows : List (List (List (List String)))) (f : String → String)
    (row col color channel r c k ch : ℕ) :
    formula? (rows.modify row fun cells => cells.modify col fun cell =>
        cell.modify color fun channels => channels.modify channel f) r c k ch =
      if row = r ∧ col = c ∧ color = k ∧ channel = ch then (formula? rows r c k ch).map f
      else formula? rows r c k ch :=
  bind_getElem?_modify (fun cells => bind_getElem?_modify (fun cell => bind_getElem?_modify
    (fun channels => getElem?_modify_eq_ite channels channel ch f) cell color k) cells col c)
    rows row r

theorem slot?_set (rows : List (List (List ℕ))) (row col slot source r c i : ℕ) :
    slot? (rows.modify row fun cells => cells.modify col fun cell => cell.set slot source) r c i =
      if row = r ∧ col = c ∧ slot = i then (slot? rows r c i).map fun _ => source
      else slot? rows r c i :=
  bind_getElem?_modify (fun cells => bind_getElem?_modify
    (fun cell => getElem?_set_eq_ite cell slot i source) cells col c) rows row r

/-- How many numbers a drift of functions with all their entries takes. -/
def drawCount : Functions → ℕ
  | expressions _ => 6
  | permutations _ => 4

theorem drawCount_applyStep (functions : Functions) (step : DriftStep) :
    (functions.applyStep step).drawCount = functions.drawCount := by
  cases functions <;> cases step <;> rfl

end Functions

namespace Request
variable {req : Request} {outcome : Except Error DriftStep} {step : DriftStep}

/-- A request with no rows, or no columns in the first of them, or no colors. -/
def NothingToDrift (req : Request) : Prop :=
  req.functions.dims.1 = 0 ∨ req.functions.dims.2 = 0 ∨ req.colors.length = 0

instance (req : Request) : Decidable req.NothingToDrift := inferInstanceAs (Decidable (_ ∨ _))

/-- How many numbers a drift of a request takes. -/
def drawCount (req : Request) : ℕ :=
  if req.NothingToDrift then 0 else req.functions.drawCount

/-- What a request may draw: a step for an entry that it has, or the report that it is not there.
Columns are drawn as if every row were as long as the first, and the rest as if every cell were
complete. -/
inductive Draws (req : Request) : Except Error DriftStep → Prop
  | nothing (h : req.NothingToDrift) : Draws req (.error .driftNothing)
  | formula {lines : List (List (List (List String)))} {row col color channel n : ℕ} {up : Bool}
      {source : String} (hfunctions : req.functions = .expressions lines)
      (hcell : row < lines.length ∧ col < Functions.firstWidth lines)
      (hplace : color < req.colors.length ∧ channel < 3) (hn : 2 ≤ n ∧ n ≤ 6)
      (hsource : Functions.formula? lines row col color channel = some source) :
      Draws req (.ok (.formula row col color channel (driftSuffix n up)))
  | noFormula {lines : List (List (List (List String)))} {row col color channel : ℕ}
      (hfunctions : req.functions = .expressions lines)
      (hcell : row < lines.length ∧ col < Functions.firstWidth lines)
      (hplace : color < req.colors.length ∧ channel < 3)
      (hsource : Functions.formula? lines row col color channel = none) :
      Draws req (.error (.driftNoFormula row col color channel))
  | selection {lines : List (List (List ℕ))} {row col slot source old : ℕ}
      (hfunctions : req.functions = .permutations lines)
      (hcell : row < lines.length ∧ col < Functions.firstWidth lines)
      (hslot : slot < req.colors.length)
      (hsource : source < req.colors.length ∧ source < UInt64.size)
      (hold : Functions.slot? lines row col slot = some old) :
      Draws req (.ok (.selection row col slot source))
  | noSlot {lines : List (List (List ℕ))} {row col slot : ℕ}
      (hfunctions : req.functions = .permutations lines)
      (hcell : row < lines.length ∧ col < Functions.firstWidth lines)
      (hslot : slot < req.colors.length) (hold : Functions.slot? lines row col slot = none) :
      Draws req (.error (.driftNoSlot row col slot))

theorem takes_drawStep (req : Request) : Random.Takes req.drawStep req.drawCount req.Draws := by
  unfold drawStep
  dsimp only
  split_ifs with hnothing
  · rw [drawCount, if_pos (show req.NothingToDrift from hnothing)]
    exact Random.takes_pure (.nothing hnothing)
  rw [drawCount, if_neg (show ¬req.NothingToDrift from hnothing)]
  simp only [not_or, ← ne_eq, ← Nat.pos_iff_ne_zero] at hnothing
  obtain ⟨hrows, hcols, hcolors⟩ := hnothing
  cases hfunctions : req.functions with
  | expressions lines =>
    rw [hfunctions] at hrows hcols
    refine (Random.takes_below hrows).bind fun row hrow => ?_
    refine (Random.takes_below hcols).bind fun col hcol => ?_
    refine (Random.takes_below hcolors).bind fun color hcolor => ?_
    refine (Random.takes_below (by decide)).bind fun channel hchannel => ?_
    refine (Random.takes_below (by decide)).bind fun n hn => ?_
    refine Random.takes_coin.bind fun up _ => ?_
    -- All the numbers are drawn by now, whether the entry is there or not.
    cases hsource : Functions.formula? lines row col color channel with
    | none =>
      exact Random.takes_pure
        (.noFormula hfunctions ⟨hrow.1, hcol.1⟩ ⟨hcolor.1, hchannel.1⟩ hsource)
    | some source =>
      have hratio : 2 ≤ n + 2 ∧ n + 2 ≤ 6 := by omega
      exact Random.takes_pure
        (.formula hfunctions ⟨hrow.1, hcol.1⟩ ⟨hcolor.1, hchannel.1⟩ hratio hsource)
  | permutations lines =>
    rw [hfunctions] at hrows hcols
    refine (Random.takes_below hrows).bind fun row hrow => ?_
    refine (Random.takes_below hcols).bind fun col hcol => ?_
    refine (Random.takes_below hcolors).bind fun slot hslot => ?_
    refine (Random.takes_below hcolors).bind fun source hsource => ?_
    cases hold : Functions.slot? lines row col slot with
    | none => exact Random.takes_pure (.noSlot hfunctions ⟨hrow.1, hcol.1⟩ hslot.1 hold)
    | some old =>
      exact Random.takes_pure (.selection hfunctions ⟨hrow.1, hcol.1⟩ hslot.1 hsource hold)

/-- What may come of a drift, and the request afterwards. -/
inductive Drifts (req : Request) : Except Error DriftStep × Request → Prop
  | kept {e : Error} (h : req.Draws (.error e)) : Drifts req (.error e, req)
  | changed {step : DriftStep} (h : req.Draws (.ok step)) :
      Drifts req (.ok step, req.applyStep step)

theorem takes_drift (req : Request) : Random.Takes req.drift req.drawCount req.Drifts := by
  rw [← Nat.zero_add req.drawCount]
  refine (takes_drawStep req).bind fun outcome h => ?_
  cases outcome with
  | error e => exact Random.takes_pure (.kept h)
  | ok step => exact Random.takes_pure (.changed h)

/-- A step that changes the entry that it names, and the request afterwards: all other entries, the
lengths of all lists and the other fields are as before. -/
inductive ChangesAt (req : Request) : DriftStep → Request → Prop
  | formula {rows rows' : List (List (List (List String)))} {row col color channel : ℕ}
      {suffix old : String} (hfunctions : req.functions = .expressions rows)
      (hold : Functions.formula? rows row col color channel = some old)
      (hnew : Functions.formula? rows' row col color channel = some (old ++ suffix))
      (hothers : ∀ r c k ch, (r, c, k, ch) ≠ (row, col, color, channel) →
        Functions.formula? rows' r c k ch = Functions.formula? rows r c k ch)
      (hlengths : rows'.map (·.map (·.map List.length)) = rows.map (·.map (·.map List.length))) :
      ChangesAt req (.formula row col color channel suffix)
        { req with functions := .expressions rows' }
  | selection {rows rows' : List (List (List ℕ))} {row col slot source old : ℕ}
      (hfunctions : req.functions = .permutations rows) (hsource : source < req.colors.length)
      (hold : Functions.slot? rows row col slot = some old)
      (hnew : Functions.slot? rows' row col slot = some source)
      (hothers : ∀ r c i, (r, c, i) ≠ (row, col, slot) →
        Functions.slot? rows' r c i = Functions.slot? rows r c i)
      (hlengths : rows'.map (·.map List.length) = rows.map (·.map List.length)) :
      ChangesAt req (.selection row col slot source) { req with functions := .permutations rows' }

theorem changesAt_applyStep (h : req.Draws (.ok step)) :
    req.ChangesAt step (req.applyStep step) := by
  cases h with
  | @formula lines row col color channel n up source hfunctions _ _ _ hsource =>
    rw [applyStep, hfunctions]
    refine .formula hfunctions hsource ?_ (fun r c k ch hne => ?_) ?_
    · rw [Functions.formula?_modify, if_pos ⟨rfl, rfl, rfl, rfl⟩, hsource]
      rfl
    · rw [Functions.formula?_modify, if_neg]
      rintro ⟨rfl, rfl, rfl, rfl⟩
      exact hne rfl
    · exact map_modify_of_eq (fun cells => map_modify_of_eq (fun cell => map_modify_of_eq
        (fun channels => List.length_modify ..) cell color) cells col) lines row
  | @selection lines row col slot source old hfunctions _ _ hsource hold =>
    rw [applyStep, hfunctions]
    refine .selection hfunctions hsource.1 hold ?_ (fun r c i hne => ?_) ?_
    · rw [Functions.slot?_set, if_pos ⟨rfl, rfl, rfl⟩, hold]
      rfl
    · rw [Functions.slot?_set, if_neg]
      rintro ⟨rfl, rfl, rfl⟩
      exact hne rfl
    · exact map_modify_of_eq (fun cells => map_modify_of_eq (fun cell => List.length_set) cells col)
        lines row

theorem kind_of_draws {e : Error} (h : req.Draws (.error e)) : e.kind = .shape := by
  cases h <;> rfl

/-- A drift takes as many numbers as the request asks for, and then either reports a shape that
lacks the entry, with the request as it was, or changes the one entry that it names. -/
theorem drift_changes_one_entry (req : Request) (random : Random) :
    ∃ outcome after, req.drift random = ((outcome, after), random.after req.drawCount) ∧
      req.Draws outcome ∧
      ((∃ e, outcome = .error e ∧ e.kind = .shape ∧ after = req) ∨
        ∃ step, outcome = .ok step ∧ req.ChangesAt step after) := by
  obtain ⟨⟨outcome, after⟩, hdrift, hdrifts⟩ := takes_drift req random
  refine ⟨outcome, after, hdrift, ?_⟩
  cases hdrifts with
  | kept h => exact ⟨h, .inl ⟨_, rfl, kind_of_draws h, rfl⟩⟩
  | changed h => exact ⟨h, .inr ⟨_, rfl, changesAt_applyStep h⟩⟩

end Request

end Quilt
