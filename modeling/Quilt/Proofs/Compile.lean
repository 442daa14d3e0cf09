import Mathlib
import Quilt.Proofs.Grid
import Quilt.Request.Drift

namespace Quilt

section Lists
variable {ε α β γ δ : Type} {R : α → β → Prop} {l : List α} {bs : List β}

/-- The places of the items play no part in whether the items pass. -/
theorem mapM_zipIdx_eq_ok {f : α → ℕ → Except ε β} (h : ∀ i a b, f a i = .ok b ↔ R a b) :
    (l.zipIdx.mapM fun p => f p.1 p.2) = .ok bs ↔ List.Forall₂ R l bs := by
  have hf : (fun (p : α × ℕ) b => f p.1 p.2 = .ok b) = fun p b => R p.1 b := by
    funext p b
    exact propext (h p.2 p.1 b)
  rw [mapM_eq_ok, hf, ← List.forall₂_map_left_iff (f := Prod.fst) (R := R), List.zipIdx_map_fst]

theorem exists_forall₂_iff : (∃ bs, List.Forall₂ R l bs) ↔ ∀ a ∈ l, ∃ b, R a b := by
  induction l with
  | nil => simp
  | cons a l ih =>
    rw [List.forall_mem_cons, ← ih]
    constructor
    · rintro ⟨_, hb | ⟨hb, hbs⟩⟩
      exact ⟨⟨_, hb⟩, ⟨_, hbs⟩⟩
    · rintro ⟨⟨b, hb⟩, ⟨bs, hbs⟩⟩
      exact ⟨b :: bs, .cons hb hbs⟩

theorem exists_mapM_zipIdx_iff {f : α → ℕ → Except ε β} {P : α → Prop}
    (h : ∀ a i, (∃ b, f a i = .ok b) ↔ P a) :
    (∃ bs, (l.zipIdx.mapM fun p => f p.1 p.2) = .ok bs) ↔ ∀ a ∈ l, P a := by
  simp only [mapM_eq_ok, exists_forall₂_iff, h]
  rw [← List.forall_mem_map (f := Prod.fst) (P := P), List.zipIdx_map_fst]

theorem mapM_zipIdx_eq_error {f : α → ℕ → Except ε β} {e : ε} :
    (l.zipIdx.mapM fun p => f p.1 p.2) = .error e ↔
      ∃ (i : ℕ) (a : α), l[i]? = some a ∧ f a i = .error e ∧
        ∀ j < i, ∀ b, l[j]? = some b → ∃ c, f b j = .ok c := by
  rw [mapM_eq_error]
  simp only [List.getElem?_zipIdx, Option.map_eq_some_iff, zero_add]
  constructor
  · rintro ⟨i, _, ⟨a, ha, rfl⟩, hfa, hbefore⟩
    exact ⟨i, a, ha, hfa, fun j hj b hb => hbefore j hj (b, j) ⟨b, hb, rfl⟩⟩
  · rintro ⟨i, a, ha, hfa, hbefore⟩
    refine ⟨i, (a, i), ⟨a, ha, rfl⟩, hfa, ?_⟩
    rintro j hj _ ⟨b, hb, rfl⟩
    exact hbefore j hj b hb

theorem rel_getElem? (h : List.Forall₂ R l bs) (i : ℕ) : Option.Rel R l[i]? bs[i]? := by
  induction h generalizing i with
  | nil => exact .none
  | cons hab _ ih =>
    cases i with
    | zero => exact .some hab
    | succ i => exact ih i

theorem exists_of_mem_right {b : β} (h : List.Forall₂ R l bs) (hb : b ∈ bs) : ∃ a ∈ l, R a b := by
  obtain ⟨i, hi⟩ := List.mem_iff_getElem?.1 hb
  have hrel := rel_getElem? h i
  rw [hi] at hrel
  generalize ha : l[i]? = a at hrel
  cases hrel with
  | some hab => exact ⟨_, List.mem_of_getElem? ha, hab⟩

theorem rel_bind {S : γ → δ → Prop} {a : Option α} {b : Option β} {f : α → Option γ}
    {g : β → Option δ} (h : Option.Rel R a b) (hfg : ∀ a b, R a b → Option.Rel S (f a) (g b)) :
    Option.Rel S (a >>= f) (b >>= g) := by
  cases h with
  | some hab => exact hfg _ _ hab
  | none => exact .none

theorem exists_of_rel_some {a : α} {b : Option β} (h : Option.Rel R (some a) b) :
    ∃ c, b = some c ∧ R a c := by
  cases h with
  | some hac => exact ⟨_, rfl, hac⟩

theorem eq_of_rel {a : Option α} {b b' : Option β} (hR : ∀ a b b', R a b → R a b' → b = b')
    (h : Option.Rel R a b) (h' : Option.Rel R a b') : b = b' := by
  cases h with
  | none =>
    cases h'
    rfl
  | some hb =>
    obtain ⟨c, rfl, hc⟩ := exists_of_rel_some h'
    rw [hR _ _ _ hb hc]

theorem getElem?_flatten {rows : List (List α)} {cols : ℕ} (h : ∀ row ∈ rows, row.length = cols)
    (row : ℕ) {col : ℕ} (hcol : col < cols) :
    rows.flatten[row * cols + col]? = rows[row]? >>= (·[col]?) := by
  induction rows generalizing row with
  | nil => rfl
  | cons first rows ih =>
    obtain ⟨hfirst, hrows⟩ := List.forall_mem_cons.1 h
    cases row with
    | zero =>
      rw [List.flatten_cons, zero_mul, zero_add, List.getElem?_append_left (hfirst.symm ▸ hcol)]
      rfl
    | succ row =>
      have hle : first.length ≤ (row + 1) * cols + col := by
        rw [hfirst, Nat.succ_mul]
        omega
      have hsub : (row + 1) * cols + col - first.length = row * cols + col := by
        rw [hfirst, Nat.succ_mul]
        omega
      rw [List.flatten_cons, List.getElem?_append_right hle, hsub, ih hrows row]
      rfl

end Lists

namespace Grid
variable {numcolors row col color : ℕ}

theorem checkColorCount_eq_ok {u : Unit} :
    Cell.checkColorCount numcolors = .ok u ↔ 1 ≤ numcolors ∧ numcolors ≤ maxColors := by
  unfold Cell.checkColorCount
  split_ifs with h
  · simp
    omega
  · simp
    omega

/-- The formulas of a color, one source for each channel. -/
def ColorCompiles (numcolors : ℕ) (sources : List String) (f : ColorFormula) : Prop :=
  List.Forall₂ (fun source f => Formula.compile numcolors source = .ok f) sources
    [f.red, f.green, f.blue]

/-- The cell of formulas, one color for each slot. -/
def CellCompiles (numcolors : ℕ) (colors : List (List String)) (cell : Cell) : Prop :=
  colors.length = numcolors ∧ ∃ outputs, List.Forall₂ (ColorCompiles numcolors) colors outputs ∧
    .arithmetic outputs = cell

/-- The cell of a selection, one slot for each slot. -/
def SelectionCompiles (numcolors : ℕ) (slots : List ℕ) (cell : Cell) : Prop :=
  slots.length = numcolors ∧ (∀ slot ∈ slots, slot < numcolors) ∧ .selection slots = cell

theorem compileChannel_eq_ok {channel : ℕ} {source : String} {f : Formula} :
    compileChannel numcolors row col color channel source = .ok f ↔
      Formula.compile numcolors source = .ok f := by
  unfold compileChannel
  cases Formula.compile numcolors source <;> simp [Except.mapError]

theorem compileColor_eq_ok {sources : List String} {f : ColorFormula} :
    compileColor numcolors row col color sources = .ok f ↔ ColorCompiles numcolors sources f := by
  unfold ColorCompiles compileColor
  split
  · next red green blue =>
    simp only [bind_eq_ok, pure_eq_ok, compileChannel_eq_ok, List.forall₂_cons,
      List.forall₂_nil_left_iff, and_true]
    constructor
    · rintro ⟨r, hr, g, hg, b, hb, rfl⟩
      exact ⟨hr, hg, hb⟩
    · rintro ⟨hr, hg, hb⟩
      exact ⟨_, hr, _, hg, _, hb, rfl⟩
  · next hlength =>
    simp only [reduceCtorEq, false_iff]
    intro h
    obtain ⟨r, _, -, hr, rfl⟩ := List.forall₂_cons_right_iff.1 h
    obtain ⟨g, _, -, hg, rfl⟩ := List.forall₂_cons_right_iff.1 hr
    obtain ⟨b, _, -, hb, rfl⟩ := List.forall₂_cons_right_iff.1 hg
    rw [List.forall₂_nil_right_iff] at hb
    exact hlength r g b (by rw [hb])

theorem compileCell_eq_ok {colors : List (List String)} {cell : Cell} :
    compileCell numcolors row col colors = .ok cell ↔ CellCompiles numcolors colors cell := by
  unfold compileCell CellCompiles
  split_ifs with h
  · simp [h]
  · rw [bind_eq_ok, and_iff_right (not_not.1 h)]
    simp only [pure_eq_ok]
    refine exists_congr fun outputs => and_congr_left' ?_
    exact mapM_zipIdx_eq_ok
      (f := fun sources color => compileColor numcolors row col color sources)
      fun _ _ _ => compileColor_eq_ok

theorem compileSelection_eq_ok {slots : List ℕ} {cell : Cell} :
    compileSelection numcolors row col slots = .ok cell ↔
      SelectionCompiles numcolors slots cell := by
  unfold compileSelection SelectionCompiles
  split_ifs with hlength
  · simp [hlength]
  · rw [and_iff_right (not_not.1 hlength)]
    split
    · next slot hfind =>
      have hslot := List.find?_some hfind
      simp only [reduceCtorEq, false_iff]
      rintro ⟨hall, -⟩
      exact absurd (hall slot (List.mem_of_find?_eq_some hfind)) (by simpa using hslot)
    · next hfind =>
      have hall : ∀ slot ∈ slots, slot < numcolors := by simpa using hfind
      rw [Except.ok.injEq, and_iff_right hall]

theorem compileCells_eq_ok {α : Type} {compileAt : ℕ → ℕ → α → Except Error Cell}
    {R : α → Cell → Prop} (h : ∀ row col item cell, compileAt row col item = .ok cell ↔ R item cell)
    {lines : List (List α)} {cells : List Cell} :
    compileCells compileAt lines = .ok cells ↔
      ∃ rows, List.Forall₂ (List.Forall₂ R) lines rows ∧ rows.flatten = cells := by
  unfold compileCells
  rw [bind_eq_ok]
  simp only [pure_eq_ok]
  refine exists_congr fun rows => and_congr_left' ?_
  exact mapM_zipIdx_eq_ok (R := List.Forall₂ R) fun row _ _ =>
    mapM_zipIdx_eq_ok (R := R) fun col item cell => h row col item cell

theorem exists_colorCompiles_iff {sources : List String} :
    (∃ f, ColorCompiles numcolors sources f) ↔
      sources.length = 3 ∧ ∀ source ∈ sources, ∃ f, Formula.compile numcolors source = .ok f := by
  rw [← exists_forall₂_iff]
  constructor
  · rintro ⟨f, hf⟩
    exact ⟨hf.length_eq, _, hf⟩
  · rintro ⟨hlength, fs, hfs⟩
    obtain ⟨r, g, b, rfl⟩ := List.length_eq_three.1 (hfs.length_eq.symm.trans hlength)
    exact ⟨⟨r, g, b⟩, hfs⟩

theorem exists_cellCompiles_iff {colors : List (List String)} :
    (∃ cell, CellCompiles numcolors colors cell) ↔
      colors.length = numcolors ∧ ∀ sources ∈ colors, ∃ f, ColorCompiles numcolors sources f := by
  rw [← exists_forall₂_iff]
  constructor
  · rintro ⟨_, hlength, outputs, houtputs, -⟩
    exact ⟨hlength, outputs, houtputs⟩
  · rintro ⟨hlength, outputs, houtputs⟩
    exact ⟨_, hlength, outputs, houtputs, rfl⟩

/-- A grid that is compiled from lines of descriptions, cell by cell. -/
structure CompilesFrom {α : Type} (g : Grid) (R : α → Cell → Prop) (kind : GridKind) (numcolors : ℕ)
    (lines : List (List α)) : Prop where
  color_count : 1 ≤ numcolors ∧ numcolors ≤ maxColors
  rectangle_eq : rectangle lines = .ok (g.rows, g.cols)
  numcolors_eq : g.numcolors = numcolors
  kind_eq : g.kind = kind
  exists_rows : ∃ rows, List.Forall₂ (List.Forall₂ R) lines rows ∧ rows.flatten.toArray = g.cells

variable {α : Type} {R : α → Cell → Prop} {kind : GridKind} {lines : List (List α)} {g : Grid}

theorem compile_eq_ok_iff_compilesFrom {compileAt : ℕ → ℕ → α → Except Error Cell}
    (h : ∀ row col item cell, compileAt row col item = .ok cell ↔ R item cell) :
    (do
      Cell.checkColorCount numcolors
      let (rows, cols) ← rectangle lines
      let cells ← compileCells compileAt lines
      return (⟨rows, cols, numcolors, kind, cells.toArray⟩ : Grid)) = .ok g ↔
      g.CompilesFrom R kind numcolors lines := by
  simp only [bind_eq_ok, pure_eq_ok, checkColorCount_eq_ok, compileCells_eq_ok h]
  constructor
  · rintro ⟨-, hcount, ⟨rows, cols⟩, hrect, cells, ⟨lists, hlists, rfl⟩, rfl⟩
    exact ⟨hcount, hrect, rfl, rfl, lists, hlists, rfl⟩
  · rintro ⟨hcount, hrect, rfl, rfl, lists, hlists, hcells⟩
    exact ⟨(), hcount, _, hrect, _, ⟨lists, hlists, rfl⟩, by rw [hcells]⟩

theorem compileExpressions_eq_ok {lines : List (List (List (List String)))} :
    compileExpressions numcolors lines = .ok g ↔
      g.CompilesFrom (CellCompiles numcolors) .arithmetic numcolors lines :=
  compile_eq_ok_iff_compilesFrom fun _ _ _ _ => compileCell_eq_ok

theorem compilePermutations_eq_ok {lines : List (List (List ℕ))} :
    compilePermutations numcolors lines = .ok g ↔
      g.CompilesFrom (SelectionCompiles numcolors) .permutation numcolors lines :=
  compile_eq_ok_iff_compilesFrom fun _ _ _ _ => compileSelection_eq_ok

theorem exists_compilesFrom (hcount : 1 ≤ numcolors ∧ numcolors ≤ maxColors) {rows cols : ℕ}
    (hrect : rectangle lines = .ok (rows, cols))
    (hitems : ∀ line ∈ lines, ∀ item ∈ line, ∃ cell, R item cell) :
    ∃ g : Grid, g.rows = rows ∧ g.cols = cols ∧ g.CompilesFrom R kind numcolors lines := by
  obtain ⟨lists, hlists⟩ := exists_forall₂_iff.2 fun line hline =>
    exists_forall₂_iff.2 (hitems line hline)
  exact ⟨⟨rows, cols, numcolors, kind, lists.flatten.toArray⟩, rfl, rfl, hcount, hrect, rfl, rfl,
    lists, hlists, rfl⟩

theorem CompilesFrom.exists_cell (h : g.CompilesFrom R kind numcolors lines) :
    ∀ line ∈ lines, ∀ item ∈ line, ∃ cell, R item cell := by
  obtain ⟨rows, hrows, -⟩ := h.exists_rows
  intro line hline
  obtain ⟨cells, hcells⟩ := exists_forall₂_iff.1 ⟨rows, hrows⟩ line hline
  exact exists_forall₂_iff.1 ⟨cells, hcells⟩

theorem CompilesFrom.rel_cell? (h : g.CompilesFrom R kind numcolors lines) (row col : ℕ) :
    Option.Rel R (lines[row]? >>= (·[col]?)) (g.cell? row col) := by
  obtain ⟨hrows, -, -, hcols⟩ := rectangle_eq_ok.1 h.rectangle_eq
  obtain ⟨rows, hlists, hcells⟩ := h.exists_rows
  have hwidth : ∀ cells ∈ rows, cells.length = g.cols := by
    intro cells hmem
    obtain ⟨line, hline, hcells⟩ := exists_of_mem_right hlists hmem
    rw [← hcells.length_eq, hcols line hline]
  -- Outside the grid there is neither a cell nor a description.
  by_cases hin : row < g.rows ∧ col < g.cols
  · rw [cell?, if_pos hin, ← hcells, List.getElem?_toArray, getElem?_flatten hwidth row hin.2]
    exact rel_bind (rel_getElem? hlists row) fun line cells hline => rel_getElem? hline col
  · have hnone : (lines[row]? >>= (·[col]?)) = none := by
      refine Option.bind_eq_none_iff.2 fun line hline => ?_
      have hrow : row < g.rows := hrows ▸ (List.getElem?_eq_some_iff.1 hline).1
      apply List.getElem?_eq_none
      rw [hcols line (List.mem_of_getElem? hline)]
      exact Nat.le_of_not_lt fun hcol => hin ⟨hrow, hcol⟩
    rw [cell?, if_neg hin, hnone]
    exact .none

theorem CompilesFrom.exists_item (h : g.CompilesFrom R kind numcolors lines) (hg : g.IsFilled)
    {row col : ℕ} (hrow : row < g.rows) (hcol : col < g.cols) :
    ∃ item cell, (lines[row]? >>= (·[col]?)) = some item ∧ R item cell := by
  have hrel := h.rel_cell? row col
  obtain ⟨cell, hcell⟩ := exists_cell? hg hrow hcol
  rw [hcell] at hrel
  generalize hitem : (lines[row]? >>= (·[col]?)) = item at hrel
  cases hrel with
  | some hR => exact ⟨_, cell, rfl, hR⟩

end Grid

/-- The formulas that a cell is made of, none in a selection. -/
def Cell.outputs : Cell → List ColorFormula
  | arithmetic outputs => outputs
  | selection _ => []

/-- Where a formula stands in a grid. -/
structure FormulaPlace where
  row : ℕ
  col : ℕ
  color : ℕ
  channel : Channel
deriving DecidableEq

theorem Channel.index_inj {a b : Channel} : a.index = b.index ↔ a = b := by
  cases a <;> cases b <;> decide

theorem Channel.exists_index_eq {n : ℕ} (h : n < 3) : ∃ ch : Channel, ch.index = n := by
  match n, h with
  | 0, _ => exact ⟨.red, rfl⟩
  | 1, _ => exact ⟨.green, rfl⟩
  | 2, _ => exact ⟨.blue, rfl⟩

namespace Functions

/-- The source of the formula at a place. -/
def sourceAt? (lines : List (List (List (List String)))) (place : FormulaPlace) : Option String :=
  formula? lines place.row place.col place.color place.channel.index

theorem sourceAt?_eq_bind (lines : List (List (List (List String)))) (place : FormulaPlace) :
    sourceAt? lines place = (lines[place.row]? >>= (·[place.col]?)) >>= fun cell =>
      cell[place.color]? >>= (·[place.channel.index]?) := by
  rw [bind_assoc]
  rfl

end Functions

namespace Grid
variable {numcolors : ℕ} {g : Grid}

/-- The formula at a place. -/
def formulaAt? (g : Grid) (place : FormulaPlace) : Option Formula := do
  let cell ← g.cell? place.row place.col
  let output ← cell.outputs[place.color]?
  return output.get place.channel

theorem rel_get {sources : List String} {f : ColorFormula} (h : ColorCompiles numcolors sources f)
    (ch : Channel) : Option.Rel (fun source f => Formula.compile numcolors source = .ok f)
      sources[ch.index]? (some (f.get ch)) := by
  have hrel := rel_getElem? h ch.index
  cases ch <;> exact hrel

theorem rel_formulaAt? {lines : List (List (List (List String)))}
    (h : compileExpressions numcolors lines = .ok g) (place : FormulaPlace) :
    Option.Rel (fun source f => Formula.compile numcolors source = .ok f)
      (Functions.sourceAt? lines place) (g.formulaAt? place) := by
  have hcell := (compileExpressions_eq_ok.1 h).rel_cell? place.row place.col
  rw [Functions.sourceAt?_eq_bind]
  apply rel_bind hcell
  rintro colors _ ⟨-, outputs, houtputs, rfl⟩
  exact rel_bind (rel_getElem? houtputs place.color) fun _ _ h => rel_get h place.channel

theorem isSome_sourceAt? {lines : List (List (List (List String)))}
    (h : compileExpressions numcolors lines = .ok g) {place : FormulaPlace}
    (hrow : place.row < g.rows) (hcol : place.col < g.cols) (hcolor : place.color < numcolors) :
    (Functions.sourceAt? lines place).isSome := by
  obtain ⟨colors, _, hcolors, hlength, outputs, houtputs, -⟩ :=
    (compileExpressions_eq_ok.1 h).exists_item (IsCompiled.expressions h).isFilled hrow hcol
  have hin : place.color < colors.length := hlength.symm ▸ hcolor
  obtain ⟨f, hf⟩ := exists_forall₂_iff.1 ⟨outputs, houtputs⟩ _ (List.getElem_mem hin)
  have hsource := rel_get hf place.channel
  rw [Functions.sourceAt?_eq_bind, hcolors]
  change (colors[place.color]? >>= (·[place.channel.index]?)).isSome
  rw [List.getElem?_eq_getElem hin]
  change colors[place.color][place.channel.index]?.isSome
  generalize colors[place.color][place.channel.index]? = source at hsource ⊢
  cases hsource
  rfl

theorem isSome_slot? {lines : List (List (List ℕ))}
    (h : compilePermutations numcolors lines = .ok g) {row col slot : ℕ} (hrow : row < g.rows)
    (hcol : col < g.cols) (hslot : slot < numcolors) :
    (Functions.slot? lines row col slot).isSome := by
  obtain ⟨slots, _, hslots, hlength, -⟩ :=
    (compilePermutations_eq_ok.1 h).exists_item (IsCompiled.permutations h).isFilled hrow hcol
  have hassoc : Functions.slot? lines row col slot =
      (lines[row]? >>= (·[col]?)) >>= (·[slot]?) := by
    rw [bind_assoc]
    rfl
  rw [hassoc, hslots]
  change slots[slot]?.isSome
  rw [List.getElem?_eq_getElem (hlength.symm ▸ hslot)]
  rfl

end Grid

end Quilt
