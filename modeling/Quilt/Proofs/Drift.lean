import Mathlib
import Quilt.Proofs.Draws
import Quilt.Proofs.Grammar
import Quilt.Proofs.Request

namespace Quilt

/-- The operations that a drift appends to a formula. -/
inductive IsRatio : List (Op × Operand) → Prop
  | up {n : ℕ} (h : 2 ≤ n ∧ n ≤ 6) :
      IsRatio [(.mul, .literal (Float.ofNat n)), (.div, .literal (Float.ofNat (n - 1)))]
  | down {n : ℕ} (h : 2 ≤ n ∧ n ≤ 6) :
      IsRatio [(.div, .literal (Float.ofNat n)), (.mul, .literal (Float.ofNat (n - 1)))]

theorem toList_driftSuffix (n : ℕ) (up : Bool) : (driftSuffix n up).toList =
    if up then '*' :: (Nat.toDigits 10 n ++ '/' :: Nat.toDigits 10 (n - 1))
    else '/' :: (Nat.toDigits 10 n ++ '*' :: Nat.toDigits 10 (n - 1)) := by
  cases up <;> simp [driftSuffix, toString, Nat.repr]

theorem roundsTo_ofNat {n : ℕ} (h : n ≤ 6) : Binary64.RoundsTo n (Float.ofNat n) := by
  have hall : ∀ n ≤ 6, Float.ofNat n = Binary64.ofMagnitude false (Binary64.nearest n 1) := by
    decide +kernel
  exact Binary64.roundsTo_iff.2 (hall n h)

namespace Formula
variable {numcolors : ℕ}

theorem tailText_pair (op op' : Op) {text text' : List Char} {operand operand' : Operand}
    (h : OperandText numcolors text operand) (h' : OperandText numcolors text' operand') :
    TailText numcolors (op.symbol :: (text ++ op'.symbol :: text'))
      [(op, operand), (op', operand')] := by
  have hlast := TailText.cons op' h' .nil
  rw [List.append_nil] at hlast
  exact hlast.cons op h

theorem tailText_driftSuffix {n : ℕ} (hn : 2 ≤ n ∧ n ≤ 6) (up : Bool) :
    ∃ links, IsRatio links ∧ TailText numcolors (driftSuffix n up).toList links := by
  have hden : OperandText numcolors _ _ := operandText_toDigits (roundsTo_ofNat hn.2)
  have hnum : OperandText numcolors _ _ :=
    operandText_toDigits (roundsTo_ofNat ((Nat.sub_le n 1).trans hn.2))
  rw [toList_driftSuffix]
  cases up with
  | true => exact ⟨_, .up hn, tailText_pair .mul .div hden hnum⟩
  | false => exact ⟨_, .down hn, tailText_pair .div .mul hden hnum⟩

end Formula

namespace Functions
variable (lines : List (List (List (List String)))) (place : FormulaPlace) (suffix : String)

/-- The sources with one of them going on. -/
def appendAt (lines : List (List (List (List String)))) (place : FormulaPlace) (suffix : String) :
    List (List (List (List String))) :=
  lines.modify place.row fun cells => cells.modify place.col fun cell =>
    cell.modify place.color fun channels => channels.modify place.channel.index (· ++ suffix)

theorem sourceAt?_appendAt_self :
    sourceAt? (appendAt lines place suffix) place = (sourceAt? lines place).map (· ++ suffix) := by
  rw [sourceAt?, appendAt, formula?_modify, if_pos ⟨rfl, rfl, rfl, rfl⟩]
  rfl

theorem sourceAt?_appendAt_of_ne {other : FormulaPlace} (h : other ≠ place) :
    sourceAt? (appendAt lines place suffix) other = sourceAt? lines other := by
  rw [sourceAt?, appendAt, formula?_modify, if_neg]
  · rfl
  obtain ⟨row, col, color, ch⟩ := place
  obtain ⟨row', col', color', ch'⟩ := other
  simp only [Channel.index_inj]
  rintro ⟨rfl, rfl, rfl, rfl⟩
  exact h rfl

end Functions

namespace Grid
variable {α : Type} {R : α → Cell → Prop} {kind : GridKind} {numcolors : ℕ} {lines : List (List α)}
  {g : Grid}

theorem rectangle_modify {f : α → α} {rows cols : ℕ} (h : rectangle lines = .ok (rows, cols))
    (row col : ℕ) : rectangle (lines.modify row (·.modify col f)) = .ok (rows, cols) := by
  obtain ⟨hlen, hrows, hcols, hall⟩ := rectangle_eq_ok.1 h
  refine rectangle_eq_ok.2 ⟨by rw [List.length_modify, hlen], hrows, hcols, ?_⟩
  apply forall_mem_modify _ hall
  intro line hline
  rw [List.length_modify, hline]

/-- Two grids that differ at most in what their cells do. -/
structure SameShape (a b : Grid) : Prop where
  rows_eq : a.rows = b.rows
  cols_eq : a.cols = b.cols
  numcolors_eq : a.numcolors = b.numcolors
  kind_eq : a.kind = b.kind

theorem CompilesFrom.exists_modify (h : g.CompilesFrom R kind numcolors lines) {f : α → α}
    (hf : ∀ item, (∃ cell, R item cell) → ∃ cell, R (f item) cell) (row col : ℕ) :
    ∃ g' : Grid, g'.SameShape g ∧
      g'.CompilesFrom R kind numcolors (lines.modify row (·.modify col f)) := by
  have hitems : ∀ line ∈ lines.modify row (·.modify col f), ∀ item ∈ line, ∃ cell, R item cell := by
    apply forall_mem_modify _ h.exists_cell
    intro line hline
    exact forall_mem_modify hf hline col
  obtain ⟨g', hrows, hcols, (hg' : g'.CompilesFrom R kind numcolors _)⟩ :=
    exists_compilesFrom h.color_count (rectangle_modify h.rectangle_eq row col) hitems
  have hnumcolors := hg'.numcolors_eq.trans h.numcolors_eq.symm
  exact ⟨g', ⟨hrows, hcols, hnumcolors, hg'.kind_eq.trans h.kind_eq.symm⟩, hg'⟩

theorem exists_cellCompiles_modify {suffix : String} {links : List (Op × Operand)}
    (hsuffix : Formula.TailText numcolors suffix.toList links) (color channel : ℕ)
    {colors : List (List String)} (h : ∃ cell, CellCompiles numcolors colors cell) :
    ∃ cell, CellCompiles numcolors
      (colors.modify color (·.modify channel (· ++ suffix))) cell := by
  rw [exists_cellCompiles_iff] at h ⊢
  refine ⟨by rw [List.length_modify, h.1], forall_mem_modify ?_ h.2 color⟩
  intro sources hsources
  rw [exists_colorCompiles_iff] at hsources ⊢
  refine ⟨by rw [List.length_modify, hsources.1], forall_mem_modify ?_ hsources.2 channel⟩
  rintro source ⟨f, hf⟩
  exact ⟨_, Formula.compile_append hf hsuffix⟩

theorem exists_selectionCompiles_set {source : ℕ} (hsource : source < numcolors) (slot : ℕ)
    {slots : List ℕ} (h : ∃ cell, SelectionCompiles numcolors slots cell) :
    ∃ cell, SelectionCompiles numcolors (slots.set slot source) cell := by
  obtain ⟨_, hlength, hslots, -⟩ := h
  refine ⟨_, by rw [List.length_set, hlength], ?_, rfl⟩
  intro s hs
  obtain hs | rfl := List.mem_or_eq_of_mem_set hs
  · exact hslots s hs
  · exact hsource

end Grid

/-- Two compiled requests that differ at most in what the cells of their grids do. -/
structure CompiledRequest.SameShape (a b : CompiledRequest) : Prop where
  initial_eq : a.initial = b.initial
  frames_eq : a.frames = b.frames
  grid : a.plan.grid.SameShape b.plan.grid
  depth_eq : a.plan.depth = b.plan.depth
  layout_eq : a.plan.layout = b.plan.layout
  width_eq : a.plan.width = b.plan.width
  height_eq : a.plan.height = b.plan.height

theorem Grid.SameShape.trans {a b c : Grid} (hab : a.SameShape b) (hbc : b.SameShape c) :
    a.SameShape c where
  rows_eq := hab.rows_eq.trans hbc.rows_eq
  cols_eq := hab.cols_eq.trans hbc.cols_eq
  numcolors_eq := hab.numcolors_eq.trans hbc.numcolors_eq
  kind_eq := hab.kind_eq.trans hbc.kind_eq

namespace CompiledRequest.SameShape
variable {a b c : CompiledRequest}

theorem refl (a : CompiledRequest) : a.SameShape a :=
  ⟨rfl, rfl, ⟨rfl, rfl, rfl, rfl⟩, rfl, rfl, rfl, rfl⟩

theorem trans (hab : a.SameShape b) (hbc : b.SameShape c) : a.SameShape c where
  initial_eq := hab.initial_eq.trans hbc.initial_eq
  frames_eq := hab.frames_eq.trans hbc.frames_eq
  grid := hab.grid.trans hbc.grid
  depth_eq := hab.depth_eq.trans hbc.depth_eq
  layout_eq := hab.layout_eq.trans hbc.layout_eq
  width_eq := hab.width_eq.trans hbc.width_eq
  height_eq := hab.height_eq.trans hbc.height_eq

end CompiledRequest.SameShape

namespace Grid
variable {numcolors : ℕ} {lines : List (List (List (List String)))} {g g' : Grid}
  {place : FormulaPlace} {suffix : String} {links : List (Op × Operand)}

/-- A step that appends a ratio to one formula of a grid, and the grid that it leads to. -/
inductive GainsRatio (before : Grid) : DriftStep → Grid → Prop
  | intro {place : FormulaPlace} {suffix : String} {links : List (Op × Operand)} {f : Formula}
      {after : Grid} (hlinks : IsRatio links) (hbefore : before.formulaAt? place = some f)
      (hafter : after.formulaAt? = Function.update before.formulaAt? place
        (some ⟨f.source ++ suffix, ⟨f.chain.head, f.chain.tail ++ links⟩⟩)) :
      GainsRatio before
        (.formula place.row place.col place.color place.channel.index suffix) after

theorem exists_formulaAt?_appendAt (h : compileExpressions numcolors lines = .ok g)
    (h' : compileExpressions numcolors (Functions.appendAt lines place suffix) = .ok g')
    (hplace : (Functions.sourceAt? lines place).isSome)
    (hsuffix : Formula.TailText numcolors suffix.toList links) :
    ∃ f, g.formulaAt? place = some f ∧ g'.formulaAt? = Function.update g.formulaAt? place
      (some ⟨f.source ++ suffix, ⟨f.chain.head, f.chain.tail ++ links⟩⟩) := by
  obtain ⟨source, hsource⟩ := Option.isSome_iff_exists.1 hplace
  have hrel := rel_formulaAt? h place
  rw [hsource] at hrel
  obtain ⟨f, hf, hcompile⟩ := exists_of_rel_some hrel
  refine ⟨f, hf, funext fun other => ?_⟩
  have hrel' := rel_formulaAt? h' other
  -- The other sources are as before, and a source compiles to one formula only.
  by_cases hother : other = place
  · subst hother
    rw [Functions.sourceAt?_appendAt_self, hsource, Option.map_some] at hrel'
    obtain ⟨f', hf', hcompile'⟩ := exists_of_rel_some hrel'
    rw [Formula.compile_append hcompile hsuffix] at hcompile'
    obtain ⟨rfl, -⟩ := Formula.compile_eq_ok_iff_chainText.1 hcompile
    rw [hf', Function.update_self, Except.ok.inj hcompile']
  · rw [Functions.sourceAt?_appendAt_of_ne _ _ _ hother] at hrel'
    rw [Function.update_of_ne hother]
    exact eq_of_rel (fun _ _ _ h h' => Except.ok.inj (h.symm.trans h')) hrel'
      (rel_formulaAt? h other)

end Grid

namespace Request
variable {req : Request} {step : DriftStep} {g : Grid}

/-- The steps that a drift may take: those that name an entry of the request. -/
inductive IsStep (req : Request) : DriftStep → Prop
  | formula {lines : List (List (List (List String)))} {place : FormulaPlace} {n : ℕ} {up : Bool}
      (hfunctions : req.functions = .expressions lines)
      (hplace : (Functions.sourceAt? lines place).isSome) (hn : 2 ≤ n ∧ n ≤ 6) :
      IsStep req (.formula place.row place.col place.color place.channel.index (driftSuffix n up))
  | selection {lines : List (List (List ℕ))} {row col slot source : ℕ}
      (hfunctions : req.functions = .permutations lines)
      (hslot : (Functions.slot? lines row col slot).isSome) (hsource : source < req.colors.length) :
      IsStep req (.selection row col slot source)

theorem Draws.exists_isStep (h : req.compileGrid = .ok g) {outcome : Except Error DriftStep}
    (hdraws : req.Draws outcome) : ∃ step, outcome = .ok step ∧ req.IsStep step := by
  have hfilled := (isCompiled_of_compileGrid h).isFilled
  have hcolors := (color_count_of_compileGrid h).2
  have hdims := dims_of_compileGrid h
  unfold compileGrid Grid.compile at h
  cases hdraws with
  | nothing hnothing =>
    have hrows := hfilled.rows_pos
    have hcols := hfilled.cols_pos
    rw [NothingToDrift, hdims] at hnothing
    omega
  | @formula lines row col color channel n up source hfunctions _ hplace hn hsource =>
    obtain ⟨ch, rfl⟩ := Channel.exists_index_eq hplace.2
    have hentry : (Functions.sourceAt? lines ⟨row, col, color, ch⟩).isSome :=
      Option.isSome_iff_exists.2 ⟨source, hsource⟩
    exact ⟨_, rfl, .formula hfunctions hentry hn⟩
  | @noFormula lines row col color channel hfunctions hcell hplace hsource =>
    obtain ⟨ch, rfl⟩ := Channel.exists_index_eq hplace.2
    rw [hfunctions] at h hdims
    obtain ⟨hrows, hcols⟩ := Prod.mk.inj hdims
    -- Every place that can be drawn has an entry, since the lines make a table.
    have hentry : (Functions.sourceAt? lines ⟨row, col, color, ch⟩).isSome :=
      Grid.isSome_sourceAt? h (hrows ▸ hcell.1) (hcols ▸ hcell.2) hplace.1
    rw [Functions.sourceAt?, hsource] at hentry
    cases hentry
  | @selection lines row col slot source old hfunctions _ _ hsource hold =>
    exact ⟨_, rfl, .selection hfunctions (Option.isSome_iff_exists.2 ⟨old, hold⟩) hsource.1⟩
  | @noSlot lines row col slot hfunctions hcell hslot hold =>
    rw [hfunctions] at h hdims
    obtain ⟨hrows, hcols⟩ := Prod.mk.inj hdims
    have hentry := Grid.isSome_slot? h (hrows ▸ hcell.1) (hcols ▸ hcell.2) hslot
    rw [hold] at hentry
    cases hentry

theorem exists_step (h : req.compileGrid = .ok g) (random : Random) :
    ∃ step, (req.drift random).1 = (.ok step, req.applyStep step) ∧ req.IsStep step := by
  obtain ⟨drifted, hdrift, hdrifts⟩ := takes_drift req random
  rw [hdrift]
  cases hdrifts with
  | kept hdraws =>
    obtain ⟨step, hstep, -⟩ := hdraws.exists_isStep h
    cases hstep
  | changed hdraws =>
    obtain ⟨step, hstep, his⟩ := hdraws.exists_isStep h
    cases hstep
    exact ⟨_, rfl, his⟩

/-- A step leads from a grid to one of the same shape, and adds a ratio to a grid of formulas. -/
theorem exists_compileGrid_applyStep (h : req.compileGrid = .ok g) (hstep : req.IsStep step) :
    ∃ g', (req.applyStep step).compileGrid = .ok g' ∧ g'.SameShape g ∧
      (g.kind = .arithmetic → g.GainsRatio step g') := by
  unfold compileGrid Grid.compile at h
  cases hstep with
  | @formula lines place n up hfunctions hplace hn =>
    rw [hfunctions] at h
    have hg := Grid.compileExpressions_eq_ok.1 h
    obtain ⟨links, hlinks, htail⟩ := Formula.tailText_driftSuffix hn up
    obtain ⟨g', hshape, hg'⟩ := hg.exists_modify
      (fun _ => Grid.exists_cellCompiles_modify htail place.color place.channel.index)
      place.row place.col
    have h' : Grid.compileExpressions req.colors.length
        (Functions.appendAt lines place (driftSuffix n up)) = .ok g' :=
      Grid.compileExpressions_eq_ok.2 hg'
    obtain ⟨f, hf, hafter⟩ := Grid.exists_formulaAt?_appendAt h h' hplace htail
    refine ⟨g', ?_, hshape, fun _ => .intro hlinks hf hafter⟩
    rw [compileGrid, applyStep, hfunctions]
    exact h'
  | @selection lines row col slot source hfunctions hslot hsource =>
    rw [hfunctions] at h
    have hg := Grid.compilePermutations_eq_ok.1 h
    obtain ⟨g', hshape, hg'⟩ := hg.exists_modify
      (fun _ => Grid.exists_selectionCompiles_set hsource slot) row col
    refine ⟨g', ?_, hshape, fun hkind => ?_⟩
    · rw [compileGrid, applyStep, hfunctions]
      exact Grid.compilePermutations_eq_ok.2 hg'
    · rw [hg.kind_eq] at hkind
      cases hkind

variable {opts : RenderOptions} {compiled : CompiledRequest}

theorem exists_compile_applyStep (h : req.compile opts = .ok compiled) (hstep : req.IsStep step) :
    ∃ after, (req.applyStep step).compile opts = .ok after ∧ after.SameShape compiled ∧
      (compiled.plan.grid.kind = .arithmetic →
        compiled.plan.grid.GainsRatio step after.plan.grid) := by
  obtain ⟨hinitial, hgrid, hplan, hframes⟩ := compile_eq_ok.1 h
  obtain ⟨hsize, -, hdepth, hlayout⟩ := Plan.new_eq_ok.1 hplan
  obtain ⟨g', hgrid', hshape, hgains⟩ := exists_compileGrid_applyStep hgrid hstep
  -- The other checks look at the sides of the grid and at what a step leaves alone.
  let plan : Plan := { compiled.plan with grid := g' }
  have hplan' : Plan.new g' req.iterations opts = .ok plan := by
    refine Plan.new_eq_ok.2 ⟨?_, rfl, hdepth, hlayout⟩
    rw [hshape.rows_eq, hshape.cols_eq]
    exact hsize
  refine ⟨{ compiled with plan := plan }, ?_, ⟨rfl, rfl, hshape, rfl, rfl, rfl, rfl⟩, hgains⟩
  exact compile_eq_ok.2 ⟨hinitial, hgrid', hplan', hframes⟩

/-- A request and the generator after a number of drifts, one after the other. -/
def drifted (req : Request) (random : Random) : ℕ → Request × Random
  | 0 => (req, random)
  | count + 1 =>
    let after := (req.drifted random count).1.drift (req.drifted random count).2
    (after.1.2, after.2)

theorem exists_drift (h : req.compile opts = .ok compiled) (random : Random) :
    ∃ step after, (req.drift random).1 = (.ok step, req.applyStep step) ∧
      (req.applyStep step).compile opts = .ok after ∧ after.SameShape compiled ∧
      (compiled.plan.grid.kind = .arithmetic →
        compiled.plan.grid.GainsRatio step after.plan.grid) := by
  obtain ⟨-, hgrid, -⟩ := compile_eq_ok.1 h
  obtain ⟨step, hdrift, hstep⟩ := exists_step hgrid random
  obtain ⟨after, hafter⟩ := exists_compile_applyStep h hstep
  exact ⟨step, after, hdrift, hafter⟩

theorem exists_compile_drifted (h : req.compile opts = .ok compiled) (random : Random)
    (count : ℕ) :
    ∃ before, (req.drifted random count).1.compile opts = .ok before ∧
      before.SameShape compiled := by
  induction count with
  | zero => exact ⟨compiled, h, .refl compiled⟩
  | succ count ih =>
    obtain ⟨before, hbefore, hshape⟩ := ih
    obtain ⟨step, after, hdrift, hafter, hshape', -⟩ :=
      exists_drift hbefore (req.drifted random count).2
    refine ⟨after, ?_, hshape'.trans hshape⟩
    rw [drifted, hdrift]
    exact hafter

/-- Drifts never fail on a request that compiles, however many there have been: each takes a step,
the request compiles before and after it with all but its cells as at the start, and on a grid of
formulas the step adds a ratio to one formula. -/
theorem drifted_compiles (h : req.compile opts = .ok compiled) (random : Random) (count : ℕ) :
    ∃ before step after, (req.drifted random count).1.compile opts = .ok before ∧
      (req.drifted random count).1.drift (req.drifted random count).2 =
        ((.ok step, (req.drifted random (count + 1)).1), (req.drifted random (count + 1)).2) ∧
      (req.drifted random (count + 1)).1.compile opts = .ok after ∧
      before.SameShape compiled ∧ after.SameShape compiled ∧
      (compiled.plan.grid.kind = .arithmetic →
        before.plan.grid.GainsRatio step after.plan.grid) := by
  obtain ⟨before, hbefore, hshape⟩ := exists_compile_drifted h random count
  obtain ⟨step, after, hdrift, hafter, hshape', hgains⟩ :=
    exists_drift hbefore (req.drifted random count).2
  have hnext : (req.drifted random (count + 1)).1 =
      (req.drifted random count).1.applyStep step := by rw [drifted, hdrift]
  refine ⟨before, step, after, hbefore, ?_, by rw [hnext, hafter], hshape, hshape'.trans hshape, ?_⟩
  · rw [hnext, ← hdrift]
    rfl
  · rw [← hshape.grid.kind_eq]
    exact hgains

/-- One color and two cells, to look at. -/
def twoFormulaCells : Request where
  iterations := 2
  colors := [.named 200 80 20]
  functions := .expressions [[[["r0", "g0", "b0"]], [["r0/2", "g0", " b0 + 7"]]]]
  numframes := none

/-- The small request compiled. -/
def twoFormulaCellsCompiled : CompiledRequest where
  initial := ⟨[⟨200, 80, 20⟩]⟩
  frames := 10
  plan :=
    { depth := 2
      layout := .rowsDown
      width := 4
      height := 1
      grid :=
        { rows := 1
          cols := 2
          numcolors := 1
          kind := .arithmetic
          cells := #[
            .arithmetic [⟨⟨"r0", .component .red 0, []⟩, ⟨"g0", .component .green 0, []⟩,
              ⟨"b0", .component .blue 0, []⟩⟩],
            .arithmetic [⟨⟨"r0/2", .component .red 0, [(.div, .literal 2)]⟩,
              ⟨"g0", .component .green 0, []⟩,
              ⟨" b0 + 7", .component .blue 0, [(.add, .literal 7)]⟩⟩]] } }

theorem compile_twoFormulaCells : twoFormulaCells.compile {} = .ok twoFormulaCellsCompiled := by
  decide +kernel

theorem drifted_compiles_two_formula_cells :
    twoFormulaCells.compile {} = .ok twoFormulaCellsCompiled ∧
      twoFormulaCellsCompiled.plan.grid.kind = .arithmetic ∧
      ∃ before step after, (twoFormulaCells.drifted (.ofSeed 7) 3).1.compile {} = .ok before ∧
        (twoFormulaCells.drifted (.ofSeed 7) 3).1.drift (twoFormulaCells.drifted (.ofSeed 7) 3).2 =
          ((.ok step, (twoFormulaCells.drifted (.ofSeed 7) 4).1),
            (twoFormulaCells.drifted (.ofSeed 7) 4).2) ∧
        (twoFormulaCells.drifted (.ofSeed 7) 4).1.compile {} = .ok after ∧
        before.plan.grid.GainsRatio step after.plan.grid := by
  obtain ⟨before, step, after, hbefore, hdrift, hafter, -, -, hgains⟩ :=
    drifted_compiles compile_twoFormulaCells (.ofSeed 7) 3
  exact ⟨compile_twoFormulaCells, rfl, before, step, after, hbefore, hdrift, hafter, hgains rfl⟩

end Request

end Quilt
