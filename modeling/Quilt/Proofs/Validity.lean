import Mathlib
import Quilt.Proofs.Grammar
import Quilt.Proofs.Request

namespace Quilt

namespace ColorSpec
variable {spec : ColorSpec} {index : ℕ} {e : Error}

/-- Three channels, and a finite number in each. -/
def IsValid (spec : ColorSpec) : Prop :=
  spec.channels.length = 3 ∧ ∀ x ∈ spec.channels, Binary64.isFinite x

/-- What an initial color that is not valid is refused for. Its channels are counted first. -/
def fault (index : ℕ) (spec : ColorSpec) : Error :=
  if spec.channels.length = 3 then .colorNotFinite index
  else .colorChannels index spec.channels.length

theorem toColor_cases (index : ℕ) (spec : ColorSpec) :
    (spec.IsValid ∧ ∃ c, spec.toColor index = .ok c) ∨
      (¬spec.IsValid ∧ spec.toColor index = .error (spec.fault index)) := by
  unfold IsValid fault toColor
  split
  · next red green blue heq =>
    simp only [heq, List.length_cons, List.length_nil, List.forall_mem_cons, List.not_mem_nil,
      false_implies, implies_true, true_and, and_true, if_true]
    split_ifs with hfinite
    · rw [Bool.and_eq_true, Bool.and_eq_true, and_assoc] at hfinite
      exact .inl ⟨hfinite, _, rfl⟩
    · rw [Bool.and_eq_true, Bool.and_eq_true, and_assoc] at hfinite
      exact .inr ⟨hfinite, rfl⟩
  · next hchannels =>
    have hlength : spec.channels.length ≠ 3 := by
      intro h
      obtain ⟨red, green, blue, heq⟩ := List.length_eq_three.1 h
      exact hchannels red green blue heq
    rw [if_neg hlength]
    exact .inr ⟨fun h => hlength h.1, rfl⟩

theorem exists_toColor_iff : (∃ c, spec.toColor index = .ok c) ↔ spec.IsValid := by
  obtain ⟨hvalid, hok⟩ | ⟨hinvalid, herror⟩ := toColor_cases index spec
  · exact iff_of_true hok hvalid
  · refine iff_of_false ?_ hinvalid
    rintro ⟨c, hok⟩
    cases hok.symm.trans herror

theorem toColor_eq_error :
    spec.toColor index = .error e ↔ ¬spec.IsValid ∧ e = spec.fault index := by
  obtain ⟨hvalid, c, hok⟩ | ⟨hinvalid, herror⟩ := toColor_cases index spec
  · rw [hok]
    simp [hvalid]
  · rw [herror, Except.error.injEq, eq_comm]
    simp [hinvalid]

end ColorSpec

/-- A table of `rows` by `cols` items, with at least one item. -/
structure IsTable {α : Type} (rows cols : ℕ) (lines : List (List α)) : Prop where
  length_eq : lines.length = rows
  rows_pos : 1 ≤ rows
  cols_pos : 1 ≤ cols
  width_eq : ∀ line ∈ lines, line.length = cols

/-- Three formulas for each color, each of them a text of the grammar. -/
def IsFormulaCell (numcolors : ℕ) (colors : List (List String)) : Prop :=
  colors.length = numcolors ∧ ∀ sources ∈ colors, sources.length = 3 ∧
    ∀ source ∈ sources, ∃ c, Formula.ChainText numcolors source.toList c

/-- A slot for each color, each of them the slot of a color. -/
def IsSelectionCell (numcolors : ℕ) (slots : List ℕ) : Prop :=
  slots.length = numcolors ∧ ∀ slot ∈ slots, slot < numcolors

/-- Functions that describe a grid of `rows` by `cols` cells for a number of colors. -/
inductive Functions.IsGrid (numcolors rows cols : ℕ) : Functions → Prop
  | expressions {lines : List (List (List (List String)))} (htable : IsTable rows cols lines)
      (hcells : ∀ line ∈ lines, ∀ cell ∈ line, IsFormulaCell numcolors cell) :
      IsGrid numcolors rows cols (.expressions lines)
  | permutations {lines : List (List (List ℕ))} (htable : IsTable rows cols lines)
      (hcells : ∀ line ∈ lines, ∀ cell ∈ line, IsSelectionCell numcolors cell) :
      IsGrid numcolors rows cols (.permutations lines)

namespace Grid
variable {numcolors rows cols : ℕ}

theorem rectangle_eq_ok_iff_isTable {α : Type} {lines : List (List α)} :
    rectangle lines = .ok (rows, cols) ↔ IsTable rows cols lines := by
  rw [rectangle_eq_ok]
  constructor
  · rintro ⟨hlength, hrows, hcols, hwidth⟩
    exact ⟨hlength, hrows, hcols, hwidth⟩
  · rintro ⟨hlength, hrows, hcols, hwidth⟩
    exact ⟨hlength, hrows, hcols, hwidth⟩

theorem exists_formula_iff {source : String} :
    (∃ f, Formula.compile numcolors source = .ok f) ↔
      ∃ c, Formula.ChainText numcolors source.toList c := by
  constructor
  · rintro ⟨f, hf⟩
    exact ⟨f.chain, (Formula.compile_eq_ok_iff_chainText.1 hf).2⟩
  · rintro ⟨c, hc⟩
    exact ⟨⟨source, c⟩, Formula.compile_eq_ok_iff_chainText.2 ⟨rfl, hc⟩⟩

theorem exists_cellCompiles_iff_isFormulaCell {colors : List (List String)} :
    (∃ cell, CellCompiles numcolors colors cell) ↔ IsFormulaCell numcolors colors := by
  simp only [exists_cellCompiles_iff, exists_colorCompiles_iff, exists_formula_iff, IsFormulaCell]

theorem exists_selectionCompiles_iff {slots : List ℕ} :
    (∃ cell, SelectionCompiles numcolors slots cell) ↔ IsSelectionCell numcolors slots := by
  constructor
  · rintro ⟨_, hlength, hslots, -⟩
    exact ⟨hlength, hslots⟩
  · rintro ⟨hlength, hslots⟩
    exact ⟨_, hlength, hslots, rfl⟩

theorem exists_compilesFrom_iff {α : Type} {R : α → Cell → Prop} {kind : GridKind}
    {lines : List (List α)} :
    (∃ g : Grid, g.CompilesFrom R kind numcolors lines ∧ g.rows = rows ∧ g.cols = cols) ↔
      (1 ≤ numcolors ∧ numcolors ≤ maxColors) ∧ IsTable rows cols lines ∧
        ∀ line ∈ lines, ∀ item ∈ line, ∃ cell, R item cell := by
  constructor
  · rintro ⟨g, hg, rfl, rfl⟩
    exact ⟨hg.color_count, rectangle_eq_ok_iff_isTable.1 hg.rectangle_eq, hg.exists_cell⟩
  · rintro ⟨hcount, htable, hitems⟩
    obtain ⟨g, hrows, hcols, hg⟩ :=
      exists_compilesFrom hcount (rectangle_eq_ok_iff_isTable.2 htable) hitems
    exact ⟨g, hg, hrows, hcols⟩

theorem exists_compile_iff {functions : Functions} :
    (∃ g, compile numcolors functions = .ok g ∧ g.rows = rows ∧ g.cols = cols) ↔
      (1 ≤ numcolors ∧ numcolors ≤ maxColors) ∧ functions.IsGrid numcolors rows cols := by
  cases functions with
  | expressions lines =>
    simp only [compile, compileExpressions_eq_ok, exists_compilesFrom_iff,
      exists_cellCompiles_iff_isFormulaCell]
    refine and_congr_right' ⟨fun h => .expressions h.1 h.2, ?_⟩
    rintro (⟨htable, hcells⟩ | _)
    exact ⟨htable, hcells⟩
  | permutations lines =>
    simp only [compile, compilePermutations_eq_ok, exists_compilesFrom_iff,
      exists_selectionCompiles_iff]
    refine and_congr_right' ⟨fun h => .permutations h.1 h.2, ?_⟩
    rintro (_ | ⟨htable, hcells⟩)
    exact ⟨htable, hcells⟩

end Grid

namespace Request
variable {req : Request} {opts : RenderOptions} {e : Error}

/-- As many colors as a state may hold. -/
def HasColorCount (req : Request) : Prop :=
  1 ≤ req.colors.length ∧ req.colors.length ≤ maxColors

/-- The requests that may be rendered, and the sides of their grids. -/
structure IsValid (req : Request) (opts : RenderOptions) (rows cols : ℕ) : Prop where
  color_count : req.HasColorCount
  colors : ∀ spec ∈ req.colors, spec.IsValid
  grid : req.functions.IsGrid req.colors.length rows cols
  depth_le : req.iterations ≤ opts.maxIterations
  area_le : rows ^ req.iterations * cols ^ req.iterations ≤ opts.maxPixels
  rows_lt : rows ^ req.iterations < 2 ^ 32
  cols_lt : cols ^ req.iterations < 2 ^ 32

/-- The error of the first stage that a request fails: it passes all the stages before. -/
inductive FirstFault (req : Request) (opts : RenderOptions) : Error → Prop
  | noColors (h : req.colors.length = 0) : FirstFault req opts .requestNoColors
  | tooManyColors (h : maxColors < req.colors.length) :
      FirstFault req opts (.tooManyColors req.colors.length)
  | color (hcount : req.HasColorCount) {index : ℕ} {spec : ColorSpec}
      (hspec : req.colors[index]? = some spec) (h : ¬spec.IsValid)
      (hbefore : ∀ i < index, ∀ other, req.colors[i]? = some other → other.IsValid) :
      FirstFault req opts (spec.fault index)
  | grid (hcount : req.HasColorCount) (hcolors : ∀ spec ∈ req.colors, spec.IsValid)
      (h : ∀ rows cols, ¬req.functions.IsGrid req.colors.length rows cols) {e : Error}
      (he : req.compileGrid = .error e) : FirstFault req opts e
  | depth (hcount : req.HasColorCount) (hcolors : ∀ spec ∈ req.colors, spec.IsValid)
      {rows cols : ℕ} (hgrid : req.functions.IsGrid req.colors.length rows cols)
      (h : opts.maxIterations < req.iterations) :
      FirstFault req opts (.tooDeep req.iterations opts.maxIterations)
  | pixels (hcount : req.HasColorCount) (hcolors : ∀ spec ∈ req.colors, spec.IsValid)
      {rows cols : ℕ} (hgrid : req.functions.IsGrid req.colors.length rows cols)
      (hdepth : req.iterations ≤ opts.maxIterations)
      (h : ¬(rows ^ req.iterations * cols ^ req.iterations ≤ opts.maxPixels ∧
        rows ^ req.iterations < 2 ^ 32 ∧ cols ^ req.iterations < 2 ^ 32)) :
      FirstFault req opts (.tooManyPixels rows cols req.iterations opts.maxPixels)

theorem initialState_of_hasColorCount (hcount : req.HasColorCount) :
    req.initialState =
      (req.colors.zipIdx.mapM fun p => p.1.toColor p.2) >>= ColorState.ofColors := by
  have hempty : ¬req.colors.isEmpty := by
    rw [List.isEmpty_iff_length_eq_zero]
    exact Nat.ne_of_gt hcount.1
  rw [initialState, if_neg hempty, if_neg (not_lt.2 hcount.2)]

theorem ofColors_of_mapM (hcount : req.HasColorCount) {colors : List Color}
    (h : (req.colors.zipIdx.mapM fun p => p.1.toColor p.2) = .ok colors) :
    ColorState.ofColors colors = .ok ⟨colors⟩ := by
  have hlength : req.colors.length = colors.length := by
    rw [← (mapM_eq_ok.1 h).length_eq, List.length_zipIdx]
  refine ColorState.ofColors_eq_ok_iff.2 ⟨rfl, ?_⟩
  rw [ColorState.Legal, ColorState.size, ← hlength]
  exact hcount

theorem initialState_cases (req : Request) :
    (req.colors.length = 0 ∧ req.initialState = .error .requestNoColors) ∨
      (maxColors < req.colors.length ∧
        req.initialState = .error (.tooManyColors req.colors.length)) ∨ req.HasColorCount := by
  by_cases hzero : req.colors.length = 0
  · refine .inl ⟨hzero, ?_⟩
    rw [initialState, if_pos (List.isEmpty_iff_length_eq_zero.2 hzero)]
  · by_cases hmany : maxColors < req.colors.length
    · refine .inr (.inl ⟨hmany, ?_⟩)
      have hempty : ¬req.colors.isEmpty := by rwa [List.isEmpty_iff_length_eq_zero]
      rw [initialState, if_neg hempty, if_pos hmany]
    · exact .inr (.inr ⟨Nat.pos_of_ne_zero hzero, not_lt.1 hmany⟩)

theorem exists_initialState_iff : (∃ initial, req.initialState = .ok initial) ↔
    req.HasColorCount ∧ ∀ spec ∈ req.colors, spec.IsValid := by
  obtain ⟨hzero, herror⟩ | ⟨hmany, herror⟩ | hcount := initialState_cases req
  · simp [herror, HasColorCount, hzero]
  · simp [herror, HasColorCount, hmany]
  · have hcolors := exists_mapM_zipIdx_iff (l := req.colors) (P := ColorSpec.IsValid)
      (f := fun spec index => ColorSpec.toColor index spec) fun _ _ => ColorSpec.exists_toColor_iff
    rw [initialState_of_hasColorCount hcount, and_iff_right hcount, ← hcolors]
    constructor
    · rintro ⟨initial, h⟩
      obtain ⟨colors, hread, -⟩ := bind_eq_ok.1 h
      exact ⟨colors, hread⟩
    · rintro ⟨colors, hread⟩
      exact ⟨_, bind_eq_ok.2 ⟨colors, hread, ofColors_of_mapM hcount hread⟩⟩

theorem initialState_eq_error (hcount : req.HasColorCount) : req.initialState = .error e ↔
    ∃ (index : ℕ) (spec : ColorSpec), req.colors[index]? = some spec ∧ ¬spec.IsValid ∧
      (∀ i < index, ∀ other, req.colors[i]? = some other → other.IsValid) ∧
        e = spec.fault index := by
  have hcolors : (req.colors.zipIdx.mapM fun p => p.1.toColor p.2) = .error e ↔ _ :=
    mapM_zipIdx_eq_error (f := fun spec index => ColorSpec.toColor index spec)
  rw [initialState_of_hasColorCount hcount, bind_eq_error, hcolors]
  constructor
  · rintro (⟨index, spec, hspec, hfault, hbefore⟩ | ⟨colors, hread, herror⟩)
    · obtain ⟨hinvalid, rfl⟩ := ColorSpec.toColor_eq_error.1 hfault
      exact ⟨index, spec, hspec, hinvalid,
        fun i hi other hother => ColorSpec.exists_toColor_iff.1 (hbefore i hi other hother), rfl⟩
    · cases (ofColors_of_mapM hcount hread).symm.trans herror
  · rintro ⟨index, spec, hspec, hinvalid, hbefore, rfl⟩
    exact .inl ⟨index, spec, hspec, ColorSpec.toColor_eq_error.2 ⟨hinvalid, rfl⟩,
      fun i hi other hother => ColorSpec.exists_toColor_iff.2 (hbefore i hi other hother)⟩

theorem compileGrid_cases (hcount : req.HasColorCount) :
    (∃ g, req.compileGrid = .ok g ∧ req.functions.IsGrid req.colors.length g.rows g.cols) ∨
      ((∀ rows cols, ¬req.functions.IsGrid req.colors.length rows cols) ∧
        ∃ e, req.compileGrid = .error e) := by
  cases hgrid : req.compileGrid with
  | ok g => exact .inl ⟨g, rfl, (Grid.exists_compile_iff.1 ⟨g, hgrid, rfl, rfl⟩).2⟩
  | error e =>
    refine .inr ⟨fun rows cols h => ?_, e, rfl⟩
    obtain ⟨g, hg, -⟩ := Grid.exists_compile_iff.2 ⟨hcount, h⟩
    cases hgrid.symm.trans hg

theorem compile_eq_error : req.compile opts = .error e ↔
    req.initialState = .error e ∨ (∃ initial, req.initialState = .ok initial) ∧
      (req.compileGrid = .error e ∨ ∃ g, req.compileGrid = .ok g ∧
        rasterSize g.rows g.cols req.iterations opts = .error e) := by
  simp only [compile, Plan.new, bind_eq_error, pure, Except.pure, reduceCtorEq, and_false,
    exists_false, or_false, exists_and_right]

theorem exists_compile_iff :
    (∃ compiled, req.compile opts = .ok compiled) ↔ ∃ rows cols, req.IsValid opts rows cols := by
  constructor
  · rintro ⟨compiled, h⟩
    obtain ⟨hinitial, hgrid, hplan, -⟩ := compile_eq_ok.1 h
    obtain ⟨hcount, hcolors⟩ := exists_initialState_iff.1 ⟨_, hinitial⟩
    have hisGrid := (Grid.exists_compile_iff.1 ⟨_, hgrid, rfl, rfl⟩).2
    obtain ⟨hdepth, harea, hrows, hcols, -⟩ := rasterSize_eq_ok.1 (Plan.new_eq_ok.1 hplan).1
    exact ⟨_, _, hcount, hcolors, hisGrid, hdepth, harea, hrows, hcols⟩
  · rintro ⟨rows, cols, h⟩
    obtain ⟨initial, hinitial⟩ := exists_initialState_iff.2 ⟨h.color_count, h.colors⟩
    obtain ⟨g, hgrid, rfl, rfl⟩ := Grid.exists_compile_iff.2 ⟨h.color_count, h.grid⟩
    let size := opts.layout.place (g.rows ^ req.iterations) (g.cols ^ req.iterations)
    let plan : Plan := ⟨g, req.iterations, opts.layout, size.1, size.2⟩
    have hsize : rasterSize g.rows g.cols req.iterations opts = .ok (plan.width, plan.height) :=
      rasterSize_eq_ok.2 ⟨h.depth_le, h.area_le, h.rows_lt, h.cols_lt, rfl⟩
    have hplan : Plan.new g req.iterations opts = .ok plan :=
      Plan.new_eq_ok.2 ⟨hsize, rfl, rfl, rfl⟩
    exact ⟨⟨plan, initial, req.frames⟩, compile_eq_ok.2 ⟨hinitial, hgrid, hplan, rfl⟩⟩

theorem firstFault_of_compile (h : req.compile opts = .error e) : req.FirstFault opts e := by
  obtain hinitial | ⟨hinitial, hrest⟩ := compile_eq_error.1 h
  · obtain ⟨hzero, herror⟩ | ⟨hmany, herror⟩ | hcount := initialState_cases req
    · obtain rfl := Except.error.inj (herror.symm.trans hinitial)
      exact .noColors hzero
    · obtain rfl := Except.error.inj (herror.symm.trans hinitial)
      exact .tooManyColors hmany
    · obtain ⟨index, spec, hspec, hinvalid, hbefore, rfl⟩ :=
        (initialState_eq_error hcount).1 hinitial
      exact .color hcount hspec hinvalid hbefore
  · obtain ⟨hcount, hcolors⟩ := exists_initialState_iff.1 hinitial
    obtain ⟨g, hg, hgrid⟩ | ⟨hno, e', hfaulty⟩ := compileGrid_cases hcount
    · obtain hfaulty | ⟨g', hg', hsize⟩ := hrest
      · cases hg.symm.trans hfaulty
      · obtain rfl := Except.ok.inj (hg.symm.trans hg')
        obtain ⟨hdeep, rfl⟩ | ⟨hdepth, hbig, rfl⟩ := rasterSize_eq_error.1 hsize
        · exact .depth hcount hcolors hgrid hdeep
        · exact .pixels hcount hcolors hgrid hdepth hbig
    · obtain hfaulty' | ⟨g, hg, -⟩ := hrest
      · exact .grid hcount hcolors hno hfaulty'
      · cases hg.symm.trans hfaulty

theorem compile_of_firstFault (h : req.FirstFault opts e) : req.compile opts = .error e := by
  refine compile_eq_error.2 ?_
  cases h with
  | noColors hzero =>
    obtain ⟨-, herror⟩ | ⟨hmany, -⟩ | hcount := initialState_cases req
    · exact .inl herror
    · omega
    · exact absurd hzero (Nat.ne_of_gt hcount.1)
  | tooManyColors hmany =>
    obtain ⟨hzero, -⟩ | ⟨-, herror⟩ | hcount := initialState_cases req
    · omega
    · exact .inl herror
    · exact absurd hcount.2 (not_le.2 hmany)
  | color hcount hspec hinvalid hbefore =>
    exact .inl ((initialState_eq_error hcount).2 ⟨_, _, hspec, hinvalid, hbefore, rfl⟩)
  | grid hcount hcolors hno he =>
    exact .inr ⟨exists_initialState_iff.2 ⟨hcount, hcolors⟩, .inl he⟩
  | depth hcount hcolors hgrid hdeep =>
    obtain ⟨g, hg, rfl, rfl⟩ := Grid.exists_compile_iff.2 ⟨hcount, hgrid⟩
    exact .inr ⟨exists_initialState_iff.2 ⟨hcount, hcolors⟩,
      .inr ⟨g, hg, rasterSize_eq_error.2 (.inl ⟨hdeep, rfl⟩)⟩⟩
  | pixels hcount hcolors hgrid hdepth hbig =>
    obtain ⟨g, hg, rfl, rfl⟩ := Grid.exists_compile_iff.2 ⟨hcount, hgrid⟩
    exact .inr ⟨exists_initialState_iff.2 ⟨hcount, hcolors⟩,
      .inr ⟨g, hg, rasterSize_eq_error.2 (.inr ⟨hdepth, hbig, rfl⟩)⟩⟩

/-- A request compiles exactly when it is valid, and the error of another is that of the first stage
that it fails. -/
theorem compile_outcomes (req : Request) (opts : RenderOptions) :
    ((∃ compiled, req.compile opts = .ok compiled) ↔ ∃ rows cols, req.IsValid opts rows cols) ∧
      ∀ e, req.compile opts = .error e ↔ req.FirstFault opts e :=
  ⟨exists_compile_iff, fun _ => ⟨firstFault_of_compile, compile_of_firstFault⟩⟩

end Request

end Quilt
