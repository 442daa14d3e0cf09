import Mathlib
import Quilt.Proofs.Plan

namespace Quilt

/-- The number as a word of 32 bits, if it is one. -/
def exactWord? (n : ℕ) : Option UInt32 := if n < UInt32.size then some (.ofNat n) else none

def exactAdd? (a b : UInt32) : Option UInt32 := exactWord? (a.toNat + b.toNat)

def exactMul? (a b : UInt32) : Option UInt32 := exactWord? (a.toNat * b.toNat)

theorem exactWord?_of_lt {n : ℕ} (h : n < UInt32.size) : exactWord? n = some (.ofNat n) := if_pos h

theorem exactAdd?_of_toNat_add {a b : UInt32} (h : (a + b).toNat = a.toNat + b.toNat) :
    exactAdd? a b = some (a + b) := by
  have hlt : a.toNat + b.toNat < UInt32.size := h ▸ (a + b).toNat_lt
  rw [exactAdd?, exactWord?_of_lt hlt, ← h, UInt32.ofNat_toNat]

theorem exactMul?_of_toNat_mul {a b : UInt32} (h : (a * b).toNat = a.toNat * b.toNat) :
    exactMul? a b = some (a * b) := by
  have hlt : a.toNat * b.toNat < UInt32.size := h ▸ (a * b).toNat_lt
  rw [exactMul?, exactWord?_of_lt hlt, ← h, UInt32.ofNat_toNat]

namespace Grid
variable {g : Grid} {layout : Layout} {depth level row col : ℕ} {x y : UInt32}

theorem toNat_stride (h : g.Fits depth) :
    (g.stride depth).alongRows.toNat = g.rows ^ depth ∧
      (g.stride depth).alongCols.toNat = g.cols ^ depth :=
  ⟨UInt32.toNat_ofNat_of_lt' h.alongRows_lt, UInt32.toNat_ofNat_of_lt' h.alongCols_lt⟩

theorem Fits.of_le (h : g.Fits depth) (hle : level ≤ depth) : g.Fits level where
  toIsFilled := h.toIsFilled
  alongRows_lt := (Nat.pow_le_pow_right h.rows_pos hle).trans_lt h.alongRows_lt
  alongCols_lt := (Nat.pow_le_pow_right h.cols_pos hle).trans_lt h.alongCols_lt

theorem mem_strides (h : g.Fits depth) {stride : Stride} :
    stride ∈ g.strides depth ↔ ∃ level < depth, g.stride level = stride := by
  induction depth with
  | zero => simp [strides]
  | succ depth ih =>
    rw [strides_succ h.of_succ, List.mem_cons, ih h.of_succ]
    constructor
    · rintro (rfl | ⟨level, hlt, rfl⟩)
      · exact ⟨depth, depth.lt_succ_self, rfl⟩
      · exact ⟨level, hlt.trans depth.lt_succ_self, rfl⟩
    · rintro ⟨level, hlt, rfl⟩
      obtain rfl | hlt := Nat.eq_or_lt_of_le (Nat.le_of_lt_succ hlt)
      · exact .inl rfl
      · exact .inr ⟨level, hlt, rfl⟩

theorem toNat_strides (h : g.Fits depth) :
    (g.strides depth).reverse.map (fun s => (s.alongRows.toNat, s.alongCols.toNat)) =
      (List.range depth).map fun k => (g.rows ^ k, g.cols ^ k) := by
  induction depth with
  | zero => rfl
  | succ depth ih =>
    obtain ⟨hrows, hcols⟩ := toNat_stride h.of_succ
    rw [strides_succ h.of_succ, List.reverse_cons, List.map_append, ih h.of_succ, List.range_succ,
      List.map_append, List.map_singleton, List.map_singleton, hrows, hcols]

/-- A row and a column that are words, as are their products with a stride. -/
structure ExactOffset (stride : Stride) (row col : ℕ) : Prop where
  row_eq : (UInt32.ofNat row).toNat = row
  col_eq : (UInt32.ofNat col).toNat = col
  alongRows_eq : (.ofNat row * stride.alongRows).toNat = row * stride.alongRows.toNat
  alongCols_eq : (.ofNat col * stride.alongCols).toNat = col * stride.alongCols.toNat

theorem exact_mul {base digit : ℕ} (hdigit : digit < base)
    (h : base ^ (level + 1) < UInt32.size) :
    (UInt32.ofNat digit).toNat = digit ∧ (UInt32.ofNat digit * .ofNat (base ^ level)).toNat =
      digit * (UInt32.ofNat (base ^ level)).toNat := by
  have hpos : 0 < base := Nat.zero_lt_of_lt hdigit
  have hpow : base ^ level < UInt32.size := (Nat.pow_le_pow_right hpos level.le_succ).trans_lt h
  have hword : digit < UInt32.size :=
    hdigit.trans ((Nat.le_self_pow level.succ_ne_zero base).trans_lt h)
  have hproduct : digit * base ^ level < UInt32.size := by
    rw [pow_succ'] at h
    exact (Nat.mul_le_mul_right _ hdigit.le).trans_lt h
  rw [← UInt32.ofNat_mul, UInt32.toNat_ofNat_of_lt' hword, UInt32.toNat_ofNat_of_lt' hpow,
    UInt32.toNat_ofNat_of_lt' hproduct]
  exact ⟨rfl, rfl⟩

theorem exactOffset (h : g.Fits (level + 1)) (hrow : row < g.rows) (hcol : col < g.cols) :
    ExactOffset (g.stride level) row col where
  row_eq := (exact_mul hrow h.alongRows_lt).1
  col_eq := (exact_mul hcol h.alongCols_lt).1
  alongRows_eq := (exact_mul hrow h.alongRows_lt).2
  alongCols_eq := (exact_mul hcol h.alongCols_lt).2

theorem toNat_strideAbove (h : g.Fits (level + 1)) :
    (g.strideAbove (g.stride level)).alongRows.toNat = (g.stride level).alongRows.toNat * g.rows ∧
      (g.strideAbove (g.stride level)).alongCols.toNat =
        (g.stride level).alongCols.toNat * g.cols := by
  obtain ⟨hrows, hcols⟩ := toNat_stride h
  obtain ⟨hrows', hcols'⟩ := toNat_stride h.of_succ
  rw [strideAbove_stride h, hrows, hcols, hrows', hcols', pow_succ, pow_succ]
  exact ⟨rfl, rfl⟩

/-- The width and height of a block with some levels below it. -/
def sides (g : Grid) (layout : Layout) (level : ℕ) : ℕ × ℕ :=
  layout.place (g.rows ^ level) (g.cols ^ level)

/-- The blocks that a walk enters: the strides below the block, and its corner. -/
inductive Enters (g : Grid) (layout : Layout) (depth : ℕ) : List Stride → UInt32 → UInt32 → Prop
  | whole : Enters g layout depth (g.strides depth) 0 0
  | child {stride : Stride} {below : List Stride} {x y : UInt32} {e : Entry}
      (h : Enters g layout depth (stride :: below) x y) (he : e ∈ g.entries) :
      Enters g layout depth below (x + (childOffset layout stride e.row e.col).1)
        (y + (childOffset layout stride e.row e.col).2)

/-- A step from the corner of a block to the corner of a child that stands wholly in the block. -/
structure StaysInside (g : Grid) (layout : Layout) (level : ℕ) (x y dx dy : UInt32) : Prop where
  x_eq : (x + dx).toNat = x.toNat + dx.toNat
  y_eq : (y + dy).toNat = y.toNat + dy.toNat
  right_le : x.toNat + dx.toNat + (g.sides layout level).1 ≤
    x.toNat + (g.sides layout (level + 1)).1
  bottom_le : y.toNat + dy.toNat + (g.sides layout level).2 ≤
    y.toNat + (g.sides layout (level + 1)).2

/-- The corner of a block that stands wholly in the raster. -/
structure IsCorner (g : Grid) (layout : Layout) (depth level : ℕ) (x y : UInt32) : Prop where
  level_le : level ≤ depth
  right_le : x.toNat + (g.sides layout level).1 ≤ (g.sides layout depth).1
  bottom_le : y.toNat + (g.sides layout level).2 ≤ (g.sides layout depth).2

theorem sides_lt (h : g.Fits depth) (layout : Layout) :
    (g.sides layout depth).1 < UInt32.size ∧ (g.sides layout depth).2 < UInt32.size := by
  cases layout
  · exact ⟨h.alongCols_lt, h.alongRows_lt⟩
  · exact ⟨h.alongRows_lt, h.alongCols_lt⟩

theorem mul_pow_add_le {base digit : ℕ} (hdigit : digit < base) (level : ℕ) :
    digit * base ^ level + base ^ level ≤ base ^ (level + 1) := by
  rw [← Nat.succ_mul, pow_succ']
  exact Nat.mul_le_mul_right _ hdigit

theorem childOffset_add_sides_le (h : g.Fits (level + 1)) (hrow : row < g.rows)
    (hcol : col < g.cols) (layout : Layout) :
    (childOffset layout (g.stride level) row col).1.toNat + (g.sides layout level).1 ≤
        (g.sides layout (level + 1)).1 ∧
      (childOffset layout (g.stride level) row col).2.toNat + (g.sides layout level).2 ≤
        (g.sides layout (level + 1)).2 := by
  have hoffset := exactOffset h hrow hcol
  obtain ⟨hrows, hcols⟩ := toNat_stride h.of_succ
  have halongRows := mul_pow_add_le hrow level
  have halongCols := mul_pow_add_le hcol level
  rw [← hrows, ← hoffset.alongRows_eq] at halongRows
  rw [← hcols, ← hoffset.alongCols_eq] at halongCols
  rw [sides, sides, ← hrows, ← hcols]
  cases layout
  · exact ⟨halongCols, halongRows⟩
  · exact ⟨halongRows, halongCols⟩

theorem toNat_add_of_lt {a b : UInt32} (h : a.toNat + b.toNat < UInt32.size) :
    (a + b).toNat = a.toNat + b.toNat := by
  rw [UInt32.toNat_add, Nat.mod_eq_of_lt h]

theorem IsCorner.child (h : g.IsCorner layout depth (level + 1) x y) (hfits : g.Fits depth)
    (hrow : row < g.rows) (hcol : col < g.cols) :
    g.StaysInside layout level x y (childOffset layout (g.stride level) row col).1
        (childOffset layout (g.stride level) row col).2 ∧
      g.IsCorner layout depth level (x + (childOffset layout (g.stride level) row col).1)
        (y + (childOffset layout (g.stride level) row col).2) := by
  obtain ⟨hle, hright, hbottom⟩ := h
  obtain ⟨hdx, hdy⟩ := childOffset_add_sides_le (hfits.of_le hle) hrow hcol layout
  obtain ⟨hwidth, hheight⟩ := sides_lt hfits layout
  generalize childOffset layout (g.stride level) row col = offset at hdx hdy ⊢
  have hx : (x + offset.1).toNat = x.toNat + offset.1.toNat := toNat_add_of_lt (by omega)
  have hy : (y + offset.2).toNat = y.toNat + offset.2.toNat := toNat_add_of_lt (by omega)
  exact ⟨⟨hx, hy, by omega, by omega⟩, ⟨by omega, by omega, by omega⟩⟩

theorem isCorner_whole (g : Grid) (layout : Layout) (depth : ℕ) :
    g.IsCorner layout depth depth 0 0 := by
  refine ⟨le_rfl, ?_, ?_⟩ <;> simp

theorem bounds_of_mem_entries (hg : g.IsFilled) {e : Entry} (he : e ∈ g.entries) :
    e.row < g.rows ∧ e.col < g.cols := by
  have hmem := List.mem_map_of_mem (f := fun e : Entry => (e.row, e.col)) he
  rw [map_place_entries hg] at hmem
  exact mem_places.1 hmem

theorem Enters.isCorner {strides : List Stride} (h : g.Enters layout depth strides x y)
    (hfits : g.Fits depth) :
    strides = g.strides strides.length ∧ g.IsCorner layout depth strides.length x y := by
  induction h with
  | whole =>
    rw [length_strides]
    exact ⟨rfl, isCorner_whole g layout depth⟩
  | @child stride below x y e _ he ih =>
    obtain ⟨hstrides, hcorner⟩ := ih
    rw [List.length_cons] at hstrides hcorner
    rw [strides_succ (hfits.of_le hcorner.level_le).of_succ, List.cons.injEq] at hstrides
    obtain ⟨rfl, hbelow⟩ := hstrides
    obtain ⟨hrow, hcol⟩ := bounds_of_mem_entries hfits.toIsFilled he
    exact ⟨hbelow, (hcorner.child hfits hrow hcol).2⟩

/-- The offset of a child, if all of its words are exact. -/
def exactOffset? (layout : Layout) (stride : Stride) (row col : ℕ) : Option (UInt32 × UInt32) := do
  let alongRows ← exactMul? (← exactWord? row) stride.alongRows
  let alongCols ← exactMul? (← exactWord? col) stride.alongCols
  return layout.place alongRows alongCols

/-- The walk that fails where a word is too small. -/
def exactWalk? {β : Type} (layout : Layout) (entries : List Entry) (visit : β → LeafCall → β) :
    List Stride → UInt32 → UInt32 → ColorState → β → Option β
  | [], x, y, s, acc => some (visit acc ⟨x, y, s⟩)
  | stride :: below, x, y, s, acc =>
    entries.foldlM (fun acc e => do
      let (dx, dy) ← exactOffset? layout stride e.row e.col
      exactWalk? layout entries visit below (← exactAdd? x dx) (← exactAdd? y dy)
        (e.cell.apply s) acc) acc

theorem ExactOffset.exactOffset?_eq {stride : Stride} (h : ExactOffset stride row col)
    (layout : Layout) :
    exactOffset? layout stride row col = some (childOffset layout stride row col) := by
  have hrow : row < UInt32.size := h.row_eq ▸ (UInt32.ofNat row).toNat_lt
  have hcol : col < UInt32.size := h.col_eq ▸ (UInt32.ofNat col).toNat_lt
  have halongRows := h.alongRows_eq
  have halongCols := h.alongCols_eq
  nth_rewrite 2 [← h.row_eq] at halongRows
  nth_rewrite 2 [← h.col_eq] at halongCols
  simp only [exactOffset?, exactWord?_of_lt hrow, exactWord?_of_lt hcol, Option.bind_eq_bind,
    Option.bind_some, exactMul?_of_toNat_mul halongRows, exactMul?_of_toNat_mul halongCols]
  rfl

theorem exactWalk?_eq_some {β : Type} (hfits : g.Fits depth) (visit : β → LeafCall → β)
    (h : g.IsCorner layout depth level x y) (s : ColorState) (acc : β) :
    exactWalk? layout g.entries visit (g.strides level) x y s acc =
      some (walk layout g.entries visit (g.strides level) x y s acc) := by
  induction level generalizing x y s acc with
  | zero => rfl
  | succ level ih =>
    have hlevel : g.Fits (level + 1) := hfits.of_le h.level_le
    rw [strides_succ hlevel.of_succ]
    refine foldlM_eq_some (fun e he acc => ?_) acc
    obtain ⟨hrow, hcol⟩ := bounds_of_mem_entries hfits.toIsFilled he
    obtain ⟨hinside, hchild⟩ := h.child hfits hrow hcol
    have hoffset := (exactOffset hlevel hrow hcol).exactOffset?_eq layout
    simp only [hoffset, Option.bind_eq_bind, Option.bind_some, exactAdd?_of_toNat_add hinside.x_eq,
      exactAdd?_of_toNat_add hinside.y_eq]
    exact ih hchild (e.cell.apply s) acc

/-- What the words of a grid subdivided to a depth are. -/
structure ComputesExactly (g : Grid) (layout : Layout) (depth : ℕ) : Prop where
  strides_eq : (g.strides depth).reverse.map (fun s => (s.alongRows.toNat, s.alongCols.toNat)) =
    (List.range depth).map fun k => (g.rows ^ k, g.cols ^ k)
  /-- None of the products that go up from a stride saturates, that of the last stride included. -/
  strideAbove_eq : ∀ stride ∈ g.strides depth,
    (g.strideAbove stride).alongRows.toNat = stride.alongRows.toNat * g.rows ∧
      (g.strideAbove stride).alongCols.toNat = stride.alongCols.toNat * g.cols
  offset_eq : ∀ stride ∈ g.strides depth, ∀ row < g.rows, ∀ col < g.cols,
    ExactOffset stride row col
  inside : ∀ stride below x y, g.Enters layout depth (stride :: below) x y →
    ∀ e ∈ g.entries, g.StaysInside layout below.length x y
      (childOffset layout stride e.row e.col).1 (childOffset layout stride e.row e.col).2
  run_eq : ∀ {β : Type} (visit : β → LeafCall → β) (s : ColorState) (acc : β),
    exactWalk? layout g.entries visit (g.strides depth) 0 0 s acc =
      some (g.run layout depth visit s acc)

theorem Fits.computesExactly (h : g.Fits depth) (layout : Layout) :
    g.ComputesExactly layout depth := by
  constructor
  · exact toNat_strides h
  · intro stride hstride
    obtain ⟨level, hlt, rfl⟩ := (mem_strides h).1 hstride
    exact toNat_strideAbove (h.of_le hlt)
  · intro stride hstride row hrow col hcol
    obtain ⟨level, hlt, rfl⟩ := (mem_strides h).1 hstride
    exact exactOffset (h.of_le hlt) hrow hcol
  · intro stride below x y henters e he
    obtain ⟨hstrides, hcorner⟩ := henters.isCorner h
    rw [List.length_cons] at hstrides hcorner
    rw [strides_succ (h.of_le hcorner.level_le).of_succ, List.cons.injEq] at hstrides
    obtain ⟨rfl, -⟩ := hstrides
    obtain ⟨hrow, hcol⟩ := bounds_of_mem_entries h.toIsFilled he
    exact (hcorner.child h hrow hcol).1
  · intro β visit s acc
    exact exactWalk?_eq_some h visit (isCorner_whole g layout depth) s acc

end Grid

/-- The words of a plan are exact, whatever limits its options allow. The strides are powers, no
product saturates or wraps around, and every child of a block that the walk enters starts and ends in
its block. -/
theorem Plan.new_computes_exactly {g : Grid} (hg : g.IsCompiled) {depth : ℕ} {opts : RenderOptions}
    {p : Plan} (h : Plan.new g depth opts = .ok p) : g.ComputesExactly opts.layout depth := by
  obtain ⟨hsize, -⟩ := new_eq_ok.1 h
  exact (Grid.Fits.of_rasterSize hg.isFilled hsize).computesExactly opts.layout

/-- Twenty levels of three columns are the most that fit in a word. -/
theorem Plan.new_computes_exactly_deep :
    Grid.twoByThree.IsCompiled ∧
      (∃ p, Plan.new .twoByThree 20 { maxPixels := 10 ^ 16, layout := .rowsAcross } = .ok p ∧
        p.height = 3486784401) ∧
      Grid.twoByThree.ComputesExactly .rowsAcross 20 := by
  have hplan : Plan.new .twoByThree 20 { maxPixels := 10 ^ 16, layout := .rowsAcross } =
      .ok ⟨.twoByThree, 20, .rowsAcross, 1048576, 3486784401⟩ := by decide +kernel
  exact ⟨Grid.twoByThree_isCompiled, ⟨_, hplan, rfl⟩,
    new_computes_exactly Grid.twoByThree_isCompiled hplan⟩

end Quilt
