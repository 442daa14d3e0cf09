import Mathlib
import Quilt.Grid.Compile
import Quilt.Proofs.Checks

namespace Quilt.Grid

/-- The grids that there are: compiled from functions, or made of identity cells. -/
inductive IsCompiled (g : Grid) : Prop
  | expressions {numcolors : ℕ} {lines : List (List (List (List String)))}
      (h : compileExpressions numcolors lines = .ok g)
  | permutations {numcolors : ℕ} {lines : List (List (List ℕ))}
      (h : compilePermutations numcolors lines = .ok g)
  | identity {rows cols numcolors : ℕ} (h : identity rows cols numcolors = .ok g)

/-- A grid with a cell in each of its places, and with a place at all. -/
structure IsFilled (g : Grid) : Prop where
  rows_pos : 0 < g.rows
  cols_pos : 0 < g.cols
  size_cells : g.cells.size = g.rows * g.cols

theorem rectangle_eq_ok {α : Type} {lines : List (List α)} {rows cols : ℕ} :
    rectangle lines = .ok (rows, cols) ↔
      lines.length = rows ∧ 0 < rows ∧ 0 < cols ∧ ∀ line ∈ lines, line.length = cols := by
  cases lines with
  | nil =>
    simp only [rectangle, reduceCtorEq, List.length_nil, false_iff]
    rintro ⟨rfl, h, -⟩
    exact lt_irrefl 0 h
  | cons first rest =>
    rw [rectangle]
    split_ifs with hempty
    · have hfirst : first.length = 0 := by simpa using hempty
      simp only [List.mem_cons, forall_eq_or_imp, hfirst, false_iff]
      rintro ⟨-, -, hpos, rfl, -⟩
      exact lt_irrefl 0 hpos
    · have hfirst : 0 < first.length := by
        rw [List.length_pos_iff]
        simpa using hempty
      -- The search finds a line exactly when some line is not as long as the first.
      split
      · next line row hfind =>
        have hmem := List.mem_of_find?_eq_some hfind
        have hne : line.length ≠ first.length := by simpa using List.find?_some hfind
        simp only [reduceCtorEq, false_iff]
        rintro ⟨-, -, -, hall⟩
        exact hne ((hall line (List.fst_mem_of_mem_zipIdx hmem)).trans (hall first (by simp)).symm)
      · next hfind =>
        have hall : ∀ line ∈ first :: rest, line.length = first.length := by
          intro line hline
          obtain ⟨row, hrow, rfl⟩ := List.getElem_of_mem hline
          have := List.find?_eq_none.1 hfind ((first :: rest)[row], row)
            (List.mk_mem_zipIdx_iff_getElem?.2 (List.getElem?_eq_getElem hrow))
          simpa using this
        simp only [Except.ok.injEq, Prod.mk.injEq]
        constructor
        · rintro ⟨rfl, rfl⟩
          exact ⟨rfl, by simp, hfirst, hall⟩
        · rintro ⟨rfl, -, -, h⟩
          exact ⟨rfl, h first (by simp)⟩

theorem length_compileCells {α : Type} {compileAt : ℕ → ℕ → α → Except Error Cell}
    {lines : List (List α)} {cells : List Cell} {cols : ℕ}
    (h : compileCells compileAt lines = .ok cells) (hcols : ∀ line ∈ lines, line.length = cols) :
    cells.length = lines.length * cols := by
  obtain ⟨rows, hrows, heq⟩ := bind_eq_ok.1 h
  obtain rfl := pure_eq_ok.1 heq
  have hlengths : lines.zipIdx.map (fun line => line.1.length) = rows.map List.length := by
    rw [← List.forall₂_eq_eq_eq, List.forall₂_map_left_iff, List.forall₂_map_right_iff]
    apply (mapM_eq_ok.1 hrows).imp
    intro line row hrow
    simpa using (mapM_eq_ok.1 hrow).length_eq
  have hzip : lines.zipIdx.map (fun line => line.1.length) = lines.map List.length := by
    conv_rhs => rw [← List.zipIdx_map_fst 0 lines, List.map_map]
    rfl
  rw [List.length_flatten, ← hlengths, hzip, List.map_eq_replicate_iff.2 hcols, List.sum_replicate,
    smul_eq_mul]

theorem isFilled_of_compileCells {α : Type} {compileAt : ℕ → ℕ → α → Except Error Cell}
    {lines : List (List α)} {cells : List Cell} {rows cols numcolors : ℕ} {kind : GridKind}
    (hrect : rectangle lines = .ok (rows, cols))
    (hcells : compileCells compileAt lines = .ok cells) :
    IsFilled ⟨rows, cols, numcolors, kind, cells.toArray⟩ := by
  obtain ⟨hlen, hrows, hcols, hall⟩ := rectangle_eq_ok.1 hrect
  refine ⟨hrows, hcols, ?_⟩
  rw [List.size_toArray, length_compileCells hcells hall, hlen]

theorem IsCompiled.isFilled {g : Grid} (hg : g.IsCompiled) : g.IsFilled := by
  cases hg with
  | expressions h =>
    obtain ⟨_, -, h⟩ := bind_eq_ok.1 h
    obtain ⟨⟨rows, cols⟩, hrect, h⟩ := bind_eq_ok.1 h
    obtain ⟨cells, hcells, h⟩ := bind_eq_ok.1 h
    obtain rfl := pure_eq_ok.1 h
    exact isFilled_of_compileCells hrect hcells
  | permutations h =>
    obtain ⟨_, -, h⟩ := bind_eq_ok.1 h
    obtain ⟨⟨rows, cols⟩, hrect, h⟩ := bind_eq_ok.1 h
    obtain ⟨cells, hcells, h⟩ := bind_eq_ok.1 h
    obtain rfl := pure_eq_ok.1 h
    exact isFilled_of_compileCells hrect hcells
  | identity h =>
    obtain ⟨cell, -, h⟩ := bind_eq_ok.1 h
    split_ifs at h with hzero
    · cases h
    · obtain rfl := pure_eq_ok.1 h
      rw [not_or] at hzero
      exact ⟨Nat.pos_of_ne_zero hzero.1, Nat.pos_of_ne_zero hzero.2, Array.size_replicate⟩

/-- Two rows and three columns of selections between two colors, to look at. -/
def twoByThree : Grid where
  rows := 2
  cols := 3
  numcolors := 2
  kind := .permutation
  cells := #[.selection [0, 1], .selection [1, 0], .selection [1, 1],
    .selection [0, 0], .selection [1, 0], .selection [0, 1]]

theorem twoByThree_isCompiled : twoByThree.IsCompiled := by
  have h : compilePermutations 2 [[[0, 1], [1, 0], [1, 1]], [[0, 0], [1, 0], [0, 1]]] =
      .ok twoByThree := rfl
  exact .permutations h

theorem map_div_mod_range (rows : ℕ) {cols : ℕ} (hcols : 0 < cols) :
    (List.range (rows * cols)).map (fun i => (i / cols, i % cols)) =
      List.range rows ×ˢ List.range cols := by
  induction rows with
  | zero => simp
  | succ rows ih =>
    -- The last row is made of the numbers from its first on.
    have hlast : (List.range cols).map (fun i =>
        ((rows * cols + i) / cols, (rows * cols + i) % cols)) =
          (List.range cols).map (Prod.mk rows) := by
      apply List.map_congr_left
      intro i hi
      have hi : i < cols := List.mem_range.1 hi
      rw [mul_comm, Nat.mul_add_div hcols, Nat.mul_add_mod, Nat.div_eq_of_lt hi,
        Nat.mod_eq_of_lt hi, add_zero]
    have hprod : List.range (rows + 1) ×ˢ List.range cols =
        List.range rows ×ˢ List.range cols ++ (List.range cols).map (Prod.mk rows) := by
      simp [SProd.sprod, List.product, List.range_succ]
    rw [Nat.succ_mul, List.range_add, List.map_append, ih, hprod, ← hlast, List.map_map]
    rfl

variable {g : Grid}

theorem map_place_entries (hg : g.IsFilled) :
    g.entries.map (fun e => (e.row, e.col)) = List.range g.rows ×ˢ List.range g.cols := by
  have hindices : g.cells.toList.zipIdx.map Prod.snd = List.range g.cells.size := by
    rw [List.zipIdx_map_snd, List.range_eq_range', Array.length_toList]
  rw [← map_div_mod_range g.rows hg.cols_pos, ← hg.size_cells, ← hindices, List.map_map, entries,
    List.map_map]
  rfl

theorem cell?_of_mem_entries (hg : g.IsFilled) {e : Entry} (he : e ∈ g.entries) :
    g.cell? e.row e.col = some e.cell := by
  obtain ⟨⟨cell, i⟩, hi, rfl⟩ := List.mem_map.1 he
  have hcell : g.cells[i]? = some cell := by
    simpa using List.mk_mem_zipIdx_iff_getElem?.1 hi
  have hlt : i < g.rows * g.cols := by
    rw [← hg.size_cells]
    exact (Array.getElem?_eq_some_iff.1 hcell).1
  have hrow : i / g.cols < g.rows := (Nat.div_lt_iff_lt_mul hg.cols_pos).2 hlt
  have hcol : i % g.cols < g.cols := Nat.mod_lt _ hg.cols_pos
  rw [cell?, if_pos ⟨hrow, hcol⟩, Nat.div_add_mod']
  exact hcell

theorem map_cell?_entries (hg : g.IsFilled) :
    g.entries.map (fun e => (e.row, e.col, some e.cell)) =
      (List.range g.rows ×ˢ List.range g.cols).map fun p => (p.1, p.2, g.cell? p.1 p.2) := by
  rw [← map_place_entries hg, List.map_map]
  apply List.map_congr_left
  intro e he
  rw [Function.comp_apply, cell?_of_mem_entries hg he]

theorem mem_cells_of_mem_entries {e : Entry} (he : e ∈ g.entries) : e.cell ∈ g.cells := by
  obtain ⟨p, hp, rfl⟩ := List.mem_map.1 he
  exact Array.mem_toList_iff.1 (List.fst_mem_of_mem_zipIdx hp)

theorem exists_cell? (hg : g.IsFilled) {row col : ℕ} (hrow : row < g.rows) (hcol : col < g.cols) :
    ∃ cell, g.cell? row col = some cell := by
  have hlt : row * g.cols + col < g.cells.size := by
    have hle : (row + 1) * g.cols ≤ g.rows * g.cols := Nat.mul_le_mul_right _ hrow
    rw [Nat.succ_mul] at hle
    rw [hg.size_cells]
    omega
  rw [cell?, if_pos ⟨hrow, hcol⟩]
  exact ⟨_, Array.getElem?_eq_getElem hlt⟩

theorem cellsAlong_cons {row col : ℕ} {cell : Cell} (hcell : g.cell? row col = some cell)
    (path : List (ℕ × ℕ)) : g.cellsAlong ((row, col) :: path) = cell :: g.cellsAlong path :=
  List.filterMap_cons_some hcell

theorem mem_cells_of_mem_cellsAlong {path : List (ℕ × ℕ)} {cell : Cell}
    (h : cell ∈ g.cellsAlong path) : cell ∈ g.cells := by
  obtain ⟨place, -, hcell⟩ := List.mem_filterMap.1 h
  dsimp only [cell?] at hcell
  split_ifs at hcell
  exact Array.mem_of_getElem? hcell

theorem map_some_cellsAlong (hg : g.IsFilled) {path : List (ℕ × ℕ)}
    (hpath : ∀ place ∈ path, place.1 < g.rows ∧ place.2 < g.cols) :
    (g.cellsAlong path).map some = path.map fun place => g.cell? place.1 place.2 := by
  induction path with
  | nil => rfl
  | cons place path ih =>
    obtain ⟨⟨hrow, hcol⟩, hrest⟩ := List.forall_mem_cons.1 hpath
    obtain ⟨cell, hcell⟩ := exists_cell? hg hrow hcol
    rw [cellsAlong_cons hcell, List.map_cons, List.map_cons, ih hrest, hcell]

end Quilt.Grid
