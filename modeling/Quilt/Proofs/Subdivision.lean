import Mathlib
import Quilt.Proofs.Grid
import Quilt.Proofs.Size
import Quilt.Render.Subdivision

namespace Quilt

/-- The number that digits write in a base, the greatest digit first. -/
def coordinate (base : ℕ) (digits : List ℕ) : ℕ :=
  ∑ i : Fin digits.length, digits[i] * base ^ (digits.length - 1 - i)

@[simp] theorem coordinate_nil (base : ℕ) : coordinate base [] = 0 := Fin.sum_univ_zero _

theorem coordinate_cons (base d : ℕ) (ds : List ℕ) :
    coordinate base (d :: ds) = d * base ^ ds.length + coordinate base ds := by
  change ∑ i : Fin (ds.length + 1), (d :: ds)[i] * base ^ (ds.length + 1 - 1 - i) = _
  rw [Fin.sum_univ_succ, coordinate]
  congr 1
  apply Finset.sum_congr rfl
  intro i _
  have hexp : ds.length + 1 - 1 - (i.succ : ℕ) = ds.length - 1 - i := by
    rw [Fin.val_succ]
    omega
  rw [hexp]
  rfl

theorem coordinate_lt {base : ℕ} {digits : List ℕ} (h : ∀ d ∈ digits, d < base) :
    coordinate base digits < base ^ digits.length := by
  induction digits with
  | nil => exact one_pos
  | cons d ds ih =>
    rw [List.forall_mem_cons] at h
    have htail := ih h.2
    have hhead : (d + 1) * base ^ ds.length ≤ base * base ^ ds.length :=
      Nat.mul_le_mul_right _ h.1
    rw [Nat.succ_mul] at hhead
    rw [coordinate_cons, List.length_cons, pow_succ']
    omega

theorem toNat_saturatingMul {a b : UInt32} (h : a.toNat * b.toNat < UInt32.size) :
    (saturatingMul a b).toNat = a.toNat * b.toNat := by
  have hmin : min (a.toNat * b.toNat) (UInt32.size - 1) = a.toNat * b.toNat := by
    apply min_eq_left
    omega
  rw [saturatingMul, hmin, UInt32.toNat_ofNat_of_lt' h]

theorem ofNat_div_mod {n q r : ℕ} (hr : r < n) (hn : n < UInt32.size)
    (h : q * n + r < UInt32.size) :
    (UInt32.ofNat (q * n + r) / UInt32.ofNat n).toNat = q ∧
      UInt32.ofNat (q * n + r) % UInt32.ofNat n = UInt32.ofNat r := by
  have hpos : 0 < n := Nat.zero_lt_of_lt hr
  have hq : q < UInt32.size := by
    have := Nat.le_mul_of_pos_right q hpos
    omega
  have hdivmod : (q * n + r) / n = q ∧ (q * n + r) % n = r :=
    (Nat.div_mod_unique hpos).2 ⟨by rw [mul_comm, add_comm], hr⟩
  rw [← UInt32.ofNat_div h hn, ← UInt32.ofNat_mod h hn, hdivmod.1, hdivmod.2]
  exact ⟨UInt32.toNat_ofNat_of_lt' hq, rfl⟩

namespace Grid
variable {g : Grid} {depth : ℕ}

/-- A filled grid with a depth at which both sides of the subdivided block are words. -/
structure Fits (g : Grid) (depth : ℕ) : Prop extends g.IsFilled where
  alongRows_lt : g.rows ^ depth < UInt32.size
  alongCols_lt : g.cols ^ depth < UInt32.size

theorem Fits.of_succ (h : g.Fits (depth + 1)) : g.Fits depth where
  toIsFilled := h.toIsFilled
  alongRows_lt := (Nat.pow_le_pow_right h.rows_pos depth.le_succ).trans_lt h.alongRows_lt
  alongCols_lt := (Nat.pow_le_pow_right h.cols_pos depth.le_succ).trans_lt h.alongCols_lt

theorem Fits.of_rasterSize {opts : RenderOptions} {size : ℕ × ℕ} (hg : g.IsFilled)
    (h : rasterSize g.rows g.cols depth opts = .ok size) : g.Fits depth := by
  obtain ⟨-, -, hrows, hcols, -⟩ := rasterSize_eq_ok.1 h
  exact ⟨hg, hrows, hcols⟩

theorem length_strides (g : Grid) (depth : ℕ) : (g.strides depth).length = depth := by
  induction depth with
  | zero => rfl
  | succ depth ih =>
    rw [strides]
    split
    · next h => simpa [h, eq_comm] using ih
    · next h => simpa [h] using ih

/-- The exact strides of a block with `depth` levels below its children. -/
def stride (g : Grid) (depth : ℕ) : Stride := ⟨.ofNat (g.rows ^ depth), .ofNat (g.cols ^ depth)⟩

theorem strideAbove_stride (h : g.Fits (depth + 1)) :
    g.strideAbove (g.stride depth) = g.stride (depth + 1) := by
  have hexact : ∀ {base : ℕ}, 0 < base → base ^ (depth + 1) < UInt32.size →
      saturatingMul (.ofNat (base ^ depth)) (.ofNat base) = .ofNat (base ^ (depth + 1)) := by
    intro base hpos hlt
    have hpow : base ^ depth < UInt32.size :=
      (Nat.pow_le_pow_right hpos depth.le_succ).trans_lt hlt
    have hbase : base < UInt32.size := (Nat.le_self_pow depth.succ_ne_zero base).trans_lt hlt
    apply UInt32.toNat_inj.1
    rw [toNat_saturatingMul, UInt32.toNat_ofNat_of_lt' hpow, UInt32.toNat_ofNat_of_lt' hbase,
      UInt32.toNat_ofNat_of_lt' hlt, pow_succ]
    rwa [UInt32.toNat_ofNat_of_lt' hpow, UInt32.toNat_ofNat_of_lt' hbase, ← pow_succ]
  rw [strideAbove, stride, stride, hexact h.rows_pos h.alongRows_lt,
    hexact h.cols_pos h.alongCols_lt]

theorem strides_succ (h : g.Fits depth) :
    g.strides (depth + 1) = g.stride depth :: g.strides depth := by
  induction depth with
  | zero => simp [strides, stride]
  | succ depth ih =>
    -- The list looks one stride down, which is exact, so the stride on top is exact as well.
    have hbelow := ih h.of_succ
    rw [strides, hbelow]
    simp only [strideAbove_stride h]

/-- The places of a grid, row by row. -/
def places (g : Grid) : List (ℕ × ℕ) := List.range g.rows ×ˢ List.range g.cols

/-- The paths of a length, in the order in which the walk takes them. -/
def paths (g : Grid) : ℕ → List (List (ℕ × ℕ))
  | 0 => [[]]
  | depth + 1 => g.places.flatMap fun place => (g.paths depth).map (place :: ·)

theorem mem_places {place : ℕ × ℕ} : place ∈ g.places ↔ place.1 < g.rows ∧ place.2 < g.cols := by
  rw [places, List.mem_product, List.mem_range, List.mem_range]

theorem mem_paths {path : List (ℕ × ℕ)} :
    path ∈ g.paths depth ↔
      path.length = depth ∧ ∀ place ∈ path, place.1 < g.rows ∧ place.2 < g.cols := by
  induction depth generalizing path with
  | zero =>
    rw [paths, List.mem_singleton, List.length_eq_zero_iff]
    exact ⟨fun h => ⟨h, by simp [h]⟩, And.left⟩
  | succ depth ih =>
    simp only [paths, List.mem_flatMap, List.mem_map, ih, mem_places]
    constructor
    · rintro ⟨place, hplace, rest, ⟨hlen, hrest⟩, rfl⟩
      exact ⟨by rw [List.length_cons, hlen], List.forall_mem_cons.2 ⟨hplace, hrest⟩⟩
    · rintro ⟨hlen, hall⟩
      obtain ⟨place, rest, rfl⟩ := List.exists_cons_of_length_eq_add_one hlen
      obtain ⟨hplace, hrest⟩ := List.forall_mem_cons.1 hall
      exact ⟨place, hplace, rest, ⟨Nat.succ.inj hlen, hrest⟩, rfl⟩

theorem length_paths (g : Grid) (depth : ℕ) :
    (g.paths depth).length = (g.rows * g.cols) ^ depth := by
  induction depth with
  | zero => rfl
  | succ depth ih =>
    have hplaces : g.places.length = g.rows * g.cols := by
      rw [places, List.length_product, List.length_range, List.length_range]
    simp only [paths, List.length_flatMap, List.length_map, ih, List.map_const', List.sum_replicate,
      hplaces, smul_eq_mul, pow_succ']

/-- The order of paths in which the first place that differs decides, by its row and then its
column. -/
def PathLt : List (ℕ × ℕ) → List (ℕ × ℕ) → Prop := List.Lex (Prod.Lex (· < ·) (· < ·))

theorem pairwise_places (g : Grid) : g.places.Pairwise (Prod.Lex (· < ·) (· < ·)) := by
  apply List.pairwise_flatMap.2
  constructor
  · intro row _
    rw [List.pairwise_map]
    exact List.pairwise_lt_range.imp fun hlt => Prod.Lex.right row hlt
  · apply List.pairwise_lt_range.imp
    intro a b hlt x hx y hy
    obtain ⟨c, -, rfl⟩ := List.mem_map.1 hx
    obtain ⟨d, -, rfl⟩ := List.mem_map.1 hy
    exact Prod.Lex.left c d hlt

theorem pairwise_paths (g : Grid) (depth : ℕ) : (g.paths depth).Pairwise PathLt := by
  induction depth with
  | zero => exact List.pairwise_singleton _ _
  | succ depth ih =>
    apply List.pairwise_flatMap.2
    constructor
    · intro place _
      rw [List.pairwise_map]
      exact ih.imp fun hlt => List.Lex.cons hlt
    · apply g.pairwise_places.imp
      intro a b hlt x hx y hy
      obtain ⟨p, -, rfl⟩ := List.mem_map.1 hx
      obtain ⟨q, -, rfl⟩ := List.mem_map.1 hy
      exact List.Lex.rel hlt

theorem nodup_paths (g : Grid) (depth : ℕ) : (g.paths depth).Nodup := by
  apply (g.pairwise_paths depth).imp
  intro a b hlt heq
  subst heq
  exact irrefl_of (List.Lex (Prod.Lex (· < ·) (· < ·))) a hlt

/-- How far the end of a path is from its block along the row axis. -/
def alongRows (g : Grid) (path : List (ℕ × ℕ)) : ℕ := coordinate g.rows (path.map Prod.fst)

/-- How far the end of a path is from its block along the column axis. -/
def alongCols (g : Grid) (path : List (ℕ × ℕ)) : ℕ := coordinate g.cols (path.map Prod.snd)

theorem alongRows_cons (place : ℕ × ℕ) (path : List (ℕ × ℕ)) :
    g.alongRows (place :: path) = place.1 * g.rows ^ path.length + g.alongRows path := by
  rw [alongRows, List.map_cons, coordinate_cons, List.length_map, alongRows]

theorem alongCols_cons (place : ℕ × ℕ) (path : List (ℕ × ℕ)) :
    g.alongCols (place :: path) = place.2 * g.cols ^ path.length + g.alongCols path := by
  rw [alongCols, List.map_cons, coordinate_cons, List.length_map, alongCols]

/-- The call at the end of a path that starts in a block with a state. -/
def callFrom (g : Grid) (layout : Layout) (x y : UInt32) (s : ColorState)
    (path : List (ℕ × ℕ)) : LeafCall :=
  let (dx, dy) := layout.place (.ofNat (g.alongRows path)) (.ofNat (g.alongCols path))
  ⟨x + dx, y + dy, (g.cellsAlong path).foldl (fun s cell => cell.apply s) s⟩

theorem callFrom_nil (layout : Layout) (x y : UInt32) (s : ColorState) :
    g.callFrom layout x y s [] = ⟨x, y, s⟩ := by
  cases layout <;> simp [callFrom, Layout.place, alongRows, alongCols, cellsAlong]

theorem callFrom_cons (layout : Layout) (x y : UInt32) (s : ColorState) {row col : ℕ} {cell : Cell}
    (hcell : g.cell? row col = some cell) {path : List (ℕ × ℕ)} (hlen : path.length = depth) :
    g.callFrom layout x y s ((row, col) :: path) =
      g.callFrom layout (x + (childOffset layout (g.stride depth) row col).1)
        (y + (childOffset layout (g.stride depth) row col).2) (cell.apply s) path := by
  cases layout <;>
    simp only [callFrom, Layout.place, childOffset, stride, alongRows_cons, alongCols_cons, hlen,
      cellsAlong_cons hcell, UInt32.ofNat_add, UInt32.ofNat_mul, List.foldl_cons, UInt32.add_assoc]

theorem walk_cons {β : Type} (layout : Layout) (entries : List Entry) (visit : β → LeafCall → β)
    (stride : Stride) (below : List Stride) (x y : UInt32) (s : ColorState) (acc : β) :
    walk layout entries visit (stride :: below) x y s acc =
      entries.foldl (fun acc e =>
        walk layout entries visit below (x + (childOffset layout stride e.row e.col).1)
          (y + (childOffset layout stride e.row e.col).2) (e.cell.apply s) acc) acc := rfl

/-- The walk makes the calls at the ends of all paths, in the order of the paths. -/
theorem walk_eq_foldl {β : Type} (h : g.Fits depth) (layout : Layout) (visit : β → LeafCall → β)
    (x y : UInt32) (s : ColorState) (acc : β) :
    walk layout g.entries visit (g.strides depth) x y s acc =
      ((g.paths depth).map (g.callFrom layout x y s)).foldl visit acc := by
  -- Every child starts from a corner and a state of its own, so both stay free.
  induction depth generalizing x y s acc with
  | zero => simp [strides, walk, paths, callFrom_nil]
  | succ depth ih =>
    rw [strides_succ h.of_succ, walk_cons, paths, places, ← map_place_entries h.toIsFilled,
      List.flatMap_map, List.map_flatMap, List.foldl_flatMap]
    apply List.foldl_ext
    intro acc e he
    rw [ih h.of_succ, List.map_map]
    congr 1
    apply List.map_congr_left
    intro path hpath
    have hcell := cell?_of_mem_entries h.toIsFilled he
    exact (callFrom_cons layout x y s hcell (mem_paths.1 hpath).1).symm

theorem alongRows_lt {path : List (ℕ × ℕ)} (hpath : path ∈ g.paths depth) :
    g.alongRows path < g.rows ^ depth := by
  obtain ⟨hlen, hall⟩ := mem_paths.1 hpath
  have h := coordinate_lt (List.forall_mem_map.2 fun place hplace => (hall place hplace).1)
  rwa [List.length_map, hlen] at h

theorem alongCols_lt {path : List (ℕ × ℕ)} (hpath : path ∈ g.paths depth) :
    g.alongCols path < g.cols ^ depth := by
  obtain ⟨hlen, hall⟩ := mem_paths.1 hpath
  have h := coordinate_lt (List.forall_mem_map.2 fun place hplace => (hall place hplace).2)
  rwa [List.length_map, hlen] at h

theorem pathAlong_strides (h : g.Fits depth) {path : List (ℕ × ℕ)} (hpath : path ∈ g.paths depth) :
    pathAlong (g.strides depth) (.ofNat (g.alongRows path)) (.ofNat (g.alongCols path)) = path := by
  induction depth generalizing path with
  | zero => exact (List.mem_singleton.1 hpath).symm
  | succ depth ih =>
    obtain ⟨⟨row, col⟩, hplace, hmem⟩ := List.mem_flatMap.1 hpath
    obtain ⟨rest, hrest, rfl⟩ := List.mem_map.1 hmem
    have hlen := (mem_paths.1 hrest).1
    have hrows := (alongRows_lt hpath).trans h.alongRows_lt
    have hcols := (alongCols_lt hpath).trans h.alongCols_lt
    -- What the rest of the path adds stays below a stride, so division takes off the first place.
    rw [alongRows_cons, hlen] at hrows ⊢
    rw [alongCols_cons, hlen] at hcols ⊢
    obtain ⟨hrow, hrestRows⟩ := ofNat_div_mod (alongRows_lt hrest) h.of_succ.alongRows_lt hrows
    obtain ⟨hcol, hrestCols⟩ := ofNat_div_mod (alongCols_lt hrest) h.of_succ.alongCols_lt hcols
    rw [strides_succ h.of_succ, pathAlong, stride, hrow, hcol, hrestRows, hrestCols,
      ih h.of_succ hrest]

theorem exists_path (g : Grid) {a b : ℕ} (ha : a < g.rows ^ depth) (hb : b < g.cols ^ depth) :
    ∃ path ∈ g.paths depth, g.alongRows path = a ∧ g.alongCols path = b := by
  induction depth generalizing a b with
  | zero =>
    rw [pow_zero, Nat.lt_one_iff] at ha hb
    exact ⟨[], List.mem_singleton_self _, ha.symm, hb.symm⟩
  | succ depth ih =>
    rw [pow_succ'] at ha hb
    have hposa : 0 < g.rows ^ depth := Nat.pos_of_mul_pos_left (Nat.zero_lt_of_lt ha)
    have hposb : 0 < g.cols ^ depth := Nat.pos_of_mul_pos_left (Nat.zero_lt_of_lt hb)
    obtain ⟨path, hpath, hrows, hcols⟩ := ih (Nat.mod_lt a hposa) (Nat.mod_lt b hposb)
    have hplace : (a / g.rows ^ depth, b / g.cols ^ depth) ∈ g.places :=
      mem_places.2 ⟨(Nat.div_lt_iff_lt_mul hposa).2 ha, (Nat.div_lt_iff_lt_mul hposb).2 hb⟩
    have hlen := (mem_paths.1 hpath).1
    refine ⟨_, List.mem_flatMap.2 ⟨_, hplace, List.mem_map_of_mem hpath⟩, ?_, ?_⟩
    · rw [alongRows_cons, hlen, hrows, Nat.div_add_mod']
    · rw [alongCols_cons, hlen, hcols, Nat.div_add_mod']

section Calls
variable (layout : Layout) (s : ColorState) {path : List (ℕ × ℕ)}

theorem callFrom_place (h : g.Fits depth) (hpath : path ∈ g.paths depth) :
    ((g.callFrom layout 0 0 s path).x.toNat, (g.callFrom layout 0 0 s path).y.toNat) =
      layout.place (g.alongRows path) (g.alongCols path) := by
  have hrows := UInt32.toNat_ofNat_of_lt' ((alongRows_lt hpath).trans h.alongRows_lt)
  have hcols := UInt32.toNat_ofNat_of_lt' ((alongCols_lt hpath).trans h.alongCols_lt)
  cases layout <;> simp only [callFrom, Layout.place, UInt32.zero_add, hrows, hcols]

theorem pathTo_callFrom (h : g.Fits depth) (hpath : path ∈ g.paths depth) :
    g.pathTo layout depth (g.callFrom layout 0 0 s path).x (g.callFrom layout 0 0 s path).y =
      path := by
  cases layout <;>
    simpa only [callFrom, pathTo, Layout.place, UInt32.zero_add] using pathAlong_strides h hpath

example : twoByThree.pathTo .rowsAcross 2 3 5 = [(1, 1), (1, 2)] := by decide

theorem callFrom_lt {w h : ℕ} (hfits : g.Fits depth)
    (hsize : layout.place (g.rows ^ depth) (g.cols ^ depth) = (w, h))
    (hpath : path ∈ g.paths depth) :
    (g.callFrom layout 0 0 s path).x.toNat < w ∧ (g.callFrom layout 0 0 s path).y.toNat < h := by
  obtain ⟨hx, hy⟩ := Prod.mk.inj (callFrom_place layout s hfits hpath)
  have hrows := alongRows_lt hpath
  have hcols := alongCols_lt hpath
  rw [hx, hy]
  cases layout <;> obtain ⟨rfl, rfl⟩ := Prod.mk.inj hsize
  · exact ⟨hcols, hrows⟩
  · exact ⟨hrows, hcols⟩

theorem eq_of_callFrom {other : List (ℕ × ℕ)} (h : g.Fits depth) (hother : other ∈ g.paths depth)
    (hpath : path ∈ g.paths depth)
    (heq : ((g.callFrom layout 0 0 s other).x.toNat, (g.callFrom layout 0 0 s other).y.toNat) =
      ((g.callFrom layout 0 0 s path).x.toNat, (g.callFrom layout 0 0 s path).y.toNat)) :
    other = path := by
  obtain ⟨hx, hy⟩ := Prod.mk.inj heq
  rw [← pathTo_callFrom layout s h hother, UInt32.toNat_inj.1 hx, UInt32.toNat_inj.1 hy,
    pathTo_callFrom layout s h hpath]

theorem exists_path_of_lt {x y w h : ℕ}
    (hsize : layout.place (g.rows ^ depth) (g.cols ^ depth) = (w, h)) (hx : x < w) (hy : y < h) :
    ∃ path ∈ g.paths depth, layout.place (g.alongRows path) (g.alongCols path) = (x, y) := by
  cases layout <;> obtain ⟨rfl, rfl⟩ := Prod.mk.inj hsize
  · obtain ⟨path, hpath, rfl, rfl⟩ := exists_path g hy hx
    exact ⟨path, hpath, rfl⟩
  · obtain ⟨path, hpath, rfl, rfl⟩ := exists_path g hx hy
    exact ⟨path, hpath, rfl⟩

end Calls

/-- What the call at the end of a path has to be. -/
structure IsCallAt (g : Grid) (layout : Layout) (depth : ℕ) (s : ColorState) (path : List (ℕ × ℕ))
    (call : LeafCall) : Prop where
  place_eq : (call.x.toNat, call.y.toNat) = layout.place (g.alongRows path) (g.alongCols path)
  state_eq : ∃ cells : List Cell, path.map (fun place => g.cell? place.1 place.2) = cells.map some ∧
    call.state = cells.foldl (fun s cell => cell.apply s) s
  pathTo_eq : g.pathTo layout depth call.x call.y = path

/-- The calls of a run that covers `w` by `h` pixels, one for each path and one for each pixel. -/
structure Covers (g : Grid) (layout : Layout) (depth : ℕ) (s : ColorState) (w h : ℕ)
    (calls : List LeafCall) : Prop where
  run_eq : ∀ {β : Type} (visit : β → LeafCall → β) (acc : β),
    g.run layout depth visit s acc = calls.foldl visit acc
  length_eq : calls.length = (g.rows * g.cols) ^ depth
  mem_paths : ∀ path, path ∈ g.paths depth ↔
    path.length = depth ∧ ∀ place ∈ path, place.1 < g.rows ∧ place.2 < g.cols
  sorted : (g.paths depth).Pairwise PathLt
  isCallAt : List.Forall₂ (g.IsCallAt layout depth s) (g.paths depth) calls
  inside : ∀ call ∈ calls, call.x.toNat < w ∧ call.y.toNat < h
  once : ∀ x y, x < w → y < h → calls.countP (fun call => call.x.toNat = x ∧ call.y.toNat = y) = 1

/-- A compiled grid that passes the size check is walked path by path in lexicographic order, and
the walk meets each pixel of the raster once and nothing else. -/
theorem exists_covers (hg : g.IsCompiled) {opts : RenderOptions} {w h : ℕ}
    (hsize : rasterSize g.rows g.cols depth opts = .ok (w, h)) (s : ColorState) :
    ∃ calls, g.Covers opts.layout depth s w h calls := by
  have hfits := Fits.of_rasterSize hg.isFilled hsize
  obtain ⟨-, -, -, -, hplace⟩ := rasterSize_eq_ok.1 hsize
  have hcall : ∀ path ∈ g.paths depth, g.IsCallAt opts.layout depth s path
      (g.callFrom opts.layout 0 0 s path) := by
    intro path hpath
    have hcells := (map_some_cellsAlong hg.isFilled (mem_paths.1 hpath).2).symm
    constructor
    · exact callFrom_place _ s hfits hpath
    · exact ⟨_, hcells, by cases opts.layout <;> rfl⟩
    · exact pathTo_callFrom _ s hfits hpath
  refine ⟨(g.paths depth).map (g.callFrom opts.layout 0 0 s), ?_⟩
  constructor
  · intro β visit acc
    exact walk_eq_foldl hfits opts.layout visit 0 0 s acc
  · rw [List.length_map, length_paths]
  · exact fun path => mem_paths
  · exact g.pairwise_paths depth
  · rw [List.forall₂_map_right_iff, List.forall₂_same]
    exact hcall
  · intro call hmem
    obtain ⟨path, hpath, rfl⟩ := List.mem_map.1 hmem
    exact callFrom_lt _ s hfits hplace hpath
  · intro x y hx hy
    obtain ⟨path, hpath, hxy⟩ := exists_path_of_lt _ hplace hx hy
    -- The paths are counted in place of the calls, and this one is among them once.
    rw [List.countP_map, ← List.count_eq_one_of_mem (g.nodup_paths depth) hpath]
    apply List.countP_congr
    intro other hother
    have hpos := (callFrom_place _ s hfits hpath).trans hxy
    simp only [Function.comp_apply, decide_eq_true_eq, beq_iff_eq]
    rw [← Prod.mk_inj, ← hpos]
    constructor
    · exact eq_of_callFrom _ s hfits hother hpath
    · intro heq
      rw [heq]

theorem exists_covers_two_by_three :
    twoByThree.IsCompiled ∧
      rasterSize twoByThree.rows twoByThree.cols 2 { layout := .rowsAcross } = .ok (4, 9) ∧
        ∃ calls, twoByThree.Covers .rowsAcross 2 ⟨[.black, ⟨255, 0, 0⟩]⟩ 4 9 calls := by
  have hsize : rasterSize twoByThree.rows twoByThree.cols 2 { layout := .rowsAcross } =
      .ok (4, 9) := rfl
  exact ⟨twoByThree_isCompiled, hsize, exists_covers twoByThree_isCompiled hsize _⟩

end Grid

end Quilt
