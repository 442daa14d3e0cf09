import Mathlib
import Quilt.Proofs.Plan
import Quilt.Proofs.WellFormed

namespace Quilt

theorem coordinate_append (base : ℕ) (ds es : List ℕ) :
    coordinate base (ds ++ es) = coordinate base ds * base ^ es.length + coordinate base es := by
  induction ds with
  | nil => simp
  | cons d ds ih =>
    rw [List.cons_append, coordinate_cons, coordinate_cons, ih, List.length_append, pow_add]
    ring

theorem Leaf.replay_append (path : List (ℕ × ℕ)) (above below : Leaf) (s : ColorState) :
    Leaf.replay ⟨path, above.cells ++ below.cells⟩ s = below.replay (above.replay s) :=
  List.foldl_append

namespace Grid
variable {g : Grid} {m n : ℕ} {above below : List (ℕ × ℕ)}

theorem mem_paths_append (habove : above ∈ g.paths m) (hbelow : below ∈ g.paths n) :
    above ++ below ∈ g.paths (m + n) := by
  obtain ⟨hm, habove⟩ := mem_paths.1 habove
  obtain ⟨hn, hbelow⟩ := mem_paths.1 hbelow
  exact mem_paths.2 ⟨by rw [List.length_append, hm, hn], List.forall_mem_append.2 ⟨habove, hbelow⟩⟩

theorem alongRows_append (hbelow : below ∈ g.paths n) :
    g.alongRows (above ++ below) = g.alongRows above * g.rows ^ n + g.alongRows below := by
  rw [alongRows, List.map_append, coordinate_append, List.length_map, (mem_paths.1 hbelow).1]
  rfl

theorem alongCols_append (hbelow : below ∈ g.paths n) :
    g.alongCols (above ++ below) = g.alongCols above * g.cols ^ n + g.alongCols below := by
  rw [alongCols, List.map_append, coordinate_append, List.length_map, (mem_paths.1 hbelow).1]
  rfl

theorem cellsAlong_append (above below : List (ℕ × ℕ)) :
    g.cellsAlong (above ++ below) = g.cellsAlong above ++ g.cellsAlong below :=
  List.filterMap_append

/-- A path goes on in the block of `w` by `h` pixels that its first part leads to. -/
theorem place_append (layout : Layout) {w h x y : ℕ}
    (hsize : layout.place (g.rows ^ n) (g.cols ^ n) = (w, h)) (hpath : below ∈ g.paths n)
    (habove : layout.place (g.alongRows above) (g.alongCols above) = (x / w, y / h))
    (hbelow : layout.place (g.alongRows below) (g.alongCols below) = (x % w, y % h)) :
    layout.place (g.alongRows (above ++ below)) (g.alongCols (above ++ below)) = (x, y) := by
  rw [alongRows_append hpath, alongCols_append hpath]
  cases layout <;>
  · obtain ⟨rfl, rfl⟩ := Prod.mk.inj hsize
    obtain ⟨ha, hb⟩ := Prod.mk.inj habove
    obtain ⟨hc, hd⟩ := Prod.mk.inj hbelow
    simp only [Layout.place, ha, hb, hc, hd, Nat.div_add_mod']

end Grid

namespace Plan
variable {p outer inner : Plan} {x y : ℕ}

theorem leafAt_of_place (hp : p.IsPlanned) {path : List (ℕ × ℕ)} (hpath : path ∈ p.grid.paths p.depth)
    (hxy : p.layout.place (p.grid.alongRows path) (p.grid.alongCols path) = (x, y)) :
    p.leafAt x y = ⟨path, p.grid.cellsAlong path⟩ := by
  obtain ⟨rfl, rfl⟩ := Prod.mk.inj ((Grid.callFrom_place _ ⟨[]⟩ hp.fits hpath).trans hxy)
  exact leafAt_callFrom hp _ hpath

theorem size_replay_leafAt (hp : p.IsPlanned) {s : ColorState} (hs : s.size = p.grid.numcolors)
    (x y : ℕ) : ((p.leafAt x y).replay s).size = p.grid.numcolors := by
  refine List.foldlRecOn (motive := fun reached : ColorState => reached.size = p.grid.numcolors)
    _ _ hs ?_
  intro reached _ cell hcell
  have hfor := hp.isCompiled.isFor cell (Grid.mem_cells_of_mem_cellsAlong hcell)
  rw [Cell.size_apply, hfor.arity_eq]

/-- Plans of one grid in one layout, the first as deep as the other two together. -/
structure Splits (p outer inner : Plan) : Prop where
  isPlanned : p.IsPlanned ∧ outer.IsPlanned ∧ inner.IsPlanned
  grid_eq : outer.grid = p.grid ∧ inner.grid = p.grid
  layout_eq : outer.layout = p.layout ∧ inner.layout = p.layout
  depth_eq : p.depth = outer.depth + inner.depth

theorem exists_new_of_le {g : Grid} (hg : g.IsCompiled) {d depth : ℕ} {opts : RenderOptions}
    (hd : d ≤ depth) (h : Plan.new g depth opts = .ok p) : ∃ q, Plan.new g d opts = .ok q := by
  have hsize := rasterSize_of_le hg.isFilled.rows_pos le_rfl hg.isFilled.cols_pos le_rfl hd
    (new_eq_ok.1 h).1
  exact ⟨⟨g, d, opts.layout, _, _⟩, new_eq_ok.2 ⟨hsize, rfl, rfl, rfl⟩⟩

/-- Wherever the depth of a plan is cut in two, there are plans for both parts. -/
theorem exists_splits {g : Grid} (hg : g.IsCompiled) {m n : ℕ} {opts : RenderOptions}
    (h : Plan.new g (m + n) opts = .ok p) :
    ∃ outer inner, Plan.new g m opts = .ok outer ∧ Plan.new g n opts = .ok inner ∧
      p.Splits outer inner := by
  obtain ⟨outer, houter⟩ := exists_new_of_le hg (Nat.le_add_right m n) h
  obtain ⟨inner, hinner⟩ := exists_new_of_le hg (Nat.le_add_left n m) h
  obtain ⟨-, hgrid, hdepth, hlayout⟩ := new_eq_ok.1 h
  obtain ⟨-, hgo, hdo, hlo⟩ := new_eq_ok.1 houter
  obtain ⟨-, hgi, hdi, hli⟩ := new_eq_ok.1 hinner
  refine ⟨outer, inner, houter, hinner, ⟨.new hg h, .new hg houter, .new hg hinner⟩, ?_, ?_, ?_⟩
  · rw [hgo, hgi, hgrid]
    exact ⟨rfl, rfl⟩
  · rw [hlo, hli, hlayout]
    exact ⟨rfl, rfl⟩
  · rw [hdepth, hdo, hdi]

namespace Splits

theorem outer_size_eq (h : p.Splits outer inner) :
    p.layout.place (p.grid.rows ^ outer.depth) (p.grid.cols ^ outer.depth) =
      (outer.width, outer.height) := by
  rw [← h.layout_eq.1, ← h.grid_eq.1]
  exact h.isPlanned.2.1.size_eq

theorem inner_size_eq (h : p.Splits outer inner) :
    p.layout.place (p.grid.rows ^ inner.depth) (p.grid.cols ^ inner.depth) =
      (inner.width, inner.height) := by
  rw [← h.layout_eq.2, ← h.grid_eq.2]
  exact h.isPlanned.2.2.size_eq

theorem sides_eq (h : p.Splits outer inner) :
    p.width = outer.width * inner.width ∧ p.height = outer.height * inner.height := by
  have hsize := h.isPlanned.1.size_eq
  have houter := h.outer_size_eq
  have hinner := h.inner_size_eq
  rw [h.depth_eq, pow_add, pow_add] at hsize
  generalize p.layout = layout at hsize houter hinner
  cases layout <;>
  · obtain ⟨hw, hh⟩ := Prod.mk.inj hsize
    obtain ⟨hwo, hho⟩ := Prod.mk.inj houter
    obtain ⟨hwi, hhi⟩ := Prod.mk.inj hinner
    rw [← hw, ← hh, ← hwo, ← hho, ← hwi, ← hhi]
    exact ⟨rfl, rfl⟩

theorem block_lt (h : p.Splits outer inner) (hx : x < p.width) (hy : y < p.height) :
    (x / inner.width < outer.width ∧ y / inner.height < outer.height) ∧
      x % inner.width < inner.width ∧ y % inner.height < inner.height := by
  rw [h.sides_eq.1] at hx
  rw [h.sides_eq.2] at hy
  have hw : 0 < inner.width := Nat.pos_of_mul_pos_left (Nat.zero_lt_of_lt hx)
  have hh : 0 < inner.height := Nat.pos_of_mul_pos_left (Nat.zero_lt_of_lt hy)
  exact ⟨⟨(Nat.div_lt_iff_lt_mul hw).2 hx, (Nat.div_lt_iff_lt_mul hh).2 hy⟩,
    Nat.mod_lt x hw, Nat.mod_lt y hh⟩

theorem leafAt_eq (h : p.Splits outer inner) (hx : x < p.width) (hy : y < p.height) :
    p.leafAt x y =
      ⟨(outer.leafAt (x / inner.width) (y / inner.height)).path ++
          (inner.leafAt (x % inner.width) (y % inner.height)).path,
        (outer.leafAt (x / inner.width) (y / inner.height)).cells ++
          (inner.leafAt (x % inner.width) (y % inner.height)).cells⟩ := by
  obtain ⟨hp, houter, hinner⟩ := h.isPlanned
  obtain ⟨hblock, hinside⟩ := h.block_lt hx hy
  obtain ⟨above, habove, hxyAbove⟩ := Grid.exists_path_of_lt _ h.outer_size_eq hblock.1 hblock.2
  obtain ⟨below, hbelow, hxyBelow⟩ := Grid.exists_path_of_lt _ h.inner_size_eq hinside.1 hinside.2
  -- Both sides are the leaf behind the joined path.
  have hpath : above ++ below ∈ p.grid.paths p.depth := by
    rw [h.depth_eq]
    exact Grid.mem_paths_append habove hbelow
  rw [leafAt_of_place hp hpath (Grid.place_append _ h.inner_size_eq hbelow hxyAbove hxyBelow),
    Grid.cellsAlong_append]
  rw [← h.grid_eq.1, ← h.layout_eq.1] at hxyAbove
  rw [← h.grid_eq.2, ← h.layout_eq.2] at hxyBelow
  rw [← h.grid_eq.1] at habove
  rw [← h.grid_eq.2] at hbelow
  rw [leafAt_of_place houter habove hxyAbove, leafAt_of_place hinner hbelow hxyBelow,
    h.grid_eq.1, h.grid_eq.2]

end Splits

/-- A deep plan over a shallow one, whose pixels are blocks, and a plan for the insides of the blocks.
Each leaf is a leaf above followed by a leaf below, and what is drawn from a state is what is drawn
below from the state that arrives above. -/
structure Nests (p outer inner : Plan) : Prop where
  leaf_eq : ∀ x y, x < p.width → y < p.height → ∃ above below : Leaf,
    outer.leaf? (x / inner.width) (y / inner.height) = some above ∧
      inner.leaf? (x % inner.width) (y % inner.height) = some below ∧
      p.leaf? x y = some ⟨above.path ++ below.path, above.cells ++ below.cells⟩ ∧
      ∀ s, s.size = p.grid.numcolors → ∃ whole block px, p.render s = .ok whole ∧
        inner.render (above.replay s) = .ok block ∧ whole.pixel? x y = some px ∧
          block.pixel? (x % inner.width) (y % inner.height) = some px

theorem Splits.nests (h : p.Splits outer inner) : p.Nests outer inner := by
  obtain ⟨hp, houter, hinner⟩ := h.isPlanned
  refine ⟨fun x y hx hy => ?_⟩
  obtain ⟨⟨hxAbove, hyAbove⟩, hxBelow, hyBelow⟩ := h.block_lt hx hy
  have hleaf := h.leafAt_eq hx hy
  refine ⟨_, _, leaf?_of_lt hxAbove hyAbove, leaf?_of_lt hxBelow hyBelow,
    (leaf?_of_lt hx hy).trans (congrArg some hleaf), fun s hs => ?_⟩
  have hreached : ((outer.leafAt (x / inner.width) (y / inner.height)).replay s).size =
      inner.grid.numcolors := by
    rw [h.grid_eq.2, ← h.grid_eq.1]
    exact size_replay_leafAt houter (by rw [h.grid_eq.1, hs]) _ _
  refine ⟨_, _, _, render_of_size_eq hs, render_of_size_eq hreached, pixel?_draw hp s hx hy, ?_⟩
  rw [pixel?_draw hinner _ hxBelow hyBelow, hleaf, Leaf.pixel, Leaf.pixel, Leaf.replay_append]

/-- Wherever the depth of a plan is cut in two, both parts pass the size check as well, and the plan
shows in the block of each pixel above what the plan below shows from the state that arrives there. -/
theorem new_add_nests {g : Grid} (hg : g.IsCompiled) {m n : ℕ} {opts : RenderOptions}
    (h : Plan.new g (m + n) opts = .ok p) :
    ∃ outer inner, Plan.new g m opts = .ok outer ∧ Plan.new g n opts = .ok inner ∧
      p.Nests outer inner := by
  obtain ⟨outer, inner, houter, hinner, hsplits⟩ := exists_splits hg h
  exact ⟨outer, inner, houter, hinner, hsplits.nests⟩

theorem new_add_nests_two_by_three :
    Grid.twoByThree.IsCompiled ∧
      Plan.new .twoByThree (1 + 1) { layout := .rowsAcross } = .ok twoByThree ∧
        ∃ outer inner, Plan.new .twoByThree 1 { layout := .rowsAcross } = .ok outer ∧
          Plan.new .twoByThree 1 { layout := .rowsAcross } = .ok inner ∧
            twoByThree.Nests outer inner := by
  have h : Plan.new .twoByThree (1 + 1) { layout := .rowsAcross } = .ok twoByThree := rfl
  exact ⟨Grid.twoByThree_isCompiled, h, new_add_nests Grid.twoByThree_isCompiled h⟩

end Plan

end Quilt
