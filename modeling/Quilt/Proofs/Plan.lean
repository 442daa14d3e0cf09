import Mathlib
import Quilt.Proofs.Raster
import Quilt.Proofs.Subdivision
import Quilt.Render.Plan

namespace Quilt.Plan
variable {p : Plan} {x y : ℕ}

/-- The plans that there are: those of compiled grids that passed the size check. -/
inductive IsPlanned (p : Plan) : Prop
  | new {g : Grid} {depth : ℕ} {opts : RenderOptions} (hg : g.IsCompiled)
      (h : Plan.new g depth opts = .ok p)

theorem new_eq_ok {g : Grid} {depth : ℕ} {opts : RenderOptions} :
    Plan.new g depth opts = .ok p ↔
      rasterSize g.rows g.cols depth opts = .ok (p.width, p.height) ∧ p.grid = g ∧ p.depth = depth ∧
        p.layout = opts.layout := by
  rw [Plan.new, bind_eq_ok]
  constructor
  · rintro ⟨⟨w, h⟩, hsize, heq⟩
    obtain rfl := pure_eq_ok.1 heq
    exact ⟨hsize, rfl, rfl, rfl⟩
  · rintro ⟨hsize, rfl, rfl, hlayout⟩
    refine ⟨_, hsize, pure_eq_ok.2 ?_⟩
    rw [← hlayout]

namespace IsPlanned

theorem isCompiled (hp : p.IsPlanned) : p.grid.IsCompiled := by
  obtain ⟨hg, h⟩ := hp
  obtain ⟨-, rfl, -⟩ := new_eq_ok.1 h
  exact hg

theorem isFilled (hp : p.IsPlanned) : p.grid.IsFilled := hp.isCompiled.isFilled

theorem fits (hp : p.IsPlanned) : p.grid.Fits p.depth := by
  have hfilled := hp.isFilled
  obtain ⟨-, h⟩ := hp
  obtain ⟨hsize, rfl, rfl, -⟩ := new_eq_ok.1 h
  exact Grid.Fits.of_rasterSize hfilled hsize

theorem size_eq (hp : p.IsPlanned) :
    p.layout.place (p.grid.rows ^ p.depth) (p.grid.cols ^ p.depth) = (p.width, p.height) := by
  obtain ⟨-, h⟩ := hp
  obtain ⟨hsize, rfl, rfl, hlayout⟩ := new_eq_ok.1 h
  rw [hlayout]
  exact (rasterSize_eq_ok.1 hsize).2.2.2.2

end IsPlanned

/-- The small grid at depth two, four pixels wide and nine high. -/
def twoByThree : Plan := ⟨.twoByThree, 2, .rowsAcross, 4, 9⟩

theorem twoByThree_isPlanned : twoByThree.IsPlanned := by
  have h : Plan.new .twoByThree 2 { layout := .rowsAcross } = .ok twoByThree := rfl
  exact .new Grid.twoByThree_isCompiled h

theorem leafAt_callFrom (hp : p.IsPlanned) (s : ColorState) {path : List (ℕ × ℕ)}
    (hpath : path ∈ p.grid.paths p.depth) :
    p.leafAt (p.grid.callFrom p.layout 0 0 s path).x.toNat
        (p.grid.callFrom p.layout 0 0 s path).y.toNat = ⟨path, p.grid.cellsAlong path⟩ := by
  rw [leafAt, UInt32.ofNat_toNat, UInt32.ofNat_toNat, Grid.pathTo_callFrom _ s hp.fits hpath]

theorem exists_call (hp : p.IsPlanned) (s : ColorState) (hx : x < p.width) (hy : y < p.height) :
    ∃ path ∈ p.grid.paths p.depth, (p.grid.callFrom p.layout 0 0 s path).x.toNat = x ∧
      (p.grid.callFrom p.layout 0 0 s path).y.toNat = y := by
  obtain ⟨path, hpath, hxy⟩ := Grid.exists_path_of_lt _ hp.size_eq hx hy
  exact ⟨path, hpath, Prod.mk.inj ((Grid.callFrom_place _ s hp.fits hpath).trans hxy)⟩

theorem path_leafAt (hp : p.IsPlanned) (hx : x < p.width) (hy : y < p.height) :
    ∃ path ∈ p.grid.paths p.depth, p.leafAt x y = ⟨path, p.grid.cellsAlong path⟩ := by
  obtain ⟨path, hpath, rfl, rfl⟩ := exists_call hp ⟨[]⟩ hx hy
  exact ⟨path, hpath, leafAt_callFrom hp _ hpath⟩

theorem width_foldl_putLeaf (calls : List LeafCall) (r : Raster) :
    (calls.foldl Raster.putLeaf r).width = r.width ∧
      (calls.foldl Raster.putLeaf r).height = r.height := by
  induction calls generalizing r with
  | nil => exact ⟨rfl, rfl⟩
  | cons call calls ih => simpa [Raster.putLeaf] using ih (r.putLeaf call)

theorem pixel?_foldl_putLeaf {f : ℕ → ℕ → Pixel} {calls : List LeafCall} {r : Raster}
    (hin : ∀ c ∈ calls, c.x.toNat < r.width ∧ c.y.toNat < r.height)
    (hval : ∀ c ∈ calls, Pixel.ofColor c.state.primary = f c.x.toNat c.y.toNat)
    (hx : x < r.width) (hy : y < r.height)
    (hdone : r.pixel? x y = some (f x y) ∨ ∃ c ∈ calls, c.x.toNat = x ∧ c.y.toNat = y) :
    (calls.foldl Raster.putLeaf r).pixel? x y = some (f x y) := by
  -- A pixel has its color already, or the call that gives it is still to come.
  induction calls generalizing r with
  | nil => simpa using hdone
  | cons c calls ih =>
    obtain ⟨hc, hcalls⟩ := List.forall_mem_cons.1 hin
    obtain ⟨hcval, hvals⟩ := List.forall_mem_cons.1 hval
    have hw : (r.putLeaf c).width = r.width := Raster.width_put _ _ _ _
    have hh : (r.putLeaf c).height = r.height := Raster.height_put _ _ _ _
    rw [List.foldl_cons]
    apply ih (by rwa [hw, hh]) hvals (by rwa [hw]) (by rwa [hh])
    rw [Raster.putLeaf, Raster.pixel?_put _ hx hy hc.1 hc.2, hcval]
    by_cases hhit : x = c.x.toNat ∧ y = c.y.toNat
    · left
      rw [if_pos hhit, hhit.1, hhit.2]
    · rw [if_neg hhit]
      refine hdone.imp_right ?_
      rintro ⟨d, hd, hdx, hdy⟩
      obtain rfl | hd := List.mem_cons.1 hd
      · exact absurd ⟨hdx.symm, hdy.symm⟩ hhit
      · exact ⟨d, hd, hdx, hdy⟩

/-- The walk and the leaves give the same raster. -/
theorem draw_eq_ofFn (hp : p.IsPlanned) (s : ColorState) :
    p.draw s = Raster.ofFn p.width p.height fun x y => (p.leafAt x y).pixel s := by
  rw [draw, Grid.run, Grid.walk_eq_foldl hp.fits]
  obtain ⟨hw, hh⟩ := width_foldl_putLeaf
    ((p.grid.paths p.depth).map (p.grid.callFrom p.layout 0 0 s)) (Raster.clear p.width p.height)
  apply Raster.eq_ofFn hw hh
  intro x y hx hy
  refine pixel?_foldl_putLeaf (f := fun x y => (p.leafAt x y).pixel s) ?_ ?_ hx hy (.inr ?_)
  · rw [List.forall_mem_map]
    intro path hpath
    exact Grid.callFrom_lt _ s hp.fits hp.size_eq hpath
  · rw [List.forall_mem_map]
    intro path hpath
    rw [leafAt_callFrom hp s hpath]
    cases p.layout <;> rfl
  · obtain ⟨path, hpath, hxy⟩ := exists_call hp s hx hy
    exact ⟨_, List.mem_map_of_mem hpath, hxy⟩

theorem pixel?_draw (hp : p.IsPlanned) (s : ColorState) (hx : x < p.width) (hy : y < p.height) :
    (p.draw s).pixel? x y = some ((p.leafAt x y).pixel s) := by
  rw [draw_eq_ofFn hp, Raster.pixel?_ofFn _ hx hy]

theorem render_of_size_eq {s : ColorState} (hs : s.size = p.grid.numcolors) :
    p.render s = .ok (p.draw s) := by
  rw [render, checkState, if_pos hs]
  rfl

theorem render_of_size_ne {s : ColorState} (hs : s.size ≠ p.grid.numcolors) :
    p.render s = .error (.stateColors s.size p.grid.numcolors) := by
  rw [render, checkState, if_neg hs]
  rfl

theorem leaf?_eq_none : p.leaf? x y = none ↔ ¬(x < p.width ∧ y < p.height) := by
  unfold leaf?
  split_ifs with hin <;> simp [hin]

theorem leaf?_of_lt (hx : x < p.width) (hy : y < p.height) : p.leaf? x y = some (p.leafAt x y) :=
  if_pos ⟨hx, hy⟩

theorem cells_of_leaf? {leaf : Leaf} (h : p.leaf? x y = some leaf) :
    ∀ cell ∈ leaf.cells, cell ∈ p.grid.cells := by
  unfold leaf? at h
  split_ifs at h
  cases h
  intro cell hcell
  exact Grid.mem_cells_of_mem_cellsAlong hcell

theorem isPath_of_leaf? (hp : p.IsPlanned) {leaf : Leaf} (h : p.leaf? x y = some leaf) :
    leaf.path.length = p.depth ∧
      leaf.path.map (fun place => p.grid.cell? place.1 place.2) = leaf.cells.map some := by
  have hin : x < p.width ∧ y < p.height := by
    by_contra hout
    rw [leaf?_eq_none.2 hout] at h
    cases h
  obtain ⟨path, hpath, hleaf⟩ := path_leafAt hp hin.1 hin.2
  rw [leaf?_of_lt hin.1 hin.2, hleaf, Option.some.injEq] at h
  obtain ⟨hlen, hplaces⟩ := Grid.mem_paths.1 hpath
  subst h
  exact ⟨hlen, (Grid.map_some_cellsAlong hp.isFilled hplaces).symm⟩

/-- The raster that a plan shows for a state, as its leaves tell it. -/
structure Shows (p : Plan) (s : ColorState) (r : Raster) : Prop where
  width_eq : r.width = p.width
  height_eq : r.height = p.height
  length_bytes : r.bytes.length = 4 * (p.width * p.height)
  pixel_eq : ∀ x y, x < p.width → y < p.height → ∃ leaf, p.leaf? x y = some leaf ∧
    r.pixel? x y = some (leaf.pixel s) ∧ (leaf.pixel s).alpha = 255

theorem shows_draw (hp : p.IsPlanned) (s : ColorState) : p.Shows s (p.draw s) := by
  have hw : (p.draw s).width = p.width := by rw [draw_eq_ofFn hp, Raster.width_ofFn]
  have hh : (p.draw s).height = p.height := by rw [draw_eq_ofFn hp, Raster.height_ofFn]
  refine ⟨hw, hh, ?_, ?_⟩
  · rw [Raster.length_bytes, hw, hh]
  · intro x y hx hy
    exact ⟨_, leaf?_of_lt hx hy, pixel?_draw hp s hx hy, rfl⟩

/-- A plan refuses exactly the states of another size, and draws for the others the colors of its
leaves. The leaves are those of the pixels, and go through cells of the grid. -/
theorem render_shows_leaves (hp : p.IsPlanned) (s : ColorState) :
    (s.size ≠ p.grid.numcolors → ∃ e, p.render s = .error e ∧ e.kind = .shape) ∧
      (s.size = p.grid.numcolors → ∃ r, p.render s = .ok r ∧ p.Shows s r) ∧
      (∀ x y, p.leaf? x y = none ↔ ¬(x < p.width ∧ y < p.height)) ∧
      ∀ x y leaf, p.leaf? x y = some leaf → leaf.path.length = p.depth ∧
        leaf.path.map (fun place => p.grid.cell? place.1 place.2) = leaf.cells.map some := by
  refine ⟨?_, ?_, fun x y => leaf?_eq_none, fun x y leaf h => isPath_of_leaf? hp h⟩
  · intro hs
    exact ⟨_, render_of_size_ne hs, rfl⟩
  · intro hs
    exact ⟨p.draw s, render_of_size_eq hs, shows_draw hp s⟩

theorem render_shows_leaves_two_by_three :
    twoByThree.IsPlanned ∧ ∃ r, twoByThree.render ⟨[.black, ⟨255, 0, 0⟩]⟩ = .ok r ∧
      twoByThree.Shows ⟨[.black, ⟨255, 0, 0⟩]⟩ r := by
  have hplanned := twoByThree_isPlanned
  exact ⟨hplanned, (render_shows_leaves hplanned ⟨[.black, ⟨255, 0, 0⟩]⟩).2.1 rfl⟩

end Quilt.Plan
