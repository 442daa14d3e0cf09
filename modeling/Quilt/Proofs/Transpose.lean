import Mathlib
import Quilt.Proofs.Animation

namespace Quilt

namespace Raster

/-- The raster with its rows and columns exchanged. -/
def transpose (r : Raster) : Raster :=
  ofFn r.height r.width fun x y => (r.pixel? y x).getD .clear

@[simp] theorem pixel?_transpose (r : Raster) (x y : ℕ) :
    r.transpose.pixel? x y = r.pixel? y x := by
  by_cases hin : x < r.height ∧ y < r.width
  · obtain ⟨p, hp⟩ := pixel?_of_lt hin.2 hin.1
    rw [transpose, pixel?_ofFn _ hin.1 hin.2, hp]
    rfl
  · rw [pixel?_eq_none.2 hin, pixel?_eq_none.2 fun h => hin h.symm]

@[simp] theorem transpose_transpose (r : Raster) : r.transpose.transpose = r := by
  have hw : r.transpose.transpose.width = r.width := rfl
  have hh : r.transpose.transpose.height = r.height := rfl
  apply ext_pixel? hw hh
  intro x y _ _
  rw [pixel?_transpose, pixel?_transpose]

theorem transpose_ofFn (w h : ℕ) (f : ℕ → ℕ → Pixel) :
    (ofFn w h f).transpose = ofFn h w fun x y => f y x := by
  have hw : (ofFn w h f).transpose.width = h := rfl
  have hh : (ofFn w h f).transpose.height = w := rfl
  apply eq_ofFn hw hh
  intro x y hx hy
  rw [pixel?_transpose, pixel?_ofFn f hy hx]

theorem transpose_inj {r t : Raster} : r.transpose = t.transpose ↔ r = t := by
  constructor
  · intro h
    rw [← r.transpose_transpose, h, t.transpose_transpose]
  · rintro rfl
    rfl

end Raster

/-- The call that a sink hears for the transposed frames. -/
def SinkCall.transpose : SinkCall → SinkCall
  | .begin config => .begin ⟨config.height, config.width, config.frames⟩
  | .push index raster => .push index raster.transpose
  | .finish => .finish

def Layout.other : Layout → Layout
  | rowsDown => rowsAcross
  | rowsAcross => rowsDown

theorem rasterSize_other (rows cols depth : ℕ) (opts : RenderOptions) :
    rasterSize rows cols depth { opts with layout := opts.layout.other } =
      (rasterSize rows cols depth opts).map Prod.swap := by
  dsimp only [rasterSize]
  split_ifs
  · rfl
  · cases extents? rows cols depth opts.maxPixels with
    | none => rfl
    | some extents => cases opts.layout <;> rfl

namespace Plan
variable {p : Plan}

/-- The plan of the same grid in the other layout. -/
def transpose (p : Plan) : Plan := ⟨p.grid, p.depth, p.layout.other, p.height, p.width⟩

theorem new_other (g : Grid) (depth : ℕ) (opts : RenderOptions) :
    Plan.new g depth { opts with layout := opts.layout.other } =
      (Plan.new g depth opts).map transpose := by
  rw [Plan.new, rasterSize_other, Plan.new]
  cases rasterSize g.rows g.cols depth opts <;> rfl

theorem IsPlanned.transpose (hp : p.IsPlanned) : p.transpose.IsPlanned := by
  obtain ⟨hg, h⟩ := hp
  have hother := new_other _ _ _ |>.trans (congrArg (Except.map Plan.transpose) h)
  exact .new hg hother

theorem leafAt_transpose (p : Plan) (x y : ℕ) : p.transpose.leafAt y x = p.leafAt x y := by
  obtain ⟨g, depth, layout, w, h⟩ := p
  cases layout <;> rfl

theorem leaf?_transpose (p : Plan) (x y : ℕ) : p.transpose.leaf? y x = p.leaf? x y := by
  rw [leaf?, leaf?, leafAt_transpose]
  exact if_congr and_comm rfl rfl

theorem draw_transpose (hp : p.IsPlanned) (s : ColorState) :
    p.transpose.draw s = (p.draw s).transpose := by
  rw [draw_eq_ofFn hp, draw_eq_ofFn hp.transpose, Raster.transpose_ofFn]
  simp only [leafAt_transpose]
  rfl

theorem drawOver_transpose (p : Plan) (base : Raster) (s : ColorState) :
    p.transpose.drawOver base.transpose s = (p.drawOver base s).transpose := by
  rw [drawOver, drawOver, Raster.transpose_ofFn]
  simp only [leafAt_transpose, Raster.pixel?_transpose]
  rfl

theorem render_transpose (hp : p.IsPlanned) (s : ColorState) :
    p.transpose.render s = (p.render s).map Raster.transpose := by
  by_cases hs : s.size = p.grid.numcolors
  · have hs' : s.size = p.transpose.grid.numcolors := hs
    rw [render_of_size_eq hs, render_of_size_eq hs', draw_transpose hp]
    rfl
  · have hs' : s.size ≠ p.transpose.grid.numcolors := hs
    rw [render_of_size_ne hs, render_of_size_ne hs']
    rfl

theorem composite_transpose (p : Plan) (base : Raster) (s : ColorState) (r : Raster) :
    p.transpose.composite base.transpose s = .ok r.transpose ↔ p.composite base s = .ok r := by
  rw [composite_eq_ok, composite_eq_ok, drawOver_transpose, Raster.transpose_inj]
  exact and_congr_right' (and_congr_left' and_comm)

theorem frame_transpose (hp : p.IsPlanned) (s : ColorState) (index : ℕ) :
    p.transpose.frame s index = (p.frame s index).transpose := by
  induction index with
  | zero => exact draw_transpose hp s
  | succ index ih => rw [frame, frame, ih, drawOver_transpose]

theorem script_transpose (hp : p.IsPlanned) (s : ColorState) (frames : ℕ) :
    p.transpose.script s frames = (p.script s frames).map SinkCall.transpose := by
  simp only [script, frame_transpose hp, List.map_cons, List.map_append, List.map_map,
    List.map_nil, Function.comp_def, SinkCall.transpose]
  rfl

theorem animate_transpose {m : Type → Type} [Monad m] [LawfulMonad m] (hp : p.IsPlanned)
    (s : ColorState) (frames : ℕ) (sink : FrameSink m) :
    p.transpose.animate s frames sink = p.animate s frames fun call => sink call.transpose := by
  by_cases hs : s.size = p.grid.numcolors
  · rw [animate_eq_forM hp hs, animate_eq_forM hp.transpose hs, script_transpose hp, List.forM_map]
  · have hs' : s.size ≠ p.transpose.grid.numcolors := hs
    rw [animate_of_size_ne hs, animate_of_size_ne hs']
    rfl

/-- Two plans that show the same quilt with rows and columns exchanged. What a sink hears of an
animation in one layout is the transpose, call by call, of what it hears in the other. -/
structure IsTransposeOf (across down : Plan) : Prop where
  width_eq : across.width = down.height
  height_eq : across.height = down.width
  leaf?_eq : ∀ x y, across.leaf? y x = down.leaf? x y
  render_eq : ∀ s, across.render s = (down.render s).map Raster.transpose
  composite_eq : ∀ base s r,
    across.composite base.transpose s = .ok r.transpose ↔ down.composite base s = .ok r
  animate_eq : ∀ {m : Type → Type} [Monad m] [LawfulMonad m] (s : ColorState) (frames : ℕ)
    (sink : FrameSink m),
    across.animate s frames sink = down.animate s frames fun call => sink call.transpose
  exists_calls : ∀ (s : ColorState) (frames : ℕ), s.size = down.grid.numcolors →
    ∃ calls : List SinkCall, ∀ {m : Type → Type} [Monad m] [LawfulMonad m] (sink : FrameSink m),
      down.animate s frames sink = forM calls sink ∧
        across.animate s frames sink = forM (calls.map SinkCall.transpose) sink

theorem isTransposeOf_transpose (hp : p.IsPlanned) : p.transpose.IsTransposeOf p where
  width_eq := rfl
  height_eq := rfl
  leaf?_eq := p.leaf?_transpose
  render_eq := render_transpose hp
  composite_eq := p.composite_transpose
  animate_eq := animate_transpose hp
  exists_calls := by
    intro s frames hs
    refine ⟨p.script s frames, fun sink => ⟨animate_eq_forM hp hs frames sink, ?_⟩⟩
    rw [animate_transpose hp, animate_eq_forM hp hs, List.forM_map]

/-- A grid is refused in both layouts for the same reason, or planned in both as transposes. -/
theorem new_layouts_transpose {g : Grid} (hg : g.IsCompiled) (depth : ℕ) (opts : RenderOptions) :
    (∃ e, Plan.new g depth { opts with layout := .rowsDown } = .error e ∧
      Plan.new g depth { opts with layout := .rowsAcross } = .error e) ∨
    ∃ down across, Plan.new g depth { opts with layout := .rowsDown } = .ok down ∧
      Plan.new g depth { opts with layout := .rowsAcross } = .ok across ∧
        across.IsTransposeOf down := by
  have hother := new_other g depth { opts with layout := .rowsDown }
  cases hdown : Plan.new g depth { opts with layout := .rowsDown } with
  | error e =>
    rw [hdown] at hother
    exact .inl ⟨e, rfl, hother⟩
  | ok down =>
    rw [hdown] at hother
    exact .inr ⟨down, down.transpose, rfl, hother, isTransposeOf_transpose (.new hg hdown)⟩

theorem new_layouts_transpose_two_by_three :
    Grid.twoByThree.IsCompiled ∧ ∃ down across,
      Plan.new .twoByThree 2 { layout := .rowsDown } = .ok down ∧
        Plan.new .twoByThree 2 { layout := .rowsAcross } = .ok across ∧
          across.IsTransposeOf down := by
  refine ⟨Grid.twoByThree_isCompiled, ?_⟩
  obtain ⟨e, he, -⟩ | h := new_layouts_transpose Grid.twoByThree_isCompiled 2 {}
  · have hok : Plan.new .twoByThree 2 { layout := .rowsDown } =
        .ok ⟨.twoByThree, 2, .rowsDown, 9, 4⟩ := rfl
    rw [hok] at he
    cases he
  · exact h

end Plan

end Quilt
