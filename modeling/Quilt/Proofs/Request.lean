import Mathlib
import Quilt.Proofs.Compile
import Quilt.Proofs.Plan
import Quilt.Request.Compile

namespace Quilt.Request
variable {req : Request} {opts : RenderOptions} {compiled : CompiledRequest} {g : Grid}

theorem compile_eq_ok : req.compile opts = .ok compiled ↔
    req.initialState = .ok compiled.initial ∧ req.compileGrid = .ok compiled.plan.grid ∧
      Plan.new compiled.plan.grid req.iterations opts = .ok compiled.plan ∧
        req.frames = compiled.frames := by
  simp only [compile, bind_eq_ok, pure_eq_ok]
  constructor
  · rintro ⟨initial, hinitial, grid, hgrid, plan, hplan, rfl⟩
    obtain rfl := (Plan.new_eq_ok.1 hplan).2.1
    exact ⟨hinitial, hgrid, hplan, rfl⟩
  · rintro ⟨hinitial, hgrid, hplan, hframes⟩
    refine ⟨_, hinitial, _, hgrid, _, hplan, ?_⟩
    rw [hframes]

theorem isCompiled_of_compileGrid (h : req.compileGrid = .ok g) : g.IsCompiled := by
  unfold compileGrid Grid.compile at h
  split at h
  · exact .expressions h
  · exact .permutations h

theorem isPlanned_of_compile (h : req.compile opts = .ok compiled) : compiled.plan.IsPlanned := by
  obtain ⟨-, hgrid, hplan, -⟩ := compile_eq_ok.1 h
  exact .new (isCompiled_of_compileGrid hgrid) hplan

theorem firstWidth_of_rectangle {α : Type} {lines : List (List α)} {rows cols : ℕ}
    (h : Grid.rectangle lines = .ok (rows, cols)) :
    (lines.length, Functions.firstWidth lines) = (rows, cols) := by
  obtain ⟨hlen, hrows, -, hall⟩ := Grid.rectangle_eq_ok.1 h
  cases lines with
  | nil =>
    rw [← hlen] at hrows
    cases hrows
  | cons first rest => rw [hlen, Functions.firstWidth, hall first (List.mem_cons_self ..)]

theorem dims_of_compileGrid (h : req.compileGrid = .ok g) :
    req.functions.dims = (g.rows, g.cols) := by
  unfold compileGrid Grid.compile at h
  cases hfunctions : req.functions with
  | expressions lines =>
    rw [hfunctions] at h
    exact firstWidth_of_rectangle (Grid.compileExpressions_eq_ok.1 h).rectangle_eq
  | permutations lines =>
    rw [hfunctions] at h
    exact firstWidth_of_rectangle (Grid.compilePermutations_eq_ok.1 h).rectangle_eq

theorem color_count_of_compileGrid (h : req.compileGrid = .ok g) :
    g.numcolors = req.colors.length ∧ 1 ≤ req.colors.length := by
  unfold compileGrid Grid.compile at h
  split at h
  · have hg := Grid.compileExpressions_eq_ok.1 h
    exact ⟨hg.numcolors_eq, hg.color_count.1⟩
  · have hg := Grid.compilePermutations_eq_ok.1 h
    exact ⟨hg.numcolors_eq, hg.color_count.1⟩

theorem size_of_initialState {initial : ColorState} (h : req.initialState = .ok initial) :
    initial.size = req.colors.length := by
  unfold initialState at h
  split_ifs at h
  obtain ⟨colors, hcolors, h⟩ := bind_eq_ok.1 h
  obtain ⟨rfl, -⟩ := ColorState.ofColors_eq_ok_iff.1 h
  rw [ColorState.size, ← (mapM_eq_ok.1 hcolors).length_eq, List.length_zipIdx]

theorem size_initial_of_compile (h : req.compile opts = .ok compiled) :
    compiled.initial.size = compiled.plan.grid.numcolors := by
  obtain ⟨hinitial, hgrid, -, -⟩ := compile_eq_ok.1 h
  rw [size_of_initialState hinitial, (color_count_of_compileGrid hgrid).1]

theorem exists_render_of_compile (h : req.compile opts = .ok compiled) :
    ∃ frame, req.render opts = .ok frame ∧ frame.width = compiled.plan.width ∧
      frame.height = compiled.plan.height := by
  have hshows := Plan.shows_draw (isPlanned_of_compile h) compiled.initial
  refine ⟨_, ?_, hshows.width_eq, hshows.height_eq⟩
  exact bind_eq_ok.2 ⟨compiled, h, Plan.render_of_size_eq (size_initial_of_compile h)⟩

end Quilt.Request
