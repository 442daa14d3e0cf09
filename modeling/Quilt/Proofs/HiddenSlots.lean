import Mathlib
import Quilt.Proofs.Alike
import Quilt.Proofs.WellFormed

namespace Quilt

/-- Two states that hold the same colors in some of their slots. -/
def ColorState.AgreeOn (slots : Set ℕ) (s t : ColorState) : Prop := ∀ i ∈ slots, s.slot i = t.slot i

/-- The slots that one color of what a cell puts out is made from. -/
def Cell.sources : Cell → ℕ → List ℕ
  | arithmetic outputs, i => outputs[i]?.elim [] ColorFormula.slots
  | selection slots, i => slots[i]?.toList

/-- The slots that the visible one depends on are among these. -/
structure Grid.Closed (slots : Set ℕ) (g : Grid) : Prop where
  visible : 0 ∈ slots
  sources_mem : ∀ cell ∈ g.cells, ∀ i ∈ slots, ∀ source ∈ cell.sources i, source ∈ slots

variable {s t : ColorState} {slots : Set ℕ}

theorem Operand.eval_congr {operand : Operand} (h : ∀ i ∈ operand.slots, s.slot i = t.slot i) :
    operand.eval s = operand.eval t := by
  cases operand with
  | component ch slot => exact congrArg (·.get ch) (h slot (List.mem_singleton_self slot))
  | literal => rfl

theorem Chain.eval_congr {c : Chain} (h : ∀ i ∈ c.slots, s.slot i = t.slot i) :
    c.eval s = c.eval t := by
  obtain ⟨hhead, htail⟩ := List.forall_mem_cons.1 (List.forall_mem_flatMap.1 h)
  rw [eval, eval, Operand.eval_congr hhead]
  apply List.foldl_ext
  intro acc link hlink
  rw [Operand.eval_congr (List.forall_mem_map.1 htail link hlink)]

theorem ColorFormula.eval_congr {f : ColorFormula} (h : ∀ i ∈ f.slots, s.slot i = t.slot i) :
    f.eval s = f.eval t := by
  ext ch
  rw [eval, eval, Color.get_ofChannels, Color.get_ofChannels]
  refine Chain.eval_congr (List.forall_mem_flatMap.1 h ch ?_)
  cases ch <;> simp [Channel.all]

theorem ColorState.slot_map {α : Type} (f : α → Color) (l : List α) (i : ℕ) :
    ColorState.slot ⟨l.map f⟩ i = l[i]?.elim .black f := by
  rw [slot, List.getD_eq_getElem?_getD, List.getElem?_map]
  cases l[i]? <;> rfl

theorem Cell.slot_apply_congr {cell : Cell} {i : ℕ}
    (h : ∀ source ∈ cell.sources i, s.slot source = t.slot source) :
    (cell.apply s).slot i = (cell.apply t).slot i := by
  cases cell with
  | arithmetic outputs =>
    rw [apply, apply, ColorState.slot_map, ColorState.slot_map]
    rw [sources] at h
    cases houtput : outputs[i]? with
    | none => simp only [Option.elim_none]
    | some f =>
      rw [houtput] at h
      exact ColorFormula.eval_congr h
  | selection slots =>
    rw [apply, apply, ColorState.select, ColorState.select]
    rw [ColorState.slot_map, ColorState.slot_map]
    rw [sources] at h
    cases hslot : slots[i]? with
    | none => simp only [Option.elim_none]
    | some source =>
      rw [hslot] at h
      exact h source (List.mem_singleton_self source)

namespace ColorState.AgreeOn

theorem apply {g : Grid} (hg : g.Closed slots) {cell : Cell} (hcell : cell ∈ g.cells)
    (h : s.AgreeOn slots t) : (cell.apply s).AgreeOn slots (cell.apply t) := by
  intro i hi
  apply Cell.slot_apply_congr
  intro source hsource
  exact h source (hg.sources_mem cell hcell i hi source hsource)

theorem foldl_apply {g : Grid} (hg : g.Closed slots) {cells : List Cell}
    (hcells : ∀ cell ∈ cells, cell ∈ g.cells) (h : s.AgreeOn slots t) :
    (cells.foldl (fun s cell => cell.apply s) s).AgreeOn slots
      (cells.foldl (fun s cell => cell.apply s) t) := by
  induction cells generalizing s t with
  | nil => exact h
  | cons cell cells ih =>
    obtain ⟨hcell, hcells⟩ := List.forall_mem_cons.1 hcells
    exact ih hcells (h.apply hg hcell)

theorem withPrimary (hs : 0 < s.size) (ht : 0 < t.size) (h : s.AgreeOn slots t) (c : Color) :
    (s.withPrimary c).AgreeOn slots (t.withPrimary c) := by
  intro i hi
  by_cases hzero : i = 0
  · rw [hzero, slot_withPrimary_zero c hs, slot_withPrimary_zero c ht]
  · rw [slot_withPrimary_of_ne c hzero, slot_withPrimary_of_ne c hzero, h i hi]

end ColorState.AgreeOn

namespace Plan
variable {p : Plan}

theorem pixel_leafAt_congr (hclosed : p.grid.Closed slots) (h : s.AgreeOn slots t) (x y : ℕ) :
    (p.leafAt x y).pixel s = (p.leafAt x y).pixel t := by
  have hcells : ∀ cell ∈ (p.leafAt x y).cells, cell ∈ p.grid.cells := fun cell =>
    Grid.mem_cells_of_mem_cellsAlong
  have hreplay : ((p.leafAt x y).replay s).AgreeOn slots ((p.leafAt x y).replay t) :=
    h.foldl_apply hclosed hcells
  rw [Leaf.pixel, Leaf.pixel, ColorState.primary, ColorState.primary, hreplay 0 hclosed.visible]

theorem draw_congr (hp : p.IsPlanned) (hclosed : p.grid.Closed slots) (h : s.AgreeOn slots t) :
    p.draw s = p.draw t := by
  simp only [draw_eq_ofFn hp, pixel_leafAt_congr hclosed h]

theorem drawOver_congr (hclosed : p.grid.Closed slots) (hs : 0 < s.size) (ht : 0 < t.size)
    (h : s.AgreeOn slots t) (base : Raster) : p.drawOver base s = p.drawOver base t := by
  simp only [drawOver, pixel_leafAt_congr hclosed (h.withPrimary hs ht _)]

/-- Two states of a plan that agree on a closed set of slots show the same: rendered, over any base,
and in every animation. -/
theorem agreeing_states_show_alike (hp : p.IsPlanned) (hclosed : p.grid.Closed slots)
    (hs : s.size = p.grid.numcolors) (ht : t.size = p.grid.numcolors) (h : s.AgreeOn slots t) :
    (∃ r, p.render s = .ok r ∧ p.render t = .ok r) ∧
      (∀ base, p.composite base s = p.composite base t) ∧
      ∀ {m : Type → Type} [Monad m] (count : ℕ) (sink : FrameSink m),
        p.animate s count sink = p.animate t count sink := by
  have hpos := hp.isCompiled.numcolors_pos
  have hrender : p.render s = p.render t := by
    rw [render_of_size_eq hs, render_of_size_eq ht, draw_congr hp hclosed h]
  have hcomposite : ∀ base, p.composite base s = p.composite base t := by
    intro base
    rw [composite_eq, composite_eq, hs, ht,
      drawOver_congr hclosed (hs ▸ hpos) (ht ▸ hpos) h]
  refine ⟨⟨_, hrender.trans (render_of_size_eq ht), render_of_size_eq ht⟩, hcomposite, ?_⟩
  intro m _ count sink
  -- Frame by frame the loops go on alike.
  have hnext : p.nextFrame s = p.nextFrame t := by
    funext previous
    cases previous with
    | none => exact hrender
    | some previous => exact hcomposite previous
  simp only [animate, checkState, hs, ht, pushFrames_congr hnext]

/-- Two rows of formulas for two colors, of which the second stays hidden. -/
def hiddenSecondSlot : Plan where
  depth := 2
  layout := .rowsDown
  width := 1
  height := 4
  grid :=
    { rows := 2
      cols := 1
      numcolors := 2
      kind := .arithmetic
      cells := #[
        .arithmetic [
          ⟨⟨"r0/2", .component .red 0, [(.div, .literal 2)]⟩, ⟨"g0", .component .green 0, []⟩,
            ⟨"b0", .component .blue 0, []⟩⟩,
          ⟨⟨"r1+g0", .component .red 1, [(.add, .component .green 0)]⟩,
            ⟨"g1", .component .green 1, []⟩, ⟨"7", .literal 7, []⟩⟩],
        .arithmetic [
          ⟨⟨"g0", .component .green 0, []⟩, ⟨"r0", .component .red 0, []⟩,
            ⟨"b0", .component .blue 0, []⟩⟩,
          ⟨⟨"r0", .component .red 0, []⟩, ⟨"g0", .component .green 0, []⟩,
            ⟨"b1", .component .blue 1, []⟩⟩]] }

theorem hiddenSecondSlot_isPlanned : hiddenSecondSlot.IsPlanned := by
  have hgrid : Grid.compileExpressions 2
      [[[["r0/2", "g0", "b0"], ["r1+g0", "g1", "7"]]], [[["g0", "r0", "b0"], ["r0", "g0", "b1"]]]] =
      .ok hiddenSecondSlot.grid := by decide +kernel
  have h : Plan.new hiddenSecondSlot.grid 2 {} = .ok hiddenSecondSlot := rfl
  exact .new (.expressions hgrid) h

theorem hiddenSecondSlot_closed : hiddenSecondSlot.grid.Closed {0} := by
  have hsources : ∀ cell ∈ hiddenSecondSlot.grid.cells.toList,
      ∀ source ∈ cell.sources 0, source = 0 := by
    decide
  refine ⟨rfl, ?_⟩
  rintro cell hcell _ rfl source hsource
  exact hsources cell (Array.mem_toList_iff.2 hcell) source hsource

theorem agreeing_states_show_alike_hidden_second_slot :
    hiddenSecondSlot.IsPlanned ∧ hiddenSecondSlot.grid.Closed {0} ∧ ∃ r,
      hiddenSecondSlot.render ⟨[⟨200, 80, 20⟩, .black]⟩ = .ok r ∧
        hiddenSecondSlot.render ⟨[⟨200, 80, 20⟩, ⟨255, 0, 0⟩]⟩ = .ok r := by
  have hagree :
      ColorState.AgreeOn {0} ⟨[⟨200, 80, 20⟩, .black]⟩ ⟨[⟨200, 80, 20⟩, ⟨255, 0, 0⟩]⟩ := by
    rintro _ rfl
    rfl
  exact ⟨hiddenSecondSlot_isPlanned, hiddenSecondSlot_closed,
    (agreeing_states_show_alike hiddenSecondSlot_isPlanned hiddenSecondSlot_closed rfl rfl hagree).1⟩

end Plan

end Quilt
