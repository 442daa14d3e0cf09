import Mathlib
import Quilt.Proofs.Plan
import Quilt.Proofs.WellFormed

namespace Quilt

namespace ColorState
variable {s t : ColorState} {slots : List ℕ} {i n : ℕ}

/-- Every color of a state put through a function. -/
def recolor (f : Color → Color) (s : ColorState) : ColorState := ⟨s.colors.map f⟩

@[simp] theorem size_recolor (f : Color → Color) (s : ColorState) : (s.recolor f).size = s.size :=
  List.length_map f

@[simp] theorem size_select (slots : List ℕ) (s : ColorState) : (s.select slots).size = slots.length :=
  List.length_map s.slot

theorem slot_select (h : i < slots.length) : (s.select slots).slot i = s.slot (slots.getD i 0) := by
  rw [slot, select, List.getD_eq_getElem _ _ (by rwa [List.length_map]), List.getElem_map,
    List.getD_eq_getElem _ _ h]

theorem slot_recolor (f : Color → Color) (h : i < s.size) : (s.recolor f).slot i = f (s.slot i) := by
  rw [slot, slot, recolor, List.getD_eq_getElem _ _ (by rwa [List.length_map]), List.getElem_map,
    List.getD_eq_getElem _ _ h]
  rfl

theorem ext_slot (hsize : s.size = t.size) (hslot : ∀ i < s.size, s.slot i = t.slot i) : s = t := by
  obtain ⟨as⟩ := s
  obtain ⟨bs⟩ := t
  congr 1
  refine List.ext_getElem hsize fun i ha hb => ?_
  have heq := hslot i ha
  rwa [slot, slot, List.getD_eq_getElem _ _ ha, List.getD_eq_getElem _ _ hb] at heq

theorem permute_eq_ok : s.permute slots = .ok t ↔
    (1 ≤ slots.length ∧ slots.length ≤ maxColors) ∧ (∀ slot ∈ slots, slot < s.size) ∧
      s.select slots = t := by
  unfold permute
  split_ifs with hcount
  · simp only [false_iff]
    rintro ⟨⟨hpos, hmax⟩, -⟩
    obtain hempty | hmany := hcount
    · rw [List.isEmpty_iff] at hempty
      simp [hempty] at hpos
    · omega
  · rw [not_or, List.isEmpty_iff, ← ne_eq, ← List.length_pos_iff, not_lt] at hcount
    split
    · next outside hfind =>
      simp only [reduceCtorEq, false_iff]
      rintro ⟨-, hslots, -⟩
      have hin := hslots outside (List.mem_of_find?_eq_some hfind)
      have hout : s.size ≤ outside := by simpa using List.find?_some hfind
      omega
    · next hfind =>
      have hslots : ∀ slot ∈ slots, slot < s.size := by simpa using hfind
      rw [Except.ok.injEq]
      exact ⟨fun h => ⟨hcount, hslots, h⟩, fun h => h.2.2⟩

end ColorState

/-- A selection of as many slots as there are colors, among these. -/
def IsSelection (numcolors : ℕ) (slots : List ℕ) : Prop :=
  slots.length = numcolors ∧ ∀ slot ∈ slots, slot < numcolors

/-- The slot of the first state that a slot of the last one is taken from, through selections made one
after the other. -/
def originOf (selections : List (List ℕ)) (slot : ℕ) : ℕ :=
  selections.foldr (fun slots slot => slots.getD slot 0) slot

/-- The selection that selections made one after the other come to. -/
def composed (numcolors : ℕ) (selections : List (List ℕ)) : List ℕ :=
  (List.range numcolors).map (originOf selections)

section Selections
variable {numcolors slot : ℕ} {slots : List ℕ} {selections : List (List ℕ)} {s : ColorState}

theorem IsSelection.getD_lt (h : IsSelection numcolors slots) (hslot : slot < numcolors) :
    slots.getD slot 0 < numcolors := by
  have hlt : slot < slots.length := h.1 ▸ hslot
  rw [List.getD_eq_getElem _ _ hlt]
  exact h.2 _ (List.getElem_mem hlt)

theorem originOf_lt (h : ∀ slots ∈ selections, IsSelection numcolors slots)
    (hslot : slot < numcolors) : originOf selections slot < numcolors := by
  induction selections with
  | nil => exact hslot
  | cons slots selections ih =>
    obtain ⟨hhead, htail⟩ := List.forall_mem_cons.1 h
    exact hhead.getD_lt (ih htail)

theorem isSelection_composed (h : ∀ slots ∈ selections, IsSelection numcolors slots) :
    IsSelection numcolors (composed numcolors selections) :=
  ⟨by simp [composed], List.forall_mem_map.2 fun _ hslot => originOf_lt h (List.mem_range.1 hslot)⟩

theorem slot_foldl_select (h : ∀ slots ∈ selections, IsSelection numcolors slots)
    (s : ColorState) (hslot : slot < numcolors) :
    (selections.foldl (fun s slots => s.select slots) s).slot slot =
      s.slot (originOf selections slot) := by
  -- The first selection is made first, so it is the last one on the way back.
  induction selections generalizing s with
  | nil => rfl
  | cons slots selections ih =>
    obtain ⟨hhead, htail⟩ := List.forall_mem_cons.1 h
    rw [List.foldl_cons, ih htail, ColorState.slot_select (hhead.1 ▸ originOf_lt htail hslot)]
    rfl

theorem size_foldl_select (h : ∀ slots ∈ selections, IsSelection numcolors slots)
    (hs : s.size = numcolors) :
    (selections.foldl (fun s slots => s.select slots) s).size = numcolors := by
  refine List.foldlRecOn (motive := fun reached : ColorState => reached.size = numcolors) _ _ hs ?_
  intro reached _ slots hslots
  rw [ColorState.size_select, (h slots hslots).1]

/-- Selections made one after the other are one selection. -/
theorem foldl_select (h : ∀ slots ∈ selections, IsSelection numcolors slots)
    (hs : s.size = numcolors) :
    selections.foldl (fun s slots => s.select slots) s =
      s.select (composed numcolors selections) := by
  have hsize := size_foldl_select h hs
  have hlength := (isSelection_composed h).1
  refine ColorState.ext_slot (by rw [hsize, ColorState.size_select, hlength]) fun i hi => ?_
  rw [hsize] at hi
  rw [slot_foldl_select h s hi, ColorState.slot_select (hlength.symm ▸ hi), composed,
    List.getD_eq_getElem _ _ (by rwa [← composed, hlength]), List.getElem_map, List.getElem_range]

theorem IsSelection.recolor_select (h : IsSelection numcolors slots) (hs : s.size = numcolors)
    (f : Color → Color) : (s.recolor f).select slots = (s.select slots).recolor f := by
  refine ColorState.ext_slot (by simp) fun i hi => ?_
  rw [ColorState.size_select] at hi
  have hslot : slots.getD i 0 < s.size := hs ▸ h.getD_lt (h.1 ▸ hi)
  rw [ColorState.slot_recolor _ (by rwa [ColorState.size_select]), ColorState.slot_select hi,
    ColorState.slot_select hi, ColorState.slot_recolor _ hslot]

end Selections

theorem Cell.exists_selection {numcolors : ℕ} {cell : Cell} (h : cell.IsFor .permutation numcolors) :
    ∃ slots, cell = .selection slots ∧ IsSelection numcolors slots := by
  cases cell with
  | arithmetic outputs => cases h.kind_eq
  | selection slots => exact ⟨slots, rfl, h.arity_eq, h.slots_lt⟩

theorem exists_selections {numcolors : ℕ} {cells : List Cell}
    (h : ∀ cell ∈ cells, cell.IsFor .permutation numcolors) :
    ∃ selections : List (List ℕ), cells = selections.map Cell.selection ∧
      ∀ slots ∈ selections, IsSelection numcolors slots := by
  induction cells with
  | nil => exact ⟨[], rfl, List.forall_mem_nil _⟩
  | cons cell cells ih =>
    obtain ⟨hcell, hcells⟩ := List.forall_mem_cons.1 h
    obtain ⟨slots, rfl, hslots⟩ := Cell.exists_selection hcell
    obtain ⟨selections, rfl, hselections⟩ := ih hcells
    exact ⟨slots :: selections, rfl, List.forall_mem_cons.2 ⟨hslots, hselections⟩⟩

theorem Leaf.replay_selections (path : List (ℕ × ℕ)) (selections : List (List ℕ)) (s : ColorState) :
    Leaf.replay ⟨path, selections.map Cell.selection⟩ s =
      selections.foldl (fun s slots => s.select slots) s :=
  List.foldl_map

/-- A leaf that acts as one selection: the one that the selections along its path come to. -/
structure Leaf.Relabels (g : Grid) (leaf : Leaf) (slots : List ℕ) : Prop where
  isSelection : IsSelection g.numcolors slots
  exists_selections : ∃ selections : List (List ℕ),
    leaf.path.map (fun place => g.cell? place.1 place.2) =
      selections.map (fun slots => some (Cell.selection slots)) ∧
      (∀ slots ∈ selections, IsSelection g.numcolors slots) ∧ slots = composed g.numcolors selections
  permute_eq : ∀ s : ColorState, s.size = g.numcolors → s.permute slots = .ok (leaf.replay s)
  replay_recolor : ∀ s : ColorState, s.size = g.numcolors → ∀ f,
    leaf.replay (s.recolor f) = (leaf.replay s).recolor f

namespace Plan
variable {p : Plan} {x y : ℕ}

theorem exists_relabels_leafAt (hp : p.IsPlanned) (hkind : p.grid.kind = .permutation)
    (hx : x < p.width) (hy : y < p.height) :
    ∃ slots, (p.leafAt x y).Relabels p.grid slots ∧
      ∀ s : ColorState, s.size = p.grid.numcolors → (p.leafAt x y).replay s = s.select slots := by
  have hfor : ∀ cell ∈ (p.leafAt x y).cells, cell.IsFor .permutation p.grid.numcolors := by
    intro cell hcell
    rw [← hkind]
    exact hp.isCompiled.isFor cell (Grid.mem_cells_of_mem_cellsAlong hcell)
  obtain ⟨selections, hcells, hselections⟩ := exists_selections hfor
  have hslots := isSelection_composed hselections
  have hreplay : ∀ s : ColorState, s.size = p.grid.numcolors →
      (p.leafAt x y).replay s = s.select (composed p.grid.numcolors selections) := by
    intro s hs
    rw [← foldl_select hselections hs, ← Leaf.replay_selections (p.leafAt x y).path, ← hcells]
  refine ⟨_, ⟨hslots, ⟨selections, ?_, hselections, rfl⟩, fun s hs => ?_, fun s hs f => ?_⟩, hreplay⟩
  · rw [(isPath_of_leaf? hp (leaf?_of_lt hx hy)).2, hcells, List.map_map]
    rfl
  · rw [hreplay s hs, ColorState.permute_eq_ok, hslots.1, hs]
    exact ⟨hp.isCompiled.color_count, hslots.2, rfl⟩
  · rw [hreplay _ (by rw [ColorState.size_recolor, hs]), hreplay s hs, hslots.recolor_select hs]

/-- Every leaf of a plan on a grid of selections acts on the states that the plan is for as a single
selection, the one that the selections along its path come to. Its pixel shows one slot of the first
state, the same for all states. -/
theorem exists_relabels (hp : p.IsPlanned) (hkind : p.grid.kind = .permutation) (hx : x < p.width)
    (hy : y < p.height) :
    ∃ leaf slots shown, p.leaf? x y = some leaf ∧ leaf.Relabels p.grid slots ∧
      slots[0]? = some shown ∧ ∀ s : ColorState, s.size = p.grid.numcolors →
        ∃ r color, p.render s = .ok r ∧ s.get? shown = some color ∧
          r.pixel? x y = some (.ofColor color) := by
  obtain ⟨slots, hrelabels, hreplay⟩ := exists_relabels_leafAt hp hkind hx hy
  obtain ⟨hlength, hslots⟩ := hrelabels.isSelection
  have hpos : 0 < slots.length := by
    obtain ⟨kind, numcolors, hwell⟩ := hp.isCompiled.exists_wellFormed
    rw [hlength, hwell.numcolors_eq]
    exact hwell.color_count.1
  refine ⟨_, slots, slots[0], leaf?_of_lt hx hy, hrelabels, List.getElem?_eq_getElem hpos, ?_⟩
  intro s hs
  have hshown : slots[0] < s.size := hs ▸ hslots _ (List.getElem_mem hpos)
  refine ⟨_, _, render_of_size_eq hs, ColorState.get?_eq_some hshown, ?_⟩
  rw [pixel?_draw hp s hx hy, Leaf.pixel, hreplay s hs, ColorState.primary,
    ColorState.slot_select hpos, List.getD_eq_getElem _ _ hpos]

theorem exists_relabels_two_by_three :
    twoByThree.IsPlanned ∧ twoByThree.grid.kind = .permutation ∧ 3 < twoByThree.width ∧
      5 < twoByThree.height ∧ ∃ leaf slots shown, twoByThree.leaf? 3 5 = some leaf ∧
        leaf.Relabels .twoByThree slots ∧ slots[0]? = some shown := by
  have hx : 3 < twoByThree.width := by decide
  have hy : 5 < twoByThree.height := by decide
  obtain ⟨leaf, slots, shown, hleaf, hrelabels, hshown, -⟩ :=
    exists_relabels twoByThree_isPlanned rfl hx hy
  exact ⟨twoByThree_isPlanned, rfl, hx, hy, leaf, slots, shown, hleaf, hrelabels, hshown⟩

end Plan

end Quilt
