import Mathlib
import Quilt.Proofs.HiddenSlots

namespace Quilt

namespace ColorState
variable {s : ColorState} {n i : ℕ}

/-- The state with `n` colors: cut behind them, or padded with black. -/
def resize (n : ℕ) (s : ColorState) : ColorState := ⟨s.colors.takeD n .black⟩

theorem slot_resize (h : i < n) : (s.resize n).slot i = s.slot i := by
  obtain ⟨colors⟩ := s
  simp only [slot, resize, List.getD_eq_getElem?_getD]
  induction colors generalizing n i with
  | nil => simp [h]
  | cons color colors ih =>
    cases n with
    | zero => omega
    | succ n =>
      cases i with
      | zero => rfl
      | succ i => exact ih (Nat.lt_of_succ_lt_succ h)

theorem agreeOn_resize (n : ℕ) (s : ColorState) : s.AgreeOn (Set.Iio n) (s.resize n) :=
  fun _ hi => (slot_resize hi).symm

end ColorState

variable {s t : ColorState} {n : ℕ}

theorem Cell.apply_congr {cell : Cell} (h : ∀ i ∈ cell.slots, s.slot i = t.slot i) :
    cell.apply s = cell.apply t := by
  cases cell with
  | arithmetic outputs =>
    refine congrArg ColorState.mk (List.map_congr_left fun f hf => ?_)
    exact ColorFormula.eval_congr (List.forall_mem_flatMap.1 h f hf)
  | selection slots => exact congrArg ColorState.mk (List.map_congr_left h)

theorem Grid.apply_congr {g : Grid} (hg : g.IsCompiled) {cell : Cell} (hcell : cell ∈ g.cells)
    (h : s.AgreeOn (Set.Iio g.numcolors) t) : cell.apply s = cell.apply t :=
  Cell.apply_congr fun i hi => h i ((hg.isFor cell hcell).slots_lt i hi)

namespace Plan
variable {p : Plan} {x y : ℕ} {leaf : Leaf}

theorem path_eq_nil_iff (hp : p.IsPlanned) (h : p.leaf? x y = some leaf) :
    leaf.path = [] ↔ leaf.cells = [] := by
  have hlength : leaf.path.length = leaf.cells.length := by
    simpa using congrArg List.length (isPath_of_leaf? hp h).2
  rw [← List.length_eq_zero_iff, ← List.length_eq_zero_iff, hlength]

/-- The first cell on the way hides the difference between states that agree on the slots of the
grid. -/
theorem replay_congr (hp : p.IsPlanned) (h : p.leaf? x y = some leaf) (hpath : leaf.path ≠ [])
    (hagree : s.AgreeOn (Set.Iio p.grid.numcolors) t) : leaf.replay s = leaf.replay t := by
  have hmem := cells_of_leaf? h
  rw [ne_eq, path_eq_nil_iff hp h] at hpath
  obtain ⟨cell, cells, hcells⟩ := List.exists_cons_of_ne_nil hpath
  rw [hcells] at hmem
  have hcell := (List.forall_mem_cons.1 hmem).1
  rw [Leaf.replay, Leaf.replay, hcells, List.foldl_cons, List.foldl_cons,
    Grid.apply_congr hp.isCompiled hcell hagree]

/-- Cells read a slot that is missing as black, and no slot that the grid does not have. So does every
leaf that goes through a cell. A leaf that goes through none hands the state on. -/
theorem missing_slots_black :
    (∀ g : Grid, g.IsCompiled → ∀ cell ∈ g.cells, ∀ s : ColorState,
      cell.apply s = cell.apply (s.resize g.numcolors) ∧ (cell.apply s).size = g.numcolors) ∧
    ∀ p : Plan, p.IsPlanned → ∀ x y leaf, p.leaf? x y = some leaf → ∀ s : ColorState,
      (leaf.path ≠ [] → leaf.replay s = leaf.replay (s.resize p.grid.numcolors) ∧
        ∀ t, s.AgreeOn (Set.Iio p.grid.numcolors) t → leaf.replay s = leaf.replay t) ∧
      (leaf.path = [] → leaf.replay s = s) := by
  refine ⟨fun g hg cell hcell s => ⟨?_, ?_⟩, fun p hp x y leaf h s => ⟨fun hpath => ⟨?_, ?_⟩, ?_⟩⟩
  · exact Grid.apply_congr hg hcell (s.agreeOn_resize _)
  · rw [Cell.size_apply, (hg.isFor cell hcell).arity_eq]
  · exact replay_congr hp h hpath (s.agreeOn_resize _)
  · exact fun t hagree => replay_congr hp h hpath hagree
  · intro hpath
    rw [Leaf.replay, (path_eq_nil_iff hp h).1 hpath, List.foldl_nil]

/-- One color where formulas are for two, three where selections are, and a leaf at depth zero. -/
theorem missing_slots_black_hidden_second_slot :
    (∃ leaf, hiddenSecondSlot.leaf? 0 3 = some leaf ∧
      leaf.replay ⟨[⟨200, 80, 20⟩]⟩ = leaf.replay ⟨[⟨200, 80, 20⟩, .black]⟩) ∧
    (∃ leaf, twoByThree.leaf? 3 5 = some leaf ∧
      leaf.replay ⟨[.black, ⟨255, 0, 0⟩, ⟨9, 9, 9⟩]⟩ = leaf.replay ⟨[.black, ⟨255, 0, 0⟩]⟩) ∧
    ∃ p leaf, Plan.new .twoByThree 0 {} = .ok p ∧ p.leaf? 0 0 = some leaf ∧
      leaf.replay ⟨[⟨200, 80, 20⟩]⟩ = ⟨[⟨200, 80, 20⟩]⟩ := by
  have hcorner := leaf?_of_lt (p := hiddenSecondSlot) (x := 0) (y := 3) (by decide) (by decide)
  have hinner := leaf?_of_lt (p := twoByThree) (x := 3) (y := 5) (by decide) (by decide)
  have hnew : Plan.new .twoByThree 0 {} = .ok ⟨.twoByThree, 0, .rowsDown, 1, 1⟩ := rfl
  have hflat := IsPlanned.new Grid.twoByThree_isCompiled hnew
  have hpixel := leaf?_of_lt (p := ⟨.twoByThree, 0, .rowsDown, 1, 1⟩) (x := 0) (y := 0)
    (by decide) (by decide)
  obtain ⟨-, hleaves⟩ := missing_slots_black
  refine ⟨⟨_, hcorner, ?_⟩, ⟨_, hinner, ?_⟩, _, _, hnew, hpixel, ?_⟩
  · exact ((hleaves _ hiddenSecondSlot_isPlanned _ _ _ hcorner _).1 (by decide)).1
  · exact ((hleaves _ twoByThree_isPlanned _ _ _ hinner _).1 (by decide)).1
  · exact (hleaves _ hflat _ _ _ hpixel _).2 (by decide)

end Plan

end Quilt
