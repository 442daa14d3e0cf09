import Mathlib
import Quilt.Proofs.Composite
import Quilt.Proofs.Relabeling

namespace Quilt.ColorState
variable {s t : ColorState} {slots : List ℕ} {cell : Cell}

/-- The operations on a state. Cells and leaves may be made for another number of colors. -/
inductive Step (s : ColorState) : ColorState → Prop
  | withPrimary (c : Color) : Step s (s.withPrimary c)
  | permute {slots : List ℕ} {t : ColorState} (h : s.permute slots = .ok t) : Step s t
  | cell {g : Grid} {cell : Cell} (hg : g.IsCompiled) (hcell : cell ∈ g.cells) :
      Step s (cell.apply s)
  | identity {numcolors : ℕ} {cell : Cell} (h : Cell.identity numcolors = .ok cell) :
      Step s (cell.apply s)
  | leaf {p : Plan} {x y : ℕ} {leaf : Leaf} (hp : p.IsPlanned) (h : p.leaf? x y = some leaf) :
      Step s (leaf.replay s)

theorem legal_withPrimary (hs : s.Legal) (c : Color) : (s.withPrimary c).Legal := by
  rwa [Legal, size_withPrimary]

theorem legal_of_permute (h : s.permute slots = .ok t) : t.Legal := by
  obtain ⟨hcount, -, rfl⟩ := permute_eq_ok.1 h
  rwa [Legal, size_select]

theorem legal_apply (h : 1 ≤ cell.arity ∧ cell.arity ≤ maxColors) : (cell.apply s).Legal := by
  rwa [Legal, Cell.size_apply]

theorem legal_apply_of_mem {g : Grid} (hg : g.IsCompiled) (hcell : cell ∈ g.cells) :
    (cell.apply s).Legal := by
  apply legal_apply
  rw [(hg.isFor cell hcell).arity_eq]
  exact hg.color_count

theorem legal_replay {p : Plan} {leaf : Leaf} {x y : ℕ} (hp : p.IsPlanned)
    (h : p.leaf? x y = some leaf) (hs : s.Legal) : (leaf.replay s).Legal := by
  -- A leaf at depth zero keeps the state, so that the legality of the first one is needed.
  refine List.foldlRecOn (motive := ColorState.Legal) _ _ hs ?_
  intro reached _ cell hcell
  exact legal_apply_of_mem hp.isCompiled (Plan.cells_of_leaf? h cell hcell)

theorem Step.legal (hs : s.Legal) (h : s.Step t) : t.Legal := by
  cases h with
  | withPrimary c => exact legal_withPrimary hs c
  | permute h => exact legal_of_permute h
  | cell hg hcell => exact legal_apply_of_mem hg hcell
  | identity h =>
    obtain ⟨hcount, rfl⟩ := Cell.identity_eq_ok.1 h
    apply legal_apply
    rwa [Cell.arity, List.length_range]
  | leaf hp h => exact legal_replay hp h hs

theorem legal_of_steps (hs : s.Legal) (h : Relation.ReflTransGen Step s t) : t.Legal := by
  induction h with
  | refl => exact hs
  | tail _ hstep ih => exact hstep.legal ih

theorem Legal.get?_zero (hs : s.Legal) : s.get? 0 = some s.primary := get?_eq_some hs.1

/-- Whatever is done to a checked state, between one and ten colors are left, the visible one among
them, and that one can be replaced. -/
theorem reached_states_legal {colors : List Color} (h : ofColors colors = .ok s)
    (hsteps : Relation.ReflTransGen Step s t) :
    t.Legal ∧ t.get? 0 = some t.primary ∧ ∀ c, (t.withPrimary c).get? 0 = some c := by
  have ht : t.Legal := legal_of_steps (ofColors_eq_ok_iff.1 h).2 hsteps
  refine ⟨ht, ht.get?_zero, fun c => ?_⟩
  rw [(legal_withPrimary ht c).get?_zero, primary, slot_withPrimary_zero c ht.1]

/-- One color, widened to three, to ten, and back to two by a leaf of a plan for two. -/
theorem reached_states_legal_widened :
    ofColors [⟨255, 0, 0⟩] = .ok ⟨[⟨255, 0, 0⟩]⟩ ∧ ∃ wide ten leaf,
      permute [0, 0, 0] ⟨[⟨255, 0, 0⟩]⟩ = .ok wide ∧ Cell.identity 10 = .ok ten ∧
        Plan.twoByThree.leaf? 3 5 = some leaf ∧
          Relation.ReflTransGen Step ⟨[⟨255, 0, 0⟩]⟩ (leaf.replay (ten.apply wide)) ∧
            (leaf.replay (ten.apply wide)).Legal := by
  have hwide : permute [0, 0, 0] ⟨[⟨255, 0, 0⟩]⟩ =
      .ok ⟨[⟨255, 0, 0⟩, ⟨255, 0, 0⟩, ⟨255, 0, 0⟩]⟩ := rfl
  have hten : Cell.identity 10 = .ok (.selection (List.range 10)) := rfl
  have hleaf := Plan.leaf?_of_lt (p := Plan.twoByThree) (x := 3) (y := 5) (by decide) (by decide)
  have hcolors : ofColors [⟨255, 0, 0⟩] = .ok ⟨[⟨255, 0, 0⟩]⟩ := rfl
  have hsteps := ((Relation.ReflTransGen.single (Step.permute hwide)).tail
    (Step.identity hten)).tail (Step.leaf Plan.twoByThree_isPlanned hleaf)
  exact ⟨hcolors, _, _, _, hwide, hten, hleaf, hsteps, (reached_states_legal hcolors hsteps).1⟩

end Quilt.ColorState
