import Mathlib
import Quilt.Proofs.Plan

namespace Quilt

namespace ColorState
variable {s : ColorState} {i : ℕ}

@[simp] theorem size_withPrimary (c : Color) (s : ColorState) : (s.withPrimary c).size = s.size :=
  List.length_set

theorem slot_withPrimary_zero (c : Color) (hs : 0 < s.size) : (s.withPrimary c).slot 0 = c := by
  rw [slot, withPrimary, List.getD_eq_getElem?_getD, List.getElem?_set_self hs, Option.getD_some]

theorem slot_withPrimary_of_ne (c : Color) (hi : i ≠ 0) : (s.withPrimary c).slot i = s.slot i := by
  rw [slot, slot, withPrimary, List.getD_eq_getElem?_getD, List.getElem?_set_ne hi.symm,
    List.getD_eq_getElem?_getD]

theorem withPrimary_primary (s : ColorState) : s.withPrimary s.primary = s := by
  obtain ⟨_ | ⟨color, colors⟩⟩ := s <;> rfl

end ColorState

namespace Plan
variable {p : Plan} {base : Raster} {s : ColorState} {x y : ℕ}

theorem composite_eq : p.composite base s =
    if s.size = p.grid.numcolors then
      if base.width = p.width ∧ base.height = p.height then .ok (p.drawOver base s)
      else .error (.baseSize base.width base.height p.width p.height)
    else .error (.stateColors s.size p.grid.numcolors) := by
  unfold composite checkState
  split_ifs <;> rfl

theorem composite_of_size_ne (hs : s.size ≠ p.grid.numcolors) :
    p.composite base s = .error (.stateColors s.size p.grid.numcolors) := by
  rw [composite_eq, if_neg hs]

theorem composite_of_sides_ne (hs : s.size = p.grid.numcolors)
    (hbase : ¬(base.width = p.width ∧ base.height = p.height)) :
    p.composite base s = .error (.baseSize base.width base.height p.width p.height) := by
  rw [composite_eq, if_pos hs, if_neg hbase]

theorem composite_of_sides_eq (hs : s.size = p.grid.numcolors)
    (hbase : base.width = p.width ∧ base.height = p.height) :
    p.composite base s = .ok (p.drawOver base s) := by
  rw [composite_eq, if_pos hs, if_pos hbase]

theorem composite_eq_ok {r : Raster} :
    p.composite base s = .ok r ↔ s.size = p.grid.numcolors ∧
      (base.width = p.width ∧ base.height = p.height) ∧ p.drawOver base s = r := by
  constructor
  · intro h
    rw [composite_eq] at h
    split_ifs at h with hs hbase
    exact ⟨hs, hbase, Except.ok.inj h⟩
  · rintro ⟨hs, hbase, rfl⟩
    exact composite_of_sides_eq hs hbase

theorem kind_of_composite {e : Error} (h : p.composite base s = .error e) : e.kind = .shape := by
  rw [composite_eq] at h
  split_ifs at h
  all_goals
    cases h
    rfl

theorem pixel?_drawOver {under : Pixel} (hunder : base.pixel? x y = some under) (hx : x < p.width)
    (hy : y < p.height) :
    (p.drawOver base s).pixel? x y = some ((p.leafAt x y).pixel (s.withPrimary under.toColor)) := by
  rw [drawOver, Raster.pixel?_ofFn _ hx hy, hunder]
  rfl

/-- The raster that a plan shows for a state over a base, as whole renders tell it. -/
structure ShowsOver (p : Plan) (base : Raster) (s : ColorState) (r : Raster) : Prop where
  width_eq : r.width = p.width
  height_eq : r.height = p.height
  pixel_eq : ∀ x y, x < p.width → y < p.height → ∃ under whole px, base.pixel? x y = some under ∧
    p.render (s.withPrimary under.toColor) = .ok whole ∧ whole.pixel? x y = some px ∧
      r.pixel? x y = some px
  /-- Another base that has the same red, green and blue at a place shows the same there. -/
  pixel_eq_of_base : ∀ other t, p.composite other s = .ok t → ∀ x y a b, base.pixel? x y = some a →
    other.pixel? x y = some b → a.red = b.red → a.green = b.green → a.blue = b.blue →
      r.pixel? x y = t.pixel? x y

theorem showsOver_drawOver (hp : p.IsPlanned) (hs : s.size = p.grid.numcolors)
    (hbase : base.width = p.width ∧ base.height = p.height) :
    p.ShowsOver base s (p.drawOver base s) := by
  refine ⟨rfl, rfl, ?_, ?_⟩
  · intro x y hx hy
    obtain ⟨under, hunder⟩ := Raster.pixel?_of_lt (hbase.1 ▸ hx) (hbase.2 ▸ hy)
    have hsize : (s.withPrimary under.toColor).size = p.grid.numcolors := by
      rw [ColorState.size_withPrimary, hs]
    exact ⟨under, _, _, hunder, render_of_size_eq hsize, pixel?_draw hp _ hx hy,
      pixel?_drawOver hunder hx hy⟩
  · intro other t ht x y a b ha hb hred hgreen hblue
    obtain ⟨-, -, rfl⟩ := composite_eq_ok.1 ht
    have hin : x < base.width ∧ y < base.height := by
      by_contra hout
      rw [Raster.pixel?_eq_none.2 hout] at ha
      cases ha
    rw [hbase.1, hbase.2] at hin
    have hcolor : a.toColor = b.toColor := by
      rw [Pixel.toColor, Pixel.toColor, hred, hgreen, hblue]
    rw [pixel?_drawOver ha hin.1 hin.2, pixel?_drawOver hb hin.1 hin.2, hcolor]

/-- A composite is refused for the size of the state first and for the sides of the base second. Else
each of its pixels is that of the render from the state whose visible color is the one below. -/
theorem composite_shows_renders (hp : p.IsPlanned) (base : Raster) (s : ColorState) :
    (s.size ≠ p.grid.numcolors →
      p.composite base s = .error (.stateColors s.size p.grid.numcolors)) ∧
    (s.size = p.grid.numcolors → ¬(base.width = p.width ∧ base.height = p.height) →
      p.composite base s = .error (.baseSize base.width base.height p.width p.height)) ∧
    (s.size = p.grid.numcolors → base.width = p.width ∧ base.height = p.height →
      ∃ r, p.composite base s = .ok r ∧ p.ShowsOver base s r) ∧
    ∀ e, p.composite base s = .error e → e.kind = .shape := by
  refine ⟨composite_of_size_ne, composite_of_sides_ne, ?_, ?_⟩
  · intro hs hbase
    exact ⟨_, composite_of_sides_eq hs hbase, showsOver_drawOver hp hs hbase⟩
  · intro e he
    exact kind_of_composite he

theorem composite_shows_renders_two_by_three :
    twoByThree.IsPlanned ∧ ∃ r, twoByThree.composite (.clear 4 9) ⟨[.black, ⟨255, 0, 0⟩]⟩ = .ok r ∧
      twoByThree.ShowsOver (.clear 4 9) ⟨[.black, ⟨255, 0, 0⟩]⟩ r := by
  have hshows := composite_shows_renders twoByThree_isPlanned (.clear 4 9) ⟨[.black, ⟨255, 0, 0⟩]⟩
  exact ⟨twoByThree_isPlanned, hshows.2.2.1 rfl ⟨rfl, rfl⟩⟩

end Plan

end Quilt
