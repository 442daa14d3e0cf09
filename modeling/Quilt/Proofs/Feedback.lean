import Mathlib
import Quilt.Proofs.Protocol
import Quilt.Proofs.Relabeling

namespace Quilt.Plan
variable {p : Plan} {s : ColorState} {base r : Raster} {x y : ℕ}

/-- A pixel that was drawn over any visible color stays when it is drawn over. -/
theorem pixel_withPrimary_pixel (hp : p.IsPlanned) (hkind : p.grid.kind = .permutation)
    (hs : s.size = p.grid.numcolors) (hx : x < p.width) (hy : y < p.height) (c : Color) :
    (p.leafAt x y).pixel (s.withPrimary ((p.leafAt x y).pixel (s.withPrimary c)).toColor) =
      (p.leafAt x y).pixel (s.withPrimary c) := by
  obtain ⟨slots, ⟨⟨hlength, -⟩, -, -, -⟩, hreplay⟩ := exists_relabels_leafAt hp hkind hx hy
  have hpos := hp.isCompiled.numcolors_pos
  have hshown : ∀ d, (p.leafAt x y).pixel (s.withPrimary d) =
      .ofColor ((s.withPrimary d).slot (slots.getD 0 0)) := by
    intro d
    rw [Leaf.pixel, hreplay _ (by rw [ColorState.size_withPrimary, hs]), ColorState.primary,
      ColorState.slot_select (hlength ▸ hpos)]
  simp only [hshown]
  -- The slot that shows is the visible one, whose byte comes back, or it is one that the pixel
  -- below does not reach.
  by_cases hzero : slots.getD 0 0 = 0
  · rw [hzero, ColorState.slot_withPrimary_zero _ (hs ▸ hpos)]
    exact Pixel.ofColor_toColor rfl
  · rw [ColorState.slot_withPrimary_of_ne _ hzero, ColorState.slot_withPrimary_of_ne _ hzero]

theorem drawOver_eq_self (hp : p.IsPlanned) (hkind : p.grid.kind = .permutation)
    (hs : s.size = p.grid.numcolors) (hsides : r.width = p.width ∧ r.height = p.height)
    (h : ∀ x y, x < p.width → y < p.height →
      ∃ c, r.pixel? x y = some ((p.leafAt x y).pixel (s.withPrimary c))) : p.drawOver r s = r := by
  symm
  apply Raster.eq_ofFn hsides.1 hsides.2
  intro x y hx hy
  obtain ⟨c, hpixel⟩ := h x y hx hy
  rw [hpixel, Option.getD_some, pixel_withPrimary_pixel hp hkind hs hx hy]

theorem drawOver_drawOver (hp : p.IsPlanned) (hkind : p.grid.kind = .permutation)
    (hs : s.size = p.grid.numcolors) (base : Raster) :
    p.drawOver (p.drawOver base s) s = p.drawOver base s := by
  refine drawOver_eq_self hp hkind hs ⟨rfl, rfl⟩ fun x y hx hy => ?_
  exact ⟨_, Raster.pixel?_ofFn _ hx hy⟩

theorem drawOver_draw (hp : p.IsPlanned) (hkind : p.grid.kind = .permutation)
    (hs : s.size = p.grid.numcolors) : p.drawOver (p.draw s) s = p.draw s := by
  refine drawOver_eq_self hp hkind hs (sides_frame hp s 0) fun x y hx hy => ⟨s.primary, ?_⟩
  rw [pixel?_draw hp s hx hy, ColorState.withPrimary_primary]

theorem frame_eq_draw (hp : p.IsPlanned) (hkind : p.grid.kind = .permutation)
    (hs : s.size = p.grid.numcolors) (index : ℕ) : p.frame s index = p.draw s := by
  induction index with
  | zero => rfl
  | succ index ih => rw [frame, ih, drawOver_draw hp hkind hs]

/-- A plan on a grid of selections, put to work over what it has drawn itself, changes nothing:
neither over a composite nor over a render. An animation pushes what is rendered as every one of its
frames. -/
theorem feedback_steady (hp : p.IsPlanned) (hkind : p.grid.kind = .permutation) (s : ColorState) :
    (∀ base, (p.composite base s >>= fun r => p.composite r s) = p.composite base s) ∧
      (p.render s >>= fun r => p.composite r s) = p.render s ∧
      (s.size = p.grid.numcolors → (∃ r, p.render s = .ok r) ∧
        ∀ base, base.width = p.width ∧ base.height = p.height → ∃ r, p.composite base s = .ok r) ∧
      ∀ {m : Type → Type} [Monad m] [LawfulMonad m] (count : ℕ) (sink : FrameSink m),
        p.animate s count sink = (do
          let r ← ExceptT.mk (pure (p.render s))
          forM (SinkCall.sequence p.width p.height (fun _ => r) count) sink) := by
  by_cases hs : s.size = p.grid.numcolors
  · refine ⟨fun base => ?_, ?_, fun _ => ?_, fun count sink => ?_⟩
    · cases hbase : p.composite base s with
      | error e => rfl
      | ok r =>
        obtain ⟨-, -, rfl⟩ := composite_eq_ok.1 hbase
        exact composite_eq_ok.2 ⟨hs, ⟨rfl, rfl⟩, drawOver_drawOver hp hkind hs base⟩
    · rw [render_of_size_eq hs]
      exact composite_eq_ok.2 ⟨hs, sides_frame hp s 0, drawOver_draw hp hkind hs⟩
    · exact ⟨⟨_, render_of_size_eq hs⟩, fun base hbase => ⟨_, composite_of_sides_eq hs hbase⟩⟩
    · have hframes : p.frame s = fun _ => p.draw s := funext (frame_eq_draw hp hkind hs)
      rw [animate_eq_forM hp hs, check_bind (render_of_size_eq hs), ← hframes]
      rfl
  · refine ⟨fun base => ?_, ?_, fun h => absurd h hs, fun count sink => ?_⟩
    · rw [composite_of_size_ne hs]
      rfl
    · rw [render_of_size_ne hs]
      rfl
    · rw [animate_of_size_ne hs, check_bind_error (render_of_size_ne hs)]

theorem feedback_steady_two_by_three :
    twoByThree.IsPlanned ∧ twoByThree.grid.kind = .permutation ∧
      ∃ r, twoByThree.composite (.clear 4 9) ⟨[.black, ⟨255, 0, 0⟩]⟩ = .ok r ∧
        twoByThree.composite r ⟨[.black, ⟨255, 0, 0⟩]⟩ = .ok r := by
  obtain ⟨hcomposite, -, hdrawn, -⟩ :=
    feedback_steady twoByThree_isPlanned rfl ⟨[.black, ⟨255, 0, 0⟩]⟩
  obtain ⟨r, hr⟩ := (hdrawn rfl).2 (.clear 4 9) ⟨rfl, rfl⟩
  have hagain := hcomposite (.clear 4 9)
  rw [hr] at hagain
  exact ⟨twoByThree_isPlanned, rfl, r, hr, hagain⟩

end Quilt.Plan
