import Mathlib
import Quilt.Proofs.Size

namespace Quilt

/-- Whether the pixels of a grid subdivided to a depth are within the limit, and each side in words
of 32 bits. -/
structure RenderOptions.AllowsPixels (opts : RenderOptions) (rows cols depth : ℕ) : Prop where
  area_le : rows ^ depth * cols ^ depth ≤ opts.maxPixels
  rows_le : rows ^ depth ≤ 2 ^ 32 - 1
  cols_le : cols ^ depth ≤ 2 ^ 32 - 1

variable {rows cols depth : ℕ} {opts : RenderOptions}

theorem rasterSize_eq_ok_iff_allowsPixels {size : ℕ × ℕ} :
    rasterSize rows cols depth opts = .ok size ↔
      (depth ≤ opts.maxIterations ∧ opts.AllowsPixels rows cols depth) ∧
        opts.layout.place (rows ^ depth) (cols ^ depth) = size := by
  have hword : ∀ n, n < UInt32.size ↔ n ≤ 2 ^ 32 - 1 := fun n => Nat.lt_iff_le_pred (by decide)
  rw [rasterSize_eq_ok, hword, hword]
  constructor
  · rintro ⟨hdepth, harea, hrows, hcols, hplace⟩
    exact ⟨⟨hdepth, harea, hrows, hcols⟩, hplace⟩
  · rintro ⟨⟨hdepth, harea, hrows, hcols⟩, hplace⟩
    exact ⟨hdepth, harea, hrows, hcols, hplace⟩

theorem exists_rasterSize_iff : (∃ size, rasterSize rows cols depth opts = .ok size) ↔
    depth ≤ opts.maxIterations ∧ opts.AllowsPixels rows cols depth := by
  simp only [rasterSize_eq_ok_iff_allowsPixels, exists_and_left, exists_eq', and_true]

theorem depth_le_of_allowsPixels (hlimit : opts.maxPixels < 2 ^ (opts.maxIterations + 1))
    (hcells : 2 ≤ rows * cols) (h : opts.AllowsPixels rows cols depth) :
    depth ≤ opts.maxIterations := by
  have hpow : 2 ^ depth < 2 ^ (opts.maxIterations + 1) :=
    calc 2 ^ depth ≤ (rows * cols) ^ depth := Nat.pow_le_pow_left hcells depth
      _ = rows ^ depth * cols ^ depth := mul_pow ..
      _ ≤ opts.maxPixels := h.area_le
      _ < 2 ^ (opts.maxIterations + 1) := hlimit
  exact Nat.lt_succ_iff.1 ((Nat.pow_lt_pow_iff_right (by decide)).1 hpow)

/-- The size check is exact: it lets through what the limits allow, with the sides that the layout
says, and so every smaller grid and depth as well. Where fewer than `2 ^ (maxIterations + 1)` pixels
are allowed, as by default, the limit of depth decides nothing for two cells or more. -/
theorem rasterSize_exact (rows cols depth : ℕ) (opts : RenderOptions) :
    (∀ size, rasterSize rows cols depth opts = .ok size ↔
      (depth ≤ opts.maxIterations ∧ opts.AllowsPixels rows cols depth) ∧
        size = if opts.layout = .rowsDown then (cols ^ depth, rows ^ depth)
          else (rows ^ depth, cols ^ depth)) ∧
    (∀ rows' cols' depth', 1 ≤ rows' → rows' ≤ rows → 1 ≤ cols' → cols' ≤ cols → depth' ≤ depth →
      (∃ size, rasterSize rows cols depth opts = .ok size) →
        ∃ size, rasterSize rows' cols' depth' opts = .ok size) ∧
    (opts.maxPixels < 2 ^ (opts.maxIterations + 1) → 2 ≤ rows * cols →
      ((∃ size, rasterSize rows cols depth opts = .ok size) ↔
        opts.AllowsPixels rows cols depth)) ∧
    ({} : RenderOptions).maxPixels < 2 ^ (({} : RenderOptions).maxIterations + 1) := by
  refine ⟨fun size => ?_, ?_, fun hlimit hcells => ?_, by decide⟩
  · rw [rasterSize_eq_ok_iff_allowsPixels]
    apply and_congr_right'
    cases opts.layout with
    | rowsDown => exact eq_comm
    | rowsAcross => exact eq_comm
  · rintro rows' cols' depth' hrows hr hcols hc hd ⟨size, hsize⟩
    exact ⟨_, rasterSize_of_le hrows hr hcols hc hd hsize⟩
  · rw [exists_rasterSize_iff]
    exact and_iff_right_of_imp (depth_le_of_allowsPixels hlimit hcells)

/-- Two rows of three columns, under the default limits. -/
theorem rasterSize_exact_two_three :
    rasterSize 2 3 4 {} = .ok (81, 16) ∧ (∃ size, rasterSize 1 2 3 {} = .ok size) ∧
      ((∃ size, rasterSize 2 3 4 {} = .ok size) ↔
        RenderOptions.AllowsPixels {} 2 3 4) := by
  obtain ⟨hsize, hsmaller, hdepth, hdefault⟩ := rasterSize_exact 2 3 4 {}
  have hok : rasterSize 2 3 4 {} = .ok (81, 16) :=
    (hsize (81, 16)).2 ⟨⟨by decide, by decide, by decide, by decide⟩, rfl⟩
  exact ⟨hok, hsmaller 1 2 3 (by decide) (by decide) (by decide) (by decide) (by decide) ⟨_, hok⟩,
    hdepth hdefault (by decide)⟩

end Quilt
