import Mathlib
import Quilt.Proofs.Compile
import Quilt.Proofs.Plan

namespace Quilt

namespace Raster

theorem getD_bytes (r : Raster) {i k : ℕ} (hi : i < r.pixels.size) (hk : k < 4) :
    r.bytes.toArray.getD (4 * i + k) 0 = r.pixels[i].bytes.getD k 0 := by
  have hwidth : ∀ bytes ∈ r.pixels.toList.map Pixel.bytes, bytes.length = 4 :=
    List.forall_mem_map.2 fun _ _ => rfl
  rw [Array.getD_eq_getD_getElem?, List.getElem?_toArray, bytes, List.flatMap_def, mul_comm,
    getElem?_flatten hwidth i hk, List.getElem?_map, Array.getElem?_toList,
    Array.getElem?_eq_getElem hi, List.getD_eq_getElem?_getD]
  rfl

theorem ofBytes_bytes {r : Raster} (h : r.width * r.height * 4 < UInt64.size) :
    ofBytes r.width r.height r.bytes.toArray = .ok r := by
  have hsize : r.bytes.toArray.size = r.width * r.height * 4 := by
    rw [List.size_toArray, length_bytes, mul_comm]
  have hpixels : (Array.ofFn fun i : Fin (r.width * r.height) =>
      (⟨r.bytes.toArray.getD (4 * i) 0, r.bytes.toArray.getD (4 * i + 1) 0,
        r.bytes.toArray.getD (4 * i + 2) 0, r.bytes.toArray.getD (4 * i + 3) 0⟩ : Pixel)) =
      r.pixels := by
    refine Array.ext (by rw [Array.size_ofFn, r.size_pixels]) fun i _ hi => ?_
    have hred := getD_bytes r hi (k := 0) (by decide)
    have hgreen := getD_bytes r hi (k := 1) (by decide)
    have hblue := getD_bytes r hi (k := 2) (by decide)
    have halpha := getD_bytes r hi (k := 3) (by decide)
    rw [add_zero] at hred
    rw [Array.getElem_ofFn, hred, hgreen, hblue, halpha]
    rfl
  simp only [ofBytes, if_neg (not_le.2 h), hsize, ne_eq, not_true_eq_false, if_false, hpixels]

theorem ofBytes_of_le {width height : ℕ} (h : UInt64.size ≤ width * height * 4)
    (data : Array UInt8) : ofBytes width height data = .error .rasterOverflow :=
  if_pos h

end Raster

theorem rasterSize_refuses {rows cols depth : ℕ} {opts : RenderOptions}
    (h : ∀ size, rasterSize rows cols depth opts ≠ .ok size) :
    ∃ e, rasterSize rows cols depth opts = .error e ∧ e.kind = .bounds := by
  cases hsize : rasterSize rows cols depth opts with
  | ok size => exact absurd hsize (h size)
  | error e =>
    refine ⟨e, rfl, ?_⟩
    obtain ⟨-, rfl⟩ | ⟨-, -, rfl⟩ := rasterSize_eq_error.1 hsize <;> rfl

theorem mul_eq_of_rasterSize {rows cols depth w h : ℕ} {opts : RenderOptions}
    (hsize : rasterSize rows cols depth opts = .ok (w, h)) :
    w * h = rows ^ depth * cols ^ depth := by
  obtain ⟨-, -, -, -, hplace⟩ := rasterSize_eq_ok.1 hsize
  cases hlayout : opts.layout with
  | rowsDown =>
    rw [hlayout] at hplace
    obtain ⟨rfl, rfl⟩ := Prod.mk.inj hplace
    exact mul_comm _ _
  | rowsAcross =>
    rw [hlayout] at hplace
    obtain ⟨rfl, rfl⟩ := Prod.mk.inj hplace
    rfl

namespace RenderOptions
variable {opts : RenderOptions}

/-- The size check lets through what can be addressed, and nothing else. -/
structure Addressable (opts : RenderOptions) : Prop where
  /-- The bytes of a size that passes are counted by a word. -/
  size_lt : ∀ rows cols depth w h, 1 ≤ rows → 1 ≤ cols →
    rasterSize rows cols depth opts = .ok (w, h) → w * h * 4 < UInt64.size
  /-- A size whose bytes are not is refused. -/
  refused : ∀ rows cols depth, 1 ≤ rows → 1 ≤ cols →
    UInt64.size ≤ rows ^ depth * cols ^ depth * 4 →
      ∃ e, rasterSize rows cols depth opts = .error e ∧ e.kind = .bounds
  /-- The buffer of a plan has a size, and what is rendered is taken for a raster. -/
  plan : ∀ (g : Grid) depth (p : Plan), g.IsCompiled → Plan.new g depth opts = .ok p →
    p.width * p.height * 4 < UInt64.size ∧ ∀ s r, p.render s = .ok r →
      Raster.ofBytes r.width r.height r.bytes.toArray = .ok r

theorem addressable_of_size_lt (h : ∀ rows cols depth w h, 1 ≤ rows → 1 ≤ cols →
    rasterSize rows cols depth opts = .ok (w, h) → w * h * 4 < UInt64.size) :
    opts.Addressable := by
  refine ⟨h, fun rows cols depth hrows hcols hbig => ?_, fun g depth p hg hp => ?_⟩
  · apply rasterSize_refuses
    rintro ⟨w, h'⟩ hsize
    have hlt := h rows cols depth w h' hrows hcols hsize
    rw [mul_eq_of_rasterSize hsize] at hlt
    exact absurd hlt (not_lt.2 hbig)
  · have hplanned : p.IsPlanned := .new hg hp
    obtain ⟨hsize, rfl, rfl, -⟩ := Plan.new_eq_ok.1 hp
    have hlt := h _ _ _ _ _ hg.isFilled.rows_pos hg.isFilled.cols_pos hsize
    refine ⟨hlt, fun s r hr => Raster.ofBytes_bytes ?_⟩
    obtain ⟨_, -, hdraw⟩ := bind_eq_ok.1 hr
    obtain rfl := pure_eq_ok.1 hdraw
    have hshows := Plan.shows_draw hplanned s
    rwa [hshows.width_eq, hshows.height_eq]

theorem size_lt_of_limit (hlimit : opts.maxPixels < 2 ^ 62 ∨ opts.maxIterations = 0)
    {rows cols depth w h : ℕ} (hsize : rasterSize rows cols depth opts = .ok (w, h)) :
    w * h * 4 < UInt64.size := by
  have hword : UInt64.size = 2 ^ 62 * 4 := by decide
  obtain ⟨hdepth, harea, -⟩ := rasterSize_eq_ok.1 hsize
  rw [mul_eq_of_rasterSize hsize, hword]
  apply Nat.mul_lt_mul_of_pos_right _ (by decide)
  obtain hpixels | hnone := hlimit
  · exact harea.trans_lt hpixels
  · rw [hnone, Nat.le_zero] at hdepth
    rw [hdepth, pow_zero, pow_zero]
    decide

/-- The size check keeps to what can be addressed exactly when its limit does: four bytes for every
pixel that it allows are counted by a word, or it allows a single pixel only. -/
theorem addressable_iff (opts : RenderOptions) :
    opts.Addressable ↔ opts.maxPixels < 2 ^ 62 ∨ opts.maxIterations = 0 := by
  constructor
  · intro h
    by_contra! hlimit
    obtain ⟨hpixels, hdepth⟩ := hlimit
    -- One subdivision by a grid with half a word of rows and of columns is just too great.
    have hsize : rasterSize (2 ^ 31) (2 ^ 31) 1 opts = .ok (2 ^ 31, 2 ^ 31) := by
      refine rasterSize_eq_ok.2 ⟨Nat.pos_of_ne_zero hdepth, hpixels, by decide, by decide, ?_⟩
      cases opts.layout <;> rfl
    exact absurd (h.size_lt _ _ _ _ _ (by decide) (by decide) hsize) (by decide)
  · intro h
    exact addressable_of_size_lt fun _ _ _ _ _ _ _ => size_lt_of_limit h

/-- Two rows and two columns, thirty-one times: as many bytes as there are words. -/
theorem not_addressable_two_pow :
    rasterSize 2 2 31 { maxPixels := 2 ^ 62 } = .ok (2 ^ 31, 2 ^ 31) ∧
      ¬2 ^ 31 * 2 ^ 31 * 4 < UInt64.size ∧
      (∀ data, Raster.ofBytes (2 ^ 31) (2 ^ 31) data = .error .rasterOverflow) ∧
      ¬Addressable { maxPixels := 2 ^ 62 } := by
  have hsize : rasterSize 2 2 31 { maxPixels := 2 ^ 62 } = .ok (2 ^ 31, 2 ^ 31) :=
    rasterSize_eq_ok.2 ⟨by decide, by decide, by decide, by decide, rfl⟩
  have hbig : ¬2 ^ 31 * 2 ^ 31 * 4 < UInt64.size := by decide
  refine ⟨hsize, hbig, Raster.ofBytes_of_le (not_lt.1 hbig), fun h => ?_⟩
  exact hbig (h.size_lt 2 2 31 _ _ (by decide) (by decide) hsize)

end RenderOptions

end Quilt
