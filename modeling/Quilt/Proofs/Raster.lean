import Mathlib
import Quilt.Render.Raster

namespace Quilt.Raster
variable {w h : ℕ}

theorem index_lt {x y : ℕ} (hx : x < w) (hy : y < h) : y * w + x < w * h := by
  have hle : (y + 1) * w ≤ h * w := Nat.mul_le_mul_right w hy
  rw [Nat.succ_mul, mul_comm h] at hle
  omega

theorem index_div_mod {x y : ℕ} (hx : x < w) : (y * w + x) / w = y ∧ (y * w + x) % w = x :=
  (Nat.div_mod_unique (Nat.zero_lt_of_lt hx)).2 ⟨by rw [mul_comm, add_comm], hx⟩

theorem index_inj {x y a b : ℕ} (hx : x < w) (ha : a < w) :
    b * w + a = y * w + x ↔ x = a ∧ y = b := by
  constructor
  · intro h
    obtain ⟨hdiv, hmod⟩ := index_div_mod (y := b) ha
    rw [h] at hdiv hmod
    exact ⟨(index_div_mod hx).2.symm.trans hmod, (index_div_mod hx).1.symm.trans hdiv⟩
  · rintro ⟨rfl, rfl⟩
    rfl

theorem pixel?_of_lt {r : Raster} {x y : ℕ} (hx : x < r.width) (hy : y < r.height) :
    ∃ p, r.pixel? x y = some p := by
  have hlt : y * r.width + x < r.pixels.size := by
    rw [r.size_pixels]
    exact index_lt hx hy
  rw [pixel?, if_pos ⟨hx, hy⟩]
  exact ⟨_, Array.getElem?_eq_getElem hlt⟩

theorem pixel?_eq_none {r : Raster} {x y : ℕ} :
    r.pixel? x y = none ↔ ¬(x < r.width ∧ y < r.height) := by
  constructor
  · rintro hnone ⟨hx, hy⟩
    obtain ⟨p, hp⟩ := pixel?_of_lt hx hy
    rw [hnone] at hp
    cases hp
  · intro hout
    rw [pixel?, if_neg hout]

@[simp] theorem width_ofFn (f : ℕ → ℕ → Pixel) : (ofFn w h f).width = w := rfl

@[simp] theorem height_ofFn (f : ℕ → ℕ → Pixel) : (ofFn w h f).height = h := rfl

@[simp] theorem width_put (r : Raster) (x y : ℕ) (p : Pixel) : (r.put x y p).width = r.width := by
  unfold put
  split_ifs <;> rfl

@[simp] theorem height_put (r : Raster) (x y : ℕ) (p : Pixel) :
    (r.put x y p).height = r.height := by
  unfold put
  split_ifs <;> rfl

theorem pixel?_ofFn (f : ℕ → ℕ → Pixel) {x y : ℕ} (hx : x < w) (hy : y < h) :
    (ofFn w h f).pixel? x y = some (f x y) := by
  have hlt : y * w + x < (Array.ofFn fun i : Fin (w * h) => f (i % w) (i / w)).size := by
    rw [Array.size_ofFn]
    exact index_lt hx hy
  rw [pixel?, if_pos ⟨hx, hy⟩]
  change (Array.ofFn fun i : Fin (w * h) => f (i % w) (i / w))[y * w + x]? = _
  rw [Array.getElem?_eq_getElem hlt, Array.getElem_ofFn, (index_div_mod hx).1, (index_div_mod hx).2]

theorem pixel?_put {r : Raster} {x y a b : ℕ} (p : Pixel) (hx : x < r.width) (hy : y < r.height)
    (ha : a < r.width) (hb : b < r.height) :
    (r.put a b p).pixel? x y = if x = a ∧ y = b then some p else r.pixel? x y := by
  have hlt : b * r.width + a < r.pixels.size := by
    rw [r.size_pixels]
    exact index_lt ha hb
  have hput : (r.put a b p).pixel? x y =
      (r.pixels.setIfInBounds (b * r.width + a) p)[y * r.width + x]? := by
    rw [put, if_pos ⟨ha, hb⟩]
    exact if_pos ⟨hx, hy⟩
  have hget : r.pixel? x y = r.pixels[y * r.width + x]? := if_pos ⟨hx, hy⟩
  rw [hput, hget, Array.getElem?_setIfInBounds, if_pos hlt]
  simp only [index_inj hx ha]

theorem ext_pixel? {r t : Raster} (hw : r.width = t.width) (hh : r.height = t.height)
    (hpixel : ∀ x y, x < r.width → y < r.height → r.pixel? x y = t.pixel? x y) : r = t := by
  obtain ⟨w, h, pixels, hsize⟩ := r
  obtain ⟨w', h', pixels', hsize'⟩ := t
  obtain rfl : w = w' := hw
  obtain rfl : h = h' := hh
  congr 1
  apply Array.ext (hsize.trans hsize'.symm)
  intro i hi hi'
  -- An index is that of a place inside the sides.
  rw [hsize] at hi
  have hpos : 0 < w := Nat.pos_of_mul_pos_right (Nat.zero_lt_of_lt hi)
  have hx : i % w < w := Nat.mod_lt i hpos
  have hy : i / w < h := (Nat.div_lt_iff_lt_mul hpos).2 (by rwa [mul_comm] at hi)
  have heq := hpixel (i % w) (i / w) hx hy
  simp only [pixel?, if_pos (And.intro hx hy), Nat.div_add_mod'] at heq
  rwa [Array.getElem?_eq_getElem, Array.getElem?_eq_getElem, Option.some.injEq] at heq

theorem eq_ofFn {r : Raster} {f : ℕ → ℕ → Pixel} (hw : r.width = w) (hh : r.height = h)
    (hpixel : ∀ x y, x < w → y < h → r.pixel? x y = some (f x y)) : r = ofFn w h f := by
  apply ext_pixel? hw hh
  intro x y hx hy
  rw [hw] at hx
  rw [hh] at hy
  rw [pixel?_ofFn f hx hy, hpixel x y hx hy]

theorem length_bytes (r : Raster) : r.bytes.length = 4 * (r.width * r.height) := by
  rw [bytes, List.length_flatMap]
  simp only [Pixel.bytes, List.length_cons, List.length_nil]
  rw [List.map_const', List.sum_replicate, Array.length_toList, r.size_pixels, smul_eq_mul,
    mul_comm]

end Quilt.Raster
