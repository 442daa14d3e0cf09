import Mathlib
import Quilt.Render.Size

namespace Quilt

theorem pow_min_of_le_one {base : ℕ} (hb : base ≤ 1) (depth : ℕ) :
    base ^ min depth 64 = base ^ depth := by
  obtain rfl | rfl : base = 0 ∨ base = 1 := by omega
  · cases depth with
    | zero => rfl
    | succ depth => rw [zero_pow (by omega), zero_pow (by omega)]
  · simp

theorem pow_min_lt_iff {base depth limit : ℕ} (hl : limit ≤ 2 ^ 64) :
    base ^ min depth 64 < limit ↔ base ^ depth < limit := by
  by_cases hd : depth ≤ 64
  · rw [min_eq_left hd]
  · by_cases hb : base ≤ 1
    · rw [pow_min_of_le_one hb]
    · have hmin : 2 ^ 64 ≤ base ^ min depth 64 := by
        rw [min_eq_right (by omega)]
        exact Nat.pow_le_pow_left (by omega) 64
      have hpow : base ^ min depth 64 ≤ base ^ depth :=
        Nat.pow_le_pow_right (by omega) (min_le_left _ _)
      constructor <;> intro h <;> omega

theorem pow_min_eq_of_lt {base depth : ℕ} (h : base ^ depth < 2 ^ 64) :
    base ^ min depth 64 = base ^ depth := by
  by_cases hd : depth ≤ 64
  · rw [min_eq_left hd]
  · by_cases hb : base ≤ 1
    · exact pow_min_of_le_one hb depth
    · have hpow : 2 ^ 64 ≤ base ^ depth :=
        (Nat.pow_le_pow_left (show 2 ≤ base by omega) 64).trans
          (Nat.pow_le_pow_right (by omega) (by omega))
      omega

theorem inWord_eq_some {n m : ℕ} : inWord n = some m ↔ n < UInt64.size ∧ n = m := by
  rw [inWord, Option.ite_none_right_eq_some, Option.some_inj]

/-- The cap on the exponent changes no power that is a word. -/
theorem extent?_eq_some {base depth n : ℕ} :
    extent? base depth = some n ↔ base ^ depth < UInt64.size ∧ base ^ depth = n := by
  have hword : UInt64.size ≤ 2 ^ 64 := by decide
  rw [extent?, inWord_eq_some]
  change base ^ min depth 64 < UInt64.size ∧ base ^ min depth 64 = n ↔ _
  rw [pow_min_lt_iff hword]
  exact and_congr_right fun h => by rw [pow_min_eq_of_lt (h.trans_le hword)]

/-- No step on the way overflows when the sides fit in 32 bits. -/
theorem extents?_eq_some {rows cols depth maxPixels : ℕ} {extents : ℕ × ℕ} :
    extents? rows cols depth maxPixels = some extents ↔
      (rows ^ depth * cols ^ depth ≤ maxPixels ∧ rows ^ depth < UInt32.size ∧
        cols ^ depth < UInt32.size) ∧ (rows ^ depth, cols ^ depth) = extents := by
  simp only [extents?, Option.bind_eq_bind, Option.bind_eq_some_iff, extent?_eq_some,
    inWord_eq_some, Option.guard_eq_some', Option.pure_def, Option.some_inj]
  constructor
  · rintro ⟨_, ⟨-, rfl⟩, _, ⟨-, rfl⟩, _, ⟨-, rfl⟩, -, harea, -, hrows, -, hcols, h⟩
    exact ⟨⟨harea, hrows, hcols⟩, h⟩
  · rintro ⟨⟨harea, hrows, hcols⟩, h⟩
    have hhalf : UInt32.size ≤ UInt64.size := by decide
    have hword : rows ^ depth * cols ^ depth < UInt64.size := Nat.mul_lt_mul'' hrows hcols
    exact ⟨_, ⟨hrows.trans_le hhalf, rfl⟩, _, ⟨hcols.trans_le hhalf, rfl⟩, _, ⟨hword, rfl⟩,
      (), harea, (), hrows, (), hcols, h⟩

theorem rasterSize_eq_ok {rows cols depth : ℕ} {opts : RenderOptions} {size : ℕ × ℕ} :
    rasterSize rows cols depth opts = .ok size ↔
      depth ≤ opts.maxIterations ∧ rows ^ depth * cols ^ depth ≤ opts.maxPixels ∧
        rows ^ depth < UInt32.size ∧ cols ^ depth < UInt32.size ∧
        opts.layout.place (rows ^ depth) (cols ^ depth) = size := by
  rw [rasterSize]
  split_ifs with hdepth
  · rw [false_iff]
    rintro ⟨hle, -⟩
    omega
  · rw [and_iff_right (not_lt.1 hdepth)]
    cases hextents : extents? rows cols depth opts.maxPixels with
    | none =>
      simp only [reduceCtorEq, false_iff]
      rintro ⟨harea, hrows, hcols, -⟩
      cases hextents.symm.trans (extents?_eq_some.2 ⟨⟨harea, hrows, hcols⟩, rfl⟩)
    | some extents =>
      obtain ⟨⟨harea, hrows, hcols⟩, rfl⟩ := extents?_eq_some.1 hextents
      rw [Except.ok.injEq, and_iff_right harea, and_iff_right hrows, and_iff_right hcols]

theorem rasterSize_of_le {rows rows' cols cols' depth depth' : ℕ} {opts : RenderOptions}
    {size : ℕ × ℕ} (hrows : 1 ≤ rows') (hr : rows' ≤ rows) (hcols : 1 ≤ cols') (hc : cols' ≤ cols)
    (hd : depth' ≤ depth) (h : rasterSize rows cols depth opts = .ok size) :
    rasterSize rows' cols' depth' opts =
      .ok (opts.layout.place (rows' ^ depth') (cols' ^ depth')) := by
  obtain ⟨hdepth, harea, hrlt, hclt, -⟩ := rasterSize_eq_ok.1 h
  have hpowr : rows' ^ depth' ≤ rows ^ depth :=
    (Nat.pow_le_pow_left hr depth').trans (Nat.pow_le_pow_right (hrows.trans hr) hd)
  have hpowc : cols' ^ depth' ≤ cols ^ depth :=
    (Nat.pow_le_pow_left hc depth').trans (Nat.pow_le_pow_right (hcols.trans hc) hd)
  exact rasterSize_eq_ok.2 ⟨hd.trans hdepth, (Nat.mul_le_mul hpowr hpowc).trans harea,
    hpowr.trans_lt hrlt, hpowc.trans_lt hclt, rfl⟩

theorem rasterSize_cases (rows cols depth : ℕ) (opts : RenderOptions) :
    (∃ size, rasterSize rows cols depth opts = .ok size) ∨
      (opts.maxIterations < depth ∧
        rasterSize rows cols depth opts = .error (.tooDeep depth opts.maxIterations)) ∨
      (depth ≤ opts.maxIterations ∧ rasterSize rows cols depth opts =
        .error (.tooManyPixels rows cols depth opts.maxPixels)) := by
  by_cases hdepth : opts.maxIterations < depth
  · exact .inr (.inl ⟨hdepth, by rw [rasterSize, if_pos hdepth]⟩)
  · rw [rasterSize, if_neg hdepth]
    cases extents? rows cols depth opts.maxPixels with
    | none => exact .inr (.inr ⟨not_lt.1 hdepth, rfl⟩)
    | some extents => exact .inl ⟨_, rfl⟩

theorem rasterSize_eq_error {rows cols depth : ℕ} {opts : RenderOptions} {e : Error} :
    rasterSize rows cols depth opts = .error e ↔
      (opts.maxIterations < depth ∧ e = .tooDeep depth opts.maxIterations) ∨
        (depth ≤ opts.maxIterations ∧ ¬(rows ^ depth * cols ^ depth ≤ opts.maxPixels ∧
          rows ^ depth < UInt32.size ∧ cols ^ depth < UInt32.size) ∧
            e = .tooManyPixels rows cols depth opts.maxPixels) := by
  obtain ⟨size, hok⟩ | ⟨hdeep, herror⟩ | ⟨hdepth, herror⟩ := rasterSize_cases rows cols depth opts
  · obtain ⟨hdepth, harea, hrows, hcols, -⟩ := rasterSize_eq_ok.1 hok
    simp only [hok, reduceCtorEq, false_iff]
    rintro (⟨hdeep, -⟩ | ⟨-, hbig, -⟩)
    · omega
    · exact hbig ⟨harea, hrows, hcols⟩
  · rw [herror, Except.error.injEq, eq_comm, and_iff_right hdeep, or_iff_left]
    rintro ⟨hle, -⟩
    omega
  · have hbig : ¬(rows ^ depth * cols ^ depth ≤ opts.maxPixels ∧ rows ^ depth < UInt32.size ∧
        cols ^ depth < UInt32.size) := by
      rintro ⟨harea, hrows, hcols⟩
      cases herror.symm.trans (rasterSize_eq_ok.2 ⟨hdepth, harea, hrows, hcols, rfl⟩)
    rw [herror, Except.error.injEq, eq_comm, and_iff_right hdepth, and_iff_right hbig, or_iff_right]
    rintro ⟨hdeep, -⟩
    omega

end Quilt
