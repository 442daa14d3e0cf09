import Mathlib
import Quilt.Proofs.GridChecks

namespace Quilt.Grid

/-- The stage that a check belongs to. -/
def Check.stage : Check → ℕ
  | rowCount _ | columnCount _ | rowWidth .. => 0
  | colorCount .. | slotCount .. => 1
  | channelCount .. => 2
  | formula .. | slot .. => 3

/-- Whether every cell has an entry for each color. -/
def HasColorCounts (numcolors : ℕ) (lines : List (List (List (List String)))) : Prop :=
  ∀ line ∈ lines, ∀ cell ∈ line, cell.length = numcolors

/-- Whether every entry has a formula for each channel. -/
def HasChannelCounts (lines : List (List (List (List String)))) : Prop :=
  ∀ line ∈ lines, ∀ cell ∈ line, ∀ channels ∈ cell, channels.length = 3

/-- A table of cells that is refused stage by stage: a wrong number of colors anywhere outranks a
wrong number of channels anywhere, and that outranks the formulas. -/
structure RefusedByStages (numcolors : ℕ) (lines : List (List (List (List String)))) : Prop where
  color_count : ¬HasColorCounts numcolors lines →
    ∃ row col count, compileExpressions numcolors lines =
      .error (.cellColors row col count numcolors)
  channel_count : HasColorCounts numcolors lines → ¬HasChannelCounts lines →
    ∃ row col color count, compileExpressions numcolors lines =
      .error (.cellChannels row col color count)
  formula : ∀ e, compileExpressions numcolors lines = .error e → e.kind = .parse →
    HasColorCounts numcolors lines ∧ HasChannelCounts lines

variable {numcolors rows cols : ℕ} {lines : List (List (List (List String)))} {check : Check}

theorem exists_mem_zipIdx {α : Type} {l : List α} {a : α} (h : a ∈ l) : ∃ i, (a, i) ∈ l.zipIdx := by
  obtain ⟨i, hi⟩ := List.mem_iff_getElem?.1 h
  exact ⟨i, List.mk_mem_zipIdx_iff_getElem?.2 hi⟩

theorem passes_of_mem_shapeChecks {α : Type} {lines : List (List α)} (h : IsTable rows cols lines)
    (hcheck : check ∈ shapeChecks lines) : check.Passes numcolors := by
  have hfirst : Functions.firstWidth lines = cols := by
    cases lines with
    | nil => exact absurd h.length_eq (Nat.ne_of_lt h.rows_pos)
    | cons first rest => exact h.width_eq first (List.mem_cons_self ..)
  simp only [shapeChecks, hfirst, List.mem_cons, List.mem_map] at hcheck
  obtain rfl | rfl | ⟨⟨line, row⟩, hline, rfl⟩ := hcheck
  · exact h.rows_pos.trans_eq h.length_eq.symm
  · exact h.cols_pos
  · exact h.width_eq line (List.fst_mem_of_mem_zipIdx hline)

theorem mem_cellsChecks {α : Type} {checksAt : ℕ → ℕ → α → List Check} {lines : List (List α)} :
    check ∈ cellsChecks checksAt lines ↔ ∃ row col line item, (line, row) ∈ lines.zipIdx ∧
      (item, col) ∈ line.zipIdx ∧ check ∈ checksAt row col item := by
  simp only [cellsChecks, List.mem_flatMap, Prod.exists]
  constructor
  · rintro ⟨line, row, hline, item, col, hitem, hcheck⟩
    exact ⟨row, col, line, item, hline, hitem, hcheck⟩
  · rintro ⟨row, col, line, item, hline, hitem, hcheck⟩
    exact ⟨line, row, hline, item, col, hitem, hcheck⟩

theorem mem_cellChecks {row col : ℕ} {colors : List (List String)} :
    check ∈ cellChecks row col colors ↔ check = .colorCount row col colors.length ∨
      ∃ channels color, (channels, color) ∈ colors.zipIdx ∧
        (check = .channelCount row col color channels.length ∨ ∃ source channel,
          (source, channel) ∈ channels.zipIdx ∧
            check = .formula row col color channel source) := by
  simp only [cellChecks, colorChecks, List.mem_cons, List.mem_flatMap, List.mem_map, Prod.exists,
    eq_comm]

theorem cases_of_mem_cellsChecks (h : check ∈ cellsChecks cellChecks lines) :
    (∃ row col, ∃ line ∈ lines, ∃ cell ∈ line, check = .colorCount row col cell.length) ∨
      (∃ row col color, ∃ line ∈ lines, ∃ cell ∈ line, ∃ channels ∈ cell,
        check = .channelCount row col color channels.length) ∨
      ∃ row col color channel source, check = .formula row col color channel source := by
  obtain ⟨row, col, line, cell, hline, hcell, hcheck⟩ := mem_cellsChecks.1 h
  have hline := List.fst_mem_of_mem_zipIdx hline
  have hcell := List.fst_mem_of_mem_zipIdx hcell
  obtain hcount | ⟨channels, color, hchannels, hcount | ⟨source, channel, -, hformula⟩⟩ :=
    mem_cellChecks.1 hcheck
  · exact .inl ⟨row, col, line, hline, cell, hcell, hcount⟩
  · exact .inr (.inl ⟨row, col, color, line, hline, cell, hcell, channels,
      List.fst_mem_of_mem_zipIdx hchannels, hcount⟩)
  · exact .inr (.inr ⟨row, col, color, channel, source, hformula⟩)

theorem hasColorCounts_iff : HasColorCounts numcolors lines ↔
    ∀ check ∈ cellsChecks cellChecks lines, check.stage = 1 → check.Passes numcolors := by
  constructor
  · intro h check hcheck hstage
    obtain ⟨row, col, line, hline, cell, hcell, rfl⟩ | ⟨_, _, _, _, _, _, _, _, _, rfl⟩ |
      ⟨_, _, _, _, _, rfl⟩ := cases_of_mem_cellsChecks hcheck
    · exact h line hline cell hcell
    · cases hstage
    · cases hstage
  · intro h line hline cell hcell
    obtain ⟨row, hrow⟩ := exists_mem_zipIdx hline
    obtain ⟨col, hcol⟩ := exists_mem_zipIdx hcell
    exact h (.colorCount row col cell.length)
      (mem_cellsChecks.2 ⟨row, col, line, cell, hrow, hcol, mem_cellChecks.2 (.inl rfl)⟩) rfl

theorem hasChannelCounts_iff (numcolors : ℕ) : HasChannelCounts lines ↔
    ∀ check ∈ cellsChecks cellChecks lines, check.stage = 2 → check.Passes numcolors := by
  constructor
  · intro h check hcheck hstage
    obtain ⟨_, _, _, _, _, _, rfl⟩ |
      ⟨row, col, color, line, hline, cell, hcell, channels, hchannels, rfl⟩ |
      ⟨_, _, _, _, _, rfl⟩ := cases_of_mem_cellsChecks hcheck
    · cases hstage
    · exact h line hline cell hcell channels hchannels
    · cases hstage
  · intro h line hline cell hcell channels hchannels
    obtain ⟨row, hrow⟩ := exists_mem_zipIdx hline
    obtain ⟨col, hcol⟩ := exists_mem_zipIdx hcell
    obtain ⟨color, hcolor⟩ := exists_mem_zipIdx hchannels
    exact h (.channelCount row col color channels.length)
      (mem_cellsChecks.2 ⟨row, col, line, cell, hrow, hcol,
        mem_cellChecks.2 (.inr ⟨channels, color, hcolor, .inl rfl⟩)⟩) rfl

theorem fails_of_firstFailing? {functions : Functions}
    (h : firstFailing? numcolors functions = some check) : ¬check.Passes numcolors := by
  simpa using List.find?_some h

theorem compileExpressions_eq_error (hcount : 1 ≤ numcolors ∧ numcolors ≤ maxColors) {e : Error} :
    compileExpressions numcolors lines = .error e ↔ ∃ check,
      firstFailing? numcolors (.expressions lines) = some check ∧ check.fault? numcolors = some e :=
  compile_eq_error hcount (.expressions lines)

theorem mem_of_firstFailing? (htable : IsTable rows cols lines)
    (h : firstFailing? numcolors (.expressions lines) = some check) :
    check ∈ cellsChecks cellChecks lines := by
  obtain hshape | hcell := List.mem_append.1 (List.mem_of_find?_eq_some h)
  · exact absurd (passes_of_mem_shapeChecks htable hshape) (fails_of_firstFailing? h)
  · exact hcell

theorem stage_cases (hcheck : check ∈ cellsChecks cellChecks lines)
    (hfails : ¬check.Passes numcolors) :
    (check.stage = 1 ∧ ∃ row col count,
        check.fault? numcolors = some (.cellColors row col count numcolors)) ∨
      (check.stage = 2 ∧ ∃ row col color count,
        check.fault? numcolors = some (.cellChannels row col color count)) ∨
      (check.stage = 3 ∧ check.kind = .parse) := by
  obtain ⟨row, col, _, _, cell, _, rfl⟩ | ⟨row, col, color, _, _, _, _, channels, _, rfl⟩ |
    ⟨_, _, _, _, _, rfl⟩ := cases_of_mem_cellsChecks hcheck
  · exact .inl ⟨rfl, row, col, cell.length, if_pos hfails⟩
  · exact .inr (.inl ⟨rfl, row, col, color, channels.length, if_pos hfails⟩)
  · exact .inr (.inr ⟨rfl, rfl⟩)

/-- The first check that fails belongs to no later stage than any other that does. -/
def FailsEarliest (numcolors : ℕ) (lines : List (List (List (List String)))) : Prop :=
  ∀ first, firstFailing? numcolors (.expressions lines) = some first →
    ∀ check ∈ (Functions.expressions lines).checks, ¬check.Passes numcolors →
      first.stage ≤ check.stage

theorem FailsEarliest.exists_stage_le (h : FailsEarliest numcolors lines)
    (hcheck : check ∈ cellsChecks cellChecks lines) (hfails : ¬check.Passes numcolors) :
    ∃ first, firstFailing? numcolors (.expressions lines) = some first ∧
      first.stage ≤ check.stage := by
  have hmem : check ∈ (Functions.expressions lines).checks := List.mem_append_right _ hcheck
  obtain ⟨first, hfirst⟩ := exists_firstFailing?_iff.2 ⟨check, hmem, hfails⟩
  exact ⟨first, hfirst, h first hfirst check hmem hfails⟩

theorem FailsEarliest.color_count (hcount : 1 ≤ numcolors ∧ numcolors ≤ maxColors)
    (htable : IsTable rows cols lines) (h : FailsEarliest numcolors lines)
    (hcolors : ¬HasColorCounts numcolors lines) :
    ∃ row col count, compileExpressions numcolors lines =
      .error (.cellColors row col count numcolors) := by
  rw [hasColorCounts_iff] at hcolors
  push Not at hcolors
  obtain ⟨check, hcheck, hstage, hfails⟩ := hcolors
  obtain ⟨first, hfirst, hle⟩ := h.exists_stage_le hcheck hfails
  obtain ⟨-, row, col, count, hfault⟩ | ⟨hlate, -⟩ | ⟨hlate, -⟩ :=
    stage_cases (mem_of_firstFailing? htable hfirst) (fails_of_firstFailing? hfirst)
  · exact ⟨row, col, count, (compileExpressions_eq_error hcount).2 ⟨first, hfirst, hfault⟩⟩
  · omega
  · omega

theorem FailsEarliest.channel_count (hcount : 1 ≤ numcolors ∧ numcolors ≤ maxColors)
    (htable : IsTable rows cols lines) (h : FailsEarliest numcolors lines)
    (hcolors : HasColorCounts numcolors lines) (hchannels : ¬HasChannelCounts lines) :
    ∃ row col color count, compileExpressions numcolors lines =
      .error (.cellChannels row col color count) := by
  rw [hasColorCounts_iff] at hcolors
  rw [hasChannelCounts_iff numcolors] at hchannels
  push Not at hchannels
  obtain ⟨check, hcheck, hstage, hfails⟩ := hchannels
  obtain ⟨first, hfirst, hle⟩ := h.exists_stage_le hcheck hfails
  have hmem := mem_of_firstFailing? htable hfirst
  have hfirstFails := fails_of_firstFailing? hfirst
  obtain ⟨hearly, -⟩ | ⟨-, row, col, color, count, hfault⟩ | ⟨hlate, -⟩ :=
    stage_cases hmem hfirstFails
  · exact absurd (hcolors first hmem hearly) hfirstFails
  · exact ⟨row, col, color, count,
      (compileExpressions_eq_error hcount).2 ⟨first, hfirst, hfault⟩⟩
  · omega

theorem stage_eq_of_parse {e : Error} (hcheck : check ∈ cellsChecks cellChecks lines)
    (hfails : ¬check.Passes numcolors) (hfault : check.fault? numcolors = some e)
    (hparse : e.kind = .parse) : check.stage = 3 := by
  obtain ⟨-, row, col, count, hcolors⟩ | ⟨-, row, col, color, count, hchannels⟩ | ⟨hlast, -⟩ :=
    stage_cases hcheck hfails
  · obtain rfl := Option.some.inj (hfault.symm.trans hcolors)
    cases hparse
  · obtain rfl := Option.some.inj (hfault.symm.trans hchannels)
    cases hparse
  · exact hlast

theorem FailsEarliest.has_counts (hcount : 1 ≤ numcolors ∧ numcolors ≤ maxColors)
    (htable : IsTable rows cols lines) (h : FailsEarliest numcolors lines) {e : Error}
    (he : compileExpressions numcolors lines = .error e) (hparse : e.kind = .parse) :
    HasColorCounts numcolors lines ∧ HasChannelCounts lines := by
  obtain ⟨first, hfirst, hfault⟩ := (compileExpressions_eq_error hcount).1 he
  have hlast := stage_eq_of_parse (mem_of_firstFailing? htable hfirst)
    (fails_of_firstFailing? hfirst) hfault hparse
  -- The first failure is of the last stage, so nothing fails in those before it.
  have hpasses : ∀ check ∈ cellsChecks cellChecks lines, check.stage < 3 →
      check.Passes numcolors := by
    intro check hcheck hstage
    by_contra hfails
    have hle := h first hfirst check (List.mem_append_right _ hcheck) hfails
    omega
  exact ⟨hasColorCounts_iff.2 fun check hcheck hstage => hpasses check hcheck (by omega),
    (hasChannelCounts_iff numcolors).2 fun check hcheck hstage => hpasses check hcheck (by omega)⟩

theorem FailsEarliest.refusedByStages (hcount : 1 ≤ numcolors ∧ numcolors ≤ maxColors)
    (htable : IsTable rows cols lines) (h : FailsEarliest numcolors lines) :
    RefusedByStages numcolors lines where
  color_count := h.color_count hcount htable
  channel_count := h.channel_count hcount htable
  formula _ := h.has_counts hcount htable

theorem RefusedByStages.failsEarliest (hcount : 1 ≤ numcolors ∧ numcolors ≤ maxColors)
    (htable : IsTable rows cols lines) (h : RefusedByStages numcolors lines) :
    FailsEarliest numcolors lines := by
  intro first hfirst check hcheck hfails
  obtain hshape | hcheck := List.mem_append.1 hcheck
  · exact absurd (passes_of_mem_shapeChecks htable hshape) hfails
  have hstage : check.stage = 1 ∨ check.stage = 2 ∨ check.stage = 3 := by
    obtain ⟨hstage, -⟩ | ⟨hstage, -⟩ | ⟨hstage, -⟩ := stage_cases hcheck hfails <;> simp [hstage]
  obtain ⟨e, hfault⟩ := exists_fault?_of_firstFailing? hfirst
  have herror : compileExpressions numcolors lines = .error e :=
    (compileExpressions_eq_error hcount).2 ⟨first, hfirst, hfault⟩
  obtain ⟨hone, -⟩ | ⟨htwo, row, col, color, count, hchannels⟩ | ⟨hthree, hparse⟩ :=
    stage_cases (mem_of_firstFailing? htable hfirst) (fails_of_firstFailing? hfirst)
  · omega
  · -- A cell with a wrong number of colors would have been told of in place of these channels.
    have hne : check.stage ≠ 1 := by
      intro hone
      have hcolors : ¬HasColorCounts numcolors lines := fun hcolors =>
        hfails (hasColorCounts_iff.1 hcolors check hcheck hone)
      obtain ⟨row', col', count', hcells⟩ := h.color_count hcolors
      obtain rfl := Option.some.inj (hfault.symm.trans hchannels)
      cases hcells.symm.trans herror
    omega
  · -- A formula is told of, and so all the counts are right.
    obtain ⟨hcolors, hchannels⟩ := h.formula e herror ((Check.kind_of_fault? hfault).trans hparse)
    obtain hone | htwo | hlast := hstage
    · exact absurd (hasColorCounts_iff.1 hcolors check hcheck hone) hfails
    · exact absurd ((hasChannelCounts_iff numcolors).1 hchannels check hcheck htwo) hfails
    · omega

/-- A table is refused stage by stage exactly when the first check that fails, cell by cell, is of
the earliest stage that fails at all. -/
theorem refusedByStages_iff {numcolors rows cols : ℕ}
    (hcount : 1 ≤ numcolors ∧ numcolors ≤ maxColors)
    {lines : List (List (List (List String)))} (htable : IsTable rows cols lines) :
    RefusedByStages numcolors lines ↔ FailsEarliest numcolors lines :=
  ⟨fun h => h.failsEarliest hcount htable, fun h => h.refusedByStages hcount htable⟩

/-- A cell without its color, and after it a formula that is none: the cell is told of. -/
theorem refusedByStages_iff_early_count :
    (1 ≤ 1 ∧ 1 ≤ maxColors) ∧ IsTable 1 2 [[[], [["x", "g0", "b0"]]]] ∧
      RefusedByStages 1 [[[], [["x", "g0", "b0"]]]] := by
  have hcount : 1 ≤ 1 ∧ 1 ≤ maxColors := by decide
  have htable : IsTable 1 2 [[[], [["x", "g0", "b0"]]]] :=
    ⟨rfl, by decide, by decide, by simp⟩
  refine ⟨hcount, htable, (refusedByStages_iff hcount htable).2 fun first hfirst => ?_⟩
  have hcell : firstFailing? 1 (.expressions [[[], [["x", "g0", "b0"]]]]) =
      some (.colorCount 0 0 0) := by decide +kernel
  obtain rfl := Option.some.inj (hfirst.symm.trans hcell)
  decide +kernel

/-- The same cells the other way round: the formula is told of. -/
theorem not_refusedByStages_late_count :
    (1 ≤ 1 ∧ 1 ≤ maxColors) ∧ IsTable 1 2 [[[["x", "g0", "b0"]], []]] ∧
      compileExpressions 1 [[[["x", "g0", "b0"]], []]] =
        .error (.cellFormula 0 0 0 0 ⟨0, .strayCharacter 'x'⟩) ∧
      ¬RefusedByStages 1 [[[["x", "g0", "b0"]], []]] := by
  have herror : compileExpressions 1 [[[["x", "g0", "b0"]], []]] =
      .error (.cellFormula 0 0 0 0 ⟨0, .strayCharacter 'x'⟩) := by decide +kernel
  refine ⟨by decide, ⟨rfl, by decide, by decide, by simp⟩, herror, fun h => ?_⟩
  have hcolors := (h.formula _ herror rfl).1
  cases hcolors _ (List.mem_cons_self ..) [] (by simp)

end Quilt.Grid
