import Mathlib
import Quilt.Proofs.Validity

namespace Quilt

namespace Grid

/-- A check of a description of a grid: its place, and what is looked at there. -/
inductive Check where
  | rowCount (rows : ℕ)
  | columnCount (cols : ℕ)
  | rowWidth (row width cols : ℕ)
  | colorCount (row col count : ℕ)
  | channelCount (row col color count : ℕ)
  | formula (row col color channel : ℕ) (source : String)
  | slotCount (row col count : ℕ)
  | slot (row col found : ℕ)
deriving DecidableEq

namespace Check

/-- What a check for a number of colors asks for. -/
def Passes (numcolors : ℕ) : Check → Prop
  | rowCount rows => 1 ≤ rows
  | columnCount cols => 1 ≤ cols
  | rowWidth _ width cols => width = cols
  | colorCount _ _ count | slotCount _ _ count => count = numcolors
  | channelCount _ _ _ count => count = 3
  | formula _ _ _ _ source => ∃ c, Formula.ChainText numcolors source.toList c
  | slot _ _ found => found < numcolors

/-- The kind of error that a check fails with. -/
def kind : Check → ErrorKind
  | formula .. => .parse
  | slot .. => .bounds
  | _ => .shape

/-- What a check fails with, at the place that it is made at. -/
def fault? (numcolors : ℕ) : Check → Option Error
  | rowCount rows => if rows = 0 then some .noRows else none
  | columnCount cols => if cols = 0 then some .noColumns else none
  | rowWidth row width cols => if width ≠ cols then some (.raggedRow row width cols) else none
  | colorCount row col count =>
    if count ≠ numcolors then some (.cellColors row col count numcolors) else none
  | channelCount row col color count =>
    if count ≠ 3 then some (.cellChannels row col color count) else none
  | formula row col color channel source =>
    match Formula.compile numcolors source with
    | .ok _ => none
    | .error e => some (.cellFormula row col color channel e)
  | slotCount row col count =>
    if count ≠ numcolors then some (.cellSelection row col count numcolors) else none
  | slot row col found =>
    if numcolors ≤ found then some (.cellSlot row col found numcolors) else none

end Check

/-- The checks of a table: its rows, its columns, and the width of each row. -/
def shapeChecks {α : Type} (lines : List (List α)) : List Check :=
  let cols := Functions.firstWidth lines
  .rowCount lines.length :: .columnCount cols ::
    lines.zipIdx.map fun (line, row) => .rowWidth row line.length cols

/-- The checks of the formulas of a color, for which its channels are counted first. -/
def colorChecks (row col color : ℕ) (channels : List String) : List Check :=
  .channelCount row col color channels.length ::
    channels.zipIdx.map fun (source, channel) => .formula row col color channel source

/-- The checks of a cell of formulas: its colors are counted, and then checked one by one. -/
def cellChecks (row col : ℕ) (colors : List (List String)) : List Check :=
  .colorCount row col colors.length ::
    colors.zipIdx.flatMap fun (channels, color) => colorChecks row col color channels

/-- The checks of a selection: its slots are counted, and then checked one by one. -/
def selectionChecks (row col : ℕ) (slots : List ℕ) : List Check :=
  .slotCount row col slots.length :: slots.map (.slot row col)

/-- The checks of all the cells in row-major order. -/
def cellsChecks {α : Type} (checksAt : ℕ → ℕ → α → List Check) (lines : List (List α)) :
    List Check :=
  lines.zipIdx.flatMap fun (line, row) =>
    line.zipIdx.flatMap fun (item, col) => checksAt row col item

end Grid

/-- The checks of functions in the order that they are made in. -/
def Functions.checks : Functions → List Grid.Check
  | expressions lines => Grid.shapeChecks lines ++ Grid.cellsChecks Grid.cellChecks lines
  | permutations lines => Grid.shapeChecks lines ++ Grid.cellsChecks Grid.selectionChecks lines

namespace Grid
variable {numcolors row col color channel : ℕ} {e : Error}

theorem Check.fault?_eq_none {check : Check} :
    check.fault? numcolors = none ↔ check.Passes numcolors := by
  cases check with
  | rowCount rows => simp [fault?, Passes, Nat.one_le_iff_ne_zero]
  | columnCount cols => simp [fault?, Passes, Nat.one_le_iff_ne_zero]
  | formula row col color channel source =>
    rw [Passes, ← exists_formula_iff, fault?]
    cases Formula.compile numcolors source <;> simp
  | rowWidth | colorCount | channelCount | slotCount | slot => simp [fault?, Passes]

instance (numcolors : ℕ) (check : Check) : Decidable (check.Passes numcolors) :=
  decidable_of_iff _ Check.fault?_eq_none

theorem Check.kind_of_fault? {check : Check} (h : check.fault? numcolors = some e) :
    e.kind = check.kind := by
  cases check with
  | formula row col color channel source =>
    rw [fault?] at h
    split at h
    · cases h
    · obtain rfl := Option.some.inj h
      rfl
  | rowCount | columnCount | rowWidth | colorCount | channelCount | slotCount | slot =>
    obtain ⟨-, h⟩ := Option.ite_none_right_eq_some.1 h
    obtain rfl := Option.some.inj h
    rfl

theorem makes_rectangle {α : Type} (lines : List (List α)) :
    Makes (Check.fault? numcolors) (shapeChecks lines) (rectangle lines) := by
  cases lines with
  | nil => exact makes_error rfl
  | cons first rest =>
    refine .cons rfl ?_
    rw [rectangle]
    split_ifs with hempty
    · have hfirst : first = [] := List.isEmpty_iff.1 hempty
      rw [hfirst]
      exact makes_error rfl
    · have hfirst : first.length ≠ 0 := fun h => hempty (List.isEmpty_iff_length_eq_zero.2 h)
      refine .cons (if_neg hfirst) fun e => ?_
      rw [List.findSome?_map]
      change _ ↔ ((first :: rest).zipIdx.findSome? fun p => if p.1.length ≠ first.length then
        some (.raggedRow p.2 p.1.length first.length) else none) = some e
      rw [findSome?_ite]
      cases (first :: rest).zipIdx.find? fun p => p.1.length ≠ first.length <;> simp

theorem makes_compileChannel (source : String) :
    Makes (Check.fault? numcolors) [.formula row col color channel source]
      (compileChannel numcolors row col color channel source) := by
  rw [compileChannel]
  cases h : Formula.compile numcolors source with
  | ok f => exact .cons (by rw [Check.fault?, h]) (makes_pure f)
  | error e => exact makes_error (by rw [Check.fault?, h])

theorem makes_compileColor (channels : List String) :
    Makes (Check.fault? numcolors) (colorChecks row col color channels)
      (compileColor numcolors row col color channels) := by
  unfold compileColor
  split
  · next red green blue =>
    refine .cons rfl ?_
    refine (makes_compileChannel red).bind fun r _ => ?_
    refine (makes_compileChannel green).bind fun g _ => ?_
    exact (makes_compileChannel blue).bind_pure
  · next hthree =>
    have hlength : channels.length ≠ 3 := by
      intro h
      obtain ⟨red, green, blue, rfl⟩ := List.length_eq_three.1 h
      exact hthree red green blue rfl
    exact makes_error (if_pos hlength)

theorem makes_compileCell (colors : List (List String)) :
    Makes (Check.fault? numcolors) (cellChecks row col colors)
      (compileCell numcolors row col colors) := by
  rw [compileCell]
  split_ifs with hlength
  · exact makes_error (if_pos hlength)
  · refine .cons (if_neg hlength) ?_
    exact (Makes.mapM fun p _ => makes_compileColor p.1).bind_pure

theorem makes_compileSelection (slots : List ℕ) :
    Makes (Check.fault? numcolors) (selectionChecks row col slots)
      (compileSelection numcolors row col slots) := by
  rw [compileSelection]
  split_ifs with hlength
  · exact makes_error (if_pos hlength)
  · refine .cons (if_neg hlength) fun e => ?_
    rw [List.findSome?_map]
    change _ ↔ (slots.findSome? fun slot => if numcolors ≤ slot then
      some (.cellSlot row col slot numcolors) else none) = some e
    rw [findSome?_ite]
    cases slots.find? fun slot => numcolors ≤ slot <;> simp

theorem makes_compileCells {α : Type} {compileAt : ℕ → ℕ → α → Except Error Cell}
    {checksAt : ℕ → ℕ → α → List Check}
    (h : ∀ row col item, Makes (Check.fault? numcolors) (checksAt row col item)
      (compileAt row col item)) (lines : List (List α)) :
    Makes (Check.fault? numcolors) (cellsChecks checksAt lines) (compileCells compileAt lines) := by
  refine Makes.bind_pure (.mapM fun p _ => ?_)
  exact .mapM fun q _ => h p.2 q.2 q.1

theorem makes_compile (hcount : 1 ≤ numcolors ∧ numcolors ≤ maxColors) (functions : Functions) :
    Makes (Check.fault? numcolors) functions.checks (compile numcolors functions) := by
  have hcolors : Makes (Check.fault? numcolors) [] (Cell.checkColorCount numcolors) := by
    rw [checkColorCount_eq_ok.2 hcount]
    exact makes_pure ()
  cases functions with
  | expressions lines =>
    refine hcolors.bind fun _ _ => (makes_rectangle lines).bind fun sides _ => ?_
    exact (makes_compileCells (fun _ _ => makes_compileCell) lines).bind_pure
  | permutations lines =>
    refine hcolors.bind fun _ _ => (makes_rectangle lines).bind fun sides _ => ?_
    exact (makes_compileCells (fun _ _ => makes_compileSelection) lines).bind_pure

/-- The first check that fails. -/
def firstFailing? (numcolors : ℕ) (functions : Functions) : Option Check :=
  functions.checks.find? fun check => ¬check.Passes numcolors

theorem findSome?_fault? (numcolors : ℕ) (functions : Functions) :
    functions.checks.findSome? (Check.fault? numcolors) =
      (firstFailing? numcolors functions).bind (Check.fault? numcolors) := by
  have hfails : ∀ check : Check,
      (check.fault? numcolors).isSome = decide (¬check.Passes numcolors) := by
    intro check
    rw [Bool.eq_iff_iff, decide_eq_true_iff, ← Check.fault?_eq_none, Option.isSome_iff_ne_none]
  rw [findSome?_eq_bind_find?, firstFailing?]
  simp only [hfails]

theorem exists_firstFailing?_iff {functions : Functions} :
    (∃ check, firstFailing? numcolors functions = some check) ↔
      ∃ check ∈ functions.checks, ¬check.Passes numcolors := by
  rw [← Option.isSome_iff_exists, firstFailing?, List.find?_isSome]
  simp only [decide_eq_true_eq]

theorem exists_fault?_iff {check : Check} :
    (∃ e, check.fault? numcolors = some e) ↔ ¬check.Passes numcolors := by
  rw [← Check.fault?_eq_none, ← Option.isSome_iff_exists, Option.isSome_iff_ne_none]

theorem compile_eq_error (hcount : 1 ≤ numcolors ∧ numcolors ≤ maxColors) (functions : Functions) :
    compile numcolors functions = .error e ↔ ∃ check,
      firstFailing? numcolors functions = some check ∧ check.fault? numcolors = some e := by
  rw [makes_compile hcount functions e, findSome?_fault?, Option.bind_eq_some_iff]

theorem exists_fault?_of_firstFailing? {functions : Functions} {check : Check}
    (h : firstFailing? numcolors functions = some check) :
    ∃ e, check.fault? numcolors = some e :=
  exists_fault?_iff.2 (by simpa using List.find?_some h)

/-- Functions are refused exactly when some check fails. The error is what the first of those finds,
in the order of the checks, with its place and of its kind. -/
theorem compile_first_fault {numcolors : ℕ} (hcount : 1 ≤ numcolors ∧ numcolors ≤ maxColors)
    (functions : Functions) :
    ((∃ e, compile numcolors functions = .error e) ↔
      ∃ check ∈ functions.checks, ¬check.Passes numcolors) ∧
    ∀ e, compile numcolors functions = .error e ↔
      ∃ check, firstFailing? numcolors functions = some check ∧
        check.fault? numcolors = some e ∧ e.kind = check.kind := by
  refine ⟨?_, fun e => ?_⟩
  · rw [← exists_firstFailing?_iff]
    constructor
    · rintro ⟨e, he⟩
      obtain ⟨check, hfirst, -⟩ := (compile_eq_error hcount functions).1 he
      exact ⟨check, hfirst⟩
    · rintro ⟨check, hfirst⟩
      obtain ⟨e, he⟩ := exists_fault?_of_firstFailing? hfirst
      exact ⟨e, (compile_eq_error hcount functions).2 ⟨check, hfirst, he⟩⟩
  · rw [compile_eq_error hcount]
    refine exists_congr fun check => and_congr_right' ?_
    exact (and_iff_left_of_imp Check.kind_of_fault?).symm

/-- The last color of the second cell reads a slot that is not there, and the fault after it is not
told. -/
theorem compile_first_fault_unknown_slot :
    (1 ≤ 2 ∧ 2 ≤ maxColors) ∧
      compile 2 (.expressions [[[["r0", "g0", "b0"], ["r1", "g1", "b1"]],
        [["1", "2", "3"], ["r1", "g2", "b1+"]]]]) =
          .error (.cellFormula 0 1 1 1 ⟨0, .unknownSlot .green 2 2⟩) := by
  have hcount : 1 ≤ 2 ∧ 2 ≤ maxColors := by decide
  have hfirst : firstFailing? 2 (.expressions [[[["r0", "g0", "b0"], ["r1", "g1", "b1"]],
      [["1", "2", "3"], ["r1", "g2", "b1+"]]]]) = some (.formula 0 1 1 1 "g2") := by decide +kernel
  have hfault : Check.fault? 2 (.formula 0 1 1 1 "g2") =
      some (.cellFormula 0 1 1 1 ⟨0, .unknownSlot .green 2 2⟩) := by decide +kernel
  exact ⟨hcount, ((compile_first_fault hcount _).2 _).2 ⟨_, hfirst, hfault, rfl⟩⟩

end Grid

end Quilt
