import Mathlib
import Quilt.Proofs.Compile
import Quilt.Proofs.Grammar
import Quilt.Proofs.Subdivision

namespace Quilt

def Operand.slots : Operand → List ℕ
  | component _ slot => [slot]
  | literal _ => []

def Chain.slots (c : Chain) : List ℕ := c.operands.flatMap Operand.slots

def ColorFormula.slots (f : ColorFormula) : List ℕ :=
  Channel.all.flatMap fun ch => (f.get ch).chain.slots

namespace Cell

/-- The slots that a cell reads. -/
def slots : Cell → List ℕ
  | arithmetic outputs => outputs.flatMap ColorFormula.slots
  | selection slots => slots

def kind : Cell → GridKind
  | arithmetic _ => .arithmetic
  | selection _ => .permutation

/-- The cells that a grid of a kind may have for a number of colors. -/
structure IsFor (kind : GridKind) (numcolors : ℕ) (cell : Cell) : Prop where
  kind_eq : cell.kind = kind
  arity_eq : cell.arity = numcolors
  slots_lt : ∀ slot ∈ cell.slots, slot < numcolors

end Cell

namespace Formula
variable {numcolors : ℕ} {text : List Char} {operand : Operand} {c : Chain}

theorem OperandText.slots_lt (h : OperandText numcolors text operand) :
    ∀ slot ∈ operand.slots, slot < numcolors := by
  cases h with
  | component ch hdigit hslot => simpa [Operand.slots] using hslot
  | literal => simp [Operand.slots]

theorem ChainText.slots_lt (h : ChainText numcolors text c) :
    ∀ slot ∈ c.slots, slot < numcolors := by
  refine List.forall_mem_flatMap.2 fun operand hoperand => ?_
  obtain ⟨_, htext⟩ := h.exists_operandText operand hoperand
  exact htext.slots_lt

end Formula

theorem ColorState.get?_eq_some {s : ColorState} {i : ℕ} (h : i < s.size) :
    s.get? i = some (s.slot i) := by
  rw [get?, slot, List.getD_eq_getElem?_getD, List.getElem?_eq_getElem h, Option.getD_some]

variable {s : ColorState}

def Operand.eval? (s : ColorState) : Operand → Option Float
  | .component channel slot => (s.get? slot).map (·.get channel)
  | .literal value => some value

def Chain.evalFrom? (s : ColorState) (value : Float) (tail : List (Op × Operand)) : Option Float :=
  tail.foldlM (fun acc link => (link.2.eval? s).map (link.1.apply acc)) value

def Chain.eval? (s : ColorState) (c : Chain) : Option Float :=
  c.head.eval? s >>= fun value => evalFrom? s value c.tail

def ColorFormula.eval? (s : ColorState) (f : ColorFormula) : Option Color := do
  let red ← f.red.chain.eval? s
  let green ← f.green.chain.eval? s
  let blue ← f.blue.chain.eval? s
  return ⟨red, green, blue⟩

/-- What a cell does to a state, if the state has all the slots that the cell reads. -/
def Cell.next? (s : ColorState) : Cell → Option ColorState
  | arithmetic outputs => (outputs.mapM (ColorFormula.eval? s)).map ColorState.mk
  | selection slots => (slots.mapM s.get?).map ColorState.mk

theorem Operand.eval?_eq_some {operand : Operand} (h : ∀ slot ∈ operand.slots, slot < s.size) :
    operand.eval? s = some (operand.eval s) := by
  cases operand with
  | component ch slot =>
    rw [eval?, ColorState.get?_eq_some (h slot (List.mem_singleton_self slot))]
    rfl
  | literal => rfl

theorem Chain.eval?_eq_some {c : Chain} (h : ∀ slot ∈ c.slots, slot < s.size) :
    c.eval? s = some (c.eval s) := by
  obtain ⟨hhead, htail⟩ := List.forall_mem_cons.1 (List.forall_mem_flatMap.1 h)
  rw [eval?, Operand.eval?_eq_some hhead]
  refine foldlM_eq_some (fun link hlink value => ?_) _
  rw [Operand.eval?_eq_some (List.forall_mem_map.1 htail link hlink)]
  rfl

theorem ColorFormula.eval?_eq_some {f : ColorFormula} (h : ∀ slot ∈ f.slots, slot < s.size) :
    f.eval? s = some (f.eval s) := by
  have hchannel : ∀ ch : Channel, (f.get ch).chain.eval? s = some ((f.get ch).eval s) := by
    intro ch
    refine Chain.eval?_eq_some (List.forall_mem_flatMap.1 h ch ?_)
    cases ch <;> simp [Channel.all]
  have hred := hchannel .red
  have hgreen := hchannel .green
  have hblue := hchannel .blue
  simp only [get] at hred hgreen hblue
  rw [eval?, hred, hgreen, hblue]
  rfl

theorem Cell.next?_eq_some {cell : Cell} (h : ∀ slot ∈ cell.slots, slot < s.size) :
    cell.next? s = some (cell.apply s) := by
  cases cell with
  | arithmetic outputs =>
    have hread : outputs.mapM (ColorFormula.eval? s) = some (outputs.map (·.eval s)) := by
      rw [mapM_eq_some, List.forall₂_map_right_iff, List.forall₂_same]
      exact fun f hf => ColorFormula.eval?_eq_some (List.forall_mem_flatMap.1 h f hf)
    rw [next?, hread]
    rfl
  | selection slots =>
    have hread : slots.mapM s.get? = some (slots.map s.slot) := by
      rw [mapM_eq_some, List.forall₂_map_right_iff, List.forall₂_same]
      exact fun slot hslot => ColorState.get?_eq_some (h slot hslot)
    rw [next?, hread]
    rfl

theorem Cell.identity_eq_ok {numcolors : ℕ} {cell : Cell} : Cell.identity numcolors = .ok cell ↔
    (1 ≤ numcolors ∧ numcolors ≤ maxColors) ∧ .selection (List.range numcolors) = cell := by
  simp only [identity, bind_eq_ok, pure_eq_ok, Grid.checkColorCount_eq_ok]
  exact ⟨fun ⟨_, hcount, h⟩ => ⟨hcount, h⟩, fun ⟨hcount, h⟩ => ⟨(), hcount, h⟩⟩

namespace Grid
variable {g : Grid} {kind : GridKind} {numcolors : ℕ}

/-- What every grid of a kind for a number of colors satisfies. -/
structure WellFormed (kind : GridKind) (numcolors : ℕ) (g : Grid) : Prop extends g.IsFilled where
  kind_eq : g.kind = kind
  numcolors_eq : g.numcolors = numcolors
  color_count : 1 ≤ numcolors ∧ numcolors ≤ maxColors
  /-- The entries are the cells at all the places, row by row. -/
  entries_eq : g.entries.map (fun e => (e.row, e.col, some e.cell)) =
    (List.range g.rows ×ˢ List.range g.cols).map fun p => (p.1, p.2, g.cell? p.1 p.2)
  isFor : ∀ cell ∈ g.cells, cell.IsFor kind numcolors

/-- The cell at each place is compiled from the description at that place. -/
def HasCells {α : Type} (compileAt : ℕ → ℕ → α → Except Error Cell) (lines : List (List α))
    (g : Grid) : Prop :=
  g.rows = lines.length ∧ (∀ line ∈ lines, line.length = g.cols) ∧
    ∀ row col, Option.Rel (fun item cell => compileAt row col item = .ok cell)
      (lines[row]? >>= (·[col]?)) (g.cell? row col)

theorem isFor_of_cellCompiles {colors : List (List String)} {cell : Cell}
    (h : CellCompiles numcolors colors cell) : cell.IsFor .arithmetic numcolors := by
  obtain ⟨hlength, outputs, houtputs, rfl⟩ := h
  refine ⟨rfl, houtputs.length_eq.symm.trans hlength, ?_⟩
  refine List.forall_mem_flatMap.2 fun f hf => List.forall_mem_flatMap.2 fun ch _ => ?_
  obtain ⟨sources, -, hsources⟩ := exists_of_mem_right houtputs hf
  obtain ⟨source, -, hsource⟩ : ∃ source ∈ sources,
      Formula.compile numcolors source = .ok (f.get ch) := by
    apply exists_of_mem_right hsources
    cases ch <;> simp [ColorFormula.get]
  exact (Formula.compile_eq_ok_iff_chainText.1 hsource).2.slots_lt

theorem isFor_of_selectionCompiles {slots : List ℕ} {cell : Cell}
    (h : SelectionCompiles numcolors slots cell) : cell.IsFor .permutation numcolors := by
  obtain ⟨hlength, hslots, rfl⟩ := h
  exact ⟨rfl, hlength, hslots⟩

section Lines
variable {α : Type} {R : α → Cell → Prop} {lines : List (List α)}

theorem CompilesFrom.wellFormed (h : g.CompilesFrom R kind numcolors lines) (hg : g.IsFilled)
    (hR : ∀ item cell, R item cell → cell.IsFor kind numcolors) :
    g.WellFormed kind numcolors := by
  refine ⟨hg, h.kind_eq, h.numcolors_eq, h.color_count, map_cell?_entries hg, ?_⟩
  obtain ⟨rows, hrows, hcells⟩ := h.exists_rows
  intro cell hmem
  rw [← hcells, List.mem_toArray] at hmem
  obtain ⟨row, hrow, hcell⟩ := List.mem_flatten.1 hmem
  obtain ⟨line, -, hline⟩ := exists_of_mem_right hrows hrow
  obtain ⟨item, -, hitem⟩ := exists_of_mem_right hline hcell
  exact hR item cell hitem

theorem CompilesFrom.hasCells (h : g.CompilesFrom R kind numcolors lines)
    {compileAt : ℕ → ℕ → α → Except Error Cell}
    (hR : ∀ row col item cell, compileAt row col item = .ok cell ↔ R item cell) :
    g.HasCells compileAt lines := by
  obtain ⟨hrows, -, -, hcols⟩ := rectangle_eq_ok.1 h.rectangle_eq
  refine ⟨hrows.symm, hcols, fun row col => ?_⟩
  simp only [hR]
  exact h.rel_cell? row col

end Lines

theorem identity_eq_ok {rows cols : ℕ} : identity rows cols numcolors = .ok g ↔
    (1 ≤ numcolors ∧ numcolors ≤ maxColors) ∧ (0 < rows ∧ 0 < cols) ∧
      ⟨rows, cols, numcolors, .permutation,
        Array.replicate (rows * cols) (.selection (List.range numcolors))⟩ = g := by
  simp only [identity, bind_eq_ok, Cell.identity_eq_ok]
  constructor
  · rintro ⟨cell, ⟨hcount, rfl⟩, h⟩
    split_ifs at h with hzero
    · cases h
    · rw [not_or] at hzero
      exact ⟨hcount, ⟨Nat.pos_of_ne_zero hzero.1, Nat.pos_of_ne_zero hzero.2⟩, pure_eq_ok.1 h⟩
  · rintro ⟨hcount, ⟨hrows, hcols⟩, rfl⟩
    refine ⟨_, ⟨hcount, rfl⟩, ?_⟩
    rw [if_neg (not_or.2 ⟨hrows.ne', hcols.ne'⟩)]
    rfl

theorem isFor_selection_range (numcolors : ℕ) :
    (Cell.selection (List.range numcolors)).IsFor .permutation numcolors :=
  ⟨rfl, List.length_range, fun _ => List.mem_range.1⟩

theorem wellFormed_of_expressions {lines : List (List (List (List String)))}
    (h : compileExpressions numcolors lines = .ok g) : g.WellFormed .arithmetic numcolors :=
  (compileExpressions_eq_ok.1 h).wellFormed (IsCompiled.expressions h).isFilled
    fun _ _ => isFor_of_cellCompiles

theorem wellFormed_of_permutations {lines : List (List (List ℕ))}
    (h : compilePermutations numcolors lines = .ok g) : g.WellFormed .permutation numcolors :=
  (compilePermutations_eq_ok.1 h).wellFormed (IsCompiled.permutations h).isFilled
    fun _ _ => isFor_of_selectionCompiles

theorem wellFormed_of_identity {rows cols : ℕ} (h : identity rows cols numcolors = .ok g) :
    g.WellFormed .permutation numcolors := by
  have hg := (IsCompiled.identity h).isFilled
  obtain ⟨hcount, -, rfl⟩ := identity_eq_ok.1 h
  refine ⟨hg, rfl, rfl, hcount, map_cell?_entries hg, fun cell hcell => ?_⟩
  obtain rfl := Array.eq_of_mem_replicate hcell
  exact isFor_selection_range numcolors

theorem IsCompiled.exists_wellFormed (hg : g.IsCompiled) :
    ∃ kind numcolors, g.WellFormed kind numcolors := by
  cases hg with
  | expressions h => exact ⟨_, _, wellFormed_of_expressions h⟩
  | permutations h => exact ⟨_, _, wellFormed_of_permutations h⟩
  | identity h => exact ⟨_, _, wellFormed_of_identity h⟩

theorem IsCompiled.color_count (hg : g.IsCompiled) :
    1 ≤ g.numcolors ∧ g.numcolors ≤ maxColors := by
  obtain ⟨kind, numcolors, hwell⟩ := hg.exists_wellFormed
  rw [hwell.numcolors_eq]
  exact hwell.color_count

theorem IsCompiled.numcolors_pos (hg : g.IsCompiled) : 0 < g.numcolors := hg.color_count.1

theorem IsCompiled.isFor (hg : g.IsCompiled) : ∀ cell ∈ g.cells, cell.IsFor g.kind g.numcolors := by
  obtain ⟨kind, numcolors, hwell⟩ := hg.exists_wellFormed
  rw [hwell.kind_eq, hwell.numcolors_eq]
  exact hwell.isFor

/-- The states that a subdivision passes on the way down, and how far down. -/
inductive Reaches (g : Grid) (s : ColorState) : ℕ → ColorState → Prop
  | start : Reaches g s 0 s
  | step {level : ℕ} {reached : ColorState} {cell : Cell} (h : Reaches g s level reached)
      (hcell : cell ∈ g.cells) : Reaches g s (level + 1) (cell.apply reached)

/-- The walk that fails where a cell reads a slot that is missing. -/
def walk? {β : Type} (layout : Layout) (entries : List Entry) (visit : β → LeafCall → β) :
    List Stride → UInt32 → UInt32 → ColorState → β → Option β
  | [], x, y, s, acc => some (visit acc ⟨x, y, s⟩)
  | stride :: below, x, y, s, acc =>
    entries.foldlM (fun acc e =>
      let (dx, dy) := childOffset layout stride e.row e.col
      e.cell.next? s >>= fun next =>
        walk? layout entries visit below (x + dx) (y + dy) next acc) acc

def run? {β : Type} (g : Grid) (layout : Layout) (depth : ℕ) (visit : β → LeafCall → β)
    (s : ColorState) (acc : β) : Option β :=
  walk? layout g.entries visit (g.strides depth) 0 0 s acc

/-- The calls of a run in their order. -/
def calls (g : Grid) (layout : Layout) (depth : ℕ) (s : ColorState) : List LeafCall :=
  g.run layout depth (fun calls call => calls ++ [call]) s []

/-- A run from a state keeps to the slots that there are. -/
structure RunsInside (g : Grid) (s : ColorState) : Prop where
  size_eq : ∀ level reached, g.Reaches s level reached → reached.size = g.numcolors
  apply_eq : ∀ level reached, g.Reaches s level reached →
    ∀ cell ∈ g.cells, cell.next? reached = some (cell.apply reached)
  run_eq : ∀ {β : Type} (layout : Layout) (depth : ℕ) (visit : β → LeafCall → β) (acc : β),
    g.run? layout depth visit s acc = some (g.run layout depth visit s acc)
  leaves : ∀ layout depth, ∀ call ∈ g.calls layout depth s, g.Reaches s depth call.state

variable {s : ColorState}

theorem Reaches.size_eq (hg : g.WellFormed kind numcolors) (hs : s.size = numcolors) {level : ℕ}
    {reached : ColorState} (h : g.Reaches s level reached) : reached.size = numcolors := by
  cases h with
  | start => exact hs
  | step _ hcell => rw [Cell.size_apply, (hg.isFor _ hcell).arity_eq]

theorem next?_of_size_eq (hg : g.WellFormed kind numcolors) (hs : s.size = numcolors) {cell : Cell}
    (hcell : cell ∈ g.cells) : cell.next? s = some (cell.apply s) :=
  Cell.next?_eq_some (hs ▸ (hg.isFor cell hcell).slots_lt)

theorem walk?_eq_some {β : Type} (hg : g.WellFormed kind numcolors) (layout : Layout)
    (visit : β → LeafCall → β) (strides : List Stride) (x y : UInt32) (hs : s.size = numcolors)
    (acc : β) : walk? layout g.entries visit strides x y s acc =
      some (walk layout g.entries visit strides x y s acc) := by
  induction strides generalizing x y s acc with
  | nil => rfl
  | cons stride below ih =>
    refine foldlM_eq_some (fun e he acc => ?_) acc
    have hcell := mem_cells_of_mem_entries he
    have hnext : (e.cell.apply s).size = numcolors := by
      rw [Cell.size_apply, (hg.isFor _ hcell).arity_eq]
    dsimp only
    rw [next?_of_size_eq hg hs hcell]
    exact ih _ _ hnext acc

theorem walk_induction {β : Type} {P : β → Prop} {depth : ℕ} (layout : Layout)
    (visit : β → LeafCall → β)
    (hvisit : ∀ acc call, P acc → g.Reaches s depth call.state → P (visit acc call))
    (strides : List Stride) (x y : UInt32) {level : ℕ} {reached : ColorState}
    (h : g.Reaches s level reached) (hdepth : level + strides.length = depth) {acc : β}
    (hacc : P acc) : P (walk layout g.entries visit strides x y reached acc) := by
  -- A child is one level deeper and has one stride less below it, so the depth stays the same.
  induction strides generalizing x y level reached acc with
  | nil =>
    obtain rfl : level = depth := hdepth
    exact hvisit _ _ hacc h
  | cons stride below ih =>
    have hbelow : level + 1 + below.length = depth := by
      rw [← hdepth, List.length_cons, Nat.add_right_comm, Nat.add_assoc]
    refine List.foldlRecOn _ _ hacc fun acc hacc e he => ?_
    exact ih _ _ (.step h (mem_cells_of_mem_entries he)) hbelow hacc

theorem WellFormed.runsInside (hg : g.WellFormed kind numcolors) (hs : s.size = numcolors) :
    g.RunsInside s := by
  constructor
  · intro level reached h
    rw [hg.numcolors_eq]
    exact h.size_eq hg hs
  · intro level reached h cell hcell
    exact next?_of_size_eq hg (h.size_eq hg hs) hcell
  · intro β layout depth visit acc
    exact walk?_eq_some hg layout visit _ 0 0 hs acc
  · intro layout depth
    have hdepth : 0 + (g.strides depth).length = depth := by rw [length_strides, zero_add]
    let Kept (calls : List LeafCall) : Prop := ∀ call ∈ calls, g.Reaches s depth call.state
    have hvisit : ∀ calls call, Kept calls → g.Reaches s depth call.state →
        Kept (calls ++ [call]) := fun calls call hcalls hcall =>
      List.forall_mem_append.2 ⟨hcalls, List.forall_mem_singleton.2 hcall⟩
    exact walk_induction layout _ hvisit _ 0 0 .start hdepth (List.forall_mem_nil _)

/-- Grids are well formed however they are made, with each cell made from the description at its
place. A subdivision of theirs to any depth keeps the number of colors, and reads no slot that is
missing. -/
theorem compiled_wellFormed :
    (∀ numcolors lines (g : Grid), compileExpressions numcolors lines = .ok g →
      g.WellFormed .arithmetic numcolors ∧ g.HasCells (compileCell numcolors) lines) ∧
    (∀ numcolors lines (g : Grid), compilePermutations numcolors lines = .ok g →
      g.WellFormed .permutation numcolors ∧ g.HasCells (compileSelection numcolors) lines) ∧
    (∀ rows cols numcolors (g : Grid), identity rows cols numcolors = .ok g →
      g.WellFormed .permutation numcolors ∧ (g.rows = rows ∧ g.cols = cols) ∧
        ∀ cell ∈ g.cells, Cell.identity numcolors = .ok cell) ∧
    ∀ g : Grid, g.IsCompiled → ∀ s : ColorState, s.size = g.numcolors → g.RunsInside s := by
  refine ⟨fun numcolors lines g h => ?_, fun numcolors lines g h => ?_,
    fun rows cols numcolors g h => ?_, fun g hg s hs => ?_⟩
  · exact ⟨wellFormed_of_expressions h,
      (compileExpressions_eq_ok.1 h).hasCells fun _ _ _ _ => compileCell_eq_ok⟩
  · exact ⟨wellFormed_of_permutations h,
      (compilePermutations_eq_ok.1 h).hasCells fun _ _ _ _ => compileSelection_eq_ok⟩
  · refine ⟨wellFormed_of_identity h, ?_⟩
    obtain ⟨hcount, -, rfl⟩ := identity_eq_ok.1 h
    refine ⟨⟨rfl, rfl⟩, fun cell hcell => ?_⟩
    obtain rfl := Array.eq_of_mem_replicate hcell
    exact Cell.identity_eq_ok.2 ⟨hcount, rfl⟩
  · obtain ⟨kind, numcolors, hwell⟩ := hg.exists_wellFormed
    exact hwell.runsInside (hs.trans hwell.numcolors_eq)

theorem compiled_wellFormed_two_by_three :
    (∃ g, compileExpressions 1 [[[["r0 / 2", "g0", "b0"]]]] = .ok g ∧
      g.WellFormed .arithmetic 1 ∧ g.HasCells (compileCell 1) [[[["r0 / 2", "g0", "b0"]]]]) ∧
    (∃ lines, compilePermutations 2 lines = .ok twoByThree ∧ twoByThree.WellFormed .permutation 2 ∧
      twoByThree.HasCells (compileSelection 2) lines) ∧
    (∃ g, identity 2 3 2 = .ok g ∧ g.WellFormed .permutation 2) ∧
    twoByThree.RunsInside ⟨[.black, ⟨255, 0, 0⟩]⟩ := by
  obtain ⟨hexpressions, hpermutations, hidentity, hruns⟩ := compiled_wellFormed
  have hformulas : compileExpressions 1 [[[["r0 / 2", "g0", "b0"]]]] =
      .ok ⟨1, 1, 1, .arithmetic, #[.arithmetic
        [⟨⟨"r0 / 2", .component .red 0, [(.div, .literal 2)]⟩, ⟨"g0", .component .green 0, []⟩,
          ⟨"b0", .component .blue 0, []⟩⟩]]⟩ := by decide +kernel
  have hselections : compilePermutations 2
      [[[0, 1], [1, 0], [1, 1]], [[0, 0], [1, 0], [0, 1]]] = .ok twoByThree := rfl
  have hidentical : identity 2 3 2 = .ok ⟨2, 3, 2, .permutation,
      Array.replicate (2 * 3) (.selection (List.range 2))⟩ := rfl
  exact ⟨⟨_, hformulas, hexpressions _ _ _ hformulas⟩,
    ⟨_, hselections, hpermutations _ _ _ hselections⟩,
    ⟨_, hidentical, (hidentity _ _ _ _ hidentical).1⟩, hruns _ twoByThree_isCompiled _ rfl⟩

end Grid

end Quilt
