import Mathlib
import Quilt.Proofs.Animation
import Quilt.Proofs.Compile
import Quilt.Proofs.Grammar

namespace Quilt

/-- Two cells that take every state to the same state. -/
def Cell.Alike (a b : Cell) : Prop := ∀ s : ColorState, a.apply s = b.apply s

/-- Two grids of the same sides with cells alike in the same places. -/
structure Grid.Alike (a b : Grid) : Prop where
  rows_eq : a.rows = b.rows
  cols_eq : a.cols = b.cols
  numcolors_eq : a.numcolors = b.numcolors
  cell?_alike : ∀ row col, Option.Rel Cell.Alike (a.cell? row col) (b.cell? row col)

/-- Two leaves on the same path that hand on the same state. -/
structure Leaf.Alike (a b : Leaf) : Prop where
  path_eq : a.path = b.path
  replay_eq : ∀ s, a.replay s = b.replay s

/-- Two plans of the same size that show the same, whatever they are asked to show. -/
structure Plan.ShowAlike (a b : Plan) : Prop where
  width_eq : a.width = b.width
  height_eq : a.height = b.height
  leaf?_alike : ∀ x y, Option.Rel Leaf.Alike (a.leaf? x y) (b.leaf? x y)
  render_eq : ∀ s, a.render s = b.render s
  composite_eq : ∀ base s, a.composite base s = b.composite base s
  animate_eq : ∀ {m : Type → Type} [Monad m] (s : ColorState) (frames : ℕ) (sink : FrameSink m),
    a.animate s frames sink = b.animate s frames sink

theorem rel_of_rel_map {α β γ δ : Type} {R : α → β → Prop} {S : γ → δ → Prop} {T : δ → β → Prop}
    {f : α → γ} {a : Option α} {b : Option β} {d : Option δ} (hb : Option.Rel R a b)
    (hd : Option.Rel S (a.map f) d) (h : ∀ x y z, R x y → S (f x) z → T z y) :
    Option.Rel T d b := by
  cases hb with
  | none =>
    cases hd
    exact .none
  | some hxy =>
    obtain ⟨z, rfl, hz⟩ := exists_of_rel_some hd
    exact .some (h _ _ _ hxy hz)

theorem Leaf.replay_congr {path : List (ℕ × ℕ)} {as bs : List Cell}
    (h : List.Forall₂ Cell.Alike as bs) (s : ColorState) :
    Leaf.replay ⟨path, as⟩ s = Leaf.replay ⟨path, bs⟩ s := by
  unfold replay
  induction h generalizing s with
  | nil => rfl
  | cons hcell _ ih => rw [List.foldl_cons, List.foldl_cons, hcell s, ih]

namespace Grid.Alike
variable {a b : Grid}

theorem strides_eq (h : a.Alike b) (depth : ℕ) : a.strides depth = b.strides depth := by
  induction depth with
  | zero => rfl
  | succ depth ih => simp only [strides, ih, strideAbove, h.rows_eq, h.cols_eq]

theorem cellsAlong_alike (h : a.Alike b) (path : List (ℕ × ℕ)) :
    List.Forall₂ Cell.Alike (a.cellsAlong path) (b.cellsAlong path) := by
  induction path with
  | nil => exact .nil
  | cons place path ih =>
    obtain ⟨row, col⟩ := place
    have hcell := h.cell?_alike row col
    unfold cellsAlong at *
    simp only [List.filterMap_cons]
    generalize a.cell? row col = c, b.cell? row col = d at hcell
    cases hcell with
    | none => exact ih
    | some hcd => exact .cons hcd ih

end Grid.Alike

namespace Plan

section Alike
variable {p q : Plan}

theorem new_of_alike {g g' : Grid} (h : g'.Alike g) (depth : ℕ) (opts : RenderOptions) :
    Plan.new g' depth opts = (Plan.new g depth opts).map ({ · with grid := g' }) := by
  rw [Plan.new, Plan.new, h.rows_eq, h.cols_eq]
  cases rasterSize g.rows g.cols depth opts <;> rfl

theorem leafAt_alike {g : Grid} (h : g.Alike p.grid) (x y : ℕ) :
    Leaf.Alike (leafAt { p with grid := g } x y) (p.leafAt x y) := by
  have hpath : g.pathTo p.layout p.depth (.ofNat x) (.ofNat y) =
      p.grid.pathTo p.layout p.depth (.ofNat x) (.ofNat y) := by
    simp only [Grid.pathTo, h.strides_eq]
  refine ⟨hpath, fun s => ?_⟩
  simp only [leafAt, hpath]
  exact Leaf.replay_congr (h.cellsAlong_alike _) s

theorem pixel_leafAt_eq {g : Grid} (h : g.Alike p.grid) (x y : ℕ) (s : ColorState) :
    (leafAt { p with grid := g } x y).pixel s = (p.leafAt x y).pixel s := by
  rw [Leaf.pixel, Leaf.pixel, (leafAt_alike h x y).replay_eq]

theorem pushFrames_congr {m : Type → Type} [Monad m] {s t : ColorState}
    (h : p.nextFrame s = q.nextFrame t) (sink : FrameSink m) (count index : ℕ)
    (previous : Option Raster) :
    p.pushFrames s sink count index previous = q.pushFrames t sink count index previous := by
  induction count generalizing index previous with
  | zero => rfl
  | succ count ih => simp only [pushFrames, h, ih]

theorem showAlike_of_alike {g : Grid} (hp : p.IsPlanned) (hq : IsPlanned { p with grid := g })
    (h : g.Alike p.grid) : ShowAlike { p with grid := g } p := by
  have hstate : ∀ s, checkState { p with grid := g } s = p.checkState s := by
    intro s
    simp only [checkState, h.numcolors_eq]
  have hrender : ∀ s, render { p with grid := g } s = p.render s := by
    intro s
    simp only [render, hstate, draw_eq_ofFn hp, draw_eq_ofFn hq, pixel_leafAt_eq h]
  have hcomposite : ∀ base s, composite { p with grid := g } base s = p.composite base s := by
    intro base s
    simp only [composite, hstate, drawOver, pixel_leafAt_eq h]
  refine ⟨rfl, rfl, fun x y => ?_, hrender, hcomposite, fun s frames sink => ?_⟩
  · unfold leaf?
    split_ifs
    · exact .some (leafAt_alike h x y)
    · exact .none
  · have hnext : nextFrame { p with grid := g } s = p.nextFrame s := by
      funext previous
      cases previous with
      | none => exact hrender s
      | some previous => exact hcomposite previous s
    simp only [animate, hstate, pushFrames_congr hnext]

end Alike

end Plan

namespace Functions

/-- The formulas that copy a slot, channel by channel: `r3`, `g3` and `b3` for slot 3. -/
def copySources (slot : ℕ) : List String :=
  Channel.all.map fun ch => ch.letter.toString ++ toString slot

/-- The formulas of a grid that copies the slots that selections name. -/
def copies (lines : List (List (List ℕ))) : List (List (List (List String))) :=
  lines.map (·.map (·.map copySources))

end Functions

/-- The formula that copies one channel of a slot. -/
def Formula.copy (slot : ℕ) (ch : Channel) : Formula :=
  ⟨ch.letter.toString ++ toString slot, .component ch slot, []⟩

namespace Grid
open Functions (copySources copies)

variable {numcolors slot : ℕ} {slots : List ℕ} {lines : List (List (List ℕ))} {g : Grid}

theorem compile_copy (hcount : numcolors ≤ maxColors) (hslot : slot < numcolors)
    (ch : Channel) : Formula.compile numcolors (ch.letter.toString ++ toString slot) =
      .ok (Formula.copy slot ch) := by
  refine Formula.compile_eq_ok_iff_chainText.2 ⟨rfl, ?_⟩
  have hlist : (ch.letter.toString ++ toString slot).toList =
      (ch.letter :: Nat.toDigits 10 slot) ++ [] := by
    rw [Nat.toString_eq_ofList_toDigits]
    simp [Char.toString]
  rw [hlist]
  exact .cons (Formula.operandText_component ch hslot (hslot.trans_le hcount)) .nil

theorem colorCompiles_copySources (hcount : numcolors ≤ maxColors) (hslot : slot < numcolors)
    {f : ColorFormula} :
    ColorCompiles numcolors (copySources slot) f ↔ ∀ ch, f.get ch = Formula.copy slot ch := by
  simp only [ColorCompiles, copySources, Channel.all, List.map_cons, List.map_nil,
    List.forall₂_cons, compile_copy hcount hslot, Except.ok.injEq, List.forall₂_nil_left_iff,
    and_true]
  constructor
  · rintro ⟨hr, hg, hb⟩ ch
    cases ch
    · exact hr.symm
    · exact hg.symm
    · exact hb.symm
  · intro h
    exact ⟨(h .red).symm, (h .green).symm, (h .blue).symm⟩

theorem eval_of_get_eq {f : ColorFormula} (h : ∀ ch, f.get ch = Formula.copy slot ch)
    (s : ColorState) : f.eval s = s.slot slot := by
  ext ch
  rw [ColorFormula.eval, Color.get_ofChannels, h]
  rfl

theorem alike_of_cellCompiles (hcount : numcolors ≤ maxColors) {cell cell' : Cell}
    (h : SelectionCompiles numcolors slots cell)
    (h' : CellCompiles numcolors (slots.map copySources) cell') : cell'.Alike cell := by
  obtain ⟨-, hslots, rfl⟩ := h
  obtain ⟨-, outputs, houtputs, rfl⟩ := h'
  rw [List.forall₂_map_left_iff] at houtputs
  intro s
  have heval : outputs.map (·.eval s) = slots.map s.slot := by
    induction houtputs with
    | nil => rfl
    | cons hcolor _ ih =>
      obtain ⟨hslot, hslots⟩ := List.forall_mem_cons.1 hslots
      have hget := (colorCompiles_copySources hcount hslot).1 hcolor
      rw [List.map_cons, List.map_cons, eval_of_get_eq hget, ih hslots]
  exact congrArg ColorState.mk heval

theorem exists_cellCompiles_copies (hcount : numcolors ≤ maxColors)
    (h : ∃ cell, SelectionCompiles numcolors slots cell) :
    ∃ cell, CellCompiles numcolors (slots.map copySources) cell := by
  obtain ⟨_, hlength, hslots, -⟩ := h
  rw [exists_cellCompiles_iff, List.length_map, List.forall_mem_map]
  refine ⟨hlength, fun slot hslot => ?_⟩
  let f : ColorFormula :=
    ⟨Formula.copy slot .red, Formula.copy slot .green, Formula.copy slot .blue⟩
  exact ⟨f, (colorCompiles_copySources hcount (hslots slot hslot)).2 fun ch => by cases ch <;> rfl⟩

theorem rectangle_map {α β : Type} {lines : List (List α)} (f : α → β) {rows cols : ℕ}
    (h : rectangle lines = .ok (rows, cols)) :
    rectangle (lines.map (·.map f)) = .ok (rows, cols) := by
  obtain ⟨hlen, hrows, hcols, hall⟩ := rectangle_eq_ok.1 h
  refine rectangle_eq_ok.2 ⟨by rw [List.length_map, hlen], hrows, hcols, ?_⟩
  rw [List.forall_mem_map]
  intro line hline
  rw [List.length_map, hall line hline]

theorem exists_alike (h : compilePermutations numcolors lines = .ok g) :
    ∃ g', compileExpressions numcolors (copies lines) = .ok g' ∧ g'.Alike g := by
  have hg := compilePermutations_eq_ok.1 h
  have hcount := hg.color_count.2
  have hitems : ∀ line ∈ copies lines, ∀ item ∈ line, ∃ cell, CellCompiles numcolors item cell := by
    simp only [copies, List.forall_mem_map]
    intro line hline slots hslots
    exact exists_cellCompiles_copies hcount (hg.exists_cell line hline slots hslots)
  obtain ⟨g', hrows, hcols, (hg' : g'.CompilesFrom _ .arithmetic numcolors (copies lines))⟩ :=
    exists_compilesFrom hg.color_count (rectangle_map _ hg.rectangle_eq) hitems
  refine ⟨g', compileExpressions_eq_ok.2 hg', hrows, hcols, ?_, fun row col => ?_⟩
  · rw [hg'.numcolors_eq, hg.numcolors_eq]
  · have hcell := hg.rel_cell? row col
    have hcell' := hg'.rel_cell? row col
    -- Both cells come from the same place, through the copies.
    have hitem : ((copies lines)[row]? >>= (·[col]?)) =
        (lines[row]? >>= (·[col]?)).map (·.map copySources) := by
      rw [copies, List.getElem?_map]
      cases lines[row]? with
      | none => rfl
      | some line => exact List.getElem?_map
    rw [hitem] at hcell'
    exact rel_of_rel_map hcell hcell' fun _ _ _ => alike_of_cellCompiles hcount

/-- The formulas that copy the slots of a grid of selections compile to a grid that acts alike, and
the two grids are planned to show alike or refused for the same reason. -/
theorem compileExpressions_copies (h : compilePermutations numcolors lines = .ok g) :
    ∃ g', compileExpressions numcolors (copies lines) = .ok g' ∧ g'.Alike g ∧
      ∀ depth opts,
        (∃ e, Plan.new g depth opts = .error e ∧ Plan.new g' depth opts = .error e) ∨
        ∃ p p', Plan.new g depth opts = .ok p ∧ Plan.new g' depth opts = .ok p' ∧
          p'.ShowAlike p := by
  obtain ⟨g', hg', halike⟩ := exists_alike h
  refine ⟨g', hg', halike, fun depth opts => ?_⟩
  have hnew := Plan.new_of_alike halike depth opts
  cases hp : Plan.new g depth opts with
  | error e =>
    rw [hp] at hnew
    exact .inl ⟨e, rfl, hnew⟩
  | ok p =>
    rw [hp] at hnew
    obtain ⟨-, rfl, -⟩ := Plan.new_eq_ok.1 hp
    exact .inr ⟨p, _, rfl, hnew, Plan.showAlike_of_alike (.new (.permutations h) hp)
      (.new (.expressions hg') hnew) halike⟩

theorem compileExpressions_copies_two_by_three :
    compilePermutations 2 [[[0, 1], [1, 0], [1, 1]], [[0, 0], [1, 0], [0, 1]]] = .ok twoByThree ∧
      ∃ g', compileExpressions 2
          [[[["r0", "g0", "b0"], ["r1", "g1", "b1"]], [["r1", "g1", "b1"], ["r0", "g0", "b0"]],
              [["r1", "g1", "b1"], ["r1", "g1", "b1"]]],
            [[["r0", "g0", "b0"], ["r0", "g0", "b0"]], [["r1", "g1", "b1"], ["r0", "g0", "b0"]],
              [["r0", "g0", "b0"], ["r1", "g1", "b1"]]]] = .ok g' ∧
        g'.Alike twoByThree := by
  have h : compilePermutations 2 [[[0, 1], [1, 0], [1, 1]], [[0, 0], [1, 0], [0, 1]]] =
      .ok twoByThree := rfl
  obtain ⟨g', hg', halike, -⟩ := compileExpressions_copies h
  exact ⟨h, g', hg', halike⟩

end Grid

end Quilt
