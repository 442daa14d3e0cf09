import Quilt.Error

namespace Quilt

/-- The slots that cells read and write. Slot 0 is the visible one, and a slot that is missing reads
as black. -/
structure ColorState where
  colors : List Color
deriving BEq, DecidableEq, Repr

namespace ColorState

def ofColors (colors : List Color) : Except Error ColorState :=
  if colors.isEmpty then .error .noColors
  else if maxColors < colors.length then .error (.tooManyColors colors.length)
  else .ok ⟨colors⟩

def size (s : ColorState) : Nat := s.colors.length

/-- What every state of a render satisfies. -/
def Legal (s : ColorState) : Prop := 1 ≤ s.size ∧ s.size ≤ maxColors

instance (s : ColorState) : Decidable s.Legal := inferInstanceAs (Decidable (_ ∧ _))

theorem ofColors_eq_ok_iff {colors : List Color} {s : ColorState} :
    ofColors colors = .ok s ↔ s = ⟨colors⟩ ∧ s.Legal := by
  unfold ofColors Legal size
  cases colors with
  | nil => simp; rintro rfl; simp
  | cons c cs =>
    simp only [List.isEmpty_cons, Bool.false_eq_true, if_false]
    split
    · next h => simp; rintro rfl; simpa using h
    · next h =>
      simp only [Except.ok.injEq]
      exact ⟨fun e => by subst e; simp_all, fun e => e.1.symm⟩

def get? (s : ColorState) (i : Nat) : Option Color := s.colors[i]?

def slot (s : ColorState) (i : Nat) : Color := s.colors.getD i .black

def primary (s : ColorState) : Color := s.slot 0

def withPrimary (c : Color) (s : ColorState) : ColorState :=
  ⟨s.colors.set 0 c⟩

/-- The state whose slot `i` is slot `selection[i]` of the given one. -/
def select (selection : List Nat) (s : ColorState) : ColorState :=
  ⟨selection.map s.slot⟩

/-- `select` for a selection that stays inside the state. -/
def permute (selection : List Nat) (s : ColorState) : Except Error ColorState :=
  if selection.isEmpty ∨ maxColors < selection.length then .error (.selectionSize selection.length)
  else
    match selection.find? (s.size ≤ ·) with
    | some outside => .error (.selectionOutside outside s.size)
    | none => .ok (s.select selection)

end ColorState

end Quilt
