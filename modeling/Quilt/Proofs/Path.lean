import Mathlib
import Quilt.Files.Path

namespace Quilt.Path
variable {init : List String} {part : String}

/-- Whether a part names an entry of the directory reached so far. -/
def IsName (part : String) : Prop := stays part = false ∧ part ≠ ".."

theorem isName_of_lt_length (h : 2 < part.length) : IsName part := by
  constructor
  · cases hstays : stays part with
    | false => rfl
    | true =>
      have hpart : part = "" ∨ part = "." := by simpa [stays] using hstays
      obtain rfl | rfl := hpart <;> exact absurd h (by decide)
  · rintro rfl
    exact absurd h (by decide)

theorem withExtension_cases {path : Path} {extension : String} (hlength : 2 ≤ extension.length)
    (h : path.withExtension extension ≠ path) : ∃ init name, path = ⟨init ++ [name]⟩ ∧
      path.withExtension extension = ⟨init ++ [extendName name extension]⟩ ∧ IsName name ∧
        (IsName (extendName name extension) ∨ extendName name extension = "..") := by
  obtain ⟨parts⟩ := path
  unfold withExtension at h ⊢
  dsimp only at h ⊢
  split at h
  · exact absurd rfl h
  next name hname =>
    split_ifs at h ⊢ with hstays
    · exact absurd rfl h
    have hparts := List.dropLast_append_getLast? name hname
    have hproper : IsName name := by
      rw [IsName]
      simpa using hstays
    refine ⟨parts.dropLast, name, by rw [hparts], rfl, hproper, ?_⟩
    unfold extendName
    split
    · -- Without its extension the name is two dots.
      exact .inr rfl
    · refine .inl (isName_of_lt_length ?_)
      have hdot : ".".length = 1 := rfl
      rw [String.length_append, String.length_append, hdot]
      omega

theorem isAbsolute_cons (first : String) (rest : List String) :
    isAbsolute ⟨first :: rest⟩ = (first == "" && !rest.isEmpty) := by
  unfold isAbsolute
  dsimp only
  split
  next heq =>
    obtain ⟨rfl, rfl⟩ := List.cons.inj heq
    rfl
  next hne =>
    cases rest with
    | nil => simp
    | cons second rest =>
      have hfirst : first ≠ "" := by
        rintro rfl
        exact hne second rest rfl
      simp [hfirst]

theorem isAbsolute_concat (init : List String) (part other : String) :
    isAbsolute ⟨init ++ [part]⟩ = isAbsolute ⟨init ++ [other]⟩ := by
  cases init with
  | nil => simp [isAbsolute_cons]
  | cons first rest => cases rest <;> simp [isAbsolute_cons]

theorem exists_join_eq (dir : Path) (name : String) : ∃ init, dir.join name = ⟨init ++ [name]⟩ ∧
    dir.isAbsolute = isAbsolute ⟨init ++ [name]⟩ ∧
    (dir.parts = init ∨ dir.parts = init ++ [""]) := by
  obtain ⟨parts⟩ := dir
  by_cases hlast : parts.getLast? = some ""
  · have hparts := List.dropLast_append_getLast? "" hlast
    refine ⟨parts.dropLast, ?_, ?_, .inr hparts.symm⟩
    · rw [join, if_pos hlast]
    · conv_lhs => rw [← hparts]
      exact isAbsolute_concat _ _ _
  · refine ⟨parts, ?_, ?_, .inl rfl⟩
    · rw [join, if_neg hlast]
    · rcases parts with _ | ⟨first, _ | ⟨second, rest⟩⟩
      · simp [isAbsolute]
      · have hfirst : first ≠ "" := by simpa using hlast
        simp [isAbsolute_cons, hfirst]
      · simp [isAbsolute_cons]

end Quilt.Path
