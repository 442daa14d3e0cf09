import Mathlib

namespace Quilt

variable {ε α β : Type}

theorem bind_eq_ok {x : Except ε α} {f : α → Except ε β} {b : β} :
    (x >>= f) = .ok b ↔ ∃ a, x = .ok a ∧ f a = .ok b := by
  cases x <;> simp [bind, Except.bind]

theorem bind_eq_error {x : Except ε α} {f : α → Except ε β} {e : ε} :
    (x >>= f) = .error e ↔ x = .error e ∨ ∃ a, x = .ok a ∧ f a = .error e := by
  cases x <;> simp [bind, Except.bind]

theorem pure_eq_ok {a b : α} : (pure a : Except ε α) = .ok b ↔ a = b := by
  simp [pure, Except.pure]

theorem map_eq_ok {f : α → β} {x : Except ε α} {b : β} :
    x.map f = .ok b ↔ ∃ a, x = .ok a ∧ f a = b := by
  cases x <;> simp [Except.map]

theorem map_eq_error {f : α → β} {x : Except ε α} {e : ε} :
    x.map f = .error e ↔ x = .error e := by
  cases x <;> simp [Except.map]

theorem mapM_eq_ok {f : α → Except ε β} {as : List α} {bs : List β} :
    as.mapM f = .ok bs ↔ List.Forall₂ (fun a b => f a = .ok b) as bs := by
  induction as generalizing bs with
  | nil => rw [List.mapM_nil, pure_eq_ok, List.forall₂_nil_left_iff, eq_comm]
  | cons a as ih =>
    simp only [List.mapM_cons, bind_eq_ok, pure_eq_ok, List.forall₂_cons_left_iff]
    constructor
    · rintro ⟨b, hb, bs', hbs, rfl⟩
      exact ⟨b, bs', hb, ih.1 hbs, rfl⟩
    · rintro ⟨b, bs', hb, hbs, rfl⟩
      exact ⟨b, hb, bs', ih.2 hbs, rfl⟩

theorem mapM_eq_error {f : α → Except ε β} {as : List α} {e : ε} :
    as.mapM f = .error e ↔ ∃ (i : ℕ) (a : α), as[i]? = some a ∧ f a = .error e ∧
      ∀ j < i, ∀ b, as[j]? = some b → ∃ c, f b = .ok c := by
  induction as with
  | nil => simp [pure, Except.pure]
  | cons head as ih =>
    rw [List.mapM_cons]
    cases hhead : f head with
    | error e' =>
      change Except.error e' = .error e ↔ _
      rw [Except.error.injEq]
      constructor
      · rintro rfl
        exact ⟨0, head, rfl, hhead, fun j hj => absurd hj j.not_lt_zero⟩
      · rintro ⟨_ | i, a, ha, hfa, hbefore⟩
        · obtain rfl := Option.some.inj ha
          exact Except.error.inj (hhead.symm.trans hfa)
        · obtain ⟨c, hc⟩ := hbefore 0 i.succ_pos head rfl
          cases hhead.symm.trans hc
    | ok b =>
      -- The head passes, so that a first failure stands one place further on.
      have hrest : (Except.ok b >>= fun b => as.mapM f >>= fun bs => pure (b :: bs)) = .error e ↔
          as.mapM f = .error e := by
        change (as.mapM f >>= fun bs => pure (b :: bs)) = .error e ↔ _
        simp [bind_eq_error, pure, Except.pure]
      rw [hrest, ih]
      constructor
      · rintro ⟨i, a, ha, hfa, hbefore⟩
        refine ⟨i + 1, a, ha, hfa, ?_⟩
        rintro (_ | j) hj c hc
        · obtain rfl := Option.some.inj hc
          exact ⟨b, hhead⟩
        · exact hbefore j (Nat.lt_of_succ_lt_succ hj) c hc
      · rintro ⟨_ | i, a, ha, hfa, hbefore⟩
        · obtain rfl := Option.some.inj ha
          cases hhead.symm.trans hfa
        · exact ⟨i, a, ha, hfa, fun j hj => hbefore (j + 1) (Nat.succ_lt_succ hj)⟩

theorem mapM_eq_some {f : α → Option β} {as : List α} {bs : List β} :
    as.mapM f = some bs ↔ List.Forall₂ (fun a b => f a = some b) as bs := by
  induction as generalizing bs with
  | nil => simp [eq_comm]
  | cons a as ih =>
    simp only [List.mapM_cons, Option.bind_eq_bind, Option.bind_eq_some_iff, Option.pure_def,
      Option.some.injEq, List.forall₂_cons_left_iff]
    constructor
    · rintro ⟨b, hb, bs', hbs, rfl⟩
      exact ⟨b, bs', hb, ih.1 hbs, rfl⟩
    · rintro ⟨b, bs', hb, hbs, rfl⟩
      exact ⟨b, hb, bs', ih.2 hbs, rfl⟩

theorem foldlM_eq_some {f : β → α → Option β} {g : β → α → β} {as : List α}
    (h : ∀ a ∈ as, ∀ b, f b a = some (g b a)) (b : β) : as.foldlM f b = some (as.foldl g b) := by
  induction as generalizing b with
  | nil => rfl
  | cons a as ih =>
    obtain ⟨ha, has⟩ := List.forall_mem_cons.1 h
    rw [List.foldlM_cons, ha]
    exact ih has (g b a)

section Lists
variable {γ : Type} {fault? : γ → Option ε} {checks rest : List γ} {c : γ} {x : Except ε α}

/-- A computation that makes the checks of a list one after the other. It fails with the fault of
the first check that has one. -/
def Makes (fault? : γ → Option ε) (checks : List γ) (x : Except ε α) : Prop :=
  ∀ e, x = .error e ↔ checks.findSome? fault? = some e

theorem makes_pure (a : α) : Makes fault? [] (pure a : Except ε α) := by
  intro e
  simp [pure, Except.pure]

theorem makes_error {e : ε} (h : fault? c = some e) :
    Makes fault? (c :: rest) (.error e : Except ε α) := by
  intro e'
  rw [List.findSome?_cons, h, Except.error.injEq, Option.some_inj]

theorem Makes.cons (h : fault? c = none) (hx : Makes fault? checks x) :
    Makes fault? (c :: checks) x := by
  intro e
  rw [List.findSome?_cons, h]
  exact hx e

theorem Makes.findSome?_eq_none {a : α} (h : Makes fault? checks (.ok a : Except ε α)) :
    checks.findSome? fault? = none := by
  refine Option.eq_none_iff_forall_ne_some.2 fun e he => ?_
  cases (h e).2 he

theorem Makes.bind {f : α → Except ε β} (hx : Makes fault? checks x)
    (hf : ∀ a, x = .ok a → Makes fault? rest (f a)) : Makes fault? (checks ++ rest) (x >>= f) := by
  intro e
  rw [List.findSome?_append]
  cases x with
  | error e' =>
    rw [(hx e').1 rfl, Option.some_or, Option.some_inj]
    change Except.error e' = .error e ↔ e' = e
    rw [Except.error.injEq]
  | ok a =>
    rw [hx.findSome?_eq_none, Option.none_or]
    exact hf a rfl e

theorem Makes.bind_pure {f : α → β} (hx : Makes fault? checks x) :
    Makes fault? checks (x >>= fun a => pure (f a)) := by
  rw [← checks.append_nil]
  exact hx.bind fun a _ => makes_pure (f a)

theorem Makes.mapM {as : List β} {f : β → Except ε α} {checksOf : β → List γ}
    (h : ∀ a ∈ as, Makes fault? (checksOf a) (f a)) :
    Makes fault? (as.flatMap checksOf) (as.mapM f) := by
  induction as with
  | nil => exact makes_pure []
  | cons a as ih =>
    obtain ⟨ha, has⟩ := List.forall_mem_cons.1 h
    rw [List.mapM_cons, List.flatMap_cons]
    exact ha.bind fun b _ => (ih has).bind_pure

theorem findSome?_ite {p : α → Prop} [DecidablePred p] (f : α → β) (as : List α) :
    (as.findSome? fun a => if p a then some (f a) else none) =
      (as.find? fun a => p a).map f := by
  induction as with
  | nil => rfl
  | cons a as ih =>
    by_cases ha : p a
    · simp [ha]
    · simp [ha, ih]

theorem findSome?_eq_bind_find? (f : α → Option β) (as : List α) :
    as.findSome? f = (as.find? fun a => (f a).isSome).bind f := by
  induction as with
  | nil => rfl
  | cons a as ih =>
    cases ha : f a with
    | none => simp [ha, ih]
    | some b => simp [ha]

end Lists

section Effects
variable {m : Type → Type} [Monad m] [LawfulMonad m] {σ : Type} {check : Except ε α}

theorem check_bind {a : α} (h : check = .ok a) (next : α → ExceptT ε m β) :
    (ExceptT.mk (pure check) >>= next) = next a := by
  rw [h]
  exact pure_bind a next

theorem check_bind_error {e : ε} (h : check = .error e) (next : α → ExceptT ε m β) :
    (ExceptT.mk (pure check) >>= next) = throw e := by
  rw [h]
  exact pure_bind (m := m) (Except.error e) _

theorem run_get (s : σ) : (get : ExceptT ε (StateT σ m) σ).run.run s = pure (.ok s, s) :=
  pure_bind (m := m) (s, s) fun p => pure ((.ok p.1 : Except ε σ), p.2)

theorem run_modify (f : σ → σ) (s : σ) :
    (modify f : ExceptT ε (StateT σ m) Unit).run.run s = pure (.ok (), f s) :=
  pure_bind (m := m) ((), f s) fun p => pure ((.ok p.1 : Except ε Unit), p.2)

theorem run_get_bind (next : σ → ExceptT ε (StateT σ m) α) (s : σ) :
    (get >>= next).run.run s = (next s).run.run s := by
  simp only [ExceptT.run_bind, StateT.run_bind, run_get, pure_bind]

theorem run_set_bind (next : PUnit → ExceptT ε (StateT σ m) α) (s s' : σ) :
    (set s' >>= next).run.run s = (next ⟨⟩).run.run s' := by
  have hrun : (set s' : ExceptT ε (StateT σ m) PUnit).run.run s = pure (.ok ⟨⟩, s') :=
    run_modify (fun _ => s') s
  simp only [ExceptT.run_bind, StateT.run_bind, hrun, pure_bind]

end Effects

section States
variable {σ τ : Type} {x : ExceptT ε (StateT σ (StateM τ)) α} {s s' : σ} {t t' : τ}

theorem run_bind_of_ok {a : α} (h : (x.run.run s).run t = ((.ok a, s'), t'))
    (next : α → ExceptT ε (StateT σ (StateM τ)) β) :
    ((x >>= next).run.run s).run t = ((next a).run.run s').run t' := by
  simp only [ExceptT.run_bind, StateT.run_bind, h]
  rfl

theorem run_bind_of_error {e : ε} (h : (x.run.run s).run t = ((.error e, s'), t'))
    (next : α → ExceptT ε (StateT σ (StateM τ)) β) :
    ((x >>= next).run.run s).run t = ((.error e, s'), t') := by
  simp only [ExceptT.run_bind, StateT.run_bind, h]
  rfl

end States

end Quilt
