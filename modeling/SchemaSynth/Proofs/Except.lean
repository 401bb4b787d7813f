import Mathlib.Data.List.Forall2

/-!
# Results of computations that may fail

How a bind or a map ended tells how what it was made of ended, and so with a list of computations.
-/

namespace SchemaSynth

variable {ε α β : Type}

theorem bind_eq_ok {x : Except ε α} {g : α → Except ε β} {b : β} :
    x >>= g = .ok b ↔ ∃ a, x = .ok a ∧ g a = .ok b := by
  cases x <;> simp [bind, Except.bind]

theorem bind_eq_error {x : Except ε α} {g : α → Except ε β} {e : ε} :
    x >>= g = .error e ↔ x = .error e ∨ ∃ a, x = .ok a ∧ g a = .error e := by
  cases x <;> simp [bind, Except.bind]

theorem map_eq_ok {x : Except ε α} {g : α → β} {b : β} :
    g <$> x = .ok b ↔ ∃ a, x = .ok a ∧ g a = b := by
  cases x <;> simp [Functor.map, Except.map]

theorem map_eq_error {x : Except ε α} {g : α → β} {e : ε} :
    g <$> x = .error e ↔ x = .error e := by
  cases x <;> simp [Functor.map, Except.map]

theorem bind_pure_eq_ok {x : Except ε α} {g : α → β} {b : β} :
    (x >>= fun a => pure (g a)) = .ok b ↔ ∃ a, x = .ok a ∧ g a = b := by
  cases x <;> simp [bind, Except.bind, pure, Except.pure]

theorem forall₂_of_mapM_ok {f : α → Except ε β} {xs : List α} {ys : List β}
    (h : xs.mapM f = .ok ys) : List.Forall₂ (fun x y => f x = .ok y) xs ys := by
  induction xs generalizing ys with
  | nil => cases h; exact .nil
  | cons x xs ih =>
    rw [List.mapM_cons] at h
    obtain ⟨b, hb, h⟩ := bind_eq_ok.1 h
    obtain ⟨bs, hbs, h⟩ := bind_eq_ok.1 h
    cases h
    exact .cons hb (ih hbs)

theorem mapM_eq_ok {f : α → Except ε β} {xs : List α} {ys : List β} :
    xs.mapM f = .ok ys ↔ List.Forall₂ (fun x y => f x = .ok y) xs ys := by
  refine ⟨forall₂_of_mapM_ok, fun h => ?_⟩
  induction h with
  | nil => rfl
  | cons hb _ ih => rw [List.mapM_cons, hb, ih]; rfl

theorem exists_of_mapM_append_cons {f : α → Except ε β} {before after : List α} {x : α}
    {ys : List β} (h : (before ++ x :: after).mapM f = .ok ys) :
    ∃ front y back, ys = front ++ y :: back ∧ front.length = before.length ∧ f x = .ok y := by
  have hall := (forall₂_of_mapM_ok h).flip
  have hfront := List.forall₂_take_append _ _ _ hall
  obtain ⟨y, back, hy, -, hback⟩ :=
    List.forall₂_cons_right_iff.1 (List.forall₂_drop_append _ _ _ hall)
  refine ⟨ys.take before.length, y, back, ?_, hfront.length_eq, hy⟩
  rw [← hback, List.take_append_drop]

end SchemaSynth
