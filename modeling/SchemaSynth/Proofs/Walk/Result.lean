import SchemaSynth.Proofs.Except
import SchemaSynth.Walk

/-!
# Results of walks

A walk ends with a schema or an error. The lemmas here say how lists of computations end; `Agree`
compares the results of two walks, up to errors of the first that say nothing about the
second, and is kept by everything a step is made of.
-/

namespace SchemaSynth.Walk

variable {α β γ δ : Type}

/-- The walk did not run out of steps. -/
def Ends (r : Except WalkError α) : Prop := ∀ id, r ≠ .error (.endless id)

theorem ends_of_ok {r : Except WalkError α} {a : α} (h : r = .ok a) : Ends r := by
  intro id he
  rw [h] at he
  cases he

theorem ends_map {x : Except WalkError α} {g : α → β} : Ends (g <$> x) ↔ Ends x :=
  forall_congr' fun _ => not_congr map_eq_error

section

variable {f : α → Except WalkError β} {xs : List α}

theorem mapM_congr {g : α → Except WalkError β} (h : ∀ x ∈ xs, f x = g x) :
    xs.mapM f = xs.mapM g := by
  induction xs with
  | nil => rfl
  | cons x xs ih =>
    obtain ⟨hx, hxs⟩ := List.forall_mem_cons.1 h
    rw [List.mapM_cons, List.mapM_cons, hx, ih hxs]

theorem mapM_eq_error {e : WalkError} : xs.mapM f = .error e ↔
    ∃ before x after, xs = before ++ x :: after ∧ (∀ y ∈ before, ∃ b, f y = .ok b) ∧
      f x = .error e := by
  constructor
  · intro h
    induction xs with
    | nil => cases h
    | cons x xs ih =>
      rw [List.mapM_cons] at h
      rcases bind_eq_error.1 h with h | ⟨b, hb, h⟩
      · exact ⟨[], x, xs, rfl, by simp, h⟩
      · rcases bind_eq_error.1 h with h | ⟨bs, -, h⟩
        · obtain ⟨before, y, after, rfl, hbefore, hy⟩ := ih h
          exact ⟨x :: before, y, after, rfl, List.forall_mem_cons.2 ⟨⟨b, hb⟩, hbefore⟩, hy⟩
        · cases h
  · rintro ⟨before, x, after, rfl, hbefore, hx⟩
    induction before with
    | nil => rw [List.nil_append, List.mapM_cons, hx]; rfl
    | cons y before ih =>
      obtain ⟨⟨b, hb⟩, hbefore⟩ := List.forall_mem_cons.1 hbefore
      rw [List.cons_append, List.mapM_cons, hb, ih hbefore]; rfl

theorem exists_of_mapM_error {e : WalkError} (h : xs.mapM f = .error e) :
    ∃ x ∈ xs, f x = .error e := by
  obtain ⟨before, x, after, rfl, -, hx⟩ := mapM_eq_error.1 h
  exact ⟨x, by simp, hx⟩

theorem exists_of_mem_mapM_ok {ys : List β} (h : xs.mapM f = .ok ys) {y : β} (hy : y ∈ ys) :
    ∃ x, f x = .ok y := by
  have h2 := forall₂_of_mapM_ok h
  clear h
  induction h2 with
  | nil => cases hy
  | cons hb _ ih =>
    rcases List.mem_cons.1 hy with rfl | hy
    · exact ⟨_, hb⟩
    · exact ih hy

theorem ok_of_mapM_ok {ys : List β} (h : xs.mapM f = .ok ys) {x : α} (hx : x ∈ xs) :
    ∃ y ∈ ys, f x = .ok y := by
  have h2 := forall₂_of_mapM_ok h
  clear h
  induction h2 with
  | nil => cases hx
  | cons hb _ ih =>
    rcases List.mem_cons.1 hx with rfl | hx
    · exact ⟨_, by simp, hb⟩
    · obtain ⟨y, hy, hf⟩ := ih hx
      exact ⟨y, by simp [hy], hf⟩

end

/-! ## Agreement of two results -/

theorem forall₂_eq_map {φ : α → β} {xs : List α} {ys : List β} :
    List.Forall₂ (fun x y => y = φ x) xs ys ↔ ys = xs.map φ := by
  rw [eq_comm, ← List.forall₂_eq_eq_eq, List.forall₂_map_left_iff]
  exact ⟨.imp fun _ _ h => h.symm, .imp fun _ _ h => h.symm⟩

/-- The first result is an error that says nothing, or both are the same error, or both are values
and related. -/
inductive Agree (skip : WalkError → Prop) (R : α → β → Prop) :
    Except WalkError α → Except WalkError β → Prop where
  | skip {e : WalkError} {r : Except WalkError β} : skip e → Agree skip R (.error e) r
  | error (e : WalkError) : Agree skip R (.error e) (.error e)
  | ok {a : α} {b : β} : R a b → Agree skip R (.ok a) (.ok b)

namespace Agree

variable {skip : WalkError → Prop} {R : α → β → Prop} {S : γ → δ → Prop}

theorem bind {x : Except WalkError α} {y : Except WalkError β} {f : α → Except WalkError γ}
    {g : β → Except WalkError δ} (h : Agree skip R x y)
    (hfg : ∀ a b, R a b → Agree skip S (f a) (g b)) : Agree skip S (x >>= f) (y >>= g) := by
  cases h with
  | skip he => exact .skip he
  | error e => exact .error e
  | ok hab => exact hfg _ _ hab

theorem map {x : Except WalkError α} {y : Except WalkError β} {f : α → γ} {g : β → δ}
    (h : Agree skip R x y) (hfg : ∀ a b, R a b → S (f a) (g b)) :
    Agree skip S (f <$> x) (g <$> y) := by
  cases h with
  | skip he => exact .skip he
  | error e => exact .error e
  | ok hab => exact .ok (hfg _ _ hab)

theorem mapM {f : α → Except WalkError γ} {g : β → Except WalkError δ} {xs : List α} {ys : List β}
    (h : List.Forall₂ (fun x y => Agree skip S (f x) (g y)) xs ys) :
    Agree skip (List.Forall₂ S) (xs.mapM f) (ys.mapM g) := by
  induction h with
  | nil => exact .ok .nil
  | cons hxy _ ih =>
    rw [List.mapM_cons, List.mapM_cons]
    exact hxy.bind fun a b hab => ih.bind fun as bs habs => .ok (.cons hab habs)

theorem mono {skip' : WalkError → Prop} {x : Except WalkError α} {y : Except WalkError β}
    (h : Agree skip R x y) (hskip : ∀ e, skip e → skip' e) : Agree skip' R x y := by
  cases h with
  | skip he => exact .skip (hskip _ he)
  | error e => exact .error e
  | ok hab => exact .ok hab

theorem imp_of_ok {S : α → β → Prop} {x : Except WalkError α} {y : Except WalkError β}
    (h : Agree skip R x y) (hRS : ∀ a, x = .ok a → ∀ b, R a b → S a b) : Agree skip S x y := by
  cases h with
  | skip he => exact .skip he
  | error e => exact .error e
  | ok hab => exact .ok (hRS _ rfl _ hab)

theorem eq_of_eq {x y : Except WalkError α} (h : Agree skip Eq x y)
    (hx : ∀ e, x = .error e → ¬ skip e) : y = x := by
  cases h with
  | skip he => exact absurd he (hx _ rfl)
  | error e => rfl
  | ok hab => rw [hab]

theorem ok_of_eq_ok {x : Except WalkError α} {y : Except WalkError β} (h : Agree skip R x y)
    {a : α} (hx : x = .ok a) : ∃ b, y = .ok b ∧ R a b := by
  subst hx
  cases h with
  | ok hab => exact ⟨_, rfl, hab⟩

theorem eq_map {x : Except WalkError α} {y : Except WalkError β} {f : α → β}
    (h : Agree (fun _ => False) (fun a b => b = f a) x y) : y = f <$> x := by
  cases h with
  | skip he => exact he.elim
  | error e => rfl
  | ok hab => rw [hab]; rfl

end Agree

end SchemaSynth.Walk
