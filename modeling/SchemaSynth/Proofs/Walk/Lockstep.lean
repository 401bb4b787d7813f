import SchemaSynth.Proofs.Walk.Descent

/-!
# Two walks in step

Two walks, of different tables, under different settings or from different places, agree if their
plans do: the same visits up to a relation, and schemas that are related if those of the visits are.
`walk_agree` is the one induction that says so; a walk with more steps (`walk_more_steps`) is a case
of it.
-/

namespace SchemaSynth.Walk

/-- The visits of two plans are related, and their schemas whenever those of the visits are. -/
structure Plan.Agree (C : Visit → Visit → Prop) (R : Fragment → Fragment → Prop) (p q : Plan) :
    Prop where
  visits : List.Forall₂ C p.visits q.visits
  finish : ∀ fs gs, List.Forall₂ R fs gs → R (p.finish fs) (q.finish gs)

section

variable {table table' : TypeTable} {config config' : Config} {skip : WalkError → Prop}
  {C : Visit → Visit → Prop} {R : Fragment → Fragment → Prop}

theorem Plan.Agree.done {f g : Fragment} (h : R f g) : (Plan.done f).Agree C R (Plan.done g) where
  visits := .nil
  finish _ _ _ := h

theorem Plan.Agree.single {v w : Visit} (h : C v w) (hR : R .empty .empty) :
    (Plan.single v).Agree C R (Plan.single w) where
  visits := .cons h .nil
  finish fs gs hfs := by
    cases hfs with
    | nil => exact hR
    | cons hf _ => exact hf

theorem Plan.Agree.map {p q : Plan} {F G : Fragment → Fragment} (h : p.Agree C R q)
    (hFG : ∀ f g, R f g → R (F f) (G g)) : (p.map F).Agree C R (q.map G) where
  visits := h.visits
  finish fs gs hfs := hFG _ _ (h.finish fs gs hfs)

theorem Plan.Agree.run {walk walk' : TypeId → Frame → Bool → Except WalkError Fragment} {p q : Plan}
    (h : p.Agree C R q)
    (hw : ∀ v w, C v w →
      Walk.Agree skip R (walk v.id v.frame v.optional) (walk' w.id w.frame w.optional)) :
    Walk.Agree skip R (p.run walk) (q.run walk') :=
  (Agree.mapM (h.visits.imp hw)).map h.finish

/-- Walks agree if their plans agree, even if the second has `more` steps, as long as it agrees with
the first where that one runs out of them. -/
theorem walk_agree (more : Nat)
    (hend : ∀ v w, C v w →
      Agree skip R (.error (.endless v.id)) (w.walk table' config' more))
    (hplan : ∀ v w, C v w →
      Agree skip (Plan.Agree C R) (plan table config v) (plan table' config' w))
    (steps : Nat) {v w : Visit} (h : C v w) :
    Agree skip R (v.walk table config steps) (w.walk table' config' (steps + more)) := by
  induction steps generalizing v w with
  | zero => rw [Nat.zero_add]; exact hend v w h
  | succ n ih =>
    rw [Nat.succ_add, Visit.walk_succ, Visit.walk_succ]
    exact (hplan v w h).bind fun p q hpq => hpq.run fun v w => ih

end

/-! ## More steps -/

section

variable {table : TypeTable} {config : Config}

theorem Plan.agree_eq (p : Plan) : p.Agree Eq Eq p where
  visits := List.forall₂_same.2 fun _ _ => rfl
  finish fs gs h := by rw [List.forall₂_eq_eq_eq] at h; rw [h]

theorem walk_more_steps {v : Visit} {steps steps' : Nat} (h : Ends (v.walk table config steps))
    (hle : steps ≤ steps') : v.walk table config steps' = v.walk table config steps := by
  obtain ⟨more, rfl⟩ := Nat.exists_eq_add_of_le hle
  have agree : Agree (fun e => ∃ id, e = .endless id) Eq (v.walk table config steps)
      (v.walk table config (steps + more)) := by
    refine walk_agree (C := Eq) more (fun v w _ => .skip ⟨v.id, rfl⟩) (fun v w hvw => ?_) steps rfl
    subst hvw
    cases plan table config v with
    | error e => exact .error e
    | ok p => exact .ok p.agree_eq
  refine agree.eq_of_eq fun e he ⟨id, hid⟩ => ?_
  subst hid
  exact h id he

theorem walk_eq_of_ends {v : Visit} {steps steps' : Nat} (h : Ends (v.walk table config steps))
    (h' : Ends (v.walk table config steps')) :
    v.walk table config steps = v.walk table config steps' :=
  (walk_more_steps h (Nat.le_max_left steps steps')).symm.trans
    (walk_more_steps h' (Nat.le_max_right steps steps'))

end

end SchemaSynth.Walk
