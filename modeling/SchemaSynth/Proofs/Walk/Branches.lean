import SchemaSynth.Proofs.Walk.Reference

/-!
# Branches of a union

Which constituents of a union are branches of it: none that is `undefined`, and not every boolean
literal. What is passed over is `Plain`, and a single branch has nothing but `undefined` beside it.
-/

namespace SchemaSynth.Walk

/-- The shape is `undefined` or a literal: a union may pass over it. -/
inductive Plain : TypeShape → Prop where
  | undefined : Plain (.forbidden .undefined)
  | literal (value : LiteralValue) : Plain (.literal value)

section

variable {shapes : List (TypeId × TypeShape)} {saw : Bool}

theorem mem_of_mem_branches {x : TypeId × TypeShape} (h : x ∈ branches shapes saw) :
    x ∈ shapes := by
  induction shapes generalizing saw with
  | nil => cases h
  | cons y rest ih =>
    obtain ⟨id, shape⟩ := y
    unfold branches at h
    split at h
    · exact List.mem_cons_of_mem _ (ih h)
    · split at h
      · exact List.mem_cons_of_mem _ (ih h)
      · rcases List.mem_cons.1 h with rfl | h
        · simp
        · exact List.mem_cons_of_mem _ (ih h)
    · rcases List.mem_cons.1 h with rfl | h
      · simp
      · exact List.mem_cons_of_mem _ (ih h)

theorem ne_undefined_of_mem_branches {x : TypeId × TypeShape} (h : x ∈ branches shapes saw) :
    x.2 ≠ .forbidden .undefined := by
  induction shapes generalizing saw with
  | nil => cases h
  | cons y rest ih =>
    obtain ⟨id, shape⟩ := y
    unfold branches at h
    split at h
    · exact ih h
    · split at h
      · exact ih h
      · rcases List.mem_cons.1 h with rfl | h
        · exact TypeShape.noConfusion
        · exact ih h
    · next hne _ =>
      rcases List.mem_cons.1 h with rfl | h
      · exact hne
      · exact ih h

theorem isBoolean_iff {shape : TypeShape} :
    isBoolean shape = true ↔ ∃ b, shape = .literal (.boolean b) := by
  constructor
  · intro h
    unfold isBoolean at h
    split at h
    · exact ⟨_, rfl⟩
    · cases h
  · rintro ⟨b, rfl⟩; rfl

theorem mem_branches_or_plain (saw : Bool) {x : TypeId × TypeShape} (h : x ∈ shapes) :
    x ∈ branches shapes saw ∨ Plain x.2 := by
  induction shapes generalizing saw with
  | nil => cases h
  | cons y rest ih =>
    obtain ⟨id, shape⟩ := y
    unfold branches
    split
    · rcases List.mem_cons.1 h with rfl | h
      · exact .inr .undefined
      · exact ih _ h
    · rcases List.mem_cons.1 h with rfl | h
      · exact .inr (.literal _)
      · split
        · exact ih _ h
        · exact (ih _ h).imp_left (List.mem_cons_of_mem _)
    · rcases List.mem_cons.1 h with rfl | h
      · simp
      · exact (ih _ h).imp_left (List.mem_cons_of_mem _)

theorem branches_append_of_undefined {before rest : List (TypeId × TypeShape)}
    (h : ∀ x ∈ before, x.2 = .forbidden .undefined) :
    branches (before ++ rest) saw = branches rest saw := by
  induction before with
  | nil => rfl
  | cons y before ih =>
    obtain ⟨id, shape⟩ := y
    obtain rfl : shape = _ := h (id, shape) (by simp)
    simpa [branches] using ih fun x hx => h x (by simp [hx])

theorem undefined_of_branches_nil (h : branches shapes false = []) {x : TypeId × TypeShape}
    (hx : x ∈ shapes) : x.2 = .forbidden .undefined := by
  induction shapes with
  | nil => cases hx
  | cons y rest ih =>
    obtain ⟨id, shape⟩ := y
    unfold branches at h
    split at h
    · rcases List.mem_cons.1 hx with rfl | hx
      · rfl
      · exact ih h hx
    · split at h
      · next hs => cases hs
      · cases h
    · cases h

theorem split_of_branches_single {x : TypeId × TypeShape} (h : branches shapes false = [x])
    (hx : isBoolean x.2 = false) :
    ∃ before after, shapes = before ++ x :: after ∧ x.2 ≠ .forbidden .undefined ∧
      ∀ y ∈ before ++ after, y.2 = .forbidden .undefined := by
  induction shapes with
  | nil => cases h
  | cons y rest ih =>
    obtain ⟨id, shape⟩ := y
    unfold branches at h
    split at h
    · obtain ⟨before, after, rfl, hne, hall⟩ := ih h
      refine ⟨(id, .forbidden .undefined) :: before, after, rfl, hne, fun y hy => ?_⟩
      rcases List.mem_cons.1 hy with rfl | hy
      · rfl
      · exact hall y hy
    · split at h
      · next hs => cases hs
      · obtain ⟨rfl, -⟩ := List.cons.inj h
        cases hx
    · next hne _ =>
      obtain ⟨rfl, hr⟩ := List.cons.inj h
      exact ⟨[], rest, rfl, hne, fun y hy => undefined_of_branches_nil hr hy⟩

theorem branches_single {before after : List (TypeId × TypeShape)} {x : TypeId × TypeShape}
    (hne : x.2 ≠ .forbidden .undefined) (hx : isBoolean x.2 = false)
    (hall : ∀ y ∈ before ++ after, y.2 = .forbidden .undefined) :
    branches (before ++ x :: after) false = [x] := by
  obtain ⟨id, shape⟩ := x
  have hafter : branches after false = [] := by
    have : branches (after ++ []) false = branches [] false :=
      branches_append_of_undefined fun y hy => hall y (List.mem_append_right before hy)
    simpa [branches] using this
  rw [branches_append_of_undefined fun y hy => hall y (List.mem_append_left after hy)]
  unfold branches
  split
  · exact absurd rfl hne
  · cases hx
  · rw [hafter]

end

theorem literal?_eq_some {shape : TypeShape} {value : LiteralValue}
    (h : shape.literal? = some value) : shape = .literal value := by
  unfold TypeShape.literal? at h
  split at h
  · cases h; rfl
  · cases h

theorem mapM_literal?_eq_some {kept : List (TypeId × TypeShape)} {values : List LiteralValue} :
    kept.mapM (fun branch => branch.2.literal?) = some values ↔
      kept.map Prod.snd = values.map .literal := by
  induction kept generalizing values with
  | nil => cases values <;> simp
  | cons y rest ih =>
    simp only [List.mapM_cons, Option.bind_eq_bind, Option.bind_eq_some_iff, List.map_cons]
    constructor
    · rintro ⟨value, hv, more, hm, h⟩
      cases h
      rw [literal?_eq_some hv, ih.1 hm]
      rfl
    · intro h
      obtain ⟨value, more, rfl, hv, hm⟩ := List.map_eq_cons_iff.1 h.symm
      exact ⟨value, by rw [← hv]; rfl, more, ih.2 hm.symm, rfl⟩

theorem plain_of_mapM_literal? {kept : List (TypeId × TypeShape)} {values : List LiteralValue}
    (h : kept.mapM (fun branch => branch.2.literal?) = some values) {x : TypeId × TypeShape}
    (hx : x ∈ kept) : Plain x.2 := by
  have hx : x.2 ∈ values.map TypeShape.literal :=
    mapM_literal?_eq_some.1 h ▸ List.mem_map_of_mem hx
  obtain ⟨value, -, hv⟩ := List.mem_map.1 hx
  exact hv ▸ .literal value

/-- Plain branches all are literals. -/
theorem exists_mapM_literal?_of_plain {kept : List (TypeId × TypeShape)}
    (hne : ∀ x ∈ kept, x.2 ≠ .forbidden .undefined) (hplain : ∀ x ∈ kept, Plain x.2) :
    ∃ values, kept.mapM (fun branch => branch.2.literal?) = some values := by
  induction kept with
  | nil => exact ⟨[], rfl⟩
  | cons x rest ih =>
    obtain ⟨id, shape⟩ := x
    obtain ⟨hx, hrest⟩ := List.forall_mem_cons.1 hne
    obtain ⟨px, prest⟩ := List.forall_mem_cons.1 hplain
    obtain ⟨values, hvalues⟩ := ih hrest prest
    cases px with
    | undefined => exact absurd rfl hx
    | literal value =>
      refine ⟨value :: values, mapM_literal?_eq_some.2 ?_⟩
      rw [List.map_cons, List.map_cons, mapM_literal?_eq_some.1 hvalues]

theorem mem_of_mapM_literal? {kept : List (TypeId × TypeShape)} {values : List LiteralValue}
    (h : kept.mapM (fun branch => branch.2.literal?) = some values) {value : LiteralValue}
    (hv : value ∈ values) : ∃ id, (id, .literal value) ∈ kept := by
  have hv : TypeShape.literal value ∈ kept.map Prod.snd :=
    mapM_literal?_eq_some.1 h ▸ List.mem_map_of_mem hv
  obtain ⟨⟨id, shape⟩, hmem, rfl⟩ := List.mem_map.1 hv
  exact ⟨id, hmem⟩

end SchemaSynth.Walk
