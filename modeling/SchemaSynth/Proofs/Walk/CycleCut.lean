import SchemaSynth.Proofs.Fragment.Parts
import SchemaSynth.Proofs.Walk.Blame
import SchemaSynth.Proofs.Walk.DepthLimit
import SchemaSynth.Proofs.Walk.History

/-!
# Where a walk cuts a cycle short

A walk ends at an interface inside another one of its name. Is that a cycle? It is if the two are
the same type, but a name may belong to several: the instances of a generic interface share theirs
and need not lead back to each other (`boxes_cut_without_cycle`). What holds is that a walk cuts
exactly at names on the way down (`walk_eq_any_iff`), and that from a root that leads from no
interface to another one of the same name it makes the schema that it would make if it never looked
(`walk_eq_walkUnchecked`).
-/

namespace SchemaSynth

open Relation (TransGen ReflTransGen)

abbrev TypeTable.Refers (table : TypeTable) (config : Config) (a b : TypeId) : Prop :=
  b ∈ table.references config a

/-- The place without what is known of the types around it. -/
def Frame.forget (frame : Frame) : Frame := { frame with ancestors := [] }

namespace Walk

/-- A walk that never knows which types it is inside of. -/
def walkUnchecked (table : TypeTable) (config : Config) :
    Nat → TypeId → Frame → Bool → Except WalkError Fragment
  | 0 => fun id _ _ => .error (.endless id)
  | budget + 1 => fun id frame optional =>
    step table config (walkUnchecked table config budget) id frame.forget optional

/-- The visits of a walk from a root, each with the types that are being walked around it, the
innermost one first. -/
inductive Active (table : TypeTable) (config : Config) (root : TypeId) (additional : Bool) :
    List TypeId → Visit → Prop where
  | root : Active table config root additional [] (.root root additional)
  | step {around : List TypeId} {v w : Visit} {p : Plan} :
      Active table config root additional around v → plan table config v = .ok p → w ∈ p.visits →
      Active table config root additional (v.id :: around) w

section

variable {table : TypeTable} {config : Config} {root : TypeId} {additional : Bool}
  {around : List TypeId} {v w : Visit} {id : TypeId} {name : String}

/-! ## Names on the way down -/

namespace Active

theorem mem_ancestors_iff (h : Active table config root additional around v) :
    name ∈ v.frame.ancestors ↔ ∃ t ∈ around, table.identity? config t = some name := by
  have endOf : v.EndOf table config root around := by
    induction h with
    | root => exact Visit.endOf_root additional
    | step _ hp hw ih => exact (below_of_mem_visits hp hw).endOf ih
  rw [endOf.ancestors]
  exact List.mem_filterMap

theorem leads (h : Active table config root additional around v) {t : TypeId} (ht : t ∈ around) :
    TransGen (table.Refers config) t v.id := by
  induction h with
  | root => cases ht
  | step _ hp hw ih =>
    have hmem := (below_of_mem_visits hp hw).mem
    rcases List.mem_cons.1 ht with rfl | ht
    · exact .single hmem
    · exact (ih ht).tail hmem

end Active

/-! ## The cut -/

theorem interface_of_identity? (h : table.identity? config id = some name) :
    ∃ obj, table.shape? id = some (.object obj) ∧ obj.role config = .interface (some name) := by
  obtain ⟨s, hs, hname⟩ := Option.bind_eq_some_iff.1 h
  cases s with
  | object obj =>
    refine ⟨obj, hs, ?_⟩
    simp only [TypeShape.identity?] at hname
    split at hname
    · next hr => rw [hr, hname]
    · cases hname
  | _ => cases hname

theorem plan_of_interface {obj : ObjectType} (hs : table.shape? v.id = some (.object obj))
    (hr : obj.role config = .interface (some name)) (hd : v.frame.depth ≤ config.maxDepth) :
    plan table config v =
      if v.frame.ancestors.contains name then
        .ok (.done ((Fragment.primitive "any").optional v.optional))
      else .ok (membersPlan config obj (v.frame.enter name) v.optional) := by
  rw [plan_eq_shapePlan hs hd]
  show objectPlan table config obj v.frame v.optional = _
  unfold objectPlan
  rw [hr]
  rfl

theorem assemble_ne_leaf (frame : Frame) (optional : Bool) (props : Props) (extras : Extras)
    (kind : Leaf) (marks : Marks) :
    assemble config frame optional props extras ≠ .leaf kind marks := by
  unfold assemble
  split
  · exact Fragment.noConfusion
  split
  · exact Fragment.noConfusion
  · cases optional <;> cases extras <;> exact Fragment.noConfusion

/-- An interface becomes `any` exactly inside one of its name. -/
theorem walk_eq_any_iff (hn : table.identity? config v.id = some name)
    (hd : v.frame.depth ≤ config.maxDepth) (steps : Nat) :
    v.walk table config (steps + 1) = .ok ((Fragment.primitive "any").optional v.optional) ↔
      name ∈ v.frame.ancestors := by
  obtain ⟨obj, hs, hr⟩ := interface_of_identity? hn
  rw [Visit.walk_succ, plan_of_interface hs hr hd]
  constructor
  · intro h
    by_contra hfree
    rw [if_neg (by simpa using hfree)] at h
    obtain ⟨fs, -, hf⟩ := map_eq_ok.1 h
    exact assemble_ne_leaf _ _ _ _ _ _ (hf.trans (Fragment.primitive_optional ..))
  · intro h
    rw [if_pos (by simpa using h)]
    rfl

/-! ## Walks that never look -/

theorem walkUnchecked_eq (steps : Nat) (id : TypeId) (frame : Frame) (optional : Bool) :
    walkUnchecked table config steps id frame optional =
      walkUnchecked table config steps id frame.forget optional := by
  cases steps <;> rfl

/-- Ancestors that a type does not lead back to do not count. -/
theorem walk_forget (h : ∀ name ∈ v.frame.ancestors, ¬ table.LeadsToName config v.id name)
    (steps : Nat) :
    v.walk table config steps = walk table config steps v.id v.frame.forget v.optional := by
  let P : TypeId → Prop := ReflTransGen (table.Refers config) v.id
  have hP : ∀ a b, P a → b ∈ table.references config a → P b := fun _ _ ha hb => ha.tail hb
  have hframe : Frame.AgreeOn table config P v.frame.forget v.frame :=
    ⟨rfl, rfl, fun {t name} ht hname =>
      ⟨fun hmem => absurd ⟨t, ht, hname⟩ (h name hmem), fun hmem => absurd hmem List.not_mem_nil⟩⟩
  let w : Visit := ⟨v.id, v.frame.forget, v.optional⟩
  have beside : w.Beside (Frame.AgreeOn table config P) v := ⟨rfl, rfl, hframe⟩
  exact ((inStep_of_agreeOn hP).walk_agree steps beside .refl).eq_of_eq fun _ _ => not_false

/-- No interface that the root leads to has another one of its name, or itself, below it. -/
def NamesApart (table : TypeTable) (config : Config) (root : TypeId) : Prop :=
  ∀ a b name, ReflTransGen (table.Refers config) root a → TransGen (table.Refers config) a b →
    table.identity? config a = some name → table.identity? config b ≠ some name

/-- Where names are apart a walk makes the visits of one that never looks. -/
theorem walk_eq_walkUnchecked (hapart : NamesApart table config root) (steps : Nat) {v : Visit}
    (hv : ReflTransGen (table.Refers config) root v.id) (hroot : v.frame.ancestors = []) :
    v.walk table config steps = walkUnchecked table config steps v.id v.frame v.optional := by
  induction steps generalizing v with
  | zero => rfl
  | succ n ih =>
    have hforget : v.frame.forget = v.frame := by unfold Frame.forget; rw [← hroot]
    rw [Visit.walk_succ]
    show _ = step table config (walkUnchecked table config n) v.id v.frame.forget v.optional
    rw [hforget, step_eq_run]
    cases hp : plan table config v with
    | error e => rfl
    | ok p =>
      refine Plan.run_congr fun w hw => ?_
      have below := below_of_mem_visits hp hw
      have hw : ReflTransGen (table.Refers config) root w.id := hv.tail below.mem
      -- The one name that the visit may be inside of is that of `v`, and it does not come back.
      have hfree : ∀ name ∈ w.frame.ancestors, ¬ table.LeadsToName config w.id name := by
        rintro name hmem ⟨t, ht, hname⟩
        rw [below.ancestors, hroot, List.append_nil, Option.mem_toList] at hmem
        exact hapart v.id t name hv (.head' below.mem ht) hmem hname
      rw [walkUnchecked_eq]
      exact (walk_forget hfree n).trans (ih (v := ⟨w.id, w.frame.forget, w.optional⟩) hw rfl)

end

end Walk

open Walk

/-- The schema of a type by a walk that never knows which types it is inside of. -/
def TypeTable.schemaUnchecked (table : TypeTable) (config : Config) (root : TypeId)
    (additional : Bool) : Except WalkError Fragment :=
  styleLeaves config <$> walkUnchecked table config (budget table config) root { additional } false

/-- An interface becomes `any` exactly if one of its name is being walked around it, which is the
very same one unless another one of the name leads to it; and if no interface leads to one of its
name, the schema is that of a walk that never looks. -/
theorem TypeTable.cut_iff_name_around (table : TypeTable) (config : Config) (root : TypeId)
    (additional : Bool) :
    (∀ around v name, Active table config root additional around v →
      v.frame.depth ≤ config.maxDepth → table.identity? config v.id = some name → ∀ steps,
      (v.walk table config (steps + 1) = .ok ((Fragment.primitive "any").optional v.optional) ↔
        ∃ t ∈ around, table.identity? config t = some name) ∧
      (v.walk table config (steps + 1) = .ok ((Fragment.primitive "any").optional v.optional) →
        (∀ t, TransGen (table.Refers config) t v.id → table.identity? config t = some name →
          t = v.id) →
        v.id ∈ around)) ∧
    (NamesApart table config root →
      table.schema config root additional = table.schemaUnchecked config root additional) := by
  constructor
  · intro around v name hactive hd hn steps
    have cut := (walk_eq_any_iff hn hd steps).trans hactive.mem_ancestors_iff
    refine ⟨cut, fun hany honly => ?_⟩
    obtain ⟨t, ht, hname⟩ := cut.1 hany
    exact honly t (hactive.leads ht) hname ▸ ht
  · intro hapart
    rw [schema_eq]
    exact congrArg _ (walk_eq_walkUnchecked hapart _ .refl rfl)

/-! ## Boxes in boxes -/

/-- A box of strings, and a box of such boxes: two instances of one interface. -/
def boxes : TypeTable where
  types := #[{ flags := [.string] },
    { flags := [.object], symbol := some "Box", typeArguments := [0],
      members := [{ name := "content", type := 0 }] },
    { flags := [.object], symbol := some "Box", typeArguments := [1],
      members := [{ name := "content", type := 1 }] }]

theorem TypeTable.lt_of_transGen {table : TypeTable} {config : Config}
    (h : ∀ a b, table.Refers config a b → b < a) {a b : TypeId}
    (hab : TransGen (table.Refers config) a b) : b < a := by
  induction hab with
  | single hab => exact h _ _ hab
  | tail _ hbc ih => exact lt_trans (h _ _ hbc) ih

theorem boxes_refers_lt (a b : TypeId) (h : boxes.Refers {} a b) : b < a := by
  match a, h with
  | 0, h => cases h
  | 1, h =>
    obtain rfl := List.mem_singleton.1 (show b ∈ [0] from h)
    decide
  | 2, h =>
    obtain rfl := List.mem_singleton.1 (show b ∈ [1] from h)
    decide
  | a + 3, h => cases h

set_option maxRecDepth 2000 in
/-- The box in the box of boxes is cut short, though no box leads back to itself: it is not among
the types around it, and a walk that never looks finds a string in it. -/
theorem boxes_cut_without_cycle :
    let inner : Visit := ⟨1, ⟨["Box"], 1, true⟩, false⟩
    let cut : Fragment := .flat [("content", .primitive "any")] []
    let whole : Fragment :=
      .flat [("content", .object [("content", .primitive "string")] {})] []
    (∀ id, ¬ TransGen (boxes.Refers {}) id id) ∧
      Active boxes {} 2 true [2] inner ∧ boxes.identity? {} inner.id = some "Box" ∧
      inner.walk boxes {} 1 = .ok (.primitive "any") ∧ inner.id ∉ [2] ∧
      boxes.schema {} 2 true = .ok cut ∧ boxes.schemaUnchecked {} 2 true = .ok whole ∧
      boxes.schema {} 2 true ≠ boxes.schemaUnchecked {} 2 true := by
  intro inner cut whole
  have hcut : boxes.schema {} 2 true = .ok cut := rfl
  have hwhole : boxes.schemaUnchecked {} 2 true = .ok whole := rfl
  have outer : Active boxes {} 2 true [] (.root 2 true) := .root
  have active : Active boxes {} 2 true [2] inner := .step outer rfl List.mem_cons_self
  refine ⟨fun id h => ?_, active, rfl, rfl, by decide, hcut, hwhole, ?_⟩
  · exact lt_irrefl id (TypeTable.lt_of_transGen boxes_refers_lt h)
  · rw [hcut, hwhole]
    intro h
    simp [cut, whole, Fragment.primitive] at h

/-- In a list of nodes the inner node is the outer one; and from a box of strings, though not from a
box of boxes, names are apart. -/
theorem cut_iff_name_around_nodes :
    let inner : Visit := ⟨0, ⟨["Node"], 2, true⟩, false⟩
    (Active nodes {} 0 true [1, 0] inner ∧ inner.frame.depth ≤ 256 ∧
      nodes.identity? {} inner.id = some "Node" ∧
      (∀ t, TransGen (nodes.Refers {}) t inner.id → nodes.identity? {} t = some "Node" →
        t = inner.id) ∧
      inner.walk nodes {} 1 = .ok (.primitive "any") ∧
      (∃ t ∈ [1, 0], nodes.identity? {} t = some "Node") ∧ inner.id ∈ [1, 0]) ∧
    NamesApart boxes {} 1 ∧ boxes.schema {} 1 true = boxes.schemaUnchecked {} 1 true := by
  intro inner
  have array : Active nodes {} 0 true [0] ⟨1, ⟨["Node"], 1, true⟩, false⟩ :=
    .step .root rfl List.mem_cons_self
  have active : Active nodes {} 0 true [1, 0] inner :=
    .step array rfl (List.mem_singleton.2 rfl)
  have hn : nodes.identity? {} inner.id = some "Node" := rfl
  have hany : inner.walk nodes {} 1 = .ok (.primitive "any") := rfl
  have only : ∀ t, TransGen (nodes.Refers {}) t inner.id → nodes.identity? {} t = some "Node" →
      t = inner.id := by
    rintro t - ht
    match t, ht with
    | 0, _ => rfl
    | 1, ht | 2, ht | 3, ht => cases ht
    | t + 4, ht => cases ht
  have deep : inner.frame.depth ≤ 256 := by decide
  have law := (TypeTable.cut_iff_name_around nodes {} 0 true).1 _ inner "Node" active deep hn 0
  have apart : NamesApart boxes {} 1 := by
    intro a b name hra hab ha hb
    have hlt : b < a := TypeTable.lt_of_transGen boxes_refers_lt hab
    have hle : a ≤ 1 := by
      rcases ReflTransGen.cases_head hra with rfl | ⟨c, hc, hca⟩
      · exact le_refl _
      · obtain rfl := List.mem_singleton.1 (show c ∈ [0] from hc)
        rcases Relation.reflTransGen_iff_eq_or_transGen.1 hca with rfl | hca
        · exact Nat.zero_le _
        · exact absurd (TypeTable.lt_of_transGen boxes_refers_lt hca) (Nat.not_lt_zero _)
    obtain rfl : b = 0 := Nat.lt_one_iff.1 (lt_of_lt_of_le hlt hle)
    cases hb
  exact ⟨⟨active, deep, hn, only, hany, law.1.1 hany, law.2 hany only⟩, apart,
    (TypeTable.cut_iff_name_around boxes {} 1 true).2 apart⟩

end SchemaSynth
