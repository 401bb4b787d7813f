import Mathlib.Data.Finset.Card
import Mathlib.Data.Finset.Range
import Mathlib.Logic.Relation
import SchemaSynth.Proofs.Walk.Lockstep

/-!
# When a walk ends

Every visit goes deeper than the one it is made for, but for the one branch of a union, which is
visited at the same place. So all that keeps a walk from its end are unions that come down to
themselves: without them `Walk.budget` is enough for every walk (`ends_of_budget`), and one of them
outlasts every budget (`endless_of_union_cycle`). A walk that gets to none of them, whatever else is
in the table, ends within the budget as well (`ends_within_budget`).
-/

namespace SchemaSynth

open Relation (TransGen ReflTransGen)

/-- The type comes down, through unions, to a union that comes down to itself. -/
def TypeTable.Loops (table : TypeTable) (id : TypeId) : Prop :=
  ∃ c, ReflTransGen table.SoleBranch id c ∧ TransGen table.SoleBranch c c

theorem TypeTable.Loops.onward {table : TypeTable} {id : TypeId} (h : table.Loops id) :
    ∃ b, table.SoleBranch id b ∧ table.Loops b := by
  obtain ⟨c, hc, hcycle⟩ := h
  rcases ReflTransGen.cases_head hc with rfl | ⟨b, hb, hbc⟩
  · obtain ⟨b, hb, hbc⟩ := TransGen.head'_iff.1 hcycle
    exact ⟨b, hb, id, hbc, hcycle⟩
  · exact ⟨b, hb, c, hbc, hcycle⟩

namespace Walk

/-- A relation without cycles that starts from finitely many numbers has ranks below their count. -/
theorem exists_rank {r : Nat → Nat → Prop} {N : Nat} (hN : ∀ a b, r a b → a < N)
    (hr : ∀ a, ¬ TransGen r a a) :
    ∃ rank : Nat → Nat, (∀ a, rank a ≤ N) ∧ ∀ a b, r a b → rank b < rank a := by
  classical
  let above : Nat → Finset Nat := fun a => (Finset.range N).filter (ReflTransGen r a)
  refine ⟨fun a => (above a).card, fun a => ?_, fun a b hab => Finset.card_lt_card ?_⟩
  · exact (Finset.card_filter_le _ _).trans_eq (Finset.card_range N)
  · refine Finset.ssubset_iff_of_subset (fun x hx => ?_) |>.2 ⟨a, ?_, fun ha => ?_⟩
    · obtain ⟨hx, hbx⟩ := Finset.mem_filter.1 hx
      exact Finset.mem_filter.2 ⟨hx, .head hab hbx⟩
    · exact Finset.mem_filter.2 ⟨Finset.mem_range.2 (hN a b hab), .refl⟩
    · exact hr a (.head' hab (Finset.mem_filter.1 ha).2)

section

variable {table : TypeTable} {config : Config}

theorem Fault.ne_endless {v : Visit} {e : WalkError} (h : Fault table config v e) (id : TypeId) :
    e ≠ .endless id := by
  cases h <;> exact WalkError.noConfusion

theorem mem_references_of_soleBranch (config : Config) {a b : TypeId} (h : table.SoleBranch a b) :
    b ∈ table.references config a := by
  obtain ⟨types, hs, before, after, -, rfl, -⟩ := h
  rw [table.references_eq config hs]
  simp [TypeShape.references]

/-- A walk ends if it has steps for all levels below it, and on its own level for all unions that
come down to one another. `Q` holds of the visits that it gets to. -/
theorem ends_of_rank {Q : Visit → Prop} {rank : TypeId → Nat} (hrank : ∀ a, rank a ≤ table.size)
    (hlt : ∀ v w, Q v → v.Below table config w → table.SoleBranch v.id w.id →
      rank w.id < rank v.id)
    (hQ : ∀ v p before w after steps, Q v → plan table config v = .ok p →
      p.visits = before ++ w :: after →
      (∀ u ∈ before, ∃ f, Visit.walk table config steps u = .ok f) → Q w)
    {steps : Nat} {v : Visit} (hv : Q v)
    (hn : (config.maxDepth + 1 - v.frame.depth) * (table.size + 1) + rank v.id < steps) :
    Ends (v.walk table config steps) := by
  induction steps generalizing v with
  | zero => exact absurd hn (Nat.not_lt_zero _)
  | succ n ih =>
    intro id h
    rw [Visit.walk_succ] at h
    rcases bind_eq_error.1 h with h | ⟨p, hp, h⟩
    · exact (fault_of_plan_error h).ne_endless id rfl
    obtain ⟨before, w, after, hvisits, hbefore, h⟩ := Plan.run_eq_error.1 h
    have below := below_of_mem_visits hp (show w ∈ p.visits by simp [hvisits])
    refine ih (hQ v p before w after n hv hp hvisits hbefore) ?_ id h
    have hwithin := below.within
    have hr := hrank w.id
    obtain ⟨k, hk⟩ : ∃ k, config.maxDepth + 1 - v.frame.depth = k + 1 :=
      ⟨config.maxDepth - v.frame.depth, by omega⟩
    rw [hk, Nat.succ_mul] at hn
    rcases below.descends with hd | ⟨hf, hs⟩
    -- A level further down there is room for any rank; on the same level the rank falls.
    · have hle : (config.maxDepth + 1 - w.frame.depth) * (table.size + 1) ≤ k * (table.size + 1) :=
        Nat.mul_le_mul_right _ (by omega)
      omega
    · have hlt := hlt v w hv below hs
      rw [hf, hk, Nat.succ_mul]
      omega

theorem ends_of_ends_of_before {v w : Visit} {p : Plan} {before after : List Visit}
    {steps steps' : Nat} (h : Ends (v.walk table config steps))
    (hp : plan table config v = .ok p) (hvisits : p.visits = before ++ w :: after)
    (hbefore : ∀ u ∈ before, ∃ f, Visit.walk table config steps' u = .ok f) :
    ∃ n, Ends (w.walk table config n) := by
  let n := max steps steps'
  have hv : Ends (v.walk table config (n + 1)) := by
    rw [walk_more_steps h (by omega)]
    exact h
  rw [Visit.walk_succ, hp] at hv
  refine ⟨n, fun id hid => hv id (Plan.run_eq_error.2 ⟨before, w, after, hvisits, ?_, hid⟩)⟩
  intro u hu
  obtain ⟨f, hf⟩ := hbefore u hu
  exact ⟨f, (walk_more_steps (ends_of_ok hf) (Nat.le_max_right _ _)).trans hf⟩

theorem lt_budget (table : TypeTable) (config : Config) {rank : Nat} (hrank : rank ≤ table.size)
    (depth : Nat) :
    (config.maxDepth + 1 - depth) * (table.size + 1) + rank < budget table config := by
  have hle : (config.maxDepth + 1 - depth) * (table.size + 1) ≤
      (config.maxDepth + 1) * (table.size + 1) := Nat.mul_le_mul_right _ (by omega)
  unfold budget
  rw [Nat.succ_mul]
  omega

/-- Without a union that comes down to itself among the types that it may meet, a walk ends within
the budget. -/
theorem ends_of_budget {P : TypeId → Prop} (hP : ∀ a b, P a → b ∈ table.references config a → P b)
    (hacyclic : ∀ id, P id → ¬ TransGen table.SoleBranch id id) {steps : Nat}
    (hn : budget table config ≤ steps) {v : Visit} (hv : P v.id) :
    Ends (v.walk table config steps) := by
  obtain ⟨rank, hrank, hlt⟩ := exists_rank (r := fun a b => P a ∧ table.SoleBranch a b)
    (fun a b h => table.lt_size_of_mem_references (mem_references_of_soleBranch config h.2))
    fun a h => by
      obtain ⟨b, hab, -⟩ := TransGen.head'_iff.1 h
      exact hacyclic a hab.1 (TransGen.mono (fun _ _ h => h.2) _ _ h)
  refine ends_of_rank (Q := fun v => P v.id) hrank (fun v w hv _ hs => hlt _ _ ⟨hv, hs⟩) ?_ hv
    ((lt_budget table config (hrank v.id) _).trans_le hn)
  intro v p before w after _ hv hp hvisits _
  exact hP _ _ hv (below_of_mem_visits hp (by simp [hvisits])).mem

/-- A type that comes down to a union that comes down to itself outlasts every budget. -/
theorem endless_of_loops (config : Config) (steps : Nat) {v : Visit} (hv : table.Loops v.id)
    (hd : v.frame.depth ≤ config.maxDepth) :
    ∃ id, v.walk table config steps = .error (.endless id) := by
  induction steps generalizing v with
  | zero => exact ⟨v.id, rfl⟩
  | succ n ih =>
    obtain ⟨b, hb, hloops⟩ := hv.onward
    obtain ⟨optional, hp⟩ := plan_of_soleBranch hb hd
    obtain ⟨id, hid⟩ := ih (v := ⟨b, v.frame, optional⟩) hloops hd
    refine ⟨id, ?_⟩
    rw [Visit.walk_succ, hp]
    exact (Plan.run_single _ _).trans hid

theorem endless_of_union_cycle (config : Config) (steps : Nat) {v : Visit}
    (hv : TransGen table.SoleBranch v.id v.id) (hd : v.frame.depth ≤ config.maxDepth) :
    ∃ id, v.walk table config steps = .error (.endless id) :=
  endless_of_loops config steps ⟨v.id, .refl, hv⟩ hd

/-- Whatever ends in any number of steps ends within the budget. -/
theorem ends_within_budget {v : Visit} {steps : Nat} (h : Ends (v.walk table config steps)) :
    Ends (v.walk table config (budget table config)) := by
  obtain ⟨rank, hrank, hlt⟩ :=
    exists_rank (r := fun a b => table.SoleBranch a b ∧ ¬ table.Loops a)
      (fun a b h => table.lt_size_of_mem_references (mem_references_of_soleBranch config h.1))
      fun a h => by
        obtain ⟨b, hab, -⟩ := TransGen.head'_iff.1 h
        exact hab.2 ⟨a, .refl, TransGen.mono (fun _ _ h => h.1) _ _ h⟩
  refine ends_of_rank (Q := fun v => ∃ n, Ends (Visit.walk table config n v)) hrank
    (fun v w ⟨n, hn⟩ hbelow hs => hlt _ _ ⟨hs, fun hloops => ?_⟩)
    (fun v p before w after steps hv hp hvisits hbefore => ?_) ⟨steps, h⟩
    (lt_budget table config (hrank v.id) _)
  · obtain ⟨id, hid⟩ := endless_of_loops config n hloops hbelow.within
    exact hn id hid
  · obtain ⟨n, hn⟩ := hv
    exact ends_of_ends_of_before hn hp hvisits hbefore

theorem walk_budget_eq {v : Visit} {steps : Nat} (h : Ends (v.walk table config steps)) :
    v.walk table config (budget table config) = v.walk table config steps :=
  walk_eq_of_ends (ends_within_budget h) h

/-- A schema is what any walk from its root that ends comes to, with its leaves styled. -/
theorem schema_eq_walk {root : TypeId} {additional : Bool} {steps : Nat}
    (h : Ends ((Visit.root root additional).walk table config steps)) :
    table.schema config root additional =
      styleLeaves config <$> (Visit.root root additional).walk table config steps := by
  rw [schema_eq, walk_budget_eq h]

theorem schema_ends_iff_walk {root : TypeId} {additional : Bool} :
    Ends (table.schema config root additional) ↔
      Ends ((Visit.root root additional).walk table config (budget table config)) := by
  rw [schema_eq, ends_map]

/-- From a root that leads to no union that comes down to itself there is a schema, or an error with
a cause in the table. -/
theorem schema_ends_of_reachable {root : TypeId} (additional : Bool)
    (h : ∀ id, ReflTransGen (fun a b => b ∈ table.references config a) root id →
      ¬ TransGen table.SoleBranch id id) :
    Ends (table.schema config root additional) :=
  schema_ends_iff_walk.2 (ends_of_budget (fun _ _ ha hab => ha.tail hab) h le_rfl .refl)

/-- The walks of a table all end, within one budget and with the one they are given, exactly if no
union comes down to itself. -/
theorem all_end_iff_no_union_cycle (table : TypeTable) (config : Config) :
    ((∃ budget, ∀ steps ≥ budget, ∀ root additional,
        Ends (Walk.walk table config steps root { additional } false)) ↔
      ∀ id, ¬ TransGen table.SoleBranch id id) ∧
    ((∀ root additional, Ends (table.schema config root additional)) ↔
      ∀ id, ¬ TransGen table.SoleBranch id id) := by
  have ends : (∀ id, ¬ TransGen table.SoleBranch id id) → ∀ steps ≥ budget table config,
      ∀ root additional, Ends ((Visit.root root additional).walk table config steps) :=
    fun h steps hn root additional =>
      ends_of_budget (P := fun _ => True) (fun _ _ _ _ => trivial) (fun id _ => h id) hn trivial
  have endless : ∀ steps id, TransGen table.SoleBranch id id →
      ¬ Ends ((Visit.root id true).walk table config steps) := fun steps id h hends => by
    obtain ⟨e, he⟩ := endless_of_union_cycle config steps (v := .root id true) h
      (Nat.zero_le _)
    exact hends e he
  constructor
  · constructor
    · rintro ⟨n, hn⟩ id h
      exact endless n id h (hn n le_rfl id true)
    · intro h
      exact ⟨budget table config, ends h⟩
  · constructor
    · intro h id hid
      exact endless _ id hid (schema_ends_iff_walk.1 (h id true))
    · intro h root additional
      exact schema_ends_iff_walk.2 (ends h _ le_rfl root additional)

end

/-- A table with one type, the union of itself. -/
def unionOfItself : TypeTable where
  types := #[{ flags := [.union], types := [0] }]

/-- No budget is enough for the walk of a union of itself. -/
theorem no_budget_for_union_of_itself :
    ¬ ∃ budget, ∀ root additional,
      Ends (Walk.walk unionOfItself {} budget root { additional } false) := by
  rintro ⟨n, hn⟩
  have sole : unionOfItself.SoleBranch 0 0 :=
    ⟨[0], rfl, [], [], .union [0], rfl, rfl, TypeShape.noConfusion, rfl, by simp⟩
  obtain ⟨id, h⟩ := endless_of_union_cycle {} n (v := .root 0 true) (.single sole)
    (Nat.zero_le _)
  exact hn 0 true id h

end Walk

end SchemaSynth
