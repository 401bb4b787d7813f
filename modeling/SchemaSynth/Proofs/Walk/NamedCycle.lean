import Mathlib.Data.List.Chain
import Mathlib.Data.List.Perm.Subperm
import SchemaSynth.Proofs.Walk.DepthLimit
import SchemaSynth.Proofs.Walk.Ending

/-!
# Cycles through names

An interface with a name is entered at most once on the way down. If every cycle of references runs
through one, the way down splits into at most as many stretches without names as there are names,
and no such stretch meets a type twice. So it is bounded by the table alone (`depthBound`), and a
depth limit beyond that bound plays no part (`schema_of_depthBound_le`).
-/

namespace SchemaSynth

/-- Every cycle of references, given by the types it comes to after one, runs through an interface
with a name. -/
def TypeTable.NamedCycles (table : TypeTable) (config : Config) : Prop :=
  ∀ id cycle, List.IsChain (fun a b => b ∈ table.references config a) (id :: cycle) →
    cycle.getLast? = some id → ∃ a ∈ cycle, (table.identity? config a).isSome

/-- A depth that no walk exceeds if every cycle runs through a name: two levels for every type on
each stretch between two names. -/
def TypeTable.depthBound (table : TypeTable) : Nat :=
  2 * (table.size * (table.size + 1) + table.size)

namespace Walk

open Relation (TransGen ReflTransGen)

variable {table : TypeTable} {config : Config}

/-! ## Stretches without names -/

/-- A reference of a type without a name. -/
def Unnamed (table : TypeTable) (config : Config) (a b : TypeId) : Prop :=
  table.identity? config a = none ∧ b ∈ table.references config a

theorem unnamed_of_chain {id : TypeId} {l : List TypeId}
    (h : List.IsChain (Unnamed table config) (id :: l)) {a : TypeId} (ha : a ∈ l) :
    table.identity? config a = none ∨ l.getLast? = some a := by
  induction l generalizing id with
  | nil => cases ha
  | cons b l ih =>
    have htail := (List.isChain_cons_cons.1 h).2
    cases l with
    | nil =>
      obtain rfl := List.mem_singleton.1 ha
      exact .inr rfl
    | cons c l =>
      rcases List.mem_cons.1 ha with rfl | ha
      · exact .inl (List.isChain_cons_cons.1 htail).1.1
      · simpa using ih htail ha

theorem unnamed_acyclic (h : table.NamedCycles config) (id : TypeId) :
    ¬ TransGen (Unnamed table config) id id := by
  intro hid
  obtain ⟨b, hb, hba⟩ := TransGen.head'_iff.1 hid
  obtain ⟨l, hl, hlast⟩ := List.exists_isChain_cons_of_relationReflTransGen hba
  have chain : List.IsChain (Unnamed table config) (id :: b :: l) :=
    List.isChain_cons_cons.2 ⟨hb, hl⟩
  have last : (b :: l).getLast? = some id := by
    rw [List.getLast?_eq_some_getLast (by simp), hlast]
  obtain ⟨a, ha, hname⟩ := h id (b :: l) (chain.imp fun _ _ h => h.2) last
  rcases unnamed_of_chain chain ha with hn | hla
  · simp [hn] at hname
  · obtain rfl : a = id := by simpa [last] using hla.symm
    simp [hb.1] at hname

/-- Cycles run through names if the types without one can be ranked. -/
theorem namedCycles_of_rank (rank : TypeId → Nat)
    (h : ∀ a b, Unnamed table config a b → rank b < rank a) : table.NamedCycles config := by
  intro id cycle chain hlast
  by_contra hno
  have hid : id ∈ cycle := List.mem_of_getLast? hlast
  have unnamed : ∀ a ∈ id :: cycle, table.identity? config a = none := fun a ha => by
    by_contra hname
    have ha : a ∈ cycle := (List.mem_cons.1 ha).elim (fun h => h ▸ hid) fun h => h
    exact hno ⟨a, ha, Option.isSome_iff_ne_none.2 hname⟩
  have falls : List.IsChain (fun a b => rank b < rank a) (id :: cycle) :=
    chain.imp_of_mem_imp fun a b ha _ hab => h a b ⟨unnamed a ha, hab⟩
  exact absurd (List.rel_of_pairwise_cons (List.isChain_iff_pairwise.1 falls) hid) (lt_irrefl _)

theorem soleBranch_unnamed {a b : TypeId} (h : table.SoleBranch a b) :
    Unnamed table config a b := by
  have hmem := mem_references_of_soleBranch config h
  obtain ⟨types, hs, -⟩ := h
  exact ⟨table.identity?_eq config hs, hmem⟩

/-! ## Names on the way down -/

/-- The names of the interfaces of a table. -/
def names (table : TypeTable) (config : Config) : List String :=
  (List.range table.size).filterMap (table.identity? config)

/-- The ancestors of a frame are distinct names of the table. -/
structure Frame.Tidy (table : TypeTable) (config : Config) (frame : Frame) : Prop where
  nodup : frame.ancestors.Nodup
  subset : frame.ancestors ⊆ names table config

theorem Frame.Tidy.length_le {frame : Frame} (h : Frame.Tidy table config frame) :
    frame.ancestors.length ≤ table.size := by
  calc frame.ancestors.length ≤ (names table config).length :=
        (List.subperm_of_subset h.nodup h.subset).length_le
    _ ≤ (List.range table.size).length := List.length_filterMap_le _ _
    _ = table.size := List.length_range

theorem Visit.Below.tidy {v w : Visit} (h : v.Below table config w)
    (hv : Frame.Tidy table config v.frame) : Frame.Tidy table config w.frame := by
  have hancestors := h.ancestors
  cases hn : table.identity? config v.id with
  | none =>
    rw [hn] at hancestors
    exact ⟨hancestors ▸ hv.nodup, hancestors ▸ hv.subset⟩
  | some name =>
    rw [hn] at hancestors
    have hname : name ∈ names table config := List.mem_filterMap.2
      ⟨v.id, List.mem_range.2 (table.lt_size_of_mem_references h.mem), hn⟩
    constructor
    · rw [hancestors]
      exact List.nodup_cons.2 ⟨h.fresh name hn, hv.nodup⟩
    · rw [hancestors]
      exact List.cons_subset.2 ⟨hname, hv.subset⟩

/-! ## The way down is bounded -/

/-- How many visits there may still be, one below the other. -/
def toGo (table : TypeTable) (rank : TypeId → Nat) (v : Visit) : Nat :=
  (table.size - v.frame.ancestors.length) * (table.size + 1) + rank v.id

theorem Visit.Below.toGo_lt {rank : TypeId → Nat} (hrank : ∀ a, rank a ≤ table.size)
    (hlt : ∀ a b, Unnamed table config a b → rank b < rank a) {v w : Visit}
    (h : v.Below table config w) (hv : Frame.Tidy table config v.frame) :
    toGo table rank w < toGo table rank v := by
  have hlen := (h.tidy hv).length_le
  have hancestors := h.ancestors
  unfold toGo
  -- A type without a name lowers the rank; one with a name takes a name, and any rank may follow.
  cases hn : table.identity? config v.id with
  | none =>
    rw [hn] at hancestors
    have := hlt _ _ ⟨hn, h.mem⟩
    rw [hancestors]
    simpa using this
  | some name =>
    rw [hn] at hancestors
    have hr := hrank w.id
    rw [hancestors] at hlen ⊢
    simp only [Option.toList_some, List.cons_append, List.nil_append, List.length_cons] at hlen ⊢
    obtain ⟨k, hk⟩ : ∃ k, table.size - v.frame.ancestors.length = k + 1 :=
      ⟨table.size - v.frame.ancestors.length - 1, by omega⟩
    rw [show table.size - (v.frame.ancestors.length + 1) = k by omega, hk, Nat.succ_mul]
    omega

theorem Fault.depthLimit {v : Visit} {e : WalkError} (h : Fault table config v e)
    {id : TypeId} {limit : Nat} (he : e = .depthLimit id limit) :
    v.frame.depth > config.maxDepth := by
  cases h with
  | tooDeep hd => exact hd
  | _ => cases he

/-- A walk with room for all that is to go never gets too deep. -/
theorem ne_depthLimit_of_toGo {rank : TypeId → Nat} (hrank : ∀ a, rank a ≤ table.size)
    (hlt : ∀ a b, Unnamed table config a b → rank b < rank a) {steps : Nat} {v : Visit}
    (hv : Frame.Tidy table config v.frame)
    (hd : v.frame.depth + 2 * toGo table rank v ≤ config.maxDepth) (id : TypeId) (limit : Nat) :
    v.walk table config steps ≠ .error (.depthLimit id limit) := by
  induction steps generalizing v with
  | zero => intro h; cases h
  | succ n ih =>
    intro h
    rw [Visit.walk_succ] at h
    rcases bind_eq_error.1 h with h | ⟨p, hp, h⟩
    · have := (fault_of_plan_error h).depthLimit rfl
      omega
    obtain ⟨w, hw, h⟩ := Plan.visit_of_run_error h
    have below := below_of_mem_visits hp hw
    have hgo := below.toGo_lt hrank hlt hv
    have hdepth := below.depth_le
    exact ih (below.tidy hv) (by omega) h

theorem ne_depthLimit_of_depthBound (h : table.NamedCycles config)
    (hd : table.depthBound ≤ config.maxDepth) (steps : Nat) (root : TypeId) (additional : Bool)
    (id : TypeId) (limit : Nat) :
    (Visit.root root additional).walk table config steps ≠ .error (.depthLimit id limit) := by
  obtain ⟨rank, hrank, hlt⟩ := exists_rank (r := Unnamed table config)
    (fun _ _ hab => table.lt_size_of_mem_references hab.2) (unnamed_acyclic h)
  refine ne_depthLimit_of_toGo hrank hlt ⟨List.nodup_nil, List.nil_subset _⟩ ?_ id limit
  have hr := hrank root
  have hgo : toGo table rank (.root root additional) =
      table.size * (table.size + 1) + rank root := rfl
  have hdepth : (Visit.root root additional).frame.depth = 0 := rfl
  unfold TypeTable.depthBound at hd
  omega

/-! ## The result of a walk -/

theorem ends_of_namedCycles (h : table.NamedCycles config) {steps : Nat}
    (hn : budget table config ≤ steps) (v : Visit) : Ends (v.walk table config steps) := by
  refine ends_of_budget (P := fun _ => True) (fun _ _ _ _ => trivial) (fun id _ hid => ?_) hn
    trivial
  exact unnamed_acyclic h id (TransGen.mono (fun _ _ => soleBranch_unnamed) _ _ hid)

/-- The walk under the depth limit `m`, with its own budget. -/
def walkWithin (table : TypeTable) (config : Config) (m : Nat) (v : Visit) :
    Except WalkError Fragment :=
  v.walk table { config with maxDepth := m } (budget table { config with maxDepth := m })

/-- Beyond the bound the limit does not matter. -/
theorem walkWithin_eq (h : table.NamedCycles config) {m : Nat} (hm : table.depthBound ≤ m)
    (root : TypeId) (additional : Bool) :
    walkWithin table config m (.root root additional) =
      walkWithin table config table.depthBound (.root root additional) := by
  have named : table.NamedCycles { config with maxDepth := table.depthBound } := h
  refine walk_budget_of_depth_le hm (ends_of_namedCycles named le_rfl _) fun e he => ?_
  rintro ⟨id, limit, rfl⟩
  exact ne_depthLimit_of_depthBound named le_rfl _ root additional id limit he

end Walk

open Walk

/-- If every cycle of references runs through a name, a walk ends without meeting a large depth
limit, with a result that does not depend on it. -/
theorem TypeTable.schema_of_depthBound_le (table : TypeTable) (config : Config)
    (h : table.NamedCycles config) (root : TypeId) (additional : Bool) :
    ∃ result : Except WalkError Fragment, Ends result ∧
      (∀ id limit, result ≠ .error (.depthLimit id limit)) ∧
      ∀ m ≥ table.depthBound,
        table.schema { config with maxDepth := m } root additional = result := by
  have named : table.NamedCycles { config with maxDepth := table.depthBound } := h
  refine ⟨styleLeaves config <$> walkWithin table config table.depthBound (.root root additional),
    ends_map.2 (ends_of_namedCycles named le_rfl _), fun id limit he => ?_, fun m hm => ?_⟩
  · exact ne_depthLimit_of_depthBound named le_rfl _ root additional id limit (map_eq_error.1 he)
  · rw [← walkWithin_eq h hm]
    exact schema_eq table _ root additional

/-- A node with a list of nodes below it and perhaps one beside it. -/
def nodes : TypeTable where
  types := #[
    { flags := [.object], symbol := some "Node",
      members := [{ name := "below", type := 1 }, { name := "beside", type := 2 }] },
    { flags := [.object, .array], typeArguments := [0] },
    { flags := [.union], types := [3, 0] },
    { flags := [.undefined] }]

/-- Both cycles of nodes run through their name. -/
theorem schema_of_depthBound_le_nodes : nodes.NamedCycles {} ∧ ∀ root additional,
    ∃ result : Except WalkError Fragment, Ends result ∧
      (∀ id limit, result ≠ .error (.depthLimit id limit)) ∧
      ∀ m ≥ nodes.depthBound, nodes.schema { maxDepth := m } root additional = result := by
  have named : nodes.NamedCycles {} := by
    refine namedCycles_of_rank (· % 3) fun (a b : Nat) ⟨hn, hb⟩ => ?_
    have ha : a < 4 := nodes.lt_size_of_mem_references hb
    obtain rfl | rfl | rfl | rfl : a = 0 ∨ a = 1 ∨ a = 2 ∨ a = 3 := by omega
    · cases (show some "Node" = none from hn)
    · obtain rfl := List.mem_singleton.1 (show b ∈ [0] from hb)
      decide
    · rcases List.mem_pair.1 (show b ∈ [3, 0] from hb) with rfl | rfl <;> decide
    · cases (show b ∈ [] from hb)
  exact ⟨named, TypeTable.schema_of_depthBound_le nodes {} named⟩

end SchemaSynth
