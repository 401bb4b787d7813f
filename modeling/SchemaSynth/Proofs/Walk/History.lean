import SchemaSynth.Proofs.Walk.InStep
import SchemaSynth.Proofs.Walk.NamedCycle

/-!
# What a walk has been through

All that a walk keeps of the types around it are their names, and it asks for a name only at an
interface that has it. So two frames that agree on the names below a type (`AgreeOn`) are the same
frame to the walk of that type: neither the types it is inside of nor those walked beside it matter,
unless the type leads back to them.
-/

namespace SchemaSynth

open Relation (ReflTransGen)

/-- The type leads, through references, to an interface of the name. -/
def TypeTable.LeadsToName (table : TypeTable) (config : Config) (id : TypeId) (name : String) :
    Prop :=
  ∃ t, ReflTransGen (fun a b => b ∈ table.references config a) id t ∧
    table.identity? config t = some name

namespace Walk

/-- The frames differ at most in ancestors that no type of `P` is named like. -/
structure Frame.AgreeOn (table : TypeTable) (config : Config) (P : TypeId → Prop)
    (frame frame' : Frame) : Prop where
  depth : frame'.depth = frame.depth
  additional : frame'.additional = frame.additional
  ancestors : ∀ {id name}, P id → table.identity? config id = some name →
    (name ∈ frame'.ancestors ↔ name ∈ frame.ancestors)

section

variable {table : TypeTable} {config : Config} {P : TypeId → Prop} {frame frame' : Frame}

namespace Frame.AgreeOn

theorem deeper (h : Frame.AgreeOn table config P frame frame') :
    Frame.AgreeOn table config P frame.deeper frame'.deeper :=
  ⟨congrArg (· + 1) h.depth, h.additional, h.ancestors⟩

theorem enter (h : Frame.AgreeOn table config P frame frame') (name : String) :
    Frame.AgreeOn table config P (frame.enter name) (frame'.enter name) where
  depth := h.depth
  additional := h.additional
  ancestors hP hn := by
    simp only [Frame.enter, List.mem_cons, h.ancestors hP hn]

theorem writesAlike (h : Frame.AgreeOn table config P frame frame') :
    WritesAlike config config frame frame' where
  annotates := by unfold annotates; rw [h.additional]
  flat := by unfold writesFlat; rw [h.depth]

end Frame.AgreeOn

/-- Frames that agree on the names of some types are one frame to walks among them. -/
theorem inStep_of_agreeOn (hP : ∀ a b, P a → b ∈ table.references config a → P b) :
    InStep table config config P (Frame.AgreeOn table config P) Eq where
  closed := hP
  maxDepth := rfl
  arrayItems := rfl
  role _ := rfl
  depth h := h.depth
  deeper h := h.deeper
  known h := h.ancestors
  enter name h := h.enter name
  empty := rfl
  leaf _ _ := rfl
  items optional _ h := congrArg (arrayOf optional) h
  alternatives optional h := by rw [List.forall₂_eq_eq_eq] at h; rw [h]
  members optional _ h fs gs hfs := by
    rw [List.forall₂_eq_eq_eq] at hfs
    subst hfs
    exact (h.writesAlike.members _ optional fs).symm
  intersection optional _ h fs gs hfs := by
    rw [List.forall₂_eq_eq_eq] at hfs
    subst hfs
    exact (h.writesAlike.intersection _ _ optional fs).symm

end

/-- A walk depends on the ancestors of its type only through the names that the type leads to:
ancestors that agree on those are one, and with none of them there might as well be no ancestors. -/
theorem walk_eq_of_same_names_below (table : TypeTable) (config : Config) (steps : Nat)
    (id : TypeId) (depth : Nat) (additional optional : Bool) :
    (∀ ancestors ancestors' : List String,
      (∀ name, table.LeadsToName config id name → (name ∈ ancestors ↔ name ∈ ancestors')) →
      walk table config steps id ⟨ancestors, depth, additional⟩ optional =
        walk table config steps id ⟨ancestors', depth, additional⟩ optional) ∧
    ∀ ancestors : List String,
      (∀ name ∈ ancestors, ¬ table.LeadsToName config id name) →
      walk table config steps id ⟨ancestors, depth, additional⟩ optional =
        walk table config steps id ⟨[], depth, additional⟩ optional := by
  have same : ∀ ancestors ancestors' : List String,
      (∀ name, table.LeadsToName config id name → (name ∈ ancestors ↔ name ∈ ancestors')) →
      walk table config steps id ⟨ancestors, depth, additional⟩ optional =
        walk table config steps id ⟨ancestors', depth, additional⟩ optional := by
    intro ancestors ancestors' h
    let P : TypeId → Prop := ReflTransGen (fun a b => b ∈ table.references config a) id
    have hframe : Frame.AgreeOn table config P ⟨ancestors', depth, additional⟩
        ⟨ancestors, depth, additional⟩ := ⟨rfl, rfl, fun {t name} ht hn => h name ⟨t, ht, hn⟩⟩
    have hP : ∀ a b, P a → b ∈ table.references config a → P b := fun _ _ ha hb => ha.tail hb
    let v : Visit := ⟨id, ⟨ancestors', depth, additional⟩, optional⟩
    let w : Visit := ⟨id, ⟨ancestors, depth, additional⟩, optional⟩
    have beside : v.Beside (Frame.AgreeOn table config P) w := ⟨rfl, rfl, hframe⟩
    exact ((inStep_of_agreeOn hP).walk_agree steps beside .refl).eq_of_eq fun _ _ => not_false
  refine ⟨same, fun ancestors h => same ancestors [] fun name hname => ?_⟩
  exact ⟨fun hmem => absurd hname (h name hmem), fun hmem => absurd hmem List.not_mem_nil⟩

/-- Below a list of nodes there is no name but theirs: other ancestors do not count, nor the
order. -/
theorem walk_eq_of_same_names_below_nodes :
    let list (ancestors : List String) := walk nodes {} 9 1 ⟨ancestors, 0, true⟩ false
    ((∀ name, nodes.LeadsToName {} 1 name →
        (name ∈ ["Tree", "Node"] ↔ name ∈ ["Node", "Leaf", "Node"])) ∧
      list ["Tree", "Node"] = list ["Node", "Leaf", "Node"]) ∧
    (∀ name ∈ ["Tree", "Leaf"], ¬ nodes.LeadsToName {} 1 name) ∧
      list ["Tree", "Leaf"] = list [] := by
  intro list
  have only : ∀ name, nodes.LeadsToName {} 1 name → name = "Node" := by
    rintro name ⟨t, -, hn⟩
    match t, hn with
    | 0, hn => cases hn; rfl
    | 1, hn | 2, hn | 3, hn => cases hn
    | t + 4, hn => cases hn
  have same : ∀ name, nodes.LeadsToName {} 1 name →
      (name ∈ ["Tree", "Node"] ↔ name ∈ ["Node", "Leaf", "Node"]) := by
    intro name hname
    rw [only name hname]
    decide
  have none : ∀ name ∈ ["Tree", "Leaf"], ¬ nodes.LeadsToName {} 1 name := by
    intro name hmem hname
    rw [only name hname] at hmem
    exact absurd hmem (by decide)
  have law := walk_eq_of_same_names_below nodes {} 9 1 0 true false
  exact ⟨⟨same, law.1 _ _ same⟩, none, law.2 _ none⟩

end Walk

end SchemaSynth
