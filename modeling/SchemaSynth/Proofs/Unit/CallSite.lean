import SchemaSynth.Proofs.Walk.Result
import SchemaSynth.Unit.Expansion

/-!
# Call sites

`Node.sites` lists the calls of a tree as one reads it, each with the calls it is an argument of.
The outermost of the designated ones are those that expansion replaces: `Node.Expanded` says what
the tree is like afterwards, and `CompiledUnit.expand_outermost` that expansion makes such a tree,
or fails as the first of these calls does.
-/

namespace SchemaSynth

/-- A call in a tree, with the calls that it is in an argument of, innermost first. -/
structure CallSite where
  call : Call
  around : List Call

/-- The call is designated, and in no argument of a designated call. -/
def CallSite.isOutermost (config : Config) (site : CallSite) : Bool :=
  site.call.isDesignated config && site.around.all fun c => !c.isDesignated config

namespace Node

mutual

/-- The calls of a node, a call before those in its arguments. -/
def sites (around : List Call) : Node → List CallSite
  | .call callee signature typeArguments arguments =>
    let c : Call := ⟨callee, signature, typeArguments, arguments⟩
    ⟨c, around⟩ :: argumentSites (c :: around) arguments
  | .literal _ => []
  | .other _ children => allSites around children

def argumentSites (around : List Call) : List (Argument Node) → List CallSite
  | [] => []
  | ⟨_, expression⟩ :: rest => sites around expression ++ argumentSites around rest

def allSites (around : List Call) : List Node → List CallSite
  | [] => []
  | node :: rest => sites around node ++ allSites around rest

end

section

variable (table : TypeTable) (config : Config)

mutual

/-- The second tree is the first with every designated call, seen from the outside, replaced by the
literal of its schema, and nothing else changed. -/
inductive Expanded : Node → Node → Prop where
  | literal (value : Json) : Expanded (.literal value) (.literal value)
  | other (label : Option String) {children children' : List Node} :
      AllExpanded children children' → Expanded (.other label children) (.other label children')
  | designated (c : Call) {value : Json} : c.isDesignated config = true →
      c.expansion? table config = .ok (some value) → Expanded c.toNode (.literal value)
  | call (callee : String) (signature : Option Signature) (typeArguments : List TypeId)
      {arguments arguments' : List (Argument Node)} :
      config.designates signature = false → ArgumentsExpanded arguments arguments' →
      Expanded (.call callee signature typeArguments arguments)
        (.call callee signature typeArguments arguments')

inductive ArgumentsExpanded : List (Argument Node) → List (Argument Node) → Prop where
  | nil : ArgumentsExpanded [] []
  | cons (constant : Option Json) {expression expression' : Node}
      {rest rest' : List (Argument Node)} :
      Expanded expression expression' → ArgumentsExpanded rest rest' →
      ArgumentsExpanded (⟨constant, expression⟩ :: rest) (⟨constant, expression'⟩ :: rest')

inductive AllExpanded : List Node → List Node → Prop where
  | nil : AllExpanded [] []
  | cons {node node' : Node} {rest rest' : List Node} :
      Expanded node node' → AllExpanded rest rest' → AllExpanded (node :: rest) (node' :: rest')

end

end

/-! ## Outermost calls -/

/-- The designated calls among call sites that are in no argument of another one. -/
def outermost (config : Config) (sites : List CallSite) : List Call :=
  (sites.filter (CallSite.isOutermost config)).map CallSite.call

section

variable {config : Config} {around : List Call} {site : CallSite}

theorem outermost_append (xs ys : List CallSite) :
    outermost config (xs ++ ys) = outermost config xs ++ outermost config ys := by
  simp [outermost]

mutual

theorem around_subset_of_mem_sites {around : List Call} : ∀ {node : Node},
    site ∈ sites around node → around ⊆ site.around
  | .call .., h => by
    rcases List.mem_cons.1 h with rfl | h
    · exact List.Subset.refl _
    · exact List.subset_of_cons_subset (around_subset_of_mem_argumentSites h)
  | .literal _, h => by cases h
  | .other .., h => around_subset_of_mem_allSites h

theorem around_subset_of_mem_argumentSites {around : List Call} :
    ∀ {arguments : List (Argument Node)}, site ∈ argumentSites around arguments →
      around ⊆ site.around
  | [], h => by cases h
  | ⟨_, _⟩ :: _, h => by
    rcases List.mem_append.1 h with h | h
    · exact around_subset_of_mem_sites h
    · exact around_subset_of_mem_argumentSites h

theorem around_subset_of_mem_allSites {around : List Call} : ∀ {nodes : List Node},
    site ∈ allSites around nodes → around ⊆ site.around
  | [], h => by cases h
  | _ :: _, h => by
    rcases List.mem_append.1 h with h | h
    · exact around_subset_of_mem_sites h
    · exact around_subset_of_mem_allSites h

end

theorem outermost_arguments_of_designated {c : Call} (hc : c.isDesignated config = true)
    (arguments : List (Argument Node)) :
    outermost config (argumentSites (c :: around) arguments) = [] := by
  have none : ∀ site ∈ argumentSites (c :: around) arguments, site.isOutermost config = false := by
    intro site hsite
    have hmem : c ∈ site.around := around_subset_of_mem_argumentSites hsite List.mem_cons_self
    rw [CallSite.isOutermost, Bool.and_eq_false_iff, List.all_eq_false]
    exact .inr ⟨c, hmem, by simp [hc]⟩
  rw [outermost, List.filter_eq_nil_iff.2 fun site hsite => by simp [none site hsite]]
  rfl

theorem outermost_call (h : ∀ c ∈ around, c.isDesignated config = false) (c : Call) :
    outermost config (sites around c.toNode) =
      if c.isDesignated config then [c]
      else outermost config (argumentSites (c :: around) c.arguments) := by
  have hall : (around.all fun c => !c.isDesignated config) = true :=
    List.all_eq_true.2 fun c hc => by simp [h c hc]
  have hsites : sites around c.toNode = [⟨c, around⟩] ++ argumentSites (c :: around) c.arguments :=
    rfl
  rw [hsites, outermost_append]
  by_cases hc : c.isDesignated config = true
  · rw [if_pos hc, outermost_arguments_of_designated hc]
    simp [outermost, CallSite.isOutermost, hc, hall]
  · rw [if_neg hc]
    simp [outermost, CallSite.isOutermost, hc]

end

/-! ## Expansion -/

section

variable {table : TypeTable} {config : Config}

/-- The values of calls, or the error of the first without one. -/
def values (table : TypeTable) (config : Config) (calls : List Call) :
    Except WalkError (List (Option Json)) :=
  calls.mapM (Call.expansion? table config)

theorem length_values_append (xs ys : List Call) :
    List.length <$> values table config (xs ++ ys) =
      (do
        let n ← List.length <$> values table config xs
        let m ← List.length <$> values table config ys
        pure (n + m)) := by
  simp [values, List.mapM_append]

theorem expansion?_of_designated {c : Call} (hc : c.isDesignated config = true) :
    c.expansion? table config = some <$> c.literal table config := by
  simp [Call.expansion?, hc]

theorem expansion?_of_not_designated {c : Call} (hc : c.isDesignated config = false) :
    c.expansion? table config = pure none := by
  simp [Call.expansion?, hc]

theorem expand_of_designated {c : Call} (hc : c.isDesignated config = true) :
    expand table config c.toNode =
      (fun value => (.literal value, 1)) <$> c.literal table config := by
  rw [Call.toNode, expand, expansion?_of_designated hc]
  simp

theorem expand_of_not_designated {c : Call} (hc : c.isDesignated config = false) :
    expand table config c.toNode =
      (fun (arguments, count) => ({ c with arguments }.toNode, count)) <$>
        expandArguments table config c.arguments := by
  rw [Call.toNode, expand, expansion?_of_not_designated hc]
  simp [Call.toNode]

mutual

/-- Expansion counts the outermost calls, and fails as they do. -/
theorem count_expand {around : List Call} (h : ∀ c ∈ around, c.isDesignated config = false) :
    ∀ node : Node, Prod.snd <$> expand table config node =
      List.length <$> values table config (outermost config (sites around node))
  | .call callee signature typeArguments arguments => by
    let c : Call := ⟨callee, signature, typeArguments, arguments⟩
    show Prod.snd <$> expand table config c.toNode =
      List.length <$> values table config (outermost config (sites around c.toNode))
    rw [outermost_call h]
    cases hc : c.isDesignated config with
    | true =>
      rw [expand_of_designated hc, if_pos rfl]
      simp [values, expansion?_of_designated hc]
    | false =>
      have inside : ∀ d ∈ c :: around, d.isDesignated config = false := by simpa [hc] using h
      have ih : Prod.snd <$> expandArguments table config c.arguments = _ :=
        count_expandArguments inside arguments
      rw [expand_of_not_designated hc, if_neg Bool.false_ne_true, ← ih]
      simp
  | .literal _ => rfl
  | .other label children => by
    rw [expand, sites, ← count_expandAll h children]
    simp

theorem count_expandArguments {around : List Call}
    (h : ∀ c ∈ around, c.isDesignated config = false) :
    ∀ arguments : List (Argument Node), Prod.snd <$> expandArguments table config arguments =
      List.length <$> values table config (outermost config (argumentSites around arguments))
  | [] => rfl
  | ⟨constant, expression⟩ :: rest => by
    rw [argumentSites, outermost_append, length_values_append, ← count_expand h expression,
      ← count_expandArguments h rest]
    simp [expandArguments]

theorem count_expandAll {around : List Call} (h : ∀ c ∈ around, c.isDesignated config = false) :
    ∀ nodes : List Node, Prod.snd <$> expandAll table config nodes =
      List.length <$> values table config (outermost config (allSites around nodes))
  | [] => rfl
  | node :: rest => by
    rw [allSites, outermost_append, length_values_append, ← count_expand h node,
      ← count_expandAll h rest]
    simp [expandAll]

end

/-! ## The expanded tree -/

mutual

theorem expanded_of_expand : ∀ {node node' : Node} {count : Nat},
    expand table config node = .ok (node', count) → Expanded table config node node'
  | .call callee signature typeArguments arguments, node', count, h => by
    let c : Call := ⟨callee, signature, typeArguments, arguments⟩
    have h : expand table config c.toNode = .ok (node', count) := h
    cases hc : c.isDesignated config with
    | true =>
      rw [expand_of_designated hc] at h
      obtain ⟨value, hvalue, h⟩ := map_eq_ok.1 h
      cases h
      exact .designated c hc (by rw [expansion?_of_designated hc, hvalue]; rfl)
    | false =>
      rw [expand_of_not_designated hc] at h
      obtain ⟨⟨arguments', n⟩, harguments, h⟩ := map_eq_ok.1 h
      cases h
      exact .call callee signature typeArguments hc (expanded_of_expandArguments harguments)
  | .literal value, _, _, h => by cases h; exact .literal value
  | .other label children, _, _, h => by
    rw [expand] at h
    obtain ⟨⟨children', n⟩, hchildren, h⟩ := bind_eq_ok.1 h
    cases h
    exact .other label (expanded_of_expandAll hchildren)

theorem expanded_of_expandArguments : ∀ {arguments arguments' : List (Argument Node)} {count : Nat},
    expandArguments table config arguments = .ok (arguments', count) →
      ArgumentsExpanded table config arguments arguments'
  | [], _, _, h => by cases h; exact .nil
  | ⟨constant, expression⟩ :: rest, _, _, h => by
    rw [expandArguments] at h
    obtain ⟨⟨expression', n⟩, hexpression, h⟩ := bind_eq_ok.1 h
    obtain ⟨⟨rest', m⟩, hrest, h⟩ := bind_eq_ok.1 h
    cases h
    exact .cons constant (expanded_of_expand hexpression) (expanded_of_expandArguments hrest)

theorem expanded_of_expandAll : ∀ {nodes nodes' : List Node} {count : Nat},
    expandAll table config nodes = .ok (nodes', count) → AllExpanded table config nodes nodes'
  | [], _, _, h => by cases h; exact .nil
  | node :: rest, _, _, h => by
    rw [expandAll] at h
    obtain ⟨⟨node', n⟩, hnode, h⟩ := bind_eq_ok.1 h
    obtain ⟨⟨rest', m⟩, hrest, h⟩ := bind_eq_ok.1 h
    cases h
    exact .cons (expanded_of_expand hnode) (expanded_of_expandAll hrest)

end

mutual

theorem Expanded.not_designated {around : List Call} : ∀ {node node' : Node},
    Expanded table config node node' → ∀ site ∈ sites around node',
      site.call.isDesignated config = false
  | _, _, .literal _, _, hsite => by cases hsite
  | _, _, .designated .., _, hsite => by cases hsite
  | _, _, .other _ h, site, hsite => h.not_designated site hsite
  | _, _, .call _ _ _ hc h, site, hsite => by
    rcases List.mem_cons.1 hsite with rfl | hsite
    · exact hc
    · exact h.not_designated site hsite

theorem ArgumentsExpanded.not_designated {around : List Call} :
    ∀ {arguments arguments' : List (Argument Node)},
      ArgumentsExpanded table config arguments arguments' →
      ∀ site ∈ argumentSites around arguments', site.call.isDesignated config = false
  | _, _, .nil, _, hsite => by cases hsite
  | _, _, .cons _ h hrest, site, hsite => by
    rcases List.mem_append.1 hsite with hsite | hsite
    · exact h.not_designated site hsite
    · exact hrest.not_designated site hsite

theorem AllExpanded.not_designated {around : List Call} : ∀ {nodes nodes' : List Node},
    AllExpanded table config nodes nodes' → ∀ site ∈ allSites around nodes',
      site.call.isDesignated config = false
  | _, _, .nil, _, hsite => by cases hsite
  | _, _, .cons h hrest, site, hsite => by
    rcases List.mem_append.1 hsite with hsite | hsite
    · exact h.not_designated site hsite
    · exact hrest.not_designated site hsite

end

mutual

theorem expand_eq_self {around : List Call} : ∀ {node : Node},
    (∀ site ∈ sites around node, site.call.isDesignated config = false) →
      expand table config node = .ok (node, 0)
  | .call callee signature typeArguments arguments, h => by
    let c : Call := ⟨callee, signature, typeArguments, arguments⟩
    have hsites : ∀ site ∈ ⟨c, around⟩ :: argumentSites (c :: around) arguments,
        site.call.isDesignated config = false := h
    obtain ⟨hc, harguments⟩ := List.forall_mem_cons.1 hsites
    have ih : expandArguments table config c.arguments = _ := expandArguments_eq_self harguments
    show expand table config c.toNode = _
    rw [expand_of_not_designated hc, ih]
    rfl
  | .literal _, _ => rfl
  | .other label children, h => by
    rw [expand, expandAll_eq_self h]
    rfl

theorem expandArguments_eq_self {around : List Call} : ∀ {arguments : List (Argument Node)},
    (∀ site ∈ argumentSites around arguments, site.call.isDesignated config = false) →
      expandArguments table config arguments = .ok (arguments, 0)
  | [], _ => rfl
  | ⟨constant, expression⟩ :: rest, h => by
    obtain ⟨hexpression, hrest⟩ := List.forall_mem_append.1 h
    rw [expandArguments, expand_eq_self hexpression, expandArguments_eq_self hrest]
    rfl

theorem expandAll_eq_self {around : List Call} : ∀ {nodes : List Node},
    (∀ site ∈ allSites around nodes, site.call.isDesignated config = false) →
      expandAll table config nodes = .ok (nodes, 0)
  | [], _ => rfl
  | node :: rest, h => by
    obtain ⟨hnode, hrest⟩ := List.forall_mem_append.1 h
    rw [expandAll, expand_eq_self hnode, expandAll_eq_self hrest]
    rfl

end

end

end Node

/-! ## Units -/

namespace CompiledUnit

open Node Walk

def calls (u : CompiledUnit) : List Call := (allSites [] u.body).map CallSite.call

/-- The designated calls of a unit that are in no argument of another one, in order. -/
def outermostCalls (config : Config) (u : CompiledUnit) : List Call :=
  outermost config (allSites [] u.body)

/-- Expansion replaces the outermost designated calls by their schemas, and nothing else, so that
none is left to expand; without a schema for one of them it fails as the first such call does. -/
theorem expand_outermost (config : Config) (u : CompiledUnit) :
    (∀ e, u.expand config = .error e ↔
      ∃ before c after, u.outermostCalls config = before ++ c :: after ∧
        (∀ b ∈ before, ∃ value, b.expansion? u.types config = .ok value) ∧
        c.expansion? u.types config = .error e) ∧
    ∀ u' count, u.expand config = .ok (u', count) →
      count = (u.outermostCalls config).length ∧ u'.file = u.file ∧ u'.types = u.types ∧
      AllExpanded u.types config u.body u'.body ∧
      (∀ c ∈ u'.calls, c.isDesignated config = false) ∧
      u'.expand config = .ok (u', 0) := by
  have hcount : Prod.snd <$> expandAll u.types config u.body =
      List.length <$> Node.values u.types config (u.outermostCalls config) :=
    count_expandAll (by simp) u.body
  have hexpand : u.expand config =
      (fun r => ({ u with body := r.1 }, r.2)) <$> expandAll u.types config u.body := by
    simp [expand]
  constructor
  · intro e
    rw [hexpand, map_eq_error, ← map_eq_error (g := Prod.snd), hcount, map_eq_error]
    exact mapM_eq_error
  · intro u' count h
    rw [hexpand] at h
    obtain ⟨⟨body, n⟩, hbody, h⟩ := map_eq_ok.1 h
    cases h
    have expanded := expanded_of_expandAll hbody
    have none : ∀ site ∈ allSites [] body, site.call.isDesignated config = false :=
      expanded.not_designated
    rw [hbody] at hcount
    obtain ⟨values, hvalues, hlength⟩ := map_eq_ok.1 hcount.symm
    refine ⟨?_, rfl, rfl, expanded, ?_, ?_⟩
    · exact hlength.symm.trans (forall₂_of_mapM_ok hvalues).length_eq.symm
    · intro c hc
      obtain ⟨site, hsite, rfl⟩ := List.mem_map.1 hc
      exact none site hsite
    · unfold expand
      rw [expandAll_eq_self none]
      rfl

end CompiledUnit

/-- A unit with a designated call in an argument of a call that is not, and one in an argument of
that one, for a type without a schema; and with a call without a type. -/
def nestedCalls : CompiledUnit where
  types := { types := #[
    { flags := [.string] },
    { flags := [.object], symbol := some "Named", members := [{ name := "name", type := 0 }] },
    { flags := [.other "unknown"] }] }
  body :=
    let schema (types : List TypeId) (arguments : List (Argument Node)) : Node :=
      .call "schema" (some { name := "schema" }) types arguments
    [.other (some "expect")
      [.call "validate" (some { name := "validate" }) []
        [⟨none, .other (some "value") []⟩,
          ⟨some (.bool false), schema [1] [⟨none, schema [2] []⟩]⟩]],
      schema [] []]

/-- The two outermost designated calls are replaced, and the one without a schema goes with the
argument it is in. -/
theorem expand_outermost_nestedCalls : ∃ u', nestedCalls.expand {} = .ok (u', 2) ∧
    2 = (nestedCalls.outermostCalls {}).length ∧ u'.file = nestedCalls.file ∧
    u'.types = nestedCalls.types ∧
    Node.AllExpanded nestedCalls.types {} nestedCalls.body u'.body ∧
    (∀ c ∈ u'.calls, c.isDesignated {} = false) ∧ u'.expand {} = .ok (u', 0) := by
  obtain ⟨u', h⟩ : ∃ u', nestedCalls.expand {} = .ok (u', 2) := ⟨_, rfl⟩
  exact ⟨u', h, (CompiledUnit.expand_outermost {} nestedCalls).2 u' 2 h⟩

end SchemaSynth
