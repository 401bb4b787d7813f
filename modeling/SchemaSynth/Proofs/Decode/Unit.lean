import SchemaSynth.Proofs.Decode.Table
import SchemaSynth.Unit.Codec

/-!
# Units read back

A node is read within as many levels as the document has, so what is read back of a node must be so
within any number of levels that is enough for what is written for it (`Node.Settled`). A reader of
nodes makes no others, by induction on the levels (`Node.settled_of_readWithin`); the calls and the
arguments between the nodes are taken with any reader of nodes at all.
-/

namespace SchemaSynth

open Format

/-! ## Signatures -/

namespace Signature

def format : Format Signature := ⟨Signature.read, Signature.toJson⟩

theorem rereads (s : Signature) : format.Rereads s := by
  intro source
  show (Raw.ofJson s.toJson).readRecord source layout visit { name := "" } = .ok s
  rw [toJson, ← List.append_nil (optionalField "file" _)]
  refine Raw.readObject_of_writes ?_ (by decide)
  refine .field source (string_rereads _) (fun _ => rfl) ?_
  refine .optional source (option_string_rereads _) (fun _ => rfl) rfl ?_
  exact .done _

theorem option_rereads : ∀ s : Option Signature, format.option.Rereads s
  | none => option_rereads_none
  | some s => option_rereads_some (rereads s) Json.noConfusion

end Signature

/-! ## Nodes by their fields -/

namespace Node

variable {source : Source} {node : Raw → Except ReadError Node}

/-- The node is read from what is written for it, within any levels that are enough. -/
def Settled (n : Node) : Prop :=
  ∀ levels source, (Raw.ofJson n.toJson).height ≤ levels →
    readWithin levels source (Raw.ofJson n.toJson) = .ok n

/-- Nodes by any reader of them. -/
def formatBy (node : Raw → Except ReadError Node) : Format Node := ⟨fun _ => node, toJson⟩

theorem childrenToJson_eq (children : List Node) :
    childrenToJson children = children.map toJson := by
  induction children with
  | nil => rfl
  | cons child rest ih => rw [childrenToJson, ih]; rfl

theorem kindOf_of_found {fields : Fields Json} (h : "kind" ∉ Fields.keys fields) (kind : Kind) :
    kindOf source (Raw.ofFields fields) (some kind) = .ok kind := by
  induction fields with
  | nil => rfl
  | cons field rest ih =>
    obtain ⟨key, v⟩ := field
    have hkey : key ≠ "kind" := fun heq => h (heq ▸ List.mem_cons_self)
    unfold Raw.ofFields kindOf
    rw [if_neg hkey, if_pos (Raw.readable_ofJson v)]
    exact ih fun hmem => h (List.mem_cons_of_mem _ hmem)

/-- A node is read as what its kind says, from the other fields. -/
theorem readStep_of_kind {name : String} {kind : Kind} (hkind : Raw.choose kinds name = .ok kind)
    {fields : Fields Json} (hfields : "kind" ∉ Fields.keys fields) :
    readStep source node (Raw.ofJson (.object (("kind", .string name) :: fields))) =
      readBody node kind (Raw.ofJson (.object fields)) := by
  have hread : kindOf source (Raw.ofFields (("kind", .string name) :: fields)) none = .ok kind := by
    refine bind_eq_ok.2 ⟨kind, Source.within_eq_ok.2 hkind, ?_⟩
    exact kindOf_of_found hfields kind
  have hfilter : (Raw.ofFields (("kind", .string name) :: fields)).filter
      (fun field => field.1 != some "kind") = Raw.ofFields fields := by
    rw [Raw.ofFields, List.filter_cons_of_neg (by simp), List.filter_eq_self]
    intro field hfield
    rw [Raw.ofFields_eq] at hfield
    obtain ⟨⟨key, v⟩, hmem, rfl⟩ := List.mem_map.1 hfield
    have hkey : key ≠ "kind" := fun heq => hfields (heq ▸ List.mem_map_of_mem hmem)
    simpa using hkey
  show (kindOf source (Raw.ofFields (("kind", .string name) :: fields)) none >>= fun kind =>
    readBody node kind (.object ((Raw.ofFields (("kind", .string name) :: fields)).filter
      fun field => field.1 != some "kind"))) = _
  rw [hread, hfilter]
  rfl

/-- A node is settled if its fields are read by any reader of the nodes inside that has levels
enough for them. -/
theorem settled_of_readBody {n : Node} {name : String} {kind : Kind} {fields : Fields Json}
    (hn : n.toJson = .object (("kind", .string name) :: fields))
    (hkind : Raw.choose kinds name = .ok kind)
    (hbody : ∀ levels, (Raw.ofJson (.object fields)).height ≤ levels + 1 →
      "kind" ∉ Fields.keys fields ∧
      readBody (readWithin levels .whole) kind (Raw.ofJson (.object fields)) = .ok n) :
    n.Settled := by
  intro levels source hle
  rw [hn] at hle ⊢
  cases levels with
  | zero => exact absurd hle (Nat.not_succ_le_zero _)
  | succ levels =>
    have hfields : (Raw.ofJson (.object fields)).height ≤ levels + 1 :=
      Nat.le_trans (Nat.succ_le_succ (Nat.le_max_right _ _)) hle
    obtain ⟨hkeys, hread⟩ := hbody levels hfields
    exact (readStep_of_kind hkind hkeys).trans hread

theorem height_of_mem_listField {fields : Fields Json} {name : String} {items : List Json}
    (hsub : listField name items ⊆ fields) {v : Json} (hv : v ∈ items) :
    (Raw.ofJson v).height + 1 < (Raw.ofJson (.object fields)).height := by
  have hfield : (name, Json.array items) ∈ fields := by
    refine hsub ?_
    cases items with
    | nil => cases hv
    | cons => exact List.mem_singleton.2 rfl
  exact Nat.lt_of_le_of_lt (Raw.height_item_lt hv) (Raw.height_field_lt hfield)

theorem settled_literal {v : Json} (h : json.Rereads v) : (literal v).Settled := by
  have hkind : Raw.choose kinds "literal" = .ok .literal := rfl
  refine settled_of_readBody rfl hkind fun levels _ => ?_
  have hwrites : Writes visitLiteral literalLayout.fields [("value", v)] .null v :=
    .write (h .whole) (.done v)
  refine ⟨fun hmem => absurd (hwrites.keys_subset hmem) (by decide), ?_⟩
  exact map_eq_ok.2 ⟨v, Raw.readObject_of_writes hwrites (by decide), rfl⟩

theorem settled_other {label : Option String} {children : List Node}
    (h : ∀ child ∈ children, child.Settled) : (other label children).Settled := by
  let fields := optionalField "label" (label.map .string) ++
    (listField "children" (children.map toJson) ++ [])
  have hn : (other label children).toJson = .object (("kind", .string "other") :: fields) := by
    simp [toJson, fields, childrenToJson_eq]
  have hkind : Raw.choose kinds "other" = .ok .other := rfl
  refine settled_of_readBody hn hkind fun levels hle => ?_
  have hchildren : (formatBy (readWithin levels .whole)).list.Rereads children := by
    refine list_rereads fun child hchild _ => h child hchild levels .whole ?_
    have hsub : listField "children" (children.map toJson) ⊆ fields :=
      fun field hfield => List.mem_append_right _ (List.mem_append_left _ hfield)
    have hlt := height_of_mem_listField hsub (List.mem_map_of_mem hchild)
    exact Nat.le_of_succ_le (Nat.le_of_lt_succ (Nat.lt_of_lt_of_le hlt hle))
  have hwrites : Writes (visitOther (readWithin levels .whole)) otherLayout.fields fields
      (none, []) (label, children) := by
    refine .optional .whole (option_string_rereads label) (fun _ => rfl) rfl ?_
    refine .items .whole hchildren (fun _ => rfl) rfl ?_
    exact .done _
  refine ⟨fun hmem => absurd (hwrites.keys_subset hmem) (by decide), ?_⟩
  exact bind_eq_ok.2 ⟨_, Raw.readObject_of_writes hwrites (by decide), rfl⟩

end Node

/-! ## Arguments and calls -/

namespace Argument

variable {source : Source} {node : Raw → Except ReadError Node} {a : Argument Node}

def toJson (a : Argument Node) : Json :=
  .object (optionalField "constant" a.constant ++ [("expression", a.expression.toJson)])

def formatBy (node : Raw → Except ReadError Node) : Format (Argument Node) :=
  ⟨fun source => Argument.read source node, toJson⟩

structure Settled (a : Argument Node) : Prop where
  constant : json.option.Rereads a.constant
  expression : a.expression.Settled

theorem argumentsToJson_eq (arguments : List (Argument Node)) :
    Node.argumentsToJson arguments = arguments.map toJson := by
  induction arguments with
  | nil => rfl
  | cons a rest ih => rw [Node.argumentsToJson, ih]; rfl

theorem rereads (hconstant : json.option.Rereads a.constant)
    (hexpression : (Node.formatBy node).Rereads a.expression) : (formatBy node).Rereads a := by
  intro source
  show (Raw.ofJson a.toJson).readRecord source layout (visit node) { expression := default } = .ok a
  rw [toJson, ← option_map_json a.constant]
  refine Raw.readObject_of_writes ?_ (by decide)
  refine .optional source hconstant (fun _ => rfl) rfl ?_
  refine .field source hexpression (fun _ => rfl) ?_
  exact .done _

theorem settled_of_read (hnode : ∀ raw n, node raw = .ok n → n.Settled) {raw : Raw}
    (h : Argument.read source node raw = .ok a) : a.Settled := by
  have start : Settled { expression := default } :=
    ⟨option_rereads_none, Node.settled_literal fun _ => rfl⟩
  refine Raw.readRecord_preserves ?_ start h
  intro key raw s t hs ht
  unfold visit at ht
  split at ht
  · obtain ⟨constant, hconstant, rfl⟩ := bind_pure_eq_ok.1 ht
    exact { hs with constant := option_json_stable source hconstant }
  · obtain ⟨expression, hexpression, rfl⟩ := bind_pure_eq_ok.1 ht
    exact { hs with expression := hnode _ _ hexpression }
  · cases ht
    exact hs

end Argument

namespace Call

variable {source : Source} {node : Raw → Except ReadError Node} {c : Call}

structure Settled (c : Call) : Prop where
  typeArguments : TypeId.format.list.Rereads c.typeArguments
  arguments : ∀ a ∈ c.arguments, a.Settled

/-- The fields that are written for a call are those of its layout, by any reader of nodes that
reads its arguments back. -/
theorem writes (h : c.Settled)
    (hnode : ∀ a ∈ c.arguments, (Node.formatBy node).Rereads a.expression) :
    Writes (visit source node) layout.fields
      (Node.callFields c.callee c.signature c.typeArguments (Node.argumentsToJson c.arguments))
      { callee := "" } c := by
  have harguments : (Argument.formatBy node).list.Rereads c.arguments :=
    list_rereads fun a ha => Argument.rereads (h.arguments a ha).constant (hnode a ha)
  rw [Node.callFields, Argument.argumentsToJson_eq, ← List.append_nil (listField "arguments" _)]
  simp only [List.append_assoc, List.singleton_append]
  refine .field source (string_rereads _) (fun _ => rfl) ?_
  refine .optional source (Signature.option_rereads _) (fun _ => rfl) rfl ?_
  refine .items source h.typeArguments (fun _ => rfl) rfl ?_
  refine .items source harguments (fun _ => rfl) rfl ?_
  exact .done _

theorem settled_of_readWith (hnode : ∀ raw n, node raw = .ok n → n.Settled) {raw : Raw}
    (h : readWith source node raw = .ok c) : c.Settled := by
  refine Raw.readRecord_preserves ?_ ⟨fun _ => rfl, List.forall_mem_nil _⟩ h
  intro key raw s t hs ht
  unfold visit at ht
  split at ht
  case h_3 =>
    obtain ⟨types, htypes, rfl⟩ := bind_pure_eq_ok.1 ht
    exact { hs with typeArguments := TypeId.stable.list source htypes }
  case h_4 =>
    obtain ⟨arguments, harguments, rfl⟩ := bind_pure_eq_ok.1 ht
    refine { hs with arguments := Raw.forall_of_readList ?_ harguments }
    exact fun raw a ha => Argument.settled_of_read hnode ha
  case h_5 =>
    cases ht
    exact hs
  all_goals
    obtain ⟨x, -, rfl⟩ := bind_pure_eq_ok.1 ht
    exact { hs with }

theorem Settled.toNode (h : c.Settled) : c.toNode.Settled := by
  let fields :=
    Node.callFields c.callee c.signature c.typeArguments (Node.argumentsToJson c.arguments)
  have hn : c.toNode.toJson = .object (("kind", .string "call") :: fields) := rfl
  have hkind : Raw.choose Node.kinds "call" = .ok .call := rfl
  refine Node.settled_of_readBody hn hkind fun levels hle => ?_
  -- An expression stands three levels below its call: in an argument in the list of them.
  have hnode : ∀ a ∈ c.arguments,
      (Node.formatBy (Node.readWithin levels .whole)).Rereads a.expression := by
    refine fun a ha _ => (h.arguments a ha).expression levels .whole ?_
    have hexpression : (Raw.ofJson a.expression.toJson).height < (Raw.ofJson a.toJson).height :=
      Raw.height_field_lt (List.mem_append_right _ (List.mem_singleton.2 rfl))
    have hsub : listField "arguments" (c.arguments.map Argument.toJson) ⊆ fields := by
      intro field hfield
      rw [← Argument.argumentsToJson_eq] at hfield
      exact List.mem_append_right _ hfield
    have hlt := Node.height_of_mem_listField hsub (List.mem_map_of_mem ha)
    omega
  have hwrites : Writes (visit .whole (Node.readWithin levels .whole)) layout.fields fields
      { callee := "" } c := writes h hnode
  refine ⟨fun hmem => absurd (hwrites.keys_subset hmem) (by decide), ?_⟩
  exact map_eq_ok.2 ⟨c, Raw.readObject_of_writes hwrites (by decide), rfl⟩

end Call

/-! ## Nodes -/

namespace Node

variable {source : Source} {node : Raw → Except ReadError Node} {n : Node}

theorem settled_of_readBody_ok (hnode : ∀ raw n, node raw = .ok n → n.Settled) {kind : Kind}
    {body : Raw} (h : readBody node kind body = .ok n) : n.Settled := by
  cases kind with
  | call =>
    obtain ⟨c, hc, rfl⟩ := map_eq_ok.1 h
    exact (Call.settled_of_readWith hnode hc).toNode
  | literal =>
    obtain ⟨v, hv, rfl⟩ := map_eq_ok.1 h
    refine settled_literal (Raw.readRecord_preserves ?_ (fun _ => rfl) hv)
    intro key raw s t hs ht
    unfold visitLiteral at ht
    split at ht
    · exact json_stable .whole ht
    · cases ht
      exact hs
  | other =>
    obtain ⟨⟨label, children⟩, hstate, h⟩ := bind_eq_ok.1 h
    cases h
    let Inside (state : Option String × List Node) : Prop := ∀ child ∈ state.2, child.Settled
    have inside : Inside (label, children) := by
      refine Raw.readRecord_preserves ?_ (List.forall_mem_nil _) hstate
      intro key raw s t hs ht
      unfold visitOther at ht
      split at ht
      · obtain ⟨label, -, rfl⟩ := bind_pure_eq_ok.1 ht
        exact hs
      · obtain ⟨children, hchildren, rfl⟩ := bind_pure_eq_ok.1 ht
        exact Raw.forall_of_readList hnode hchildren
      · cases ht
        exact hs
    exact settled_other inside

/-- Whatever is read as a node, within whatever levels, is read back. -/
theorem settled_of_readWithin {levels : Nat} {raw : Raw}
    (h : readWithin levels source raw = .ok n) : n.Settled := by
  induction levels generalizing source raw n with
  | zero => cases h
  | succ levels ih =>
    -- The node takes one level, and the reader of the nodes inside has what is left.
    change readStep source (readWithin levels .whole) raw = .ok n at h
    unfold readStep at h
    split at h
    · obtain ⟨kind, -, h⟩ := bind_eq_ok.1 h
      exact settled_of_readBody_ok (fun _ _ => ih) h
    · cases h
    · obtain ⟨kind, -, h⟩ := bind_eq_ok.1 h
      split at h
      · exact settled_of_readBody_ok (fun _ _ => ih) h
      · cases h
    · cases h

def format : Format Node := ⟨Node.read, Node.toJson⟩

theorem Settled.rereads (h : n.Settled) : format.Rereads n := fun source =>
  h _ source (Nat.le_refl _)

theorem stable : format.Stable := fun _ _ _ h => (settled_of_readWithin h).rereads

end Node

namespace Call

def format : Format Call := ⟨Call.read, Call.toJson⟩

theorem stable : format.Stable := by
  intro source raw c h source'
  have settled : c.Settled := settled_of_readWith (fun _ _ => Node.settled_of_readWithin) h
  refine Raw.readObject_of_writes (writes settled fun a ha _ => ?_) (by decide)
  exact (settled.arguments a ha).expression.rereads source'

end Call

/-! ## Units -/

namespace CompiledUnit

def format : Format CompiledUnit := ⟨CompiledUnit.read, CompiledUnit.toJson⟩

structure Settled (u : CompiledUnit) : Prop where
  types : TypeTable.format.Rereads u.types
  body : Node.format.list.Rereads u.body

theorem rereads {u : CompiledUnit} (h : u.Settled) : format.Rereads u := by
  intro source
  show (Raw.ofJson u.toJson).readRecord source layout (visit source) { types := {} } = .ok u
  rw [toJson, Node.childrenToJson_eq]
  refine Raw.readObject_of_writes ?_ (by decide)
  refine .optional source (option_string_rereads _) (fun _ => rfl) rfl ?_
  refine .field source h.types (fun _ => rfl) ?_
  refine .field source h.body (fun _ => rfl) ?_
  exact .done _

theorem settled_of_read {source : Source} {raw : Raw} {u : CompiledUnit}
    (h : read source raw = .ok u) : u.Settled := by
  have start : Settled { types := {} } :=
    ⟨TypeTable.rereads ⟨fun _ => rfl, fun _ => rfl⟩, fun _ => rfl⟩
  refine Raw.readRecord_preserves ?_ start h
  intro key raw s t hs ht
  unfold visit at ht
  split at ht
  · obtain ⟨file, -, rfl⟩ := bind_pure_eq_ok.1 ht
    exact { hs with }
  · obtain ⟨types, htypes, rfl⟩ := bind_pure_eq_ok.1 ht
    exact { hs with types := TypeTable.stable source htypes }
  · obtain ⟨body, hbody, rfl⟩ := bind_pure_eq_ok.1 ht
    exact { hs with body := Node.stable.list source hbody }
  · cases ht
    exact hs

theorem stable : format.Stable := fun _ _ _ h => rereads (settled_of_read h)

end CompiledUnit

end SchemaSynth
