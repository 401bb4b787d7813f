import Mathlib.Data.List.Rotate
import SchemaSynth.Proofs.Walk.CycleCut
import SchemaSynth.Proofs.Walk.Members

/-!
# Rings of interfaces

Interfaces that refer to each other in a ring are walked once around it. On the way down each is
inside all that come before it, so the walk knows the first one again, and no other, when it gets
back to it; by then it is as deep as the ring is long. `nest` is the schema that this makes, and
`schema_ring` says that it is the schema of a ring of any length, from any interface of it on.
-/

namespace SchemaSynth

structure PrimitiveMember where
  name : String
  type : TypeId
  kind : Primitive
  optional : Bool
  origin : Origin := .declared

namespace PrimitiveMember

def toMember (m : PrimitiveMember) : Member :=
  { name := m.name, type := m.type, optional := m.optional, origin := m.origin }

def schema (m : PrimitiveMember) : Fragment :=
  .leaf (.primitive m.kind.name) { optional := m.optional }

/-- The members that have a declaration or a type. -/
def walked (ms : List PrimitiveMember) : List PrimitiveMember :=
  ms.filter fun m => m.origin ≠ .undeclared

def properties (ms : List PrimitiveMember) : Props := (walked ms).map fun m => (m.name, m.schema)

end PrimitiveMember

/-- An interface on a ring: a member for the next interface, and members of primitive types before
and after it. -/
structure RingLink where
  id : TypeId
  symbol : String
  before : List PrimitiveMember := []
  name : String
  optional : Bool := false
  after : List PrimitiveMember := []

namespace RingLink

def toNext (link : RingLink) (next : TypeId) : Member :=
  { name := link.name, type := next, optional := link.optional }

def objectType (link : RingLink) (next : TypeId) : ObjectType where
  symbol := some link.symbol
  aliasSymbol := none
  array := none
  index := none
  members := link.before.map PrimitiveMember.toMember ++
    link.toNext next :: link.after.map PrimitiveMember.toMember
  tags := []

/-- The properties of the interface, with a schema for the next one. -/
def properties (link : RingLink) (next : Fragment) : Props :=
  PrimitiveMember.properties link.before ++
    (link.name, next) :: PrimitiveMember.properties link.after

end RingLink

namespace Walk

/-- The interfaces stand on a ring, each with a member for the next one and the last with one for
the first. The walk can tell them apart by their symbols. -/
structure Ring (table : TypeTable) (config : Config) (links : List RingLink) : Prop where
  next : ∀ i link next, links[i]? = some link → links[(i + 1) % links.length]? = some next →
    table.shape? link.id = some (.object (link.objectType next.id))
  symbols : (links.map RingLink.symbol).Nodup
  identifies : ∀ link ∈ links, config.isAnonymous link.symbol = false
  notPredefined : ∀ link ∈ links, Fields.get? config.predefined link.symbol = none
  primitive : ∀ link ∈ links, ∀ m ∈ link.before ++ link.after,
    table.shape? m.type = some (.primitive m.kind)
  names : ∀ link ∈ links, (link.before.map PrimitiveMember.name ++
    link.name :: link.after.map PrimitiveMember.name).Nodup

/-- The properties of the first of some interfaces, each of which has the next one for a property
and the last one `any`. -/
def nest : List RingLink → Props
  | [] => []
  | [last] => last.properties (.leaf (.primitive "any") { optional := last.optional })
  | link :: rest => link.properties (.object (nest rest) { optional := link.optional })

section

variable {table : TypeTable} {config : Config} {frame : Frame} {links : List RingLink}
  {link first : RingLink} {next : TypeId} {v : Visit} {steps : Nat}

/-! ## Members -/

theorem gather_of_nodup {ms : List Member} (hnames : (ms.map Member.name).Nodup)
    (htags : ∀ m ∈ ms, m.tags = []) {fs : List Fragment} (hlength : ms.length = fs.length) :
    gather config frame ms fs [] = (ms.map Member.name).zip fs := by
  have properties :
      (ms.zip fs).map (memberProperty config frame) = (ms.map Member.name).zip fs := by
    rw [List.zip_map_left]
    refine List.map_congr_left fun x hx => ?_
    have annotated : annotateMember config frame [] x.2 = x.2 := by
      unfold annotateMember
      split <;> rfl
    rw [memberProperty, htags x.1 (List.of_mem_zip hx).1, annotated]
    rfl
  have distinct : Fields.Distinct ((ms.map Member.name).zip fs) := by
    show (((ms.map Member.name).zip fs).map Prod.fst).Nodup
    rw [List.map_fst_zip (by simp [hlength])]
    exact hnames
  rw [gather_eq_merge, properties]
  exact Fields.ofList_eq_self distinct

theorem walk_primitive {type : Primitive} (hs : table.shape? v.id = some (.primitive type))
    (hd : v.frame.depth ≤ config.maxDepth) (steps : Nat) :
    v.walk table config (steps + 1) =
      .ok (.leaf (.primitive type.name) { optional := v.optional }) := by
  rw [Visit.walk_succ, plan_eq_shapePlan hs hd]
  exact congrArg Except.ok (Fragment.primitive_optional type.name v.optional)

/-! ## One interface -/

theorem walked_map_toMember (ms : List PrimitiveMember) :
    walked (ms.map PrimitiveMember.toMember) =
      (PrimitiveMember.walked ms).map PrimitiveMember.toMember :=
  List.filter_map

theorem walked_members (link : RingLink) (next : TypeId) :
    walked (link.objectType next).members =
      (PrimitiveMember.walked link.before).map PrimitiveMember.toMember ++
        link.toNext next ::
          (PrimitiveMember.walked link.after).map PrimitiveMember.toMember := by
  rw [← walked_map_toMember, ← walked_map_toMember]
  exact List.filter_append ..

/-- The schemas of the members that are walked, with one for the next interface. -/
def linkSchemas (link : RingLink) (inner : Fragment) : List Fragment :=
  (PrimitiveMember.walked link.before).map PrimitiveMember.schema ++
    inner :: (PrimitiveMember.walked link.after).map PrimitiveMember.schema

theorem zip_linkSchemas (link : RingLink) (next : TypeId) (inner : Fragment) :
    ((walked (link.objectType next).members).map Member.name).zip (linkSchemas link inner) =
      link.properties inner := by
  rw [walked_members, linkSchemas, List.map_append, List.map_cons, List.map_map, List.map_map,
    List.zip_append (by simp), List.zip_cons_cons, List.zip_map', List.zip_map']
  rfl

theorem walk_primitives {ms : List PrimitiveMember}
    (hs : ∀ m ∈ ms, table.shape? m.type = some (.primitive m.kind))
    (hd : frame.depth ≤ config.maxDepth) (steps : Nat) :
    List.Forall₂ (fun (m : Member) g =>
        walk table config (steps + 1) m.type frame m.optional = .ok g)
      ((PrimitiveMember.walked ms).map PrimitiveMember.toMember)
      ((PrimitiveMember.walked ms).map PrimitiveMember.schema) := by
  refine List.forall₂_map_left_iff.2 (List.forall₂_map_right_iff.2 (List.forall₂_same.2 ?_))
  intro m hm
  let visit : Visit := ⟨m.type, frame, m.optional⟩
  have hshape : table.shape? visit.id = some (.primitive m.kind) := hs m (List.mem_filter.1 hm).1
  exact walk_primitive hshape hd steps

namespace Ring

theorem role_objectType (h : Ring table config links) (hlink : link ∈ links) (next : TypeId) :
    (link.objectType next).role config = .interface (some link.symbol) := by
  have hpredefined : (link.objectType next).predefined? config = none := by
    show [link.symbol].findSome? (Fields.get? config.predefined) = none
    simp [h.notPredefined link hlink]
  have hidentity : (link.objectType next).identity? config = some link.symbol := by
    show [link.symbol].find? (fun symbol => !config.isAnonymous symbol) = some link.symbol
    simp [h.identifies link hlink]
  unfold ObjectType.role
  rw [hpredefined, hidentity]
  rfl

theorem gather_linkSchemas (h : Ring table config links) (hlink : link ∈ links) (next : TypeId)
    (inner : Fragment) :
    gather config frame (walked (link.objectType next).members) (linkSchemas link inner) [] =
      link.properties inner := by
  rw [← zip_linkSchemas link next inner]
  refine gather_of_nodup ?_ (fun m hm => ?_) ?_
  · have sub : (walked (link.objectType next).members).Sublist (link.objectType next).members :=
      List.filter_sublist
    have names : (link.objectType next).members.map Member.name =
        link.before.map PrimitiveMember.name ++
          link.name :: link.after.map PrimitiveMember.name := by
      simp [RingLink.objectType, RingLink.toNext, PrimitiveMember.toMember, Function.comp_def]
    exact (names ▸ h.names link hlink).sublist (sub.map _)
  · have hm : m ∈ (link.objectType next).members := (List.mem_filter.1 hm).1
    simp only [RingLink.objectType, List.mem_append, List.mem_cons, List.mem_map] at hm
    rcases hm with ⟨p, -, rfl⟩ | rfl | ⟨p, -, rfl⟩ <;> rfl
  · rw [walked_members, linkSchemas]
    simp

/-- The visit of the next interface. -/
def nextVisit (v : Visit) (link : RingLink) (next : TypeId) : Visit :=
  ⟨next, (v.frame.enter link.symbol).deeper, link.optional⟩

/-- An interface that the walk is not inside of has the properties of its members and one for the
next interface. -/
theorem walk_link (h : Ring table config links) (hmode : config.mode = {}) (hlink : link ∈ links)
    (hs : table.shape? v.id = some (.object (link.objectType next)))
    (hfresh : link.symbol ∉ v.frame.ancestors) (hd : v.frame.depth < config.maxDepth)
    {inner : Fragment}
    (hinner : (nextVisit v link next).walk table config (steps + 1) = .ok inner) :
    v.walk table config (steps + 2) = .ok
      (if v.frame.depth = 0 then .flat (link.properties inner) []
      else .object (link.properties inner) { optional := v.optional }) := by
  let around := v.frame.enter link.symbol
  have below : around.deeper.depth ≤ config.maxDepth := hd
  have hplan := plan_of_interface hs (h.role_objectType hlink next) (Nat.le_of_lt hd)
  rw [if_neg (by simpa using hfresh)] at hplan
  rw [Visit.walk_succ, hplan]
  show (membersPlan config (link.objectType next) around v.optional).run _ = _
  have schemas : List.Forall₂ (fun m g =>
      walk table config (steps + 1) m.type around.deeper m.optional = .ok g)
      (walked (link.objectType next).members) (linkSchemas link inner) := by
    have primitive := List.forall_mem_append.1 (h.primitive link hlink)
    rw [walked_members]
    exact List.rel_append (walk_primitives primitive.1 below steps)
      (.cons hinner (walk_primitives primitive.2 below steps))
  rw [← members_eq, members_eq_ok]
  refine ⟨_, schemas, ?_⟩
  have extras : annotations config around (link.objectType next).tags = [] := by
    unfold annotations
    split <;> rfl
  have props : link.properties inner ≠ [] := by simp [RingLink.properties]
  have wrapped : config.mode.objects ≠ .flat := by
    rw [hmode]
    exact ObjectStyle.noConfusion
  have top : around.depth = 0 ∨ config.mode.objects = .flat ↔ v.frame.depth = 0 :=
    or_iff_left wrapped
  rw [h.gather_linkSchemas hlink, assemble_eq _ (annotations_distinct _), extras, if_neg props]
  exact if_congr top rfl rfl

/-! ## Once around -/

variable {others done rest : List RingLink}

theorem shape_of_append (h : Ring table config (first :: others))
    (hsplit : first :: others = done ++ link :: rest) :
    table.shape? link.id = some (.object (link.objectType (rest.headD first).id)) := by
  have hlink : (first :: others)[done.length]? = some link := by simp [hsplit]
  refine h.next _ link (rest.headD first) hlink ?_
  have hlength : (first :: others).length = done.length + 1 + rest.length := by
    rw [hsplit, List.length_append, List.length_cons]
    omega
  cases rest with
  | nil =>
    rw [hlength]
    simp
  | cons second rest =>
    rw [Nat.mod_eq_of_lt (by simp [hlength]), hsplit]
    simp

theorem identity?_first (h : Ring table config (first :: others)) :
    table.identity? config first.id = some first.symbol := by
  have hs := h.shape_of_append (List.nil_append _).symm
  rw [table.identity?_eq config hs]
  simp only [TypeShape.identity?, h.role_objectType List.mem_cons_self]

/-- A visit of an interface, inside those before it on the ring. -/
structure At (done : List RingLink) (link : RingLink) (v : Visit) : Prop where
  id : v.id = link.id
  ancestors : v.frame.ancestors = (done.map RingLink.symbol).reverse
  depth : v.frame.depth = done.length

theorem fresh (h : Ring table config (first :: others))
    (hsplit : first :: others = done ++ link :: rest) (hat : At done link v) :
    link.symbol ∉ v.frame.ancestors := by
  have distinct := h.symbols
  rw [hsplit, List.map_append, List.map_cons] at distinct
  rw [hat.ancestors, List.mem_reverse]
  exact fun hmem => (List.nodup_append.1 distinct).2.2 _ hmem _ List.mem_cons_self rfl

theorem At.toNext (h : At done link v) (second : RingLink) :
    At (done ++ [link]) second (nextVisit v link second.id) where
  id := rfl
  ancestors := by simp [nextVisit, Frame.enter, Frame.deeper, h.ancestors]
  depth := by simp [nextVisit, Frame.enter, Frame.deeper, h.depth]

/-- A limit as large as the ring is long leaves room below each of its interfaces. -/
theorem At.depth_lt (h : At done link v) (hsplit : first :: others = done ++ link :: rest)
    (hdepth : (first :: others).length ≤ config.maxDepth) : v.frame.depth < config.maxDepth := by
  rw [hsplit, List.length_append, List.length_cons, ← h.depth] at hdepth
  omega

/-- Inside the interfaces before it, an interface is what is nested from it on. -/
theorem walk_around (h : Ring table config (first :: others)) (hmode : config.mode = {})
    (hdepth : (first :: others).length ≤ config.maxDepth)
    (hsplit : first :: others = done ++ link :: rest) (hat : At done link v) (steps : Nat) :
    v.walk table config (steps + rest.length + 2) = .ok
      (if v.frame.depth = 0 then .flat (nest (link :: rest)) []
      else .object (nest (link :: rest)) { optional := v.optional }) := by
  -- By induction on what is left of the ring; what is done stands around the visit.
  induction rest generalizing done link v with
  | nil =>
    -- The first interface is around the last one, which may be the first one itself.
    let back := nextVisit v link first.id
    have hknown : first.symbol ∈ back.frame.ancestors := by
      have hmem : first ∈ done ++ [link] := hsplit ▸ List.mem_cons_self
      rw [(hat.toNext first).ancestors, List.mem_reverse]
      exact List.mem_map_of_mem hmem
    have hback : back.frame.depth ≤ config.maxDepth := hat.depth_lt hsplit hdepth
    have hany : back.walk table config (steps + 1) =
        .ok ((Fragment.primitive "any").optional link.optional) :=
      (walk_eq_any_iff h.identity?_first hback steps).2 hknown
    have closed := h.walk_link hmode (by simp [hsplit]) (hat.id ▸ h.shape_of_append hsplit)
      (h.fresh hsplit hat) (hat.depth_lt hsplit hdepth) hany
    rw [Fragment.primitive_optional] at closed
    exact closed
  | cons second rest ih =>
    have hsecond := ih (hsplit.trans (List.append_cons ..)) (hat.toNext second)
    have hbelow : (nextVisit v link second.id).frame.depth ≠ 0 := Nat.succ_ne_zero _
    rw [if_neg hbelow] at hsecond
    exact h.walk_link hmode (by simp [hsplit]) (hat.id ▸ h.shape_of_append hsplit)
      (h.fresh hsplit hat) (hat.depth_lt hsplit hdepth) hsecond

theorem rotate (h : Ring table config links) (k : Nat) : Ring table config (links.rotate k) where
  next i link next hlink hnext := by
    have hi : i < links.length := by
      rw [← List.length_rotate (n := k)]
      exact (List.getElem?_eq_some_iff.1 hlink).1
    have hmod : (i + 1) % links.length < links.length := Nat.mod_lt _ (Nat.zero_lt_of_lt hi)
    rw [List.getElem?_rotate hi] at hlink
    rw [List.length_rotate, List.getElem?_rotate hmod, Nat.mod_add_mod, Nat.add_right_comm,
      ← Nat.mod_add_mod] at hnext
    exact h.next _ link next hlink hnext
  symbols := by
    rw [List.map_rotate]
    exact List.nodup_rotate.2 h.symbols
  identifies link hlink := h.identifies link (List.mem_rotate.1 hlink)
  notPredefined link hlink := h.notPredefined link (List.mem_rotate.1 hlink)
  primitive link hlink := h.primitive link (List.mem_rotate.1 hlink)
  names link hlink := h.names link (List.mem_rotate.1 hlink)

end Ring

end

end Walk

open Walk

/-- The schema of an interface on a ring is nested once around it: the interface itself is flat, the
others are wrapped, and the member that leads back is `any`. -/
theorem TypeTable.schema_ring (table : TypeTable) (config : Config) (links : List RingLink)
    (h : Ring table config links) (hmode : config.mode = {})
    (hdepth : links.length ≤ config.maxDepth) (k : Nat) (start : RingLink)
    (hstart : links[k]? = some start) (additional : Bool) :
    table.schema config start.id additional = .ok (.flat (nest (links.rotate k)) []) := by
  have hk : k < links.length := (List.getElem?_eq_some_iff.1 hstart).1
  obtain ⟨others, hlinks⟩ : ∃ others, links.rotate k = start :: others :=
    List.head?_eq_some_iff.1 ((List.head?_rotate hk).trans hstart)
  have ring : Ring table config (start :: others) := hlinks ▸ h.rotate k
  have room : (start :: others).length ≤ config.maxDepth := by
    rw [← hlinks, List.length_rotate]
    exact hdepth
  let top : Visit := .root start.id additional
  have hat : Ring.At [] start top := ⟨rfl, rfl, rfl⟩
  have hwalk : top.walk table config (0 + others.length + 2) =
      .ok (.flat (nest (start :: others)) []) :=
    ring.walk_around hmode room (List.nil_append _).symm hat 0
  rw [schema_eq, walk_budget_eq (ends_of_ok hwalk), hwalk, hlinks]
  unfold styleLeaves
  rw [hmode]
  rfl

/-- A person has a home at an address, which is in a country, of which the person may be a citizen.
-/
def citizens : TypeTable where
  types := #[{ flags := [.string] }, { flags := [.number] },
    { flags := [.object], symbol := some "Person",
      members := [{ name := "name", type := 0 }, { name := "home", type := 3 }] },
    { flags := [.object], symbol := some "Address",
      members := [{ name := "country", type := 4 },
        { name := "zip", type := 1, optional := true }] },
    { flags := [.object], symbol := some "Country",
      members := [{ name := "code", type := 0, origin := .undeclared },
        { name := "citizen", type := 2, optional := true }] }]

def citizenRing : List RingLink :=
  [{ id := 2, symbol := "Person", name := "home",
     before := [{ name := "name", type := 0, kind := .string, optional := false }] },
    { id := 3, symbol := "Address", name := "country",
      after := [{ name := "zip", type := 1, kind := .number, optional := true }] },
    { id := 4, symbol := "Country", name := "citizen", optional := true,
      before := [{ name := "code", type := 0, kind := .string, optional := false,
                   origin := .undeclared }] }]

/-- An address is in a country with perhaps a citizen, whose home is anything. -/
theorem schema_ring_citizens :
    let config : Config := { maxDepth := 3 }
    Ring citizens config citizenRing ∧ citizenRing.length ≤ config.maxDepth ∧
    citizens.schema config 3 true = .ok (.flat (nest (citizenRing.rotate 1)) []) ∧
    nest (citizenRing.rotate 1) =
      [("country", .object [("citizen", .object
          [("name", .primitive "string"), ("home", .primitive "any")] { optional := true })] {}),
        ("zip", .leaf (.primitive "number") { optional := true })] := by
  intro config
  have ring : Ring citizens config citizenRing := by
    refine ⟨fun i link next hlink hnext => ?_, by decide, by decide, by decide, by decide,
      by decide⟩
    match i, hlink, hnext with
    | 0, hlink, hnext | 1, hlink, hnext | 2, hlink, hnext =>
      cases hlink
      cases hnext
      rfl
  exact ⟨ring, by decide,
    citizens.schema_ring config citizenRing ring rfl (by decide) 1 _ rfl true, rfl⟩

end SchemaSynth
