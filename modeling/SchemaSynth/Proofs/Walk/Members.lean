import SchemaSynth.Proofs.Fields
import SchemaSynth.Proofs.Walk.Plan

/-!
# Members of an interface

An interface puts the schemas of its members under their names. A name that is declared again keeps
its place and takes the new schema, with the annotations of the new declaration alone; `Gathers`
says so without the order in which members are walked, and `interface_gathers` that it is what the
walk makes of an interface. A member that is overridden is walked all the same, and its error is one
of the interface.
-/

namespace SchemaSynth

/-- The place inside an object type, which may have a name. -/
def Frame.inside (frame : Frame) (name : Option String) : Frame := name.elim frame frame.enter

@[simp] theorem Frame.depth_inside (frame : Frame) (name : Option String) :
    (frame.inside name).depth = frame.depth := by
  cases name <;> rfl

@[simp] theorem Frame.additional_inside (frame : Frame) (name : Option String) :
    (frame.inside name).additional = frame.additional := by
  cases name <;> rfl

namespace Walk

/-- The properties of an interface, from its members that are walked and their schemas, in the order
in which they are declared. -/
structure Gathers (config : Config) (frame : Frame) (ms : List Member) (fs : List Fragment)
    (props : Props) : Prop where
  empty : props = [] ↔ ms = []
  /-- The properties stand where their names come first. -/
  names : Fields.keys props = (ms.map Member.name).eraseDups
  /-- A property is that of the last member of its name, with the annotations of this member where
  they are wanted and there is a place for them. -/
  last : ∀ before m f after, ms.zip fs = before ++ (m, f) :: after →
    (∀ later ∈ after, later.1.name ≠ m.name) →
    Fields.get? props m.name = some
      (if annotates config frame && f.isMapping then f.withExtras (DocTag.annotations m.tags)
      else f)

section

variable {table : TypeTable} {config : Config} {frame : Frame} {optional : Bool}
  {obj : ObjectType} {walk : TypeId → Frame → Bool → Except WalkError Fragment}

/-! ## Properties -/

def memberProperty (config : Config) (frame : Frame) (x : Member × Fragment) : String × Fragment :=
  (x.1.name, annotateMember config frame x.1.tags x.2)

/-- Members are gathered as a map is made of pairs. -/
theorem gather_eq_merge (ms : List Member) (fs : List Fragment) (props : Props) :
    gather config frame ms fs props =
      Fields.merge props ((ms.zip fs).map (memberProperty config frame)) := by
  induction ms generalizing fs props with
  | nil => rfl
  | cons m ms ih =>
    cases fs with
    | nil => rfl
    | cons f fs => exact ih fs _

theorem keys_map_memberProperty (xs : List (Member × Fragment)) :
    Fields.keys (xs.map (memberProperty config frame)) = xs.map fun x => x.1.name := by
  simp [Fields.keys, memberProperty]

theorem gathers {ms : List Member} {fs : List Fragment} (hlength : ms.length = fs.length) :
    Gathers config frame ms fs (gather config frame ms fs []) := by
  have members : (ms.zip fs).map Prod.fst = ms := List.map_fst_zip (Nat.le_of_eq hlength)
  have names : (ms.zip fs).map (fun x => x.1.name) = ms.map Member.name :=
    List.map_map.symm.trans (congrArg (List.map Member.name) members)
  rw [gather_eq_merge]
  refine ⟨?_, ?_, fun before m f after hzip hlater => ?_⟩
  · refine Fields.ofList_eq_nil.trans ?_
    rw [List.map_eq_nil_iff, ← List.map_eq_nil_iff (f := Prod.fst), members]
  · refine (Fields.keys_ofList _).trans ?_
    rw [keys_map_memberProperty, names]
  · have hlast : m.name ∉ Fields.keys (after.map (memberProperty config frame)) := by
      rw [keys_map_memberProperty]
      intro hmem
      obtain ⟨later, hmem, hname⟩ := List.mem_map.1 hmem
      exact hlater later hmem hname
    rw [hzip, List.map_append, List.map_cons]
    exact Fields.get?_ofList_of_last _ hlast

/-! ## Objects -/

theorem assemble_eq (props : Props) {extras : Extras} (h : Fields.Distinct extras) :
    assemble config frame optional props extras =
      if props = [] then .empty
      else if frame.depth = 0 ∨ config.mode.objects = .flat then .flat props extras
      else .object props { optional, extras } := by
  have place : writesFlat config frame = true ↔ frame.depth = 0 ∨ config.mode.objects = .flat := by
    simp [writesFlat]
  have extrasIn : Fields.merge [] extras = extras := Fields.ofList_eq_self h
  unfold assemble
  simp only [List.isEmpty_iff, place]
  split
  · rfl
  split
  · rfl
  · unfold Fragment.withExtras
    split
    · next hnil =>
      rw [List.isEmpty_iff.1 hnil]
      cases optional <;> rfl
    · cases optional <;> simp [Fragment.optional, Fragment.markOptional,
        Fragment.Marks.withExtras, extrasIn]

theorem annotations_distinct (tags : List DocTag) :
    Fields.Distinct (annotations config frame tags) := by
  unfold annotations
  split
  · exact Fields.distinct_ofList _
  · exact Fields.distinct_nil

/-! ## Interfaces -/

theorem members_eq_ok {f : Fragment} :
    members config walk obj frame optional = .ok f ↔
      ∃ fs, List.Forall₂ (fun m g => walk m.type frame.deeper m.optional = .ok g)
          (walked obj.members) fs ∧
        assemble config frame optional (gather config frame (walked obj.members) fs [])
          (annotations config frame obj.tags) = f := by
  rw [members_eq]
  refine map_eq_ok.trans (exists_congr fun fs => and_congr_left' ?_)
  exact mapM_eq_ok.trans List.forall₂_map_left_iff

theorem members_eq_error {e : WalkError} :
    members config walk obj frame optional = .error e ↔
      ∃ before m after, walked obj.members = before ++ m :: after ∧
        (∀ b ∈ before, ∃ f, walk b.type frame.deeper b.optional = .ok f) ∧
        walk m.type frame.deeper m.optional = .error e := by
  rw [members_eq]
  refine map_eq_error.trans ?_
  rw [show (membersPlan config obj frame optional).visits =
    (walked obj.members).map (memberVisit frame) from rfl, List.mapM_map]
  exact mapM_eq_error

/-- An object type without a role of its own is walked by its members, unless it is inside itself.
-/
theorem object_of_interface (hpredefined : obj.predefined? config = none)
    (harray : obj.array = none) (hindex : obj.index = none)
    (hcycle : ∀ name ∈ obj.identity? config, name ∉ frame.ancestors) :
    object table config walk obj frame optional =
      members config walk obj (frame.inside (obj.identity? config)) optional := by
  unfold object
  rw [hpredefined, harray, hindex]
  cases hname : obj.identity? config with
  | none => rfl
  | some name =>
    have hfresh : ¬ frame.ancestors.contains name = true := by
      simpa using hcycle name hname
    exact if_neg hfresh

end

/-- An interface is one object with a property for every name among its members that are walked, and
the extras of its own tags, if it has any such members; it fails as the first of them that does,
whether that one is overridden or not. -/
theorem interface_gathers (table : TypeTable) (config : Config)
    (walk : TypeId → Frame → Bool → Except WalkError Fragment) (obj : ObjectType) (frame : Frame)
    (optional : Bool) (hpredefined : obj.predefined? config = none) (harray : obj.array = none)
    (hindex : obj.index = none) (hcycle : ∀ name ∈ obj.identity? config, name ∉ frame.ancestors) :
    let inner := frame.inside (obj.identity? config)
    let ms := obj.members.filter fun m => m.origin ≠ .undeclared
    let extras :=
      if config.mode.annotations && frame.additional then DocTag.annotations obj.tags else []
    (∀ fs, List.Forall₂ (fun m f => walk m.type inner.deeper m.optional = .ok f) ms fs →
      ∃ props, Gathers config inner ms fs props ∧
        object table config walk obj frame optional = .ok
          (if props = [] then .empty
          else if frame.depth = 0 ∨ config.mode.objects = .flat then .flat props extras
          else .object props { optional, extras })) ∧
    ∀ e, object table config walk obj frame optional = .error e ↔
      ∃ before m after, ms = before ++ m :: after ∧
        (∀ b ∈ before, ∃ f, walk b.type inner.deeper b.optional = .ok f) ∧
        walk m.type inner.deeper m.optional = .error e := by
  intro inner ms extras
  have depth : inner.depth = frame.depth := Frame.depth_inside frame _
  have own : annotations config inner obj.tags = extras := by
    unfold annotations annotates
    rw [show inner.additional = frame.additional from Frame.additional_inside frame _]
  rw [object_of_interface hpredefined harray hindex hcycle]
  refine ⟨fun fs hfs => ⟨_, gathers hfs.length_eq, ?_⟩, fun e => members_eq_error⟩
  rw [← depth, ← own, ← assemble_eq _ (annotations_distinct obj.tags)]
  exact members_eq_ok.2 ⟨fs, hfs, rfl⟩

/-- The types of the members of a profile. -/
def profileTypes : TypeTable where
  types := #[{ flags := [.string] }, { flags := [.number] },
    { flags := [.object], symbol := some "Anything" }, { flags := [.union], types := [0, 1] }]

/-- A profile has a name, declared twice, a note that may hold anything, and a member of which only
the name is known. -/
def profile (nickname : TypeId) : ObjectType where
  symbol := some "Profile"
  aliasSymbol := none
  array := none
  index := none
  members := [{ name := "name", type := nickname, tags := [.line "@max 9"] },
    { name := "age", type := 1 }, { name := "ghost", type := 9, origin := .undeclared },
    { name := "name", type := 1, optional := true, tags := [.line "@min 1"] },
    { name := "note", type := 2, tags := [.line "@since 2"] },
    { name := "either", type := 3, tags := [.line "@since 3"] }]
  tags := [.line "@strict"]

/-- The name in a profile is what it is declared as at last; all the same there is no profile if its
first declaration has a type that is missing. -/
theorem interface_gathers_profile :
    let config : Config := { maxDepth := 8 }
    let walked := walk profileTypes config 4
    let frame : Frame := { ancestors := ["User"], depth := 1, additional := true }
    let inner := frame.inside (some "Profile")
    let ms := (profile 0).members.filter fun m => m.origin ≠ .undeclared
    let fs : List Fragment := [.primitive "string", .primitive "number",
      (Fragment.primitive "number").optional true, .empty,
      .alternatives [.primitive "string", .primitive "number"]]
    ((profile 0).predefined? config = none ∧ (profile 0).array = none ∧ (profile 0).index = none ∧
      ∀ name ∈ (profile 0).identity? config, name ∉ frame.ancestors) ∧
    List.Forall₂ (fun m f => walked m.type inner.deeper m.optional = .ok f) ms fs ∧
    (∃ props, Gathers config inner ms fs props ∧
      object profileTypes config walked (profile 0) frame true = .ok
        (if props = [] then .empty
        else if frame.depth = 0 ∨ config.mode.objects = .flat then
          .flat props [("strict", .bool true)]
        else .object props { optional := true, extras := [("strict", .bool true)] })) ∧
    object profileTypes config walked (profile 9) frame true = .error (.unknownType 9) := by
  intro config walked frame inner ms fs
  have fresh : ∀ name ∈ (profile 0).identity? config, name ∉ frame.ancestors := by
    rintro name ⟨⟩
    decide
  have parts : List.Forall₂ (fun m f => walked m.type inner.deeper m.optional = .ok f) ms fs :=
    .cons rfl (.cons rfl (.cons rfl (.cons rfl (.cons rfl .nil))))
  have law := interface_gathers profileTypes config walked (profile 0) frame true rfl rfl rfl fresh
  have broken :=
    interface_gathers profileTypes config walked (profile 9) frame true rfl rfl rfl fresh
  exact ⟨⟨rfl, rfl, rfl, fresh⟩, parts, law.1 fs parts,
    (broken.2 _).2 ⟨[], _, _, rfl, by simp, rfl⟩⟩

end Walk

end SchemaSynth
