import Mathlib.Logic.Relation
import SchemaSynth.Proofs.Walk.DepthLimit
import SchemaSynth.Proofs.Walk.Memberless
import SchemaSynth.Proofs.Walk.Members

/-!
# Intersections

An intersection puts the properties of its parts together, the first of each name, and their extras,
the last of each key; `Merges` says so without the order in which that is done, and
`intersection_merges` that it is what an intersection does. Since both merges are associative, a
part that is an intersection without tags may give way to its own parts (`intersection_flatten`).
These are walked a level higher up then, and the one thing that could be lost that way are extras of
parts without properties, which there are none of.
-/

namespace SchemaSynth

open Relation (ReflTransGen)

namespace Fragment

def properties (f : Fragment) : Props := f.props?.getD []

/-- The extras of an object, none of anything else. -/
def typeExtras (f : Fragment) : Extras := f.objectExtras?.getD []

end Fragment

/-- One of the types, an intersection without tags, gives way to its own parts. -/
def TypeTable.Flattens (table : TypeTable) (types flat : List TypeId) : Prop :=
  ∃ before part inner after, table.shape? part = some (.intersection inner []) ∧
    types = before ++ part :: after ∧ flat = before ++ inner ++ after

namespace Walk

/-- The properties and the extras of an intersection with extras of its own, from the schemas of its
parts in the order in which they are listed. -/
structure Merges (fs : List Fragment) (own : Extras) (props : Props) (extras : Extras) :
    Prop where
  empty : props = [] ↔ ∀ f ∈ fs, f.properties = []
  /-- The properties stand where their names come first. -/
  names : Fields.keys props = (fs.flatMap fun f => Fields.keys f.properties).eraseDups
  /-- A property is that of the first part which has it. -/
  first : ∀ name, Fields.get? props name = fs.findSome? fun f => Fields.get? f.properties name
  /-- The extras stand where their keys come first. -/
  extraNames : Fields.keys extras =
    ((fs.flatMap fun f => Fields.keys f.typeExtras) ++ Fields.keys own).eraseDups
  /-- The value of a key is the last one that is written. -/
  last : ∀ key, Fields.get? extras key =
    Fields.get? (fs.flatMap Fragment.typeExtras ++ own).reverse key

section

variable {config : Config} {frame : Frame} {optional : Bool} {types : List TypeId}
  {tags : List DocTag} {walk : TypeId → Frame → Bool → Except WalkError Fragment}

/-! ## The merge -/

/-- Parts are merged as if all of them were one. -/
theorem foldl_mergePart_eq (fs : List Fragment) (merged : Props × Extras) :
    fs.foldl mergePart merged =
      (Fields.mergeNew merged.1 (fs.flatMap Fragment.properties),
        Fields.merge merged.2 (fs.flatMap Fragment.typeExtras)) := by
  induction fs generalizing merged with
  | nil => rfl
  | cons f fs ih =>
    rw [List.foldl_cons, ih, List.flatMap_cons, List.flatMap_cons, Fields.mergeNew_append,
      Fields.merge_append]
    rfl

/-- The object that an intersection makes of the schemas of its parts. -/
def mergedObject (config : Config) (tags : List DocTag) (frame : Frame) (optional : Bool)
    (fs : List Fragment) : Fragment :=
  assemble config frame optional (Fields.mergeNew [] (fs.flatMap Fragment.properties))
    (Fields.ofList (fs.flatMap Fragment.typeExtras ++ annotations config frame tags))

theorem intersectionPlan_finish (fs : List Fragment) :
    (intersectionPlan config types tags frame optional).finish fs =
      mergedObject config tags frame optional fs := by
  simp only [intersectionPlan, foldl_mergePart_eq, mergedObject, Fields.ofList,
    Fields.merge_append]

theorem intersection_eq_ok {f : Fragment} :
    intersection config walk types tags frame optional = .ok f ↔
      ∃ fs, List.Forall₂ (fun id g => walk id frame.deeper false = .ok g) types fs ∧
        mergedObject config tags frame optional fs = f := by
  rw [intersection_eq]
  refine map_eq_ok.trans (exists_congr fun fs => and_congr ?_ ?_)
  · exact mapM_eq_ok.trans List.forall₂_map_left_iff
  · rw [intersectionPlan_finish]

theorem intersection_eq_error {e : WalkError} :
    intersection config walk types tags frame optional = .error e ↔
      ∃ before id after, types = before ++ id :: after ∧
        (∀ part ∈ before, ∃ f, walk part frame.deeper false = .ok f) ∧
        walk id frame.deeper false = .error e := by
  rw [intersection_eq]
  refine map_eq_error.trans ?_
  rw [show (intersectionPlan config types tags frame optional).visits =
    types.map (partVisit frame) from rfl, List.mapM_map]
  exact mapM_eq_error

theorem keys_flatMap {α : Type} (g : Fragment → Fields α) (fs : List Fragment) :
    Fields.keys (fs.flatMap g) = fs.flatMap fun f => Fields.keys (g f) := by
  simp [Fields.keys, List.map_flatMap]

theorem get?_flatMap {α : Type} (g : Fragment → Fields α) (fs : List Fragment) (name : String) :
    Fields.get? (fs.flatMap g) name = fs.findSome? fun f => Fields.get? (g f) name := by
  induction fs with
  | nil => rfl
  | cons f fs ih =>
    rw [List.flatMap_cons, Fields.get?_append, ih, List.findSome?_cons]
    cases Fields.get? (g f) name <;> rfl

theorem merges (fs : List Fragment) (own : Extras) :
    Merges fs own (Fields.mergeNew [] (fs.flatMap Fragment.properties))
      (Fields.ofList (fs.flatMap Fragment.typeExtras ++ own)) where
  empty := by simp [Fields.mergeNew_eq_nil, List.flatMap_eq_nil_iff]
  names := by
    rw [Fields.keys_mergeNew rfl, ← keys_flatMap]
    exact Fields.keys_ofList _
  first name := (Fields.get?_mergeNew [] _ name).trans (get?_flatMap _ fs name)
  extraNames := by
    rw [Fields.keys_ofList, ← keys_flatMap]
    simp [Fields.keys]
  last key := by
    rw [Fields.ofList, Fields.get?_merge_reverse]
    exact Option.or_none

end

/-- An intersection is one object with the properties of all its parts and their extras besides its
own, if it has any properties; it fails as the first of its parts that does. -/
theorem intersection_merges (config : Config)
    (walk : TypeId → Frame → Bool → Except WalkError Fragment) (types : List TypeId)
    (tags : List DocTag) (frame : Frame) (optional : Bool) :
    (∀ fs, List.Forall₂ (fun id f => walk id frame.deeper false = .ok f) types fs →
      ∃ props extras, Merges fs (annotations config frame tags) props extras ∧
        intersection config walk types tags frame optional = .ok
          (if props = [] then .empty
          else if frame.depth = 0 ∨ config.mode.objects = .flat then .flat props extras
          else .object props { optional, extras })) ∧
    ∀ e, intersection config walk types tags frame optional = .error e ↔
      ∃ before id after, types = before ++ id :: after ∧
        (∀ part ∈ before, ∃ f, walk part frame.deeper false = .ok f) ∧
        walk id frame.deeper false = .error e := by
  refine ⟨fun fs hfs => ⟨_, _, merges fs _, ?_⟩, fun e => intersection_eq_error⟩
  rw [← assemble_eq _ (Fields.distinct_ofList _)]
  exact intersection_eq_ok.2 ⟨fs, hfs, rfl⟩

/-- Employees are persons, users and staff at once. All three have a name, and two say how long it
may be. -/
def employees : TypeTable where
  types := #[{ flags := [.string] }, { flags := [.number] },
    { flags := [.object], symbol := some "Person", tags := [.line "@max 9", .line "@strict"],
      members := [{ name := "name", type := 0 }, { name := "age", type := 1 }] },
    { flags := [.object], symbol := some "User", tags := [.line "@max 5"],
      members := [{ name := "id", type := 1 }, { name := "name", type := 1 }] },
    { flags := [.object], symbol := some "Staff",
      members := [{ name := "name", type := 0 }, { name := "id", type := 0 },
        { name := "head", type := 4 }] },
    { flags := [.intersection], types := [2, 3] },
    { flags := [.intersection], types := [3, 4] },
    { flags := [.intersection], types := [2, 6], tags := [.line "@label one"] },
    { flags := [.intersection], types := [5, 4], tags := [.line "@label one"] },
    { flags := [.intersection], types := [2, 3, 4], tags := [.line "@label one"] }]

/-- A user who is a person has the name of a person and the longest name of a user. -/
theorem intersection_merges_employees :
    let frame : Frame := { depth := 1, additional := true }
    let walked := walk employees {} 2
    let person : Fragment := .object
      [("name", .primitive "string"), ("age", .primitive "number")]
      { extras := [("max", .int 9), ("strict", .bool true)] }
    let user : Fragment := .object
      [("id", .primitive "number"), ("name", .primitive "number")] { extras := [("max", .int 5)] }
    List.Forall₂ (fun id f => walked id frame.deeper false = .ok f) [2, 0, 3]
        [person, .primitive "string", user] ∧
      ∃ props extras, Merges [person, .primitive "string", user] [("label", .string "both")] props
          extras ∧
        intersection {} walked [2, 0, 3] [.line "@label both"] frame true = .ok
          (if props = [] then .empty
          else if frame.depth = 0 ∨ ({} : Config).mode.objects = .flat then .flat props extras
          else .object props { optional := true, extras }) := by
  intro frame walked person user
  have hperson : walked 2 frame.deeper false = .ok person := rfl
  have hstring : walked 0 frame.deeper false = .ok (.primitive "string") := rfl
  have huser : walked 3 frame.deeper false = .ok user := rfl
  have parts : List.Forall₂ (fun id f => walked id frame.deeper false = .ok f) [2, 0, 3]
      [person, .primitive "string", user] := .cons hperson (.cons hstring (.cons huser .nil))
  have merged := intersection_merges {} walked [2, 0, 3] [.line "@label both"] frame true
  exact ⟨parts, merged.1 _ parts⟩

/-! ## Parts of parts -/

section

variable {table : TypeTable} {config : Config} {frame : Frame} {optional : Bool} {steps : Nat}

theorem walk_intersection {id : TypeId} {types : List TypeId} {tags : List DocTag}
    (hs : table.shape? id = some (.intersection types tags)) :
    walk table config (steps + 1) id frame optional =
      if frame.depth > config.maxDepth then .error (.depthLimit id config.maxDepth)
      else intersection config (walk table config steps) types tags frame optional := by
  show step table config (walk table config steps) id frame optional = _
  unfold step
  rw [shape_eq_ok.2 hs]
  rfl

theorem walk_raised {id : TypeId} {f : Fragment} {more : Nat}
    (h : walk table config steps id frame.deeper.deeper optional = .ok f) (hle : steps ≤ more) :
    walk table config more id frame.deeper optional = .ok f := by
  let v : Visit := ⟨id, frame.deeper.deeper, optional⟩
  let w : Visit := ⟨id, frame.deeper, optional⟩
  have raised : Frame.Raised config v.frame w.frame :=
    ⟨rfl, rfl, Nat.le_succ _, by rw [writesFlat_deeper, writesFlat_deeper]⟩
  have beside : v.Beside (Frame.Raised config) w := ⟨rfl, rfl, raised⟩
  have agree : Agree TooDeep Eq (v.walk table config steps) (w.walk table config steps) :=
    walk_agree_of_room (Nat.le_refl _) beside steps
  obtain ⟨g, hg, rfl⟩ := agree.ok_of_eq_ok h
  exact (walk_more_steps (ends_of_ok hg) hle).trans hg

theorem typeExtras_of_walk {id : TypeId} {f : Fragment}
    (h : walk table config steps id frame optional = .ok f) (hprops : f.properties = []) :
    f.typeExtras = [] := by
  have shows : Shows table config frame.ancestors id f :=
    shows_of_walk (v := ⟨id, frame, optional⟩) h
  cases shows with
  | nothing => rfl
  | properties hne => exact absurd hprops hne
  | other hno =>
    cases f with
    | object props marks => cases hno.1
    | flat props extras => cases hno.1
    | _ => rfl

theorem properties_assemble (props : Props) (extras : Extras) :
    (assemble config frame optional props extras).properties = props := by
  by_cases h : props = []
  · rw [h]
    rfl
  · exact assemble_props h extras

theorem typeExtras_assemble {props : Props} (hprops : props ≠ []) {extras : Extras}
    (h : Fields.Distinct extras) :
    (assemble config frame optional props extras).typeExtras = extras := by
  rw [assemble_eq props h, if_neg hprops]
  split <;> rfl

/-- An intersection without tags has all that its parts have. -/
theorem mergePart_mergedObject {gs : List Fragment}
    (hgs : ∀ g ∈ gs, g.properties = [] → g.typeExtras = []) (merged : Props × Extras) :
    mergePart merged (mergedObject config [] frame optional gs) = gs.foldl mergePart merged := by
  have untagged : annotations config frame [] = [] := by
    unfold annotations
    split <;> rfl
  let f := mergedObject config [] frame optional gs
  have props : f.properties = Fields.mergeNew [] (gs.flatMap Fragment.properties) :=
    properties_assemble _ _
  have extras : f.typeExtras = Fields.merge [] (gs.flatMap Fragment.typeExtras) := by
    show (assemble config frame optional _
      (Fields.ofList (_ ++ annotations config frame []))).typeExtras = _
    rw [untagged, List.append_nil]
    by_cases hnil : Fields.mergeNew [] (gs.flatMap Fragment.properties) = []
    · have bare : gs.flatMap Fragment.typeExtras = [] := by
        rw [List.flatMap_eq_nil_iff]
        exact fun g hg => hgs g hg ((merges gs []).empty.1 hnil g hg)
      rw [hnil, bare]
      rfl
    · exact typeExtras_assemble hnil (Fields.distinct_ofList _)
  rw [foldl_mergePart_eq]
  show (Fields.mergeNew merged.1 f.properties, Fields.merge merged.2 f.typeExtras) = _
  rw [props, extras, Fields.mergeNew_mergeNew, Fields.merge_merge Fields.distinct_nil]
  rfl

theorem parts_append (walk : TypeId → Frame → Bool → Except WalkError Fragment)
    (before after : List TypeId) (merged : Props × Extras) :
    parts walk frame (before ++ after) merged =
      parts walk frame before merged >>= parts walk frame after := by
  induction before generalizing merged with
  | nil => rfl
  | cons id before ih =>
    obtain ⟨props, extras⟩ := merged
    simp only [List.cons_append, parts, bind_assoc]
    exact congrArg _ (funext fun f => ih _)

theorem parts_of_part {part : TypeId} {inner : List TypeId}
    (hpart : table.shape? part = some (.intersection inner [])) {g : Fragment}
    (hg : walk table config steps part frame.deeper false = .ok g) (merged : Props × Extras) :
    parts (walk table config steps) frame inner merged = .ok (mergePart merged g) := by
  cases steps with
  | zero => cases hg
  | succ n =>
    rw [walk_intersection hpart] at hg
    split at hg
    · cases hg
    obtain ⟨gs, hgs, rfl⟩ := intersection_eq_ok.1 hg
    have raised : List.Forall₂
        (fun id f => walk table config (n + 1) id frame.deeper false = .ok f) inner gs :=
      hgs.imp fun _ _ h => walk_raised h (Nat.le_succ n)
    have bare : ∀ g ∈ gs, g.properties = [] → g.typeExtras = [] := by
      intro g hg
      obtain ⟨id, h⟩ := exists_of_mem_mapM_ok (mapM_eq_ok.2 raised) hg
      exact typeExtras_of_walk h
    rw [mergePart_mergedObject bare, parts_eq]
    exact map_eq_ok.2 ⟨gs, mapM_eq_ok.2 (List.forall₂_map_left_iff.2 raised), rfl⟩

/-- What an intersection makes is made as well with the parts of a part in its place. -/
theorem intersection_of_flattens {types flat : List TypeId} (h : table.Flattens types flat)
    {tags : List DocTag} {f : Fragment}
    (hf : intersection config (walk table config steps) types tags frame optional = .ok f) :
    intersection config (walk table config steps) flat tags frame optional = .ok f := by
  obtain ⟨before, part, inner, after, hpart, rfl, rfl⟩ := h
  obtain ⟨merged, hmerged, hf⟩ := bind_eq_ok.1 hf
  refine bind_eq_ok.2 ⟨merged, ?_, hf⟩
  rw [parts_append] at hmerged
  obtain ⟨first, hfirst, hmerged⟩ := bind_eq_ok.1 hmerged
  obtain ⟨g, hg, hmerged⟩ := bind_eq_ok.1 hmerged
  rw [parts_append, parts_append, hfirst]
  exact bind_eq_ok.2 ⟨mergePart first g, parts_of_part hpart hg first, hmerged⟩

theorem intersection_of_flattens_many {types flat : List TypeId}
    (h : ReflTransGen table.Flattens types flat) {tags : List DocTag} {f : Fragment}
    (hf : intersection config (walk table config steps) types tags frame optional = .ok f) :
    intersection config (walk table config steps) flat tags frame optional = .ok f := by
  induction h with
  | refl => exact hf
  | tail _ hstep ih => exact intersection_of_flattens hstep ih

end

/-- Parts of parts may be listed as parts, at one place or at several and at every depth: an
intersection with a schema has that schema without the intersections in it that have no tags of
their own. So all ways to nest the same parts make one schema. -/
theorem intersection_flatten (table : TypeTable) (config : Config) {types flat : List TypeId}
    (h : ReflTransGen table.Flattens types flat) (tags : List DocTag) :
    (∀ steps frame optional f,
      intersection config (walk table config steps) types tags frame optional = .ok f →
      intersection config (walk table config steps) flat tags frame optional = .ok f) ∧
    (∀ id id', table.shape? id = some (.intersection types tags) →
      table.shape? id' = some (.intersection flat tags) →
      (∀ steps frame optional f, walk table config steps id frame optional = .ok f →
        walk table config steps id' frame optional = .ok f) ∧
      ∀ additional f, table.schema config id additional = .ok f →
        table.schema config id' additional = .ok f) ∧
    ∀ other, ReflTransGen table.Flattens other flat → ∀ steps frame optional f g,
      intersection config (walk table config steps) types tags frame optional = .ok f →
      intersection config (walk table config steps) other tags frame optional = .ok g → f = g := by
  refine ⟨fun _ _ _ _ => intersection_of_flattens_many h, fun id id' hid hid' => ?_, ?_⟩
  · have walked : ∀ steps frame optional f, walk table config steps id frame optional = .ok f →
        walk table config steps id' frame optional = .ok f := by
      intro steps frame optional f hf
      cases steps with
      | zero => cases hf
      | succ n =>
        rw [walk_intersection hid] at hf
        rw [walk_intersection hid']
        split at hf
        · cases hf
        · next hdepth =>
          rw [if_neg hdepth]
          exact intersection_of_flattens_many h hf
    refine ⟨walked, fun additional f hf => ?_⟩
    rw [schema_eq] at hf ⊢
    obtain ⟨g, hg, rfl⟩ := map_eq_ok.1 hf
    exact map_eq_ok.2 ⟨g, walked _ _ _ _ hg, rfl⟩
  · intro other hother steps frame optional f g hf hg
    have same := (intersection_of_flattens_many h hf).symm.trans
      (intersection_of_flattens_many hother hg)
    exact Except.ok.inj same

/-- An employee is a person who is a user in the staff, or a person and user who is in the staff. -/
theorem intersection_flatten_employees :
    let config : Config := { maxDepth := 8 }
    let frame : Frame := { depth := 1, additional := true }
    let tags : List DocTag := [.line "@label one"]
    let intersected (types : List TypeId) :=
      intersection config (walk employees config 3) types tags frame true
    ReflTransGen employees.Flattens [2, 6] [2, 3, 4] ∧
      ReflTransGen employees.Flattens [5, 4] [2, 3, 4] ∧
      employees.shape? 7 = some (.intersection [2, 6] tags) ∧
      employees.shape? 9 = some (.intersection [2, 3, 4] tags) ∧
      (∃ f g, intersected [2, 6] = .ok f ∧ intersected [5, 4] = .ok g ∧
        intersected [2, 3, 4] = .ok f ∧ f = g) ∧
      (∃ f, walk employees config 4 7 frame true = .ok f ∧
        walk employees config 4 9 frame true = .ok f) ∧
      ∃ f, employees.schema config 7 true = .ok f ∧ employees.schema config 9 true = .ok f := by
  intro config frame tags intersected
  have right : ReflTransGen employees.Flattens [2, 6] [2, 3, 4] :=
    .single ⟨[2], 6, [3, 4], [], rfl, rfl, rfl⟩
  have left : ReflTransGen employees.Flattens [5, 4] [2, 3, 4] :=
    .single ⟨[], 5, [2, 3], [4], rfl, rfl, rfl⟩
  have nested : employees.shape? 7 = some (.intersection [2, 6] tags) := rfl
  have listed : employees.shape? 9 = some (.intersection [2, 3, 4] tags) := rfl
  obtain ⟨f, hf⟩ : ∃ f, intersected [2, 6] = .ok f := ⟨_, rfl⟩
  obtain ⟨g, hg⟩ : ∃ g, intersected [5, 4] = .ok g := ⟨_, rfl⟩
  obtain ⟨walked, hwalked⟩ : ∃ f, walk employees config 4 7 frame true = .ok f := ⟨_, rfl⟩
  obtain ⟨schema, hschema⟩ : ∃ f, employees.schema config 7 true = .ok f := ⟨_, rfl⟩
  obtain ⟨same, between, all⟩ := intersection_flatten employees config right tags
  exact ⟨right, left, nested, listed,
    ⟨f, g, hf, hg, same 3 frame true f hf, all [5, 4] left 3 frame true f g hf hg⟩,
    ⟨walked, hwalked, (between 7 9 nested listed).1 4 frame true walked hwalked⟩,
    schema, hschema, (between 7 9 nested listed).2 true schema hschema⟩

end Walk

end SchemaSynth
