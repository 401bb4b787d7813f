import SchemaSynth.Proofs.Fields
import SchemaSynth.Proofs.Walk.Descent

/-!
# The empty schema

The schema of an object without members is empty. `TypeTable.Memberless` says what these objects
are: interfaces without a member that is walked, and intersections of nothing that has members. An
intersection passes over whatever is no object (`TypeTable.PassedOver`); so it may be of types that
are anything but empty, while none of these types, by itself, has the empty schema
(`schema_empty_iff`).
-/

namespace SchemaSynth

namespace TypeTable

section

variable (table : TypeTable) (config : Config) (ancestors : List String)

/-- The type is no object whose properties an intersection could take, inside interfaces of some
names. -/
inductive PassedOver : TypeId → Prop where
  | primitive {id : TypeId} {type : Primitive} : table.shape? id = some (.primitive type) →
      PassedOver id
  | literal {id : TypeId} {value : LiteralValue} : table.shape? id = some (.literal value) →
      PassedOver id
  | forbidden {id : TypeId} {type : Forbidden} : table.shape? id = some (.forbidden type) →
      PassedOver id
  | enum {id : TypeId} {types : List TypeId} : table.shape? id = some (.enum types) → PassedOver id
  | predefined {id : TypeId} {obj : ObjectType} {type : String} :
      table.shape? id = some (.object obj) → obj.role config = .predefined type → PassedOver id
  | array {id : TypeId} {obj : ObjectType} {args : List TypeId} :
      table.shape? id = some (.object obj) → obj.role config = .array args → PassedOver id
  | dictionary {id : TypeId} {obj : ObjectType} :
      table.shape? id = some (.object obj) → obj.role config = .dictionary → PassedOver id
  /-- An interface inside itself. -/
  | cycle {id : TypeId} {obj : ObjectType} {name : String} :
      table.shape? id = some (.object obj) → obj.role config = .interface (some name) →
      name ∈ ancestors → PassedOver id
  /-- A union of several branches, of a boolean literal or of none at all. -/
  | union {id : TypeId} {types : List TypeId} : table.shape? id = some (.union types) →
      (∀ b, ¬ table.Sole types b) → PassedOver id
  | branch {id b : TypeId} : table.SoleBranch id b → PassedOver b → PassedOver id

/-- The type is an object without members that are walked, inside interfaces of some names. -/
inductive Memberless : TypeId → Prop where
  | interface {id : TypeId} {obj : ObjectType} {name : Option String} :
      table.shape? id = some (.object obj) → obj.role config = .interface name →
      (∀ n ∈ name, n ∉ ancestors) → (∀ m ∈ obj.members, m.origin = .undeclared) → Memberless id
  | intersection {id : TypeId} {types : List TypeId} {tags : List DocTag} :
      table.shape? id = some (.intersection types tags) →
      (∀ part ∈ types, ¬ PassedOver table config ancestors part → Memberless part) → Memberless id
  | branch {id b : TypeId} : table.SoleBranch id b → Memberless b → Memberless id

end

section

variable {table : TypeTable} {config : Config} {ancestors : List String} {id : TypeId}
  {shape : TypeShape}

theorem Sole.unique {types : List TypeId} {b b' : TypeId} (h : table.Sole types b)
    (h' : table.Sole types b') : b = b' := by
  obtain ⟨shapes, shape, hc, hbr, -⟩ := Walk.branches_of_sole h
  obtain ⟨shapes', shape', hc', hbr', -⟩ := Walk.branches_of_sole h'
  rw [hc] at hc'
  cases hc'
  rw [hbr] at hbr'
  cases hbr'
  rfl

theorem PassedOver.by_shape (h : table.PassedOver config ancestors id)
    (hs : table.shape? id = some shape) :
    match shape with
    | .object obj =>
      match obj.role config with
      | .interface name => ∃ n ∈ name, n ∈ ancestors
      | _ => True
    | .union types => (∀ b, ¬ table.Sole types b) ∨
        ∃ b, table.Sole types b ∧ table.PassedOver config ancestors b
    | .intersection .. => False
    | _ => True := by
  cases h with
  | primitive h | literal h | forbidden h | enum h => cases hs.symm.trans h; trivial
  | predefined h hr | array h hr | dictionary h hr =>
    cases hs.symm.trans h
    dsimp only
    rw [hr]
    trivial
  | cycle h hr hname =>
    cases hs.symm.trans h
    dsimp only
    rw [hr]
    exact ⟨_, rfl, hname⟩
  | union h hsole => cases hs.symm.trans h; exact .inl hsole
  | branch h hb =>
    obtain ⟨types, h, hsole⟩ := h
    cases hs.symm.trans h
    exact .inr ⟨_, hsole, hb⟩

theorem Memberless.by_shape (h : table.Memberless config ancestors id)
    (hs : table.shape? id = some shape) :
    match shape with
    | .object obj => ∃ name, obj.role config = .interface name ∧ (∀ n ∈ name, n ∉ ancestors) ∧
        ∀ m ∈ obj.members, m.origin = .undeclared
    | .intersection types _ => ∀ part ∈ types, ¬ table.PassedOver config ancestors part →
        table.Memberless config ancestors part
    | .union types => ∃ b, table.Sole types b ∧ table.Memberless config ancestors b
    | _ => False := by
  cases h with
  | interface h hr hfresh hmembers => cases hs.symm.trans h; exact ⟨_, hr, hfresh, hmembers⟩
  | intersection h hparts => cases hs.symm.trans h; exact hparts
  | branch h hb =>
    obtain ⟨types, h, hsole⟩ := h
    cases hs.symm.trans h
    exact ⟨_, hsole, hb⟩

end

end TypeTable

/-! ## Fragments -/

namespace Fragment

/-- The fragment has something to say, but nothing of an object with properties. -/
def NoObject (f : Fragment) : Prop := f.props? = none ∧ f ≠ .empty

theorem NoObject.optional {f : Fragment} (h : f.NoObject) (mark : Bool) :
    (f.optional mark).NoObject := by
  cases mark with
  | false => exact h
  | true =>
    cases f with
    | leaf kind marks => cases kind <;> exact ⟨rfl, nofun⟩
    | arrayOf items marks => exact ⟨rfl, nofun⟩
    | alternatives entries => exact ⟨rfl, nofun⟩
    | object props marks => cases h.1
    | _ => exact h

theorem NoObject.toBare {f : Fragment} (h : f.NoObject) : f.toBare.NoObject := by
  cases f with
  | empty => exact absurd rfl h.2
  | object | flat => cases h.1
  | _ => exact ⟨rfl, nofun⟩

theorem props_toBare_ne_nil {f : Fragment} (h : f.props?.getD [] ≠ []) :
    f.toBare.props?.getD [] ≠ [] := by
  cases f with
  | object props | flat props =>
    cases props with
    | nil => exact absurd rfl h
    | cons entry rest => exact List.cons_ne_nil _ _
  | _ => exact absurd rfl h

theorem typed_ne_empty (typeName : String) (body : Fields Json) (marks : Marks) :
    typed typeName body marks ≠ .object [] := fun h =>
  Fields.merge_ne_nil (List.cons_ne_nil _ _) _ (Json.object.inj h)

theorem NoObject.toJson_ne_empty {f : Fragment} (h : f.NoObject) : f.toJson ≠ .object [] := by
  cases f with
  | empty => exact absurd rfl h.2
  | object | flat => cases h.1
  | leaf | arrayOf => exact typed_ne_empty _ _ _
  | _ => nofun

theorem toJson_ne_empty_of_props {f : Fragment} (h : f.props?.getD [] ≠ []) :
    f.toJson ≠ .object [] := by
  cases f with
  | object props marks => exact typed_ne_empty _ _ _
  | flat props extras =>
    cases props with
    | nil => exact absurd rfl h
    | cons entry rest =>
      exact fun h => Fields.merge_ne_nil (List.cons_ne_nil _ _) _ (Json.object.inj h)
  | _ => exact absurd rfl h

theorem noObject_leaf (kind : Leaf) (marks : Marks) : (leaf kind marks).NoObject := ⟨rfl, nofun⟩

theorem noObject_arrayOf (items : Fragment) (marks : Marks) : (arrayOf items marks).NoObject :=
  ⟨rfl, nofun⟩

theorem noObject_alternatives (entries : List Fragment) : (alternatives entries).NoObject :=
  ⟨rfl, nofun⟩

end Fragment

namespace Walk

open TypeTable Fragment

/-- What the schema of a type shows of it: nothing where it has no members, properties where it has
some, and something else where it is passed over. -/
inductive Shows (table : TypeTable) (config : Config) (ancestors : List String) (id : TypeId) :
    Fragment → Prop where
  | nothing : table.Memberless config ancestors id → ¬ table.PassedOver config ancestors id →
      Shows table config ancestors id .empty
  | properties {f : Fragment} : f.props?.getD [] ≠ [] → ¬ table.Memberless config ancestors id →
      ¬ table.PassedOver config ancestors id → Shows table config ancestors id f
  | other {f : Fragment} : f.NoObject → ¬ table.Memberless config ancestors id →
      table.PassedOver config ancestors id → Shows table config ancestors id f

section

variable {table : TypeTable} {config : Config} {ancestors : List String} {id : TypeId}
  {frame : Frame} {optional : Bool} {f : Fragment} {p : Plan}

theorem Shows.props_eq_nil_iff (h : Shows table config ancestors id f) :
    f.props?.getD [] = [] ↔
      (¬ table.PassedOver config ancestors id → table.Memberless config ancestors id) := by
  cases h with
  | nothing hm ho => exact iff_of_true rfl fun _ => hm
  | properties hf hm ho => exact iff_of_false hf fun h => hm (h ho)
  | other hf hm ho => exact iff_of_true (by rw [hf.1]; rfl) fun h => absurd ho h

theorem Shows.eq_empty_iff (h : Shows table config ancestors id f) :
    f = .empty ↔ table.Memberless config ancestors id := by
  cases h with
  | nothing hm ho => exact iff_of_true rfl hm
  | properties hf hm ho =>
    refine iff_of_false ?_ hm
    rintro rfl
    exact hf rfl
  | other hf hm ho => exact iff_of_false hf.2 hm

/-! ## Objects -/

theorem assemble_props {props : Props} (hprops : props ≠ []) (extras : Extras) :
    (assemble config frame optional props extras).props?.getD [] = props := by
  obtain ⟨entry, rest, rfl⟩ := List.exists_cons_of_ne_nil hprops
  unfold assemble withExtras
  cases writesFlat config frame with
  | true => rfl
  | false => cases optional <;> cases extras <;> rfl

theorem gather_ne_nil {ms : List Member} {fs : List Fragment} {props : Props} (h : props ≠ []) :
    gather config frame ms fs props ≠ [] := by
  induction ms generalizing fs props with
  | nil => exact h
  | cons m ms ih =>
    cases fs with
    | nil => exact h
    | cons f fs => exact ih (Fields.insert_ne_nil _ _ _)

theorem foldl_mergePart_eq_nil {fs : List Fragment} {merged : Props × Extras} :
    (fs.foldl mergePart merged).1 = [] ↔ merged.1 = [] ∧ ∀ f ∈ fs, f.props?.getD [] = [] := by
  induction fs generalizing merged with
  | nil => simp
  | cons f fs ih => simp [ih, mergePart, Fields.mergeNew_eq_nil, and_assoc]

theorem shows_members {obj : ObjectType} {name : Option String}
    (hs : table.shape? id = some (.object obj)) (hr : obj.role config = .interface name)
    (hfresh : ∀ n ∈ name, n ∉ ancestors) {fs : List Fragment}
    (hlength : (walked obj.members).length = fs.length) :
    Shows table config ancestors id ((membersPlan config obj frame optional).finish fs) := by
  have taken : ¬ table.PassedOver config ancestors id := by
    intro h
    obtain ⟨n, hn, hmem⟩ : ∃ n ∈ name, n ∈ ancestors := by simpa [hr] using h.by_shape hs
    exact hfresh n hn hmem
  have undeclared : walked obj.members = [] ↔ ∀ m ∈ obj.members, m.origin = .undeclared := by
    simp [walked]
  show Shows table config ancestors id (assemble config frame optional
    (gather config frame (walked obj.members) fs []) (annotations config frame obj.tags))
  cases hw : walked obj.members with
  | nil => exact .nothing (.interface hs hr hfresh (undeclared.1 hw)) taken
  | cons m ms =>
    rw [hw] at hlength
    obtain ⟨f, fs, rfl⟩ := List.exists_cons_of_length_eq_add_one hlength.symm
    have hprops : gather config frame (m :: ms) (f :: fs) [] ≠ [] := by
      unfold gather
      exact gather_ne_nil (Fields.insert_ne_nil _ _ _)
    refine .properties (by rwa [assemble_props hprops]) (fun h => ?_) taken
    obtain ⟨_, -, -, hall⟩ := h.by_shape hs
    rw [undeclared.2 hall] at hw
    cases hw

/-- An intersection shows nothing exactly if none of its parts that it does not pass over has
members. -/
theorem shows_intersection {types : List TypeId} {tags : List DocTag}
    (hs : table.shape? id = some (.intersection types tags)) {fs : List Fragment}
    (hfs : List.Forall₂ (Shows table config ancestors) types fs) :
    Shows table config ancestors id
      ((intersectionPlan config types tags frame optional).finish fs) := by
  have taken : ¬ table.PassedOver config ancestors id := fun h => h.by_shape hs
  have parts : (∀ f ∈ fs, f.props?.getD [] = []) ↔
      ∀ part ∈ types, ¬ table.PassedOver config ancestors part →
        table.Memberless config ancestors part := by
    clear hs taken
    induction hfs with
    | nil => simp
    | cons hf _ ih => rw [List.forall_mem_cons, List.forall_mem_cons, ih, hf.props_eq_nil_iff]
  show Shows table config ancestors id (assemble config frame optional
    (fs.foldl mergePart ([], [])).1 _)
  by_cases hprops : (fs.foldl mergePart ([], [])).1 = []
  · rw [hprops]
    exact .nothing (.intersection hs (parts.1 (foldl_mergePart_eq_nil.1 hprops).2)) taken
  · refine .properties (by rwa [assemble_props hprops]) (fun h => hprops ?_) taken
    exact foldl_mergePart_eq_nil.2 ⟨rfl, parts.2 (h.by_shape hs)⟩

/-! ## Unions -/

theorem unionPlan_sole_or_noObject {types : List TypeId}
    (hp : unionPlan table types frame optional = .ok p) :
    (∃ b mark, table.Sole types b ∧ p = .single ⟨b, frame, mark⟩) ∨
      (∀ b, ¬ table.Sole types b) ∧ ∀ fs, (p.finish fs).NoObject := by
  rcases unionPlan_cases hp with hsole | ⟨kind, mark, settled, rfl⟩ | ⟨kept, mark, hno, -, -, rfl⟩
  · exact .inl hsole
  · exact .inr ⟨settled.notSole, fun _ => (noObject_leaf _ _).optional _⟩
  · exact .inr ⟨hno, fun _ => (noObject_alternatives _).optional _⟩

theorem memberless_iff_of_soleBranch {b : TypeId} (h : table.SoleBranch id b) :
    table.Memberless config ancestors id ↔ table.Memberless config ancestors b := by
  refine ⟨fun hm => ?_, .branch h⟩
  obtain ⟨types, hs, hb⟩ := h
  obtain ⟨b', hb', hm⟩ := hm.by_shape hs
  exact hb'.unique hb ▸ hm

theorem passedOver_iff_of_soleBranch {b : TypeId} (h : table.SoleBranch id b) :
    table.PassedOver config ancestors id ↔ table.PassedOver config ancestors b := by
  refine ⟨fun ho => ?_, .branch h⟩
  obtain ⟨types, hs, hb⟩ := h
  rcases ho.by_shape hs with hnone | ⟨b', hb', ho⟩
  · exact absurd hb (hnone b)
  · exact hb'.unique hb ▸ ho

theorem Shows.of_soleBranch {b : TypeId} (h : table.SoleBranch id b)
    (hf : Shows table config ancestors b f) : Shows table config ancestors id f := by
  have hm : table.Memberless config ancestors id ↔ table.Memberless config ancestors b :=
    memberless_iff_of_soleBranch h
  have ho : table.PassedOver config ancestors id ↔ table.PassedOver config ancestors b :=
    passedOver_iff_of_soleBranch h
  cases hf with
  | nothing hm' ho' => exact .nothing (hm.2 hm') (mt ho.1 ho')
  | properties hf hm' ho' => exact .properties hf (mt hm.1 hm') (mt ho.1 ho')
  | other hf hm' ho' => exact .other hf (mt hm.1 hm') (ho.2 ho')

/-! ## Steps and walks -/

theorem noObject_of_arrayPlan {args : List TypeId}
    (hp : arrayPlan table config args frame optional = .ok p) (fs : List Fragment) :
    (p.finish fs).NoObject := by
  rcases arrayPlan_cases hp with rfl | ⟨-, ⟨id, -, rfl⟩ | ⟨-, q, -, rfl⟩⟩
  · exact (noObject_leaf _ _).optional _
  · exact (noObject_arrayOf _ _).optional _
  · exact (noObject_arrayOf _ _).optional _

theorem not_memberless_of_role {obj : ObjectType} (hs : table.shape? id = some (.object obj))
    {role : ObjectRole} (hr : obj.role config = role)
    (hrole : ∀ name, role = .interface name → ∃ n ∈ name, n ∈ ancestors) :
    ¬ table.Memberless config ancestors id := by
  intro h
  obtain ⟨name, hr', hfresh, -⟩ := h.by_shape hs
  obtain ⟨n, hn, hknown⟩ := hrole name (hr.symm.trans hr')
  exact hfresh n hn hknown

theorem shows_object {obj : ObjectType} (hs : table.shape? id = some (.object obj))
    (hp : objectPlan table config obj frame optional = .ok p) {fs : List Fragment}
    (hlength : p.visits.length = fs.length) :
    Shows table config frame.ancestors id (p.finish fs) := by
  rcases objectPlan_cases hp with ⟨type, hr, rfl⟩ | ⟨args, hr, ha⟩ | ⟨hr, rfl⟩ |
    ⟨name, hr, hknown, rfl⟩ | ⟨name, hr, hfresh, rfl⟩
  · exact .other ((noObject_leaf _ _).optional _) (not_memberless_of_role hs hr nofun)
      (.predefined hs hr)
  · exact .other (noObject_of_arrayPlan ha fs) (not_memberless_of_role hs hr nofun) (.array hs hr)
  · exact .other ((noObject_leaf _ _).optional _) (not_memberless_of_role hs hr nofun)
      (.dictionary hs hr)
  · refine .other ((noObject_leaf _ _).optional _) (not_memberless_of_role hs hr ?_)
      (.cycle hs hr hknown)
    rintro _ ⟨⟩
    exact ⟨name, rfl, hknown⟩
  · exact shows_members hs hr hfresh (by simpa [membersPlan] using hlength)

/-- A plan makes of schemas that show their types one that shows its own. -/
theorem shows_of_plan {v : Visit} (hp : plan table config v = .ok p) {fs : List Fragment}
    (hfs : List.Forall₂ (fun w f => Shows table config w.frame.ancestors w.id f) p.visits fs) :
    Shows table config v.frame.ancestors v.id (p.finish fs) := by
  obtain ⟨s, hs, -, hp⟩ := shapePlan_of_plan_ok hp
  cases s with
  | primitive type =>
    cases hp
    exact .other ((noObject_leaf _ _).optional _) (fun h => h.by_shape hs) (.primitive hs)
  | literal value =>
    cases hp
    exact .other ((noObject_leaf _ _).optional _) (fun h => h.by_shape hs) (.literal hs)
  | forbidden type =>
    cases hp
    exact .other (noObject_leaf _ _) (fun h => h.by_shape hs) (.forbidden hs)
  | object obj => exact shows_object hs hp hfs.length_eq
  | union types =>
    rcases unionPlan_sole_or_noObject hp with ⟨b, mark, hb, rfl⟩ | ⟨hnone, hother⟩
    · cases hfs with
      | cons hf hnil => exact hf.of_soleBranch ⟨types, hs, hb⟩
    · refine .other (hother fs) (fun h => ?_) (.union hs hnone)
      obtain ⟨b, hb, -⟩ := h.by_shape hs
      exact hnone b hb
  | intersection types tags =>
    cases hp
    have parts : List.Forall₂ (Shows table config v.frame.ancestors) types fs :=
      List.forall₂_map_left_iff (f := partVisit v.frame).1 hfs
    exact shows_intersection hs parts
  | enum types =>
    obtain ⟨f, hf, rfl⟩ := map_eq_ok.1 hp
    obtain ⟨values, -, hf⟩ := bind_eq_ok.1 hf
    cases hf
    exact .other ((noObject_leaf _ _).optional _) (fun h => h.by_shape hs) (.enum hs)
  | unsupported flags => cases hp

theorem shows_of_walk {steps : Nat} {v : Visit} (hf : v.walk table config steps = .ok f) :
    Shows table config v.frame.ancestors v.id f := by
  induction steps generalizing v f with
  | zero => cases hf
  | succ n ih =>
    rw [Visit.walk_succ] at hf
    obtain ⟨p, hp, hf⟩ := bind_eq_ok.1 hf
    obtain ⟨fs, hfs, rfl⟩ := map_eq_ok.1 hf
    exact shows_of_plan hp ((forall₂_of_mapM_ok hfs).imp fun w g hg => ih hg)

/-- Of what shows its type only the empty fragment renders to an empty object. -/
theorem Shows.toJson_eq_empty_iff (h : Shows table config ancestors id f) :
    (styleLeaves config f).toJson = .object [] ↔ f = .empty := by
  unfold styleLeaves
  cases h with
  | nothing => cases config.mode.leaves <;> exact iff_of_true rfl rfl
  | properties hf =>
    have hne : f ≠ .empty := by
      rintro rfl
      exact hf rfl
    cases config.mode.leaves with
    | typed => exact iff_of_false (toJson_ne_empty_of_props hf) hne
    | bare => exact iff_of_false (toJson_ne_empty_of_props (props_toBare_ne_nil hf)) hne
  | other hf =>
    cases config.mode.leaves with
    | typed => exact iff_of_false hf.toJson_ne_empty hf.2
    | bare => exact iff_of_false hf.toBare.toJson_ne_empty hf.2

end

end Walk

open Walk

/-- The schema of a type is empty exactly if it is an object without members, or an intersection of
nothing that has any: wherever the type stands, and as a whole. Nothing that an intersection passes
over has an empty schema. -/
theorem TypeTable.schema_empty_iff (table : TypeTable) (config : Config) :
    (∀ steps id frame optional f, walk table config steps id frame optional = .ok f →
      (f = .empty ↔ table.Memberless config frame.ancestors id) ∧
        (table.PassedOver config frame.ancestors id → f ≠ .empty)) ∧
    ∀ root additional f, table.schema config root additional = .ok f →
      (f.toJson = .object [] ↔ table.Memberless config [] root) := by
  constructor
  · intro steps id frame optional f hf
    have shows : Shows table config frame.ancestors id f :=
      shows_of_walk (v := ⟨id, frame, optional⟩) hf
    refine ⟨shows.eq_empty_iff, fun ho hempty => ?_⟩
    cases shows with
    | nothing _ h | properties _ _ h => exact h ho
    | other h => exact h.2 hempty
  · intro root additional f hf
    rw [schema_eq] at hf
    obtain ⟨g, hg, rfl⟩ := map_eq_ok.1 hf
    have shows : Shows table config [] root g := shows_of_walk hg
    rw [shows.toJson_eq_empty_iff, shows.eq_empty_iff]

/-- A string with a brand that has no members. -/
def brands : TypeTable where
  types := #[{ flags := [.string] }, { flags := [.object], symbol := some "Brand" },
    { flags := [.intersection], types := [0, 1] }]

/-- The branded string has an empty schema, and the string passed over in it has not. -/
theorem schema_empty_iff_brands :
    let config : Config := { maxDepth := 4 }
    let walked (id : TypeId) := walk brands config 3 id { additional := true } false
    ∃ f g h, walked 2 = .ok f ∧ (f = .empty ↔ brands.Memberless config [] 2) ∧
      walked 0 = .ok g ∧ brands.PassedOver config [] 0 ∧ g ≠ .empty ∧
      brands.schema config 2 true = .ok h ∧
      (h.toJson = .object [] ↔ brands.Memberless config [] 2) := by
  intro config walked
  obtain ⟨f, hf⟩ : ∃ f, walked 2 = .ok f := ⟨_, rfl⟩
  obtain ⟨g, hg⟩ : ∃ g, walked 0 = .ok g := ⟨_, rfl⟩
  obtain ⟨h, hh⟩ : ∃ h, brands.schema config 2 true = .ok h := ⟨_, rfl⟩
  have string : brands.shape? 0 = some (.primitive .string) := rfl
  have passed : brands.PassedOver config [] 0 := .primitive string
  have law := TypeTable.schema_empty_iff brands config
  exact ⟨f, g, h, hf, (law.1 3 2 _ false f hf).1, hg, passed, (law.1 3 0 _ false g hg).2 passed,
    hh, law.2 2 true h hh⟩

/-- An intersection may have an empty schema although one of its parts is a string, whose schema is
not empty. -/
theorem empty_of_string_part :
    let config : Config := { maxDepth := 4 }
    brands.shape? 2 = some (.intersection [0, 1] []) ∧
      brands.shape? 0 = some (.primitive .string) ∧
      brands.schema config 0 true = .ok (.primitive "string") ∧
      brands.schema config 2 true = .ok .empty := ⟨rfl, rfl, rfl, rfl⟩

end SchemaSynth
