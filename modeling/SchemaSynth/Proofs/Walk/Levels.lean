import SchemaSynth.Proofs.Fragment.Levels
import SchemaSynth.Proofs.Walk.CycleCut
import SchemaSynth.Proofs.Walk.Kept

/-!
# The levels of a schema

A visit deeper than the limit fails, so a schema has no more levels than the limit allows: whatever
stands on a level below was visited there, or stands beside something that was. One thing has no
visit of its own. The items of an array of several types are a union of these, and one of literals
alone is a leaf that is made on the spot, one level below the array (`TypeTable.SettledArray`). Such
an array on the last level has items on the level after, which an array of a single type has not;
`Fits` says that nothing else goes that far.
-/

namespace SchemaSynth

open Relation (ReflTransGen)

/-- An array of several types whose union leaves nothing to walk: the array says what its items are
though none of these types is visited. -/
def TypeTable.SettledArray (table : TypeTable) (config : Config) (id : TypeId) : Prop :=
  config.mode.arrayItems ≠ .opaqueItems ∧
    ∃ obj args, table.shape? id = some (.object obj) ∧ obj.role config = .array args ∧
      2 ≤ args.length ∧ Walk.Settled table args

namespace Walk

/-- A schema at a depth has no more levels than the limit leaves there. With room to spare an array
on the last of them may have a leaf for its items. -/
def Fits (spare : Prop) (config : Config) (depth : Nat) (f : Fragment) : Prop :=
  ∃ n, depth + n = config.maxDepth ∧ f.FitsIn spare n

section

variable {spare : Prop} {table : TypeTable} {config : Config} {depth : Nat} {f : Fragment}
  {frame : Frame} {p : Plan}

namespace Fits

theorem depth_le (h : Fits spare config depth f) : depth ≤ config.maxDepth := by
  obtain ⟨n, hn, -⟩ := h
  exact hn ▸ Nat.le_add_right depth n

theorem imp {g : Fragment} (h : Fits spare config depth f)
    (hg : ∀ n, f.FitsIn spare n → g.FitsIn spare n) : Fits spare config depth g :=
  Exists.imp (fun n => And.imp_right (hg n)) h

theorem of_parts (hd : depth ≤ config.maxDepth)
    (h : ∀ g ∈ f.parts, Fits spare config (depth + 1) g) : Fits spare config depth f := by
  obtain ⟨n, hn⟩ := Nat.exists_eq_add_of_le hd
  refine ⟨n, hn.symm, ?_⟩
  cases n with
  | zero =>
    refine .inl (List.eq_nil_iff_forall_not_mem.2 fun g hg => ?_)
    have := (h g hg).depth_le
    omega
  | succ n =>
    intro g hg
    obtain ⟨m, hm, hfits⟩ := h g hg
    obtain rfl : m = n := by omega
    exact hfits

theorem optional (h : Fits spare config depth f) (mark : Bool) :
    Fits spare config depth (f.optional mark) :=
  h.imp fun _ hf => hf.optional mark

theorem leaf (hd : depth ≤ config.maxDepth) (kind : Leaf) (mark : Bool) :
    Fits spare config depth ((Fragment.leaf kind {}).optional mark) :=
  Fits.optional (of_parts hd (List.forall_mem_nil _)) mark

theorem withExtras (h : Fits spare config depth f) (extras : Extras) :
    Fits spare config depth (f.withExtras extras) :=
  h.imp fun _ hf => hf.withExtras extras

theorem annotateMember (h : Fits spare config depth f) (tags : List DocTag) :
    Fits spare config depth (annotateMember config frame tags f) := by
  unfold Walk.annotateMember
  split
  · exact h.withExtras _
  · exact h

theorem assemble (hd : frame.depth ≤ config.maxDepth) {props : Props}
    (h : ∀ entry ∈ props, Fits spare config (frame.depth + 1) entry.2) (mark : Bool)
    (extras : Extras) :
    Fits spare config frame.depth (assemble config frame mark props extras) := by
  have parts : ∀ g ∈ props.map Prod.snd, Fits spare config (frame.depth + 1) g :=
    List.forall_mem_map.2 h
  unfold Walk.assemble
  split
  · exact of_parts hd (List.forall_mem_nil _)
  split
  · exact of_parts hd parts
  · have object : Fits spare config frame.depth (.object props {}) := of_parts hd parts
    exact (object.optional _).withExtras _

end Fits

/-! ## Steps -/

variable {optional : Bool}

theorem fits_of_unionPlan {types : List TypeId}
    (hp : unionPlan table types frame optional = .ok p) :
    p.Keeps (Fits spare config) frame.depth ∨
      ∃ kind mark, Settled table types ∧ p = .done ((Fragment.leaf kind {}).optional mark) := by
  rcases unionPlan_cases hp with ⟨b, mark, -, rfl⟩ | hleaf | ⟨kept, mark, -, -, hne, rfl⟩
  · exact .inl (.single _)
  · exact .inr hleaf
  · refine .inl fun fs hfs => ?_
    have fits : ∀ f ∈ fs, Fits spare config (frame.depth + 1) f :=
      forall_mem_of_visits hfs fun _ => rfl
    -- One entry is visited, so the level of the entries is within the limit.
    have within : frame.depth + 1 ≤ config.maxDepth := by
      obtain ⟨branch, rest, hbranch⟩ := List.exists_cons_of_ne_nil hne
      simp only [hbranch, List.map_cons] at hfs
      cases hfs with
      | cons hf _ => exact Fits.depth_le hf
    have entries := forall_mem_entries kept (Fits.leaf within (.primitive "boolean") false)
      (Fits.of_parts within (List.forall_mem_nil _)) fits
    have list : Fits spare config frame.depth (.alternatives (Walk.entries kept fs)) :=
      .of_parts (Nat.le_of_succ_le within) entries
    exact list.optional mark

theorem fits_of_arrayPlan {args : List TypeId} (hd : frame.depth ≤ config.maxDepth)
    (hspare : config.mode.arrayItems ≠ .opaqueItems → 2 ≤ args.length → Settled table args → spare)
    (hp : arrayPlan table config args frame optional = .ok p) :
    p.Keeps (Fits spare config) frame.depth := by
  have items (f : Fragment) (hf : Fits spare config (frame.depth + 1) f) :
      Fits spare config frame.depth (arrayOf optional f) := by
    have array : Fits spare config frame.depth (.arrayOf f {}) :=
      .of_parts hd (List.forall_mem_singleton.2 hf)
    exact array.optional optional
  rcases arrayPlan_cases hp with rfl | ⟨tracked, ⟨id, rfl, rfl⟩ | ⟨two, q, hq, rfl⟩⟩
  · exact .done (.leaf hd _ _)
  · exact (Plan.Keeps.single _).map items
  · rcases fits_of_unionPlan hq with hkeeps | ⟨kind, mark, settled, rfl⟩
    · exact Plan.Keeps.map hkeeps items
    · have room := hspare tracked two settled
      refine Plan.Keeps.done (f := arrayOf optional _) ?_
      rcases Nat.lt_or_eq_of_le hd with hlt | heq
      · exact items _ (.leaf hlt kind mark)
      · refine Fits.optional ⟨0, heq, .inr ⟨room, ?_⟩⟩ optional
        cases mark with
        | false => exact ⟨kind, _, _, rfl⟩
        | true => cases kind <;> exact ⟨_, _, _, rfl⟩

theorem fits_of_membersPlan {obj : ObjectType} (hd : frame.depth ≤ config.maxDepth) :
    (membersPlan config obj frame optional).Keeps (Fits spare config) frame.depth := by
  intro fs hfs
  have fits : ∀ f ∈ fs, Fits spare config (frame.depth + 1) f :=
    forall_mem_of_visits hfs fun _ => rfl
  exact Fits.assemble hd
    (forall_mem_gather (fun tags _ hf => hf.annotateMember tags) (List.forall_mem_nil _) fits) _ _

theorem fits_of_intersectionPlan {types : List TypeId} {tags : List DocTag}
    (hd : frame.depth ≤ config.maxDepth) :
    (intersectionPlan config types tags frame optional).Keeps (Fits spare config) frame.depth := by
  intro fs hfs
  have fits : ∀ f ∈ fs, Fits spare config (frame.depth + 1) f :=
    forall_mem_of_visits hfs fun _ => rfl
  have props (f : Fragment) (hf : Fits spare config (frame.depth + 1) f) :
      ∀ entry ∈ f.props?.getD [], Fits spare config (frame.depth + 1) entry.2 :=
    fun _ hentry => hf.imp fun _ hf => hf.props hentry
  exact Fits.assemble hd (forall_mem_foldl_mergePart props (List.forall_mem_nil _) fits) _ _

theorem fits_of_plan {v : Visit} (hp : plan table config v = .ok p)
    (hspare : table.SettledArray config v.id → spare) :
    p.Keeps (Fits spare config) v.frame.depth := by
  obtain ⟨s, hs, hd, hp⟩ := shapePlan_of_plan_ok hp
  refine .of_shapePlan hs hp (fun mark _ => .leaf hd _ mark) (fun types hq => ?_) ?_ ?_ ?_
  · rcases fits_of_unionPlan hq with hkeeps | ⟨kind, mark, -, rfl⟩
    · exact hkeeps
    · exact .done (.leaf hd kind mark)
  · rintro obj args q rfl hr hq
    exact fits_of_arrayPlan hd
      (fun tracked two settled => hspare ⟨tracked, obj, args, hs, hr, two, settled⟩) hq
  · rintro obj frame - hdepth
    exact fits_of_membersPlan (hdepth ▸ hd)
  · rintro types tags -
    exact fits_of_intersectionPlan hd

/-! ## Walks -/

theorem fits_of_walk {root : TypeId}
    (hspare : ∀ id, ReflTransGen (table.Refers config) root id →
      table.SettledArray config id → spare)
    {steps : Nat} {v : Visit} (hv : ReflTransGen (table.Refers config) root v.id)
    (hf : v.walk table config steps = .ok f) : Fits spare config v.frame.depth f := by
  induction steps generalizing v f with
  | zero => cases hf
  | succ n ih =>
    rw [Visit.walk_succ] at hf
    obtain ⟨p, hp, hf⟩ := bind_eq_ok.1 hf
    obtain ⟨fs, hfs, rfl⟩ := map_eq_ok.1 hf
    refine fits_of_plan hp (hspare v.id hv) fs ?_
    have visits := (List.forall₂_and_left _ _).2
      ⟨fun w hw => below_of_mem_visits hp hw, forall₂_of_mapM_ok hfs⟩
    exact visits.imp fun w g ⟨below, hg⟩ => ih (hv.tail below.mem) hg

/-- A schema keeps within the limit. There may be room to spare only where leaves are typed. -/
theorem fits_of_schema {root : TypeId} {additional : Bool}
    (h : table.schema config root additional = .ok f) :
    Fits (config.mode.leaves = .typed ∧
      ∃ id, ReflTransGen (table.Refers config) root id ∧ table.SettledArray config id)
      config 0 f := by
  rw [schema_eq] at h
  obtain ⟨f, hf, rfl⟩ := map_eq_ok.1 h
  let spare := ∃ id, ReflTransGen (table.Refers config) root id ∧ table.SettledArray config id
  have hspare : ∀ id, ReflTransGen (table.Refers config) root id →
      table.SettledArray config id → spare := fun id hid harray => ⟨id, hid, harray⟩
  obtain ⟨n, hn, fits⟩ := fits_of_walk hspare .refl hf
  refine ⟨n, hn, ?_⟩
  unfold styleLeaves
  cases config.mode.leaves with
  | typed => simpa using fits
  | bare => simpa using fits.toBare

/-- Nothing is visited for the items of an array whose types leave nothing to walk. -/
theorem plan_of_settledArray {v : Visit} (h : table.SettledArray config v.id)
    (hd : v.frame.depth ≤ config.maxDepth) :
    ∃ items, plan table config v = .ok (.done (arrayOf v.optional items)) := by
  obtain ⟨tracked, obj, args, hs, hr, two, settled⟩ := h
  obtain ⟨kind, mark, hunion⟩ := unionPlan_of_settled settled v.frame.deeper false
  have harray : arrayPlan table config args v.frame v.optional =
      .ok (.done (arrayOf v.optional ((Fragment.leaf kind {}).optional mark))) := by
    match args, two, hunion with
    | _ :: _ :: _, _, hunion =>
      unfold arrayPlan
      rw [if_neg tracked, hunion]
      rfl
  refine ⟨_, Eq.trans ?_ harray⟩
  rw [plan_eq_shapePlan hs hd]
  show objectPlan table config obj v.frame v.optional = _
  unfold objectPlan
  rw [hr]

/-- Such an array has a level below it even where the limit allows none. -/
theorem schema_of_settledArray {id : TypeId} (h : table.SettledArray config id)
    (htyped : config.mode.leaves = .typed) (additional : Bool) :
    ∃ items,
      table.schema { config with maxDepth := 0 } id additional = .ok (.arrayOf items {}) := by
  let shallow : Config := { config with maxDepth := 0 }
  let top : Visit := .root id additional
  obtain ⟨items, hplan⟩ : ∃ items, plan table shallow top = .ok (.done (.arrayOf items {})) :=
    plan_of_settledArray h (Nat.le_refl 0)
  have hwalk : top.walk table shallow 1 = .ok (.arrayOf items {}) := by
    rw [Visit.walk_succ, hplan]
    rfl
  refine ⟨items, ?_⟩
  rw [schema_eq_walk (ends_of_ok hwalk), hwalk]
  unfold styleLeaves
  rw [htyped]
  rfl

end

end Walk

open Walk

/-- No schema has more levels than the limit allows, but for a leaf on the level after, for the
items of an array of several types of which none is visited. All schemas of a table keep within
their limits exactly if leaves are bare or there is no such array. -/
theorem TypeTable.level_le_maxDepth (table : TypeTable) (config : Config) :
    (∀ root additional f, table.schema config root additional = .ok f → ∀ n, ∀ g ∈ f.level n,
      n ≤ config.maxDepth ∨
        n = config.maxDepth + 1 ∧ (∃ kind marks, g = .leaf kind marks) ∧
          (∃ own, .arrayOf g own ∈ f.level config.maxDepth) ∧
          ∃ id, ReflTransGen (table.Refers config) root id ∧ table.SettledArray config id) ∧
    ((∀ limit root additional f,
        table.schema { config with maxDepth := limit } root additional = .ok f →
        ∀ n, f.level n ≠ [] → n ≤ limit) ↔
      config.mode.leaves = .bare ∨ ∀ id, ¬ table.SettledArray config id) := by
  refine ⟨fun root additional f hf n g hg => ?_, fun h => ?_,
    fun h limit root additional f hf n hn => ?_⟩
  · obtain ⟨levels, hlevels, fits⟩ := fits_of_schema hf
    obtain rfl : levels = config.maxDepth := (Nat.zero_add levels).symm.trans hlevels
    exact (fits.of_mem_level hg).imp_right fun ⟨hn, spare, hleaf, harray⟩ =>
      ⟨hn, hleaf, harray, spare.2⟩
  · cases htyped : config.mode.leaves with
    | bare => exact .inl rfl
    | typed =>
      refine .inr fun id harray => ?_
      obtain ⟨items, hschema⟩ := schema_of_settledArray harray htyped true
      have := h 0 id true _ hschema 1 (List.cons_ne_nil items [])
      omega
  · obtain ⟨levels, hlevels, fits⟩ := fits_of_schema hf
    obtain rfl : levels = limit := (Nat.zero_add levels).symm.trans hlevels
    obtain ⟨g, hg⟩ := List.exists_mem_of_ne_nil _ hn
    rcases fits.of_mem_level hg with hle | ⟨-, ⟨htyped, id, -, harray⟩, -⟩
    · exact hle
    · rcases h with hbare | hno
      · cases hbare.symm.trans htyped
      · exact absurd harray (hno id)

/-! ## Votes -/

/-- Two words, an array of both and one of the first alone, and a poll with votes for either. -/
def votes : TypeTable where
  types := #[{ flags := [.string, .literal], value := some (.string "yes") },
    { flags := [.string, .literal], value := some (.string "no") },
    { flags := [.object, .array], symbol := some "Array", typeArguments := [0, 1] },
    { flags := [.object, .array], symbol := some "Array", typeArguments := [0] },
    { flags := [.object], symbol := some "Poll", members := [{ name := "votes", type := 2 }] }]

/-- Where the limit allows no level below the top, the array of both words has one all the same; the
array of one word is too deep there. -/
theorem votes_exceed_maxDepth :
    let config : Config := { maxDepth := 0 }
    let items : Fragment := .enumeration [.string "yes", .string "no"]
    (votes.schema config 2 false = .ok (.arrayOf items {}) ∧
      items ∈ (Fragment.arrayOf items {}).level 1) ∧
    votes.schema config 3 false = .error (.depthLimit 0 0) ∧
    ¬ ∀ (table : TypeTable) (config : Config) root additional f,
      table.schema config root additional = .ok f →
      ∀ n, ∀ g ∈ f.level n, n ≤ config.maxDepth := by
  intro config items
  have hschema : votes.schema config 2 false = .ok (.arrayOf items {}) := rfl
  have hlevel : items ∈ (Fragment.arrayOf items {}).level 1 := List.mem_singleton.2 rfl
  refine ⟨⟨hschema, hlevel⟩, rfl, fun h => ?_⟩
  exact absurd (h _ _ _ _ _ hschema 1 items hlevel) (by decide)

/-- The votes of a poll are one level below the limit, as they are an array of two words; where
arrays do not say what their items are no schema goes below its limit. -/
theorem level_le_maxDepth_votes :
    let config : Config := { maxDepth := 1 }
    let untracked : Config := { mode := { arrayItems := .opaqueItems } }
    let items : Fragment := .enumeration [.string "yes", .string "no"]
    let f : Fragment := .flat [("votes", .arrayOf items {})] []
    votes.schema config 4 false = .ok f ∧ items ∈ f.level 2 ∧
    (2 ≤ 1 ∨ 2 = 1 + 1 ∧ (∃ kind marks, items = .leaf kind marks) ∧
      (∃ own, .arrayOf items own ∈ f.level 1) ∧
      ∃ id, ReflTransGen (votes.Refers config) 4 id ∧ votes.SettledArray config id) ∧
    ∀ limit root additional f,
      votes.schema { untracked with maxDepth := limit } root additional = .ok f →
      ∀ n, f.level n ≠ [] → n ≤ limit := by
  intro config untracked items f
  have hschema : votes.schema config 4 false = .ok f := rfl
  have hlevel : items ∈ f.level 2 := List.mem_singleton.2 rfl
  exact ⟨hschema, hlevel,
    (TypeTable.level_le_maxDepth votes config).1 4 false f hschema 2 items hlevel,
    (TypeTable.level_le_maxDepth votes untracked).2.2 (.inr fun id harray => harray.1 rfl)⟩

end SchemaSynth
