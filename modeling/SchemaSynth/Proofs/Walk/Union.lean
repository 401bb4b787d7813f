import SchemaSynth.Proofs.Fragment.Parts
import SchemaSynth.Proofs.Walk.Descent

/-!
# Unions

Of the constituents of a union only some are branches of it: `undefined` makes the slot optional and
is gone, and of several boolean literals the first stands for `boolean`. `TypeTable.survivors` are
the branches by this rule, for each constituent by itself; the scan of the walk, which remembers
what it has seen, finds the same ones (`map_fst_branches`). `Unites` says what a union comes to for
each number and kind of branches, and `union_unites` that all unions of types of the table come to
that.
-/

namespace SchemaSynth

namespace TypeTable

def isUndefined (table : TypeTable) (id : TypeId) : Bool :=
  table.shape? id == some (.forbidden .undefined)

def isBooleanLiteral (table : TypeTable) (id : TypeId) : Bool :=
  (table.shape? id).any Walk.isBoolean

/-- The branches of a union: its constituents without `undefined` and without the boolean literals
that come after another one. -/
def survivors (table : TypeTable) (types : List TypeId) : List TypeId :=
  (types.filter fun id => !table.isUndefined id).eraseDupsBy fun id earlier =>
    table.isBooleanLiteral id && table.isBooleanLiteral earlier

/-- Types with their shapes, as far as they are in the table. -/
def withShapes (table : TypeTable) (types : List TypeId) : List (TypeId × TypeShape) :=
  types.filterMap fun id => (table.shape? id).map (id, ·)

section

variable {table : TypeTable} {id : TypeId} {types : List TypeId}

theorem isBooleanLiteral_iff :
    table.isBooleanLiteral id = true ↔ ∃ b, table.shape? id = some (.literal (.boolean b)) := by
  unfold isBooleanLiteral
  cases table.shape? id with
  | none => simp
  | some shape => simp [Walk.isBoolean_iff]

theorem isBooleanLiteral_of_isUndefined (h : table.isUndefined id = true) :
    table.isBooleanLiteral id = false := by
  have hs : table.shape? id = some (.forbidden .undefined) := by simpa [isUndefined] using h
  unfold isBooleanLiteral
  rw [hs]
  rfl

theorem eraseDupsBy_eq_self {α : Type} {r : α → α → Bool} {l : List α}
    (h : ∀ a ∈ l, ∀ b ∈ l, r a b = false) : l.eraseDupsBy r = l := by
  induction l with
  | nil => rfl
  | cons a l ih =>
    have hall : ∀ b ∈ l, decide (r b a = false) = true := by
      intro b hb
      simpa using h b (List.mem_cons_of_mem _ hb) a List.mem_cons_self
    have hrest := ih fun b hb c hc => h b (List.mem_cons_of_mem _ hb) c (List.mem_cons_of_mem _ hc)
    rw [List.eraseDupsBy_cons, List.filter_eq_self.2 hall, hrest]

theorem survivors_cons_undefined (h : table.isUndefined id = true) :
    table.survivors (id :: types) = table.survivors types := by
  simp [survivors, h]

theorem survivors_cons_boolean (hu : table.isUndefined id = false)
    (hb : table.isBooleanLiteral id = true) :
    table.survivors (id :: types) =
      id :: types.filter fun id => !table.isUndefined id && !table.isBooleanLiteral id := by
  unfold survivors
  rw [List.filter_cons_of_pos (by simp [hu]), List.eraseDupsBy_cons, eraseDupsBy_eq_self]
  · simp [hb, List.filter_filter, Bool.and_comm]
  · simp +contextual [hb]

theorem survivors_cons_other (hu : table.isUndefined id = false)
    (hb : table.isBooleanLiteral id = false) :
    table.survivors (id :: types) = id :: table.survivors types := by
  unfold survivors
  rw [List.filter_cons_of_pos (by simp [hu]), List.eraseDupsBy_cons]
  simp [hb]

theorem survivors_append_boolean {before after : List TypeId}
    (hb : table.isBooleanLiteral id = true)
    (hbefore : ∃ earlier ∈ before, table.isBooleanLiteral earlier = true) :
    table.survivors (before ++ id :: after) = table.survivors (before ++ after) := by
  induction before with
  | nil => simp at hbefore
  | cons first before ih =>
    rw [List.cons_append, List.cons_append]
    cases hu : table.isUndefined first with
    | true =>
      rw [survivors_cons_undefined hu, survivors_cons_undefined hu]
      have hfirst : table.isBooleanLiteral first = false := isBooleanLiteral_of_isUndefined hu
      exact ih (by simpa [hfirst] using hbefore)
    | false =>
      cases hfirst : table.isBooleanLiteral first with
      | true =>
        rw [survivors_cons_boolean hu hfirst, survivors_cons_boolean hu hfirst]
        simp [hb]
      | false =>
        rw [survivors_cons_other hu hfirst, survivors_cons_other hu hfirst, ih]
        simpa [hfirst] using hbefore

theorem withShapes_map_fst {shapes : List (TypeId × TypeShape)}
    (h : ∀ x ∈ shapes, table.shape? x.1 = some x.2) :
    table.withShapes (shapes.map Prod.fst) = shapes := by
  induction shapes with
  | nil => rfl
  | cons x rest ih =>
    obtain ⟨hx, hrest⟩ := List.forall_mem_cons.1 h
    unfold withShapes at ih ⊢
    rw [List.map_cons, List.filterMap_cons, hx, ih hrest]
    rfl

theorem exists_shapes (h : ∀ id ∈ types, id < table.size) :
    ∃ shapes : List (TypeId × TypeShape), shapes.map Prod.fst = types ∧
      ∀ x ∈ shapes, table.shape? x.1 = some x.2 := by
  induction types with
  | nil => exact ⟨[], rfl, List.forall_mem_nil _⟩
  | cons id types ih =>
    obtain ⟨hid, htypes⟩ := List.forall_mem_cons.1 h
    obtain ⟨shape, hs⟩ := exists_shape? hid
    obtain ⟨shapes, rfl, hshapes⟩ := ih htypes
    exact ⟨(id, shape) :: shapes, rfl, List.forall_mem_cons.2 ⟨hs, hshapes⟩⟩

end

end TypeTable

namespace Walk

section

variable {table : TypeTable} {shapes : List (TypeId × TypeShape)}

/-! ## The scan -/

theorem branches_cons {id : TypeId} {shape : TypeShape} (saw : Bool)
    (hu : shape ≠ .forbidden .undefined) (hb : isBoolean shape = false) :
    branches ((id, shape) :: shapes) saw = (id, shape) :: branches shapes saw := by
  conv_lhs => unfold branches
  split
  · exact absurd rfl hu
  · cases hb
  · rfl

/-- Once the scan has seen a boolean literal it passes over all others. -/
theorem map_fst_branches_true (h : ∀ x ∈ shapes, table.shape? x.1 = some x.2) :
    (branches shapes true).map Prod.fst =
      (shapes.map Prod.fst).filter fun id =>
        !table.isUndefined id && !table.isBooleanLiteral id := by
  induction shapes with
  | nil => rfl
  | cons x rest ih =>
    obtain ⟨hx, hrest⟩ := List.forall_mem_cons.1 h
    obtain ⟨id, shape⟩ := x
    have ih := ih hrest
    by_cases hu : shape = .forbidden .undefined
    · subst hu
      simpa [branches, TypeTable.isUndefined, hx] using ih
    cases hb : isBoolean shape with
    | true =>
      obtain ⟨b, rfl⟩ := isBoolean_iff.1 hb
      simpa [branches, TypeTable.isBooleanLiteral, isBoolean, hx] using ih
    | false =>
      rw [branches_cons true hu hb]
      simp [TypeTable.isUndefined, TypeTable.isBooleanLiteral, hx, hu, hb, ih]

theorem map_fst_branches (h : ∀ x ∈ shapes, table.shape? x.1 = some x.2) :
    (branches shapes false).map Prod.fst = table.survivors (shapes.map Prod.fst) := by
  induction shapes with
  | nil => rfl
  | cons x rest ih =>
    obtain ⟨hx, hrest⟩ := List.forall_mem_cons.1 h
    obtain ⟨id, shape⟩ := x
    have ih := ih hrest
    have boolean : table.isBooleanLiteral id = isBoolean shape := by
      simp [TypeTable.isBooleanLiteral, hx]
    rw [List.map_cons]
    by_cases hu : shape = .forbidden .undefined
    · subst hu
      rw [TypeTable.survivors_cons_undefined (by simp [TypeTable.isUndefined, hx])]
      exact ih
    have defined : table.isUndefined id = false := by simp [TypeTable.isUndefined, hx, hu]
    cases hb : isBoolean shape with
    | true =>
      rw [TypeTable.survivors_cons_boolean defined (boolean.trans hb),
        ← map_fst_branches_true hrest]
      obtain ⟨b, rfl⟩ := isBoolean_iff.1 hb
      rfl
    | false =>
      rw [TypeTable.survivors_cons_other defined (boolean.trans hb), ← ih,
        branches_cons false hu hb]
      rfl

end

/-! ## The merge -/

/-- The schema of a branch beside others: its own, a level deeper, or `boolean` for a literal. -/
def entryOf (table : TypeTable) (walk : TypeId → Frame → Bool → Except WalkError Fragment)
    (frame : Frame) (id : TypeId) : Except WalkError Fragment :=
  if table.isBooleanLiteral id then .ok (.primitive "boolean") else walk id frame.deeper false

/-- What a union of some branches comes to in a slot. -/
structure Unites (table : TypeTable) (walk : TypeId → Frame → Bool → Except WalkError Fragment)
    (frame : Frame) (optional : Bool) (kept : List TypeId) (result : Except WalkError Fragment) :
    Prop where
  none : kept = [] → result = .ok .forbidden
  boolean : ∀ id, kept = [id] → table.isBooleanLiteral id = true →
    result = .ok ((Fragment.primitive "boolean").optional optional)
  /-- Any other single branch is walked in the place of the union. -/
  sole : ∀ id, kept = [id] → table.isBooleanLiteral id = false → result = walk id frame optional
  values : 2 ≤ kept.length → ∀ values : List LiteralValue,
    List.Forall₂ (fun id value => table.shape? id = some (.literal value)) kept values →
    result = .ok ((Fragment.enumeration values).optional optional)
  /-- The mark is on the entries. -/
  list : 2 ≤ kept.length → (∃ id ∈ kept, ∀ value, table.shape? id ≠ some (.literal value)) →
    ∀ fs, List.Forall₂ (fun id f => entryOf table walk frame id = .ok f) kept fs →
    result = .ok (.alternatives (fs.map fun f => f.optional optional))
  /-- A list fails as the first of its entries that does. -/
  error : 2 ≤ kept.length → (∃ id ∈ kept, ∀ value, table.shape? id ≠ some (.literal value)) →
    ∀ e, result = .error e ↔ ∃ before id after, kept = before ++ id :: after ∧
      (∀ b ∈ before, ∃ f, entryOf table walk frame b = .ok f) ∧
      entryOf table walk frame id = .error e

section

variable {table : TypeTable} {walk : TypeId → Frame → Bool → Except WalkError Fragment}
  {frame : Frame} {optional : Bool} {kept : List (TypeId × TypeShape)}

theorem merge_of_two_le (h : 2 ≤ kept.length) :
    merge walk frame optional kept =
      match kept.mapM fun branch => branch.2.literal? with
      | some values => .ok ((Fragment.enumeration values).optional optional)
      | none => kept.mapM (alternative walk frame) >>= fun entries =>
          pure ((Fragment.alternatives entries).optional optional) := by
  match kept with
  | first :: second :: rest =>
    simp only [merge]
    cases (first :: second :: rest).mapM fun branch => branch.2.literal? <;> rfl

theorem optional_alternatives (fs : List Fragment) (mark : Bool) :
    (Fragment.alternatives fs).optional mark = .alternatives (fs.map fun f => f.optional mark) := by
  cases mark with
  | false => simp [Fragment.optional]
  | true =>
    show Fragment.alternatives (Fragment.markEntries fs) = _
    rw [Fragment.markEntries_eq]
    rfl

theorem alternative_eq_entryOf {x : TypeId × TypeShape} (hx : table.shape? x.1 = some x.2) :
    alternative walk frame x = entryOf table walk frame x.1 := by
  obtain ⟨id, shape⟩ := x
  have boolean : table.isBooleanLiteral id = isBoolean shape := by
    simp [TypeTable.isBooleanLiteral, hx]
  unfold entryOf
  rw [boolean]
  cases hb : isBoolean shape with
  | true =>
    obtain ⟨b, rfl⟩ := isBoolean_iff.1 hb
    rfl
  | false =>
    unfold alternative
    split
    · next hshape =>
      subst hshape
      cases hb
    · rfl

theorem map_snd_of_values {values : List LiteralValue}
    (hkept : ∀ x ∈ kept, table.shape? x.1 = some x.2)
    (h : List.Forall₂ (fun id value => table.shape? id = some (.literal value))
      (kept.map Prod.fst) values) : kept.map Prod.snd = values.map .literal := by
  induction kept generalizing values with
  | nil =>
    cases h
    rfl
  | cons x rest ih =>
    obtain ⟨hx, hrest⟩ := List.forall_mem_cons.1 hkept
    cases h with
    | cons hvalue hvalues =>
      rw [List.map_cons, List.map_cons, ih hrest hvalues]
      exact congrArg (· :: _) (Option.some.inj (hx.symm.trans hvalue))

theorem merge_eq_list (hkept : ∀ x ∈ kept, table.shape? x.1 = some x.2) (h : 2 ≤ kept.length)
    (hother : ∃ id ∈ kept.map Prod.fst, ∀ value, table.shape? id ≠ some (.literal value)) :
    merge walk frame optional kept =
      (fun fs => .alternatives (fs.map fun f => f.optional optional)) <$>
        (kept.map Prod.fst).mapM (entryOf table walk frame) := by
  have notAll : kept.mapM (fun branch => branch.2.literal?) = none := by
    refine Option.eq_none_iff_forall_ne_some.2 fun values hvalues => ?_
    obtain ⟨id, hid, hne⟩ := hother
    obtain ⟨x, hx, rfl⟩ := List.mem_map.1 hid
    have literal : x.2 ∈ values.map TypeShape.literal :=
      mapM_literal?_eq_some.1 hvalues ▸ List.mem_map_of_mem hx
    obtain ⟨value, -, hvalue⟩ := List.mem_map.1 literal
    exact hne value (hvalue ▸ hkept x hx)
  have entries : kept.mapM (alternative walk frame) =
      (kept.map Prod.fst).mapM (entryOf table walk frame) := by
    rw [List.mapM_map]
    exact mapM_congr fun x hx => alternative_eq_entryOf (hkept x hx)
  rw [merge_of_two_le h, notAll, entries]
  simp only [optional_alternatives]
  rfl

theorem unites_merge (hkept : ∀ x ∈ kept, table.shape? x.1 = some x.2) :
    Unites table walk frame optional (kept.map Prod.fst) (merge walk frame optional kept) where
  none h := by
    rw [List.map_eq_nil_iff.1 h]
    rfl
  boolean id h hb := by
    obtain ⟨⟨id, shape⟩, rest, rfl, rfl, hrest⟩ := List.map_eq_cons_iff.1 h
    obtain rfl := List.map_eq_nil_iff.1 hrest
    obtain ⟨b, hs⟩ := TypeTable.isBooleanLiteral_iff.1 hb
    obtain rfl : TypeShape.literal (.boolean b) = shape := by
      simpa [hkept _ List.mem_cons_self] using hs.symm
    rfl
  sole id h hb := by
    obtain ⟨⟨id, shape⟩, rest, rfl, rfl, hrest⟩ := List.map_eq_cons_iff.1 h
    obtain rfl := List.map_eq_nil_iff.1 hrest
    have hb : isBoolean shape = false := by
      simpa [TypeTable.isBooleanLiteral, hkept _ List.mem_cons_self] using hb
    rw [merge_eq]
    simp [mergePlan, hb]
  values h values hvalues := by
    rw [List.length_map] at h
    rw [merge_of_two_le h, mapM_literal?_eq_some.2 (map_snd_of_values hkept hvalues)]
  list h hother fs hfs := by
    rw [List.length_map] at h
    rw [merge_eq_list hkept h hother]
    exact map_eq_ok.2 ⟨fs, mapM_eq_ok.2 hfs, rfl⟩
  error h hother e := by
    rw [List.length_map] at h
    rw [merge_eq_list hkept h hother, map_eq_error]
    exact mapM_eq_error

theorem withShapes_survivors (h : ∀ x ∈ kept, table.shape? x.1 = some x.2) :
    table.withShapes (table.survivors (kept.map Prod.fst)) = branches kept false := by
  rw [← map_fst_branches h]
  exact TypeTable.withShapes_map_fst fun x hx => h x (mem_of_mem_branches hx)

theorem any_isUndefined (h : ∀ x ∈ kept, table.shape? x.1 = some x.2) :
    (kept.map Prod.fst).any table.isUndefined =
      kept.any fun branch => branch.2 == .forbidden .undefined := by
  rw [List.any_map, Bool.eq_iff_iff, List.any_eq_true, List.any_eq_true]
  refine exists_congr fun x => and_congr_right fun hx => ?_
  simp [TypeTable.isUndefined, h x hx]

/-- What a union comes to is a matter of its branches and of whether `undefined` is among its
constituents. -/
theorem union_eq_merge {types : List TypeId} (h : ∀ id ∈ types, id < table.size) :
    union table walk types frame optional =
      merge walk frame (optional || types.any table.isUndefined)
        (table.withShapes (table.survivors types)) := by
  obtain ⟨shapes, rfl, hshapes⟩ := TypeTable.exists_shapes h
  show constituents table (shapes.map Prod.fst) >>= _ = _
  rw [constituents_of_shapes hshapes, withShapes_survivors hshapes, any_isUndefined hshapes]
  rfl

end

/-- A union of types of the table comes to what its branches make of it, in a slot that is optional
if `undefined` is among its constituents. Where and how often that is does not matter, and neither
does a boolean literal that comes after another one. -/
theorem union_unites (table : TypeTable) (walk : TypeId → Frame → Bool → Except WalkError Fragment)
    {types : List TypeId} (h : ∀ id ∈ types, id < table.size) (frame : Frame) (optional : Bool) :
    Unites table walk frame (optional || types.any table.isUndefined) (table.survivors types)
        (union table walk types frame optional) ∧
      (∀ types', (∀ id ∈ types', id < table.size) →
        (types'.filter fun id => !table.isUndefined id) =
          (types.filter fun id => !table.isUndefined id) →
        types'.any table.isUndefined = types.any table.isUndefined →
        union table walk types' frame optional = union table walk types frame optional) ∧
      ∀ before id after, types = before ++ id :: after → table.isBooleanLiteral id = true →
        (∃ earlier ∈ before, table.isBooleanLiteral earlier = true) →
        union table walk (before ++ after) frame optional =
          union table walk types frame optional := by
  refine ⟨?_, fun types' h' hdefined hundefined => ?_, ?_⟩
  · rw [union_eq_merge h]
    obtain ⟨shapes, rfl, hshapes⟩ := TypeTable.exists_shapes h
    rw [withShapes_survivors hshapes, ← map_fst_branches hshapes]
    exact unites_merge fun x hx => hshapes x (mem_of_mem_branches hx)
  · rw [union_eq_merge h', union_eq_merge h, hundefined]
    unfold TypeTable.survivors
    rw [hdefined]
  · rintro before id after rfl hid hbefore
    have defined : table.isUndefined id = false := by
      cases hu : table.isUndefined id with
      | false => rfl
      | true => exact absurd hid (by simp [TypeTable.isBooleanLiteral_of_isUndefined hu])
    have without : ∀ x ∈ before ++ after, x < table.size := fun x hx => h x (by
      rcases List.mem_append.1 hx with hx | hx <;> simp [hx])
    rw [union_eq_merge without, union_eq_merge h, TypeTable.survivors_append_boolean hid hbefore]
    simp [defined]

/-- What may be said to a question: `true`, `false`, "maybe", some other text or nothing. -/
def answers : TypeTable where
  types := #[{ flags := [.string] }, { flags := [.undefined] },
    { flags := [.boolean, .literal], intrinsicName := some "true" },
    { flags := [.boolean, .literal], intrinsicName := some "false" },
    { flags := [.string, .literal], value := some (.string "maybe") }]

/-- An answer is a list of three optional entries, one of them for both truth values. -/
theorem union_unites_answers :
    let walked := walk answers {} 2
    let frame : Frame := { additional := true }
    let types := [1, 3, 0, 2, 4]
    let answer : Fragment := .alternatives [(Fragment.primitive "boolean").optional true,
      (Fragment.primitive "string").optional true,
      (Fragment.enumeration [.string "maybe"]).optional true]
    (∀ id ∈ types, id < answers.size) ∧ answers.survivors types = [3, 0, 4] ∧
      Unites answers walked frame (false || types.any answers.isUndefined)
        (answers.survivors types) (union answers walked types frame false) ∧
      union answers walked types frame false = .ok answer ∧
      union answers walked [3, 1, 0, 2, 1, 4] frame false = .ok answer ∧
      union answers walked [1, 3, 0, 4] frame false = .ok answer := by
  intro walked frame types answer
  have known : ∀ id ∈ types, id < answers.size := by decide
  have kept : answers.survivors types = [3, 0, 4] := rfl
  obtain ⟨unites, moved, dropped⟩ := union_unites answers walked known frame false
  have list : union answers walked types frame false = .ok answer := by
    have string : answers.shape? 0 = some (.primitive .string) := rfl
    have entries : List.Forall₂ (fun id f => entryOf answers walked frame id = .ok f) [3, 0, 4]
        [.primitive "boolean", .primitive "string", .enumeration [.string "maybe"]] :=
      .cons rfl (.cons rfl (.cons rfl .nil))
    rw [kept] at unites
    exact unites.list (by decide) ⟨0, by decide, by simp [string]⟩ _ entries
  exact ⟨known, kept, unites, list, (moved [3, 1, 0, 2, 1, 4] (by decide) rfl rfl).trans list,
    (dropped [1, 3, 0] 2 [4] rfl rfl ⟨3, by decide, rfl⟩).trans list⟩

end Walk

end SchemaSynth
