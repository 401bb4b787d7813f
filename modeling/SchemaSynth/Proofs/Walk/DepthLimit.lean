import SchemaSynth.Proofs.Walk.InStep

/-!
# The depth limit

The limit on nesting decides whether a type has a schema, never which one. Of two walks in like
places the one with more room, under a larger limit or nearer to the top, ends as the other one does
unless that one got too deep (`walk_agree_of_room`).
-/

namespace SchemaSynth

namespace Walk

/-- The error is that of a walk that got too deep. -/
def TooDeep (e : WalkError) : Prop := ∃ id limit, e = .depthLimit id limit

/-- A place like the first, no deeper, where objects are written alike. -/
structure Frame.Raised (config : Config) (frame frame' : Frame) : Prop where
  ancestors : frame'.ancestors = frame.ancestors
  additional : frame'.additional = frame.additional
  depth : frame'.depth ≤ frame.depth
  flat : writesFlat config frame' = writesFlat config frame

section

variable {table : TypeTable} {config : Config} {frame frame' : Frame} {m m' : Nat} {v w : Visit}

theorem writesFlat_deeper (config : Config) (frame : Frame) :
    writesFlat config frame.deeper = (config.mode.objects == .flat) := by
  simp [writesFlat, Frame.deeper]

namespace Frame.Raised

theorem deeper (h : Frame.Raised config frame frame') :
    Frame.Raised config frame.deeper frame'.deeper where
  ancestors := h.ancestors
  additional := h.additional
  depth := Nat.succ_le_succ h.depth
  flat := by rw [writesFlat_deeper, writesFlat_deeper]

theorem enter (h : Frame.Raised config frame frame') (name : String) :
    Frame.Raised config (frame.enter name) (frame'.enter name) where
  ancestors := congrArg (name :: ·) h.ancestors
  additional := h.additional
  depth := h.depth
  flat := h.flat

theorem writesAlike (h : Frame.Raised config frame frame') (m m' : Nat) :
    WritesAlike { config with maxDepth := m } { config with maxDepth := m' } frame frame' where
  annotates := by
    unfold annotates
    rw [h.additional]
  flat := h.flat

end Frame.Raised

theorem parallel_of_raised (table : TypeTable) (config : Config) (m m' : Nat) :
    Parallel table { config with maxDepth := m } { config with maxDepth := m' } (fun _ => True)
      (Frame.Raised config) Eq where
  closed _ _ _ _ := trivial
  arrayItems := rfl
  role _ := rfl
  deeper h := h.deeper
  known h _ _ := by rw [h.ancestors]
  enter name h := h.enter name
  empty := rfl
  leaf _ _ := rfl
  items optional _ h := congrArg (arrayOf optional) h
  alternatives optional h := by rw [List.forall₂_eq_eq_eq] at h; rw [h]
  members optional _ h fs gs hfs := by
    rw [List.forall₂_eq_eq_eq] at hfs
    subst hfs
    exact ((h.writesAlike m m').members _ optional fs).symm
  intersection optional _ h fs gs hfs := by
    rw [List.forall₂_eq_eq_eq] at hfs
    subst hfs
    exact ((h.writesAlike m m').intersection _ _ optional fs).symm

theorem plan_agree_of_room (hle : m ≤ m') (h : v.Beside (Frame.Raised config) w) :
    Agree TooDeep (Plan.Agree (Visit.Beside (Frame.Raised config)) Eq)
      (plan table { config with maxDepth := m } v)
      (plan table { config with maxDepth := m' } w) := by
  have hdepth := h.frame.depth
  unfold plan
  rw [h.id]
  cases hs : shape table v.id with
  | error e => exact .error e
  | ok s =>
    show Agree _ _ (if v.frame.depth > m then _ else _) (if w.frame.depth > m' then _ else _)
    by_cases hv : v.frame.depth > m
    · rw [if_pos hv]
      exact .skip ⟨v.id, m, rfl⟩
    · have hw : ¬ w.frame.depth > m' := by omega
      rw [if_neg hv, if_neg hw]
      have parallel := parallel_of_raised table config m m'
      exact (parallel.shapePlan h trivial (shape_eq_ok.1 hs)).mono fun _ => False.elim

/-- With more room a walk ends alike, unless it got too deep with less. -/
theorem walk_agree_of_room (hle : m ≤ m') (h : v.Beside (Frame.Raised config) w) (steps : Nat) :
    Agree TooDeep Eq (v.walk table { config with maxDepth := m } steps)
      (w.walk table { config with maxDepth := m' } steps) :=
  walk_agree 0 (fun _ _ h => h.id ▸ .error _) (fun _ _ h => plan_agree_of_room hle h) steps h

/-- With a larger limit a walk does the same, up to where it went too deep. -/
theorem walk_agree_of_depth_le (hle : m ≤ m') (v : Visit) (steps : Nat) :
    Agree TooDeep Eq (v.walk table { config with maxDepth := m } steps)
      (v.walk table { config with maxDepth := m' } steps) :=
  walk_agree_of_room hle ⟨rfl, rfl, rfl, rfl, Nat.le_refl _, rfl⟩ steps

theorem budget_mono (table : TypeTable) (config : Config) (hle : m ≤ m') :
    budget table { config with maxDepth := m } ≤ budget table { config with maxDepth := m' } :=
  Nat.mul_le_mul_right _ (Nat.add_le_add_right hle 2)

/-- What a walk ends with under a limit, but for being too deep, it ends with under a larger one,
each within its own budget. -/
theorem walk_budget_of_depth_le (hle : m ≤ m')
    (hends : Ends (v.walk table { config with maxDepth := m }
      (budget table { config with maxDepth := m })))
    (hdeep : ∀ e, v.walk table { config with maxDepth := m }
      (budget table { config with maxDepth := m }) = .error e → ¬ TooDeep e) :
    v.walk table { config with maxDepth := m' } (budget table { config with maxDepth := m' }) =
      v.walk table { config with maxDepth := m } (budget table { config with maxDepth := m }) := by
  have deeper := (walk_agree_of_depth_le hle v _).eq_of_eq hdeep
  -- It has ended by then, so the larger budget is not needed.
  rw [← deeper] at hends ⊢
  exact walk_more_steps hends (budget_mono table config hle)

/-- Walks with schemas have the same one, however deep they stand, if objects are written alike. -/
theorem schema_unique_of_raised (h : v.Beside (Frame.Raised config) w) {steps steps' : Nat}
    {f g : Fragment} (hf : v.walk table config steps = .ok f)
    (hg : w.walk table config steps' = .ok g) : f = g := by
  let all := max steps steps'
  have hf' : v.walk table config all = .ok f :=
    (walk_more_steps (ends_of_ok hf) (Nat.le_max_left ..)).trans hf
  have hg' : w.walk table config all = .ok g :=
    (walk_more_steps (ends_of_ok hg) (Nat.le_max_right ..)).trans hg
  have agree : Agree TooDeep Eq (v.walk table config all) (w.walk table config all) :=
    walk_agree_of_room (Nat.le_refl _) h all
  rw [hf', hg'] at agree
  cases agree with
  | ok hfg => exact hfg

theorem Frame.raised_of_depth_le (ancestors : List String) (additional : Bool) {depth depth' : Nat}
    (hle : depth' ≤ depth) (h : config.mode.objects = .flat ∨ 1 ≤ depth ∧ 1 ≤ depth') :
    Frame.Raised config ⟨ancestors, depth, additional⟩ ⟨ancestors, depth', additional⟩ where
  ancestors := rfl
  additional := rfl
  depth := hle
  flat := by
    unfold writesFlat
    rcases h with h | ⟨h, h'⟩
    · simp [h]
    · have hd : (depth == 0) = false := by simpa using Nat.ne_of_gt h
      have hd' : (depth' == 0) = false := by simpa using Nat.ne_of_gt h'
      simp [hd, hd']

end

end Walk

open Walk

/-- The depth limit is a guard and nothing else. What a type ends with under a limit, but for being
too deep, it ends with under any larger one; and where a walk has a schema at two depths, both below
the top or both in flat mode, it is the same schema. -/
theorem TypeTable.depth_limit_only_guards (table : TypeTable) (config : Config)
    (additional : Bool) :
    (∀ root m m', m ≤ m' →
      Ends (table.schema { config with maxDepth := m } root additional) →
      (∀ id limit, table.schema { config with maxDepth := m } root additional ≠
        .error (.depthLimit id limit)) →
      table.schema { config with maxDepth := m' } root additional =
        table.schema { config with maxDepth := m } root additional) ∧
    ∀ id ancestors optional depth depth',
      config.mode.objects = .flat ∨ 1 ≤ depth ∧ 1 ≤ depth' →
      ∀ steps steps' f g,
        walk table config steps id ⟨ancestors, depth, additional⟩ optional = .ok f →
        walk table config steps' id ⟨ancestors, depth', additional⟩ optional = .ok g → f = g := by
  constructor
  · intro root m m' hle hends hdeep
    rw [schema_eq, ends_map] at hends
    rw [schema_eq, schema_eq, walk_budget_of_depth_le hle hends]
    · rfl
    · rintro e he ⟨id, limit, rfl⟩
      refine hdeep id limit ?_
      rw [schema_eq]
      exact map_eq_error.2 he
  · intro id ancestors optional depth depth' hwrites steps steps' f g hf hg
    let v : Visit := ⟨id, ⟨ancestors, depth, additional⟩, optional⟩
    let w : Visit := ⟨id, ⟨ancestors, depth', additional⟩, optional⟩
    rcases Nat.le_total depth' depth with hle | hle
    · have beside : v.Beside (Frame.Raised config) w :=
        ⟨rfl, rfl, Frame.raised_of_depth_le ancestors additional hle hwrites⟩
      exact schema_unique_of_raised beside hf hg
    · have beside : w.Beside (Frame.Raised config) v :=
        ⟨rfl, rfl, Frame.raised_of_depth_le ancestors additional hle (hwrites.imp_right And.symm)⟩
      exact (schema_unique_of_raised beside hg hf).symm

/-- A path is a list of points. -/
def paths : TypeTable where
  types := #[{ flags := [.number] },
    { flags := [.object], symbol := some "Point",
      members := [{ name := "x", type := 0 }, { name := "y", type := 0, optional := true }] },
    { flags := [.object, .array], symbol := some "Array", typeArguments := [1] }]

/-- A path is two levels deep, and the schema of a point is the same on all levels below the top. -/
theorem depth_limit_only_guards_paths :
    let config (maxDepth : Nat) : Config := { maxDepth }
    let point (depth : Nat) := walk paths {} 3 1 ⟨["Path"], depth, true⟩ false
    (2 ≤ 8 ∧ Ends (paths.schema (config 2) 2 true) ∧
      (∀ id limit, paths.schema (config 2) 2 true ≠ .error (.depthLimit id limit)) ∧
      paths.schema (config 8) 2 true = paths.schema (config 2) 2 true) ∧
    ∃ f g, (1 ≤ 1 ∧ 1 ≤ 6) ∧ point 1 = .ok f ∧ point 6 = .ok g ∧ f = g := by
  intro config point
  obtain ⟨path, hpath⟩ : ∃ f, paths.schema (config 2) 2 true = .ok f := ⟨_, rfl⟩
  obtain ⟨f, hf⟩ : ∃ f, point 1 = .ok f := ⟨_, rfl⟩
  obtain ⟨g, hg⟩ : ∃ g, point 6 = .ok g := ⟨_, rfl⟩
  have ends : Ends (paths.schema (config 2) 2 true) := by
    intro id h
    rw [hpath] at h
    cases h
  have shallow : ∀ id limit, paths.schema (config 2) 2 true ≠ .error (.depthLimit id limit) := by
    intro id limit h
    rw [hpath] at h
    cases h
  have law := TypeTable.depth_limit_only_guards paths {} true
  refine ⟨⟨by decide, ends, shallow, ?_⟩, f, g, by decide, hf, hg, ?_⟩
  · exact law.1 2 2 8 (by decide) ends shallow
  · exact law.2 1 ["Path"] false 1 6 (.inr (by decide)) 3 3 f g hf hg

end SchemaSynth
