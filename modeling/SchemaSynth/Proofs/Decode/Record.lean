import SchemaSynth.Proofs.Decode.Format
import SchemaSynth.Table.Codec

/-!
# Records read and written

A record may come as an object or as an array, with fields left out or unknown. Of all of these it
is enough to know what a single visit does (`Raw.readRecord_preserves`). The fields that are written
for it come in the order of its layout, and none is left out that must be given: `Writes` says so
together with what visits make of them, and `Raw.readObject_of_writes` that they are read back.
-/

namespace SchemaSynth

section

variable {σ : Type} {source : Source} {layout : Raw.Layout}
  {visit : String → Raw → σ → Except ReadError σ}

/-! ## What every record has -/

namespace Raw

variable {I : σ → Prop}

theorem visitFields_preserves (hvisit : ∀ {key raw s t}, I s → visit key raw s = .ok t → I t)
    {fields : List (Option String × Raw)} {seen : List String} {s : σ} {r : σ × List String}
    (hs : I s) (h : visitFields source layout visit fields seen s = .ok r) : I r.1 := by
  induction fields generalizing seen s with
  | nil =>
    cases h
    exact hs
  | cons field rest ih =>
    obtain ⟨_ | key, raw⟩ := field
    · cases h
    · unfold visitFields at h
      split at h
      · split at h
        · cases h
        · obtain ⟨t, ht, h⟩ := bind_eq_ok.1 h
          exact ih (hvisit hs (Source.within_eq_ok.1 ht)) h
      · split at h
        · exact ih hs h
        · cases h

theorem visitItems_preserves (hvisit : ∀ {key raw s t}, I s → visit key raw s = .ok t → I t)
    {names : List String} {items : List Raw} {i : Nat} {s : σ} {r : σ × List Raw}
    (hs : I s) (h : visitItems source visit i names items s = .ok r) : I r.1 := by
  induction names generalizing items i s with
  | nil =>
    unfold visitItems at h
    cases h
    exact hs
  | cons name names ih =>
    cases items with
    | nil =>
      cases h
      exact hs
    | cons raw rest =>
      obtain ⟨t, ht, h⟩ := bind_eq_ok.1 h
      exact ih (hvisit hs (Source.within_eq_ok.1 ht)) h

/-- What the defaults have and every visit keeps, every record has, in whatever form it came. -/
theorem readRecord_preserves (hvisit : ∀ {key raw s t}, I s → visit key raw s = .ok t → I t)
    {start x : σ} (hstart : I start) {raw : Raw}
    (h : raw.readRecord source layout visit start = .ok x) : I x := by
  unfold readRecord at h
  split at h
  · obtain ⟨⟨s, seen⟩, hs, h⟩ := bind_eq_ok.1 h
    have hs := visitFields_preserves hvisit hstart hs
    dsimp only at h
    split at h
    · cases h
    · cases h
      exact hs
  · obtain ⟨⟨s, rest⟩, hs, h⟩ := bind_eq_ok.1 h
    have hs := visitItems_preserves hvisit hstart hs
    dsimp only at h
    split at h
    · cases h
    · split at h
      · cases h
        exact hs
      · cases h
  · cases h

end Raw

/-! ## What is written for a record -/

/-- Fields written for slots of a layout, in its order, whose visits take one state to another. A
slot is left out only if it may be. -/
inductive Writes (visit : String → Raw → σ → Except ReadError σ) :
    List (String × Bool) → Fields Json → σ → σ → Prop where
  | done (s : σ) : Writes visit [] [] s s
  | write {key : String} {required : Bool} {v : Json} {slots : List (String × Bool)}
      {fields : Fields Json} {s t u : σ} : visit key (Raw.ofJson v) s = .ok t →
      Writes visit slots fields t u →
      Writes visit ((key, required) :: slots) ((key, v) :: fields) s u
  | skip {key : String} {slots : List (String × Bool)} {fields : Fields Json} {s u : σ} :
      Writes visit slots fields s u → Writes visit ((key, false) :: slots) fields s u

namespace Writes

variable {slots : List (String × Bool)} {fields : Fields Json} {s u : σ}

theorem keys_subset (h : Writes visit slots fields s u) :
    Fields.keys fields ⊆ slots.map Prod.fst := by
  induction h with
  | done => exact List.nil_subset _
  | write _ _ ih => exact List.cons_subset_cons _ ih
  | skip _ ih => exact List.subset_cons_of_subset _ ih

theorem required (h : Writes visit slots fields s u) {key : String} (hkey : (key, true) ∈ slots) :
    key ∈ Fields.keys fields := by
  induction h with
  | done => cases hkey
  | write _ _ ih =>
    rcases List.mem_cons.1 hkey with heq | hkey
    · exact List.mem_cons.2 (.inl (congrArg Prod.fst heq))
    · exact List.mem_cons_of_mem _ (ih hkey)
  | skip _ ih =>
    rcases List.mem_cons.1 hkey with heq | hkey
    · cases heq
    · exact ih hkey

theorem visitFields (h : Writes visit slots fields s u) (hnames : ∀ slot ∈ slots,
    slot.1 ∈ layout.names) (hnodup : (slots.map Prod.fst).Nodup) {seen : List String}
    (hseen : ∀ slot ∈ slots, slot.1 ∉ seen) :
    Raw.visitFields source layout visit (Raw.ofFields fields) seen s =
      .ok (u, (Fields.keys fields).reverse ++ seen) := by
  induction h generalizing seen with
  | done => rfl
  | skip _ ih =>
    exact ih (List.forall_mem_cons.1 hnames).2 (List.nodup_cons.1 hnodup).2
      (List.forall_mem_cons.1 hseen).2
  | @write key required v slots fields s t u hvisit _ ih =>
    obtain ⟨hname, hnames⟩ := List.forall_mem_cons.1 hnames
    obtain ⟨hfresh, hnodup⟩ := List.nodup_cons.1 hnodup
    obtain ⟨hkey, hseen⟩ := List.forall_mem_cons.1 hseen
    -- The name of the slot does not come again.
    have hseen' : ∀ slot ∈ slots, slot.1 ∉ key :: seen := by
      intro slot hslot hmem
      rcases List.mem_cons.1 hmem with heq | hmem
      · exact hfresh (List.mem_map.2 ⟨slot, hslot, heq⟩)
      · exact hseen slot hslot hmem
    unfold Raw.ofFields Raw.visitFields
    rw [if_pos (by simpa using hname), if_neg (by simpa using hkey)]
    refine bind_eq_ok.2 ⟨t, Source.within_eq_ok.2 hvisit, ?_⟩
    rw [ih hnames hnodup hseen']
    simp [Fields.keys]

end Writes

/-- The fields that are written for a record are read as the record. -/
theorem Raw.readObject_of_writes {fields : Fields Json} {start x : σ}
    (h : Writes visit layout.fields fields start x) (hnodup : layout.names.Nodup) :
    (Raw.ofJson (.object fields)).readRecord source layout visit start = .ok x := by
  have hvisits : visitFields source layout visit (ofFields fields) [] start =
      .ok (x, (Fields.keys fields).reverse ++ []) :=
    h.visitFields (fun _ => List.mem_map_of_mem) hnodup fun _ _ => List.not_mem_nil
  have hmissing : layout.missing? (Fields.keys fields).reverse = none := by
    have hfind : layout.fields.find? (fun field =>
        field.2 && !(Fields.keys fields).reverse.contains field.1) = none := by
      refine List.find?_eq_none.2 fun ⟨key, required⟩ hslot => ?_
      cases required with
      | false => simp
      | true => simpa using h.required hslot
    rw [Layout.missing?, hfind]
    rfl
  refine bind_eq_ok.2 ⟨_, hvisits, ?_⟩
  simp only [List.append_nil, hmissing]
  rfl

/-! ## Fields by their formats -/

namespace Writes

variable {α : Type} {F : Format α} {key : String} {slots : List (String × Bool)}
  {fields : Fields Json} {s u : σ} (source : Source)

theorem field {x : α} (hx : F.Rereads x) {next : α → σ} {required : Bool}
    (hvisit : ∀ raw, visit key raw s = F.read source raw >>= fun y => pure (next y))
    (rest : Writes visit slots fields (next x) u) :
    Writes visit ((key, required) :: slots) ((key, F.toJson x) :: fields) s u :=
  .write ((hvisit _).trans (bind_pure_eq_ok.2 ⟨x, hx source, rfl⟩)) rest

theorem optional {x : Option α} (hx : F.option.Rereads x) {next : Option α → σ}
    (hvisit : ∀ raw, visit key raw s = F.option.read source raw >>= fun y => pure (next y))
    (hnone : next none = s) (rest : Writes visit slots fields (next x) u) :
    Writes visit ((key, false) :: slots) (optionalField key (x.map F.toJson) ++ fields) s u := by
  cases x with
  | none =>
    subst hnone
    exact .skip rest
  | some x => exact field source hx hvisit rest

theorem items {xs : List α} (hxs : F.list.Rereads xs) {next : List α → σ}
    (hvisit : ∀ raw, visit key raw s = F.list.read source raw >>= fun y => pure (next y))
    (hnil : next [] = s) (rest : Writes visit slots fields (next xs) u) :
    Writes visit ((key, false) :: slots) (listField key (xs.map F.toJson) ++ fields) s u := by
  cases xs with
  | nil =>
    subst hnil
    exact .skip rest
  | cons x xs => exact field source hxs hvisit rest

theorem entries {xs : Fields α} (hxs : F.map.Rereads xs)
    {next : Fields α → σ}
    (hvisit : ∀ raw, visit key raw s = F.map.read source raw >>= fun y => pure (next y))
    (hnil : next [] = s) (rest : Writes visit slots fields (next xs) u) :
    Writes visit ((key, false) :: slots)
      ((if xs.isEmpty then [] else [(key, F.map.toJson xs)]) ++ fields) s u := by
  cases xs with
  | nil =>
    subst hnil
    exact .skip rest
  | cons entry xs => exact field source hxs hvisit rest

end Writes

end

end SchemaSynth
