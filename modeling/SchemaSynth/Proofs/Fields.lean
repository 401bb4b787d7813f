import Mathlib.Data.List.Forall2
import Mathlib.Data.Option.Basic
import SchemaSynth.Fields

/-!
# Lookup in fields

What is found under a name after fields were inserted, merged or mapped, and where it came from.
`Fields.Aligned` relates two maps with the same names in the same order, value by value.
-/

namespace SchemaSynth.Fields

variable {α β : Type} {fields more : Fields α} {key : String} {value : α}

/-! ## Where entries come from -/

theorem mem_insert {entry : String × α} (h : entry ∈ insert fields key value) :
    entry ∈ fields ∨ entry = (key, value) := by
  induction fields with
  | nil => exact .inr (List.mem_singleton.1 h)
  | cons first rest ih =>
    obtain ⟨name, v⟩ := first
    unfold insert at h
    split at h
    · next hk =>
      rcases List.mem_cons.1 h with rfl | h
      · exact .inr (by rw [hk])
      · exact .inl (List.mem_cons_of_mem _ h)
    · rcases List.mem_cons.1 h with rfl | h
      · exact .inl List.mem_cons_self
      · exact (ih h).imp_left (List.mem_cons_of_mem _)

theorem insert_ne_nil (fields : Fields α) (key : String) (value : α) :
    insert fields key value ≠ [] := by
  cases fields with
  | nil => exact List.cons_ne_nil _ _
  | cons entry rest =>
    unfold insert
    split <;> exact List.cons_ne_nil _ _

theorem insertNew_ne_nil (fields : Fields α) (key : String) (value : α) :
    insertNew fields key value ≠ [] := by
  cases fields with
  | nil => exact List.cons_ne_nil _ _
  | cons entry rest =>
    unfold insertNew
    split <;> exact List.cons_ne_nil _ _

theorem mem_insertNew {entry : String × α} (h : entry ∈ insertNew fields key value) :
    entry ∈ fields ∨ entry = (key, value) := by
  induction fields with
  | nil => exact .inr (List.mem_singleton.1 h)
  | cons first rest ih =>
    obtain ⟨name, v⟩ := first
    unfold insertNew at h
    split at h
    · exact .inl h
    · rcases List.mem_cons.1 h with rfl | h
      · exact .inl List.mem_cons_self
      · exact (ih h).imp_left (List.mem_cons_of_mem _)

theorem mem_merge {entry : String × α} (h : entry ∈ merge fields more) :
    entry ∈ fields ∨ entry ∈ more := by
  induction more generalizing fields with
  | nil => exact .inl h
  | cons first rest ih =>
    rcases ih h with h | h
    · rcases mem_insert h with h | rfl
      · exact .inl h
      · exact .inr List.mem_cons_self
    · exact .inr (List.mem_cons_of_mem _ h)

theorem merge_ne_nil (h : fields ≠ []) (more : Fields α) : merge fields more ≠ [] := by
  induction more generalizing fields with
  | nil => exact h
  | cons entry rest ih => exact ih (insert_ne_nil fields entry.1 entry.2)

theorem mergeNew_ne_nil (h : fields ≠ []) (more : Fields α) : mergeNew fields more ≠ [] := by
  induction more generalizing fields with
  | nil => exact h
  | cons entry rest ih => exact ih (insertNew_ne_nil fields entry.1 entry.2)

theorem mergeNew_eq_nil : mergeNew fields more = [] ↔ fields = [] ∧ more = [] := by
  constructor
  · intro h
    have hfields : fields = [] := Classical.byContradiction fun hne => mergeNew_ne_nil hne more h
    subst hfields
    cases more with
    | nil => exact ⟨rfl, rfl⟩
    | cons entry rest => exact absurd h (mergeNew_ne_nil (insertNew_ne_nil _ _ _) rest)
  · rintro ⟨rfl, rfl⟩
    rfl

theorem mem_mergeNew {entry : String × α} (h : entry ∈ mergeNew fields more) :
    entry ∈ fields ∨ entry ∈ more := by
  induction more generalizing fields with
  | nil => exact .inl h
  | cons first rest ih =>
    rcases ih h with h | h
    · rcases mem_insertNew h with h | rfl
      · exact .inl h
      · exact .inr List.mem_cons_self
    · exact .inr (List.mem_cons_of_mem _ h)

theorem Distinct.mergeNew (h : Distinct fields) (more : Fields α) :
    Distinct (Fields.mergeNew fields more) := by
  induction more generalizing fields with
  | nil => exact h
  | cons entry rest ih => exact ih (h.insertNew entry.1 entry.2)

theorem distinct_nil : Distinct ([] : Fields α) := List.nodup_nil

theorem distinct_ofList (entries : List (String × α)) : Distinct (ofList entries) :=
  distinct_nil.merge entries

theorem insert_eq_append (h : key ∉ keys fields) :
    insert fields key value = fields ++ [(key, value)] := by
  induction fields with
  | nil => rfl
  | cons entry rest ih =>
    obtain ⟨name, v⟩ := entry
    have hne : name ≠ key := fun heq => h (heq ▸ List.mem_cons_self)
    unfold insert
    rw [if_neg hne, ih fun hmem => h (List.mem_cons_of_mem _ hmem)]
    rfl

theorem merge_eq_append (h : Distinct (fields ++ more)) : merge fields more = fields ++ more := by
  induction more generalizing fields with
  | nil => exact (List.append_nil fields).symm
  | cons entry rest ih =>
    obtain ⟨name, v⟩ := entry
    have hname : name ∉ keys fields := by
      intro hmem
      rw [Distinct, keys, List.map_append] at h
      exact (List.nodup_append.1 h).2.2 name hmem name List.mem_cons_self rfl
    have hassoc : fields ++ (name, v) :: rest = (fields ++ [(name, v)]) ++ rest := by simp
    show merge (insert fields name v) rest = _
    rw [insert_eq_append hname, hassoc, ih (hassoc ▸ h)]

theorem ofList_eq_self (h : Distinct fields) : ofList fields = fields :=
  merge_eq_append h

theorem mem_of_mem_ofList {entries : List (String × α)} {entry : String × α}
    (h : entry ∈ ofList entries) : entry ∈ entries :=
  (mem_merge h).resolve_left List.not_mem_nil

/-! ## Lookup -/

theorem mem_of_get? (h : get? fields key = some value) : (key, value) ∈ fields := by
  induction fields with
  | nil => cases h
  | cons first rest ih =>
    obtain ⟨name, v⟩ := first
    unfold get? at h
    split at h
    · next hk =>
      cases h
      rw [hk]
      exact List.mem_cons_self
    · exact List.mem_cons_of_mem _ (ih h)

theorem get?_of_mem (hd : Distinct fields) (h : (key, value) ∈ fields) :
    get? fields key = some value := by
  induction fields with
  | nil => cases h
  | cons first rest ih =>
    obtain ⟨name, v⟩ := first
    obtain ⟨hname, hrest⟩ := List.nodup_cons.1 hd
    unfold get?
    rcases List.mem_cons.1 h with heq | h
    · cases heq
      exact if_pos rfl
    · have hne : name ≠ key := by
        rintro rfl
        exact hname (List.mem_map.2 ⟨(name, value), h, rfl⟩)
      rw [if_neg hne]
      exact ih hrest h

theorem get?_eq_none (h : key ∉ keys fields) : get? fields key = none := by
  cases hv : get? fields key with
  | none => rfl
  | some value => exact absurd (List.mem_map.2 ⟨(key, value), mem_of_get? hv, rfl⟩) h

theorem get?_merge (h : Distinct more) :
    get? (merge fields more) key = (get? more key).or (get? fields key) := by
  induction more generalizing fields with
  | nil => rfl
  | cons first rest ih =>
    obtain ⟨name, v⟩ := first
    obtain ⟨hname, hrest⟩ := List.nodup_cons.1 h
    show get? (merge (insert fields name v) rest) key = _
    rw [ih hrest, get?_insert]
    by_cases hk : name = key
    · subst hk
      simp [get?, get?_eq_none hname]
    · simp [get?, hk]

theorem get?_append (fields more : Fields α) (key : String) :
    get? (fields ++ more) key = (get? fields key).or (get? more key) := by
  induction fields with
  | nil => rfl
  | cons entry rest ih =>
    obtain ⟨name, v⟩ := entry
    by_cases h : name = key <;> simp [get?, h, ih]

theorem get?_mergeNew (fields more : Fields α) (key : String) :
    get? (mergeNew fields more) key = (get? fields key).or (get? more key) := by
  induction more generalizing fields with
  | nil => exact (Option.or_none).symm
  | cons first rest ih =>
    obtain ⟨name, v⟩ := first
    show get? (mergeNew (insertNew fields name v) rest) key = _
    rw [ih, get?_insertNew, Option.or_assoc]
    by_cases h : name = key <;> simp [get?, h]

/-- Of several entries of a name the last one counts. -/
theorem get?_merge_reverse (fields more : Fields α) (key : String) :
    get? (merge fields more) key = (get? more.reverse key).or (get? fields key) := by
  induction more generalizing fields with
  | nil => rfl
  | cons first rest ih =>
    obtain ⟨name, v⟩ := first
    show get? (merge (insert fields name v) rest) key = _
    rw [ih, get?_insert, List.reverse_cons, get?_append, Option.or_assoc]
    by_cases h : name = key <;> simp [get?, h]

theorem get?_ofList_of_last (before : Fields α) {after : Fields α} (h : key ∉ keys after) :
    get? (ofList (before ++ (key, value) :: after)) key = some value := by
  have reversed : key ∉ keys after.reverse := by simpa [keys] using h
  rw [ofList, get?_merge_reverse, List.reverse_append, List.reverse_cons, List.append_assoc,
    get?_append, get?_eq_none reversed]
  simp [get?]

/-! ## Names of merged fields -/

theorem mem_keys_insert {name : String} :
    name ∈ keys (insert fields key value) ↔ name ∈ keys fields ∨ name = key := by
  rw [keys_insert]
  split
  · next h => exact ⟨.inl, fun hname => hname.elim id fun hkey => hkey ▸ h⟩
  · simp

theorem mem_keys_merge {name : String} :
    name ∈ keys (merge fields more) ↔ name ∈ keys fields ∨ name ∈ keys more := by
  induction more generalizing fields with
  | nil => simp [merge, keys]
  | cons first rest ih =>
    show name ∈ keys (merge (insert fields first.1 first.2) rest) ↔ _
    rw [ih, mem_keys_insert, or_assoc]
    simp [keys]

/-- For the names it does not matter which of two values is kept. -/
theorem keys_mergeNew {fields' : Fields α} (h : keys fields' = keys fields) (more : Fields α) :
    keys (mergeNew fields' more) = keys (merge fields more) := by
  induction more generalizing fields fields' with
  | nil => exact h
  | cons first rest ih =>
    have inserted : keys (insertNew fields' first.1 first.2) =
        keys (insert fields first.1 first.2) := by
      rw [keys_insertNew, keys_insert, keys_insert, h]
    exact ih inserted

theorem eraseDups_append_singleton (names : List String) (name : String) :
    (names ++ [name]).eraseDups =
      if name ∈ names then names.eraseDups else names.eraseDups ++ [name] := by
  rw [List.eraseDups_append]
  by_cases h : name ∈ names <;> simp [List.removeAll, List.eraseDups_cons, h]

theorem keys_merge {names : List String} (h : keys fields = names.eraseDups) (more : Fields α) :
    keys (merge fields more) = (names ++ keys more).eraseDups := by
  induction more generalizing fields names with
  | nil => exact h.trans (by simp [keys])
  | cons first rest ih =>
    have inserted :
        keys (insert fields first.1 first.2) = (names ++ [first.1]).eraseDups := by
      rw [keys_insert, eraseDups_append_singleton, h]
      simp only [List.mem_eraseDups]
    exact (ih inserted).trans (by simp [keys])

theorem keys_ofList (fields : Fields α) : keys (ofList fields) = (keys fields).eraseDups := by
  have start : keys ([] : Fields α) = ([] : List String).eraseDups := rfl
  exact keys_merge start fields

theorem ofList_eq_nil : ofList fields = [] ↔ fields = [] := by
  constructor
  · intro h
    have hkeys : (keys fields).eraseDups = [] := by rw [← keys_ofList, h]; rfl
    cases fields with
    | nil => rfl
    | cons first rest => simp [keys, List.eraseDups_cons] at hkeys
  · rintro rfl
    rfl

/-! ## Merging in several steps -/

theorem merge_append (fields more rest : Fields α) :
    merge fields (more ++ rest) = merge (merge fields more) rest := List.foldl_append

theorem mergeNew_append (fields more rest : Fields α) :
    mergeNew fields (more ++ rest) = mergeNew (mergeNew fields more) rest := List.foldl_append

theorem insertNew_eq_self (h : key ∈ keys fields) : insertNew fields key value = fields := by
  induction fields with
  | nil => cases h
  | cons first rest ih =>
    obtain ⟨name, v⟩ := first
    unfold insertNew
    by_cases hname : name = key
    · rw [if_pos hname]
    · rw [if_neg hname, ih ((List.mem_cons.1 h).resolve_left (Ne.symm hname))]

theorem insertNew_eq_append (h : key ∉ keys fields) :
    insertNew fields key value = fields ++ [(key, value)] := by
  induction fields with
  | nil => rfl
  | cons first rest ih =>
    obtain ⟨name, v⟩ := first
    have hname : name ≠ key := fun heq => h (heq ▸ List.mem_cons_self)
    unfold insertNew
    rw [if_neg hname, ih fun hmem => h (List.mem_cons_of_mem _ hmem)]
    rfl

theorem mergeNew_insertNew (fields more : Fields α) (key : String) (value : α) :
    mergeNew fields (insertNew more key value) = insertNew (mergeNew fields more) key value := by
  by_cases h : key ∈ keys more
  · have there : key ∈ keys (mergeNew fields more) := by
      rw [keys_mergeNew rfl]
      exact mem_keys_merge.2 (.inr h)
    rw [insertNew_eq_self h, insertNew_eq_self there]
  · rw [insertNew_eq_append h, mergeNew_append]
    rfl

/-- What is new to the first of three may be collected from the other two beforehand. -/
theorem mergeNew_mergeNew (fields more rest : Fields α) :
    mergeNew fields (mergeNew more rest) = mergeNew (mergeNew fields more) rest := by
  induction rest generalizing more with
  | nil => rfl
  | cons entry rest ih =>
    show mergeNew fields (mergeNew (insertNew more entry.1 entry.2) rest) = _
    rw [ih, mergeNew_insertNew]
    rfl

theorem insert_insert_self (fields : Fields α) (key : String) (value value' : α) :
    insert (insert fields key value) key value' = insert fields key value' := by
  induction fields with
  | nil => simp [insert]
  | cons first rest ih =>
    obtain ⟨name, v⟩ := first
    by_cases h : name = key <;> simp [insert, h, ih]

theorem insert_comm {key' : String} {value' : α} (h : key ∈ keys fields) (hne : key' ≠ key) :
    insert (insert fields key' value') key value =
      insert (insert fields key value) key' value' := by
  induction fields with
  | nil => cases h
  | cons first rest ih =>
    obtain ⟨name, v⟩ := first
    by_cases hname : name = key
    · subst hname
      simp [insert, Ne.symm hne]
    · have ih := ih ((List.mem_cons.1 h).resolve_left (Ne.symm hname))
      by_cases hname' : name = key'
      · subst hname'
        simp [insert, hname]
      · simp [insert, hname, hname', ih]

theorem insert_merge (h : key ∈ keys fields) (hmore : key ∉ keys more) :
    insert (merge fields more) key value = merge (insert fields key value) more := by
  induction more generalizing fields with
  | nil => rfl
  | cons first rest ih =>
    have hne : first.1 ≠ key := fun heq => hmore (heq ▸ List.mem_cons_self)
    have hrest : key ∉ keys rest := fun hmem => hmore (List.mem_cons_of_mem _ hmem)
    have there : key ∈ keys (insert fields first.1 first.2) := mem_keys_insert.2 (.inl h)
    show insert (merge (insert fields first.1 first.2) rest) key value = _
    rw [ih there hrest, insert_comm h hne]
    rfl

theorem merge_insert (h : Distinct more) (fields : Fields α) (key : String) (value : α) :
    merge fields (insert more key value) = insert (merge fields more) key value := by
  induction more generalizing fields with
  | nil => rfl
  | cons first rest ih =>
    obtain ⟨name, v⟩ := first
    obtain ⟨hname, hrest⟩ := List.nodup_cons.1 h
    by_cases hk : name = key
    · subst hk
      have there : name ∈ keys (insert fields name v) := mem_keys_insert.2 (.inr rfl)
      show merge fields (insert ((name, v) :: rest) name value) =
        insert (merge (insert fields name v) rest) name value
      rw [insert_merge there hname, insert_insert_self, insert, if_pos rfl]
      rfl
    · rw [insert, if_neg hk]
      exact ih hrest _

/-- What two write into the first of three may be collected beforehand. -/
theorem merge_merge (h : Distinct more) (fields rest : Fields α) :
    merge fields (merge more rest) = merge (merge fields more) rest := by
  induction rest generalizing more with
  | nil => rfl
  | cons entry rest ih =>
    show merge fields (merge (insert more entry.1 entry.2) rest) = _
    rw [ih (h.insert _ _), merge_insert h]
    rfl

/-! ## Changed values -/

/-- Change the values and keep the names. -/
def mapValues (f : α → β) (fields : Fields α) : Fields β := fields.map fun (name, v) => (name, f v)

section

variable (f : α → β) (fields more : Fields α)

@[simp] theorem mapValues_isEmpty : (mapValues f fields).isEmpty = fields.isEmpty := by
  simp [mapValues]

theorem mapValues_mapValues {γ : Type} (g : β → γ) :
    mapValues g (mapValues f fields) = mapValues (g ∘ f) fields :=
  List.map_map

theorem mapValues_congr {f g : α → β} {fields : Fields α}
    (h : ∀ v ∈ fields.map Prod.snd, f v = g v) : mapValues f fields = mapValues g fields :=
  List.map_congr_left fun entry hentry =>
    congrArg (entry.1, ·) (h entry.2 (List.mem_map_of_mem hentry))

@[simp] theorem keys_mapValues : keys (mapValues f fields) = keys fields := by
  simp [keys, mapValues, Function.comp_def]

theorem insert_mapValues (key : String) (value : α) :
    insert (mapValues f fields) key (f value) = mapValues f (insert fields key value) := by
  induction fields with
  | nil => rfl
  | cons entry rest ih =>
    obtain ⟨name, v⟩ := entry
    unfold mapValues at ih ⊢
    by_cases h : name = key <;> simp [insert, h, ih]

theorem insertNew_mapValues (key : String) (value : α) :
    insertNew (mapValues f fields) key (f value) = mapValues f (insertNew fields key value) := by
  induction fields with
  | nil => rfl
  | cons entry rest ih =>
    obtain ⟨name, v⟩ := entry
    unfold mapValues at ih ⊢
    by_cases h : name = key <;> simp [insertNew, h, ih]

theorem mergeNew_mapValues :
    mergeNew (mapValues f fields) (mapValues f more) = mapValues f (mergeNew fields more) := by
  induction more generalizing fields with
  | nil => rfl
  | cons entry rest ih =>
    show mergeNew (insertNew _ entry.1 (f entry.2)) (mapValues f rest) = _
    rw [insertNew_mapValues, ih]; rfl

theorem get?_mapValues (key : String) :
    get? (mapValues f fields) key = (get? fields key).map f := by
  induction fields with
  | nil => rfl
  | cons entry rest ih =>
    obtain ⟨name, v⟩ := entry
    unfold mapValues at ih ⊢
    by_cases h : name = key <;> simp [get?, h, ih]

end

/-! ## Aligned fields -/

/-- The same names in the same order, with related values. -/
def Aligned (R : α → β → Prop) (xs : Fields α) (ys : Fields β) : Prop :=
  List.Forall₂ (fun x y => x.1 = y.1 ∧ R x.2 y.2) xs ys

theorem Aligned.get? {R : α → β → Prop} {xs : Fields α} {ys : Fields β} (h : Aligned R xs ys)
    (key : String) : Option.Rel R (Fields.get? xs key) (Fields.get? ys key) := by
  induction h with
  | nil => exact .none
  | @cons x y xs ys hxy _ ih =>
    obtain ⟨name, a⟩ := x
    obtain ⟨name', b⟩ := y
    obtain ⟨rfl, hab⟩ : name = name' ∧ R a b := hxy
    unfold Fields.get?
    split
    · exact .some hab
    · exact ih

end SchemaSynth.Fields
