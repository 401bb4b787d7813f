/-!
# Fields

`Fields α` holds named values in the order in which their names first came. Inserting under a name
that is there replaces the value and keeps the place; `insertNew` keeps the old value instead.
`Fields.Distinct` says that no name occurs twice, which every map built by insertion satisfies.
-/

namespace SchemaSynth

/-- Named values in the order of their names' first insertion. -/
abbrev Fields (α : Type) := List (String × α)

namespace Fields

variable {α β : Type}

def keys (fields : Fields α) : List String := fields.map Prod.fst

/-- No name occurs twice. -/
def Distinct (fields : Fields α) : Prop := (keys fields).Nodup

def get? (fields : Fields α) (key : String) : Option α :=
  match fields with
  | [] => none
  | (k, v) :: rest => if k = key then some v else get? rest key

/-- Put a value under a name: in place of the one that is there, or at the end. -/
def insert (fields : Fields α) (key : String) (value : α) : Fields α :=
  match fields with
  | [] => [(key, value)]
  | (k, v) :: rest => if k = key then (k, value) :: rest else (k, v) :: insert rest key value

/-- Put a value at the end unless its name is there. -/
def insertNew (fields : Fields α) (key : String) (value : α) : Fields α :=
  match fields with
  | [] => [(key, value)]
  | (k, v) :: rest => if k = key then (k, v) :: rest else (k, v) :: insertNew rest key value

/-- Insert all of `more` in order: later values win, first places are kept. -/
def merge (fields more : Fields α) : Fields α :=
  more.foldl (fun acc entry => insert acc entry.1 entry.2) fields

/-- Add those of `more` whose names are not there yet. -/
def mergeNew (fields more : Fields α) : Fields α :=
  more.foldl (fun acc entry => insertNew acc entry.1 entry.2) fields

/-- The map of a list of pairs: last values at first places. -/
def ofList (entries : List (String × α)) : Fields α := merge [] entries

theorem get?_insert (fields : Fields α) (key k : String) (value : α) :
    get? (insert fields key value) k = if key = k then some value else get? fields k := by
  induction fields with
  | nil => simp [insert, get?]
  | cons entry rest ih =>
    obtain ⟨name, v⟩ := entry
    by_cases h : name = key
    · subst h; by_cases hk : name = k <;> simp [insert, get?, hk]
    · by_cases hk : name = k
      · subst hk; simp [insert, get?, h, Ne.symm h]
      · simp [insert, get?, h, hk, ih]

theorem get?_insertNew (fields : Fields α) (key k : String) (value : α) :
    get? (insertNew fields key value) k =
      (get? fields k).or (if key = k then some value else none) := by
  induction fields with
  | nil => simp [insertNew, get?]
  | cons entry rest ih =>
    obtain ⟨name, v⟩ := entry
    by_cases h : name = key
    · subst h; by_cases hk : name = k <;> simp [insertNew, get?, hk]
    · by_cases hk : name = k
      · subst hk; simp [insertNew, get?, h]
      · simp [insertNew, get?, h, hk, ih]

theorem keys_insert (fields : Fields α) (key : String) (value : α) :
    keys (insert fields key value) =
      if key ∈ keys fields then keys fields else keys fields ++ [key] := by
  induction fields with
  | nil => simp [insert, keys]
  | cons entry rest ih =>
    obtain ⟨name, v⟩ := entry
    by_cases h : name = key
    · subst h; simp [insert, keys]
    · have ih' : List.map Prod.fst (insert rest key value) = _ := ih
      by_cases hm : key ∈ List.map Prod.fst rest
      · simp [insert, keys, h, ih', Ne.symm h, hm]
      · simp [insert, keys, h, ih', Ne.symm h, hm]

theorem keys_insertNew (fields : Fields α) (key : String) (value : α) :
    keys (insertNew fields key value) = keys (insert fields key value) := by
  induction fields with
  | nil => rfl
  | cons entry rest ih =>
    obtain ⟨name, v⟩ := entry
    by_cases h : name = key
    · simp [insertNew, insert, keys, h]
    · have ih' : List.map Prod.fst (insertNew rest key value) = _ := ih
      simp [insertNew, insert, keys, h, ih']

theorem Distinct.insert {fields : Fields α} (h : Distinct fields) (key : String) (value : α) :
    Distinct (Fields.insert fields key value) := by
  unfold Distinct at h ⊢
  rw [keys_insert]
  split
  · exact h
  · next hm =>
    refine List.nodup_append.2 ⟨h, by simp, fun a ha b hb => ?_⟩
    rw [List.mem_singleton.1 hb]
    rintro rfl
    exact hm ha

theorem Distinct.insertNew {fields : Fields α} (h : Distinct fields) (key : String) (value : α) :
    Distinct (Fields.insertNew fields key value) := by
  unfold Distinct
  rw [keys_insertNew]
  exact h.insert key value

theorem Distinct.merge {fields : Fields α} (h : Distinct fields) (more : Fields α) :
    Distinct (Fields.merge fields more) := by
  induction more generalizing fields with
  | nil => exact h
  | cons entry rest ih => exact ih (h.insert entry.1 entry.2)

end Fields

end SchemaSynth
