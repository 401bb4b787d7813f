import SchemaSynth.Decode.Reader
import SchemaSynth.Proofs.Except
import SchemaSynth.Proofs.Json.Raw

/-!
# Formats

A format is a reader together with the writer for the same type. There may be many documents that a
reader takes for one value, but only one is written for it, and a format is `Stable` if that one is
read as the value again. The formats of strings, numbers, lists and so on are stable here; records
come after them.
-/

namespace SchemaSynth

/-- How the values of a type are read from documents and written to them. -/
structure Format (α : Type) where
  read : Source → Raw → Except ReadError α
  toJson : α → Json

section

variable {α : Type} {source : Source} {raw : Raw} {read : Raw → Except ReadError α}
  {write : α → Json}

namespace Format

/-- The value is read from the document that is written for it. -/
def Rereads (F : Format α) (x : α) : Prop :=
  ∀ source, F.read source (Raw.ofJson (F.toJson x)) = .ok x

/-- Every value that is read at all, from whatever document, is read from its own. -/
def Stable (F : Format α) : Prop :=
  ∀ source {raw x}, F.read source raw = .ok x → F.Rereads x

def recode (F : Format α) (source : Source) (raw : Raw) : Except ReadError Json :=
  F.toJson <$> F.read source raw

theorem Rereads.recode {F : Format α} {x : α} (h : F.Rereads x) (source : Source) :
    F.recode source (Raw.ofJson (F.toJson x)) = .ok (F.toJson x) :=
  map_eq_ok.2 ⟨x, h source, rfl⟩

end Format

/-! ## Readers -/

@[simp] theorem Source.within_eq_ok {step : Step} {r : Except ReadError α} {x : α} :
    source.within step r = .ok x ↔ r = .ok x := by
  cases source <;> cases r <;> simp [Source.within, Except.mapError]

namespace Raw

theorem readOption_of_ne_null (h : raw ≠ .null) : raw.readOption read = some <$> read raw := by
  cases raw with
  | null => exact absurd rfl h
  | _ => rfl

theorem ofJson_ne_null {v : Json} (h : v ≠ .null) : ofJson v ≠ .null := by
  cases v with
  | null => exact absurd rfl h
  | _ => exact Raw.noConfusion

theorem readItemsFrom_ofItems {xs : List α} (h : ∀ x ∈ xs, read (ofJson (write x)) = .ok x)
    (i : Nat) : readItemsFrom source read i (ofItems (xs.map write)) = .ok xs := by
  induction xs generalizing i with
  | nil => rfl
  | cons x xs ih =>
    obtain ⟨hx, hxs⟩ := List.forall_mem_cons.1 h
    exact bind_eq_ok.2 ⟨x, Source.within_eq_ok.2 hx, bind_eq_ok.2 ⟨xs, ih hxs _, rfl⟩⟩

theorem readEntries_ofFields {xs : Fields α} (h : ∀ entry ∈ xs, read (ofJson (write entry.2)) =
    .ok entry.2) (done : Fields α) :
    readEntries source read done (ofFields (Fields.mapValues write xs)) =
      .ok (Fields.merge done xs) := by
  induction xs generalizing done with
  | nil => rfl
  | cons entry rest ih =>
    obtain ⟨hx, hrest⟩ := List.forall_mem_cons.1 h
    exact bind_eq_ok.2 ⟨entry.2, Source.within_eq_ok.2 hx, ih hrest _⟩

variable {P : α → Prop}

theorem forall_of_readItemsFrom (hP : ∀ raw x, read raw = .ok x → P x) {items : List Raw} {i : Nat}
    {xs : List α} (h : readItemsFrom source read i items = .ok xs) : ∀ x ∈ xs, P x := by
  induction items generalizing i xs with
  | nil =>
    cases h
    exact List.forall_mem_nil _
  | cons raw rest ih =>
    obtain ⟨x, hx, h⟩ := bind_eq_ok.1 h
    obtain ⟨xs, hxs, h⟩ := bind_eq_ok.1 h
    cases h
    exact List.forall_mem_cons.2 ⟨hP _ _ (Source.within_eq_ok.1 hx), ih hxs⟩

theorem forall_of_readList (hP : ∀ raw x, read raw = .ok x → P x) {xs : List α}
    (h : raw.readList source read = .ok xs) : ∀ x ∈ xs, P x := by
  cases raw with
  | array items => exact forall_of_readItemsFrom hP h
  | _ => cases h

theorem of_readEntries (hP : ∀ raw x, read raw = .ok x → P x)
    {fields : List (Option String × Raw)} {done xs : Fields α} (hdistinct : Fields.Distinct done)
    (hdone : ∀ entry ∈ done, P entry.2) (h : readEntries source read done fields = .ok xs) :
    Fields.Distinct xs ∧ ∀ entry ∈ xs, P entry.2 := by
  induction fields generalizing done with
  | nil =>
    cases h
    exact ⟨hdistinct, hdone⟩
  | cons field rest ih =>
    obtain ⟨_ | key, raw⟩ := field
    · cases h
    · obtain ⟨x, hx, h⟩ := bind_eq_ok.1 h
      refine ih (hdistinct.insert key x) (fun entry hentry => ?_) h
      rcases Fields.mem_insert hentry with hentry | rfl
      · exact hdone entry hentry
      · exact hP _ _ (Source.within_eq_ok.1 hx)

/-- A map has distinct names, and its values are what the reader of values makes of something. -/
theorem of_readMap (hP : ∀ raw x, read raw = .ok x → P x) {xs : Fields α}
    (h : raw.readMap source read = .ok xs) :
    Fields.Distinct xs ∧ ∀ entry ∈ xs, P entry.2 := by
  cases raw with
  | object fields => exact of_readEntries hP Fields.distinct_nil (List.forall_mem_nil _) h
  | _ => cases h

end Raw

/-! ## Formats of simple values -/

namespace Format

variable {F : Format α}

def string : Format String := ⟨fun _ => Raw.readString, .string⟩

theorem string_rereads (s : String) : string.Rereads s := fun _ => rfl

def bool : Format Bool := ⟨fun _ => Raw.readBool, .bool⟩

theorem bool_rereads (b : Bool) : bool.Rereads b := fun _ => rfl

def nat (bits : Nat) (expected : String) : Format Nat :=
  ⟨fun _ => Raw.readNat bits expected, fun n => .int n⟩

theorem nat_rereads {bits n : Nat} {expected : String} (h : n < twoTo bits) :
    (nat bits expected).Rereads n := fun _ =>
  if_pos ⟨Int.natCast_nonneg n, Int.ofNat_lt.2 h⟩

theorem nat_stable (bits : Nat) (expected : String) : (nat bits expected).Stable := by
  intro source raw n h
  change raw.readNat bits expected = .ok n at h
  unfold Raw.readNat at h
  split at h
  · split at h
    · next i hi =>
      cases h
      have hlt : (i.toNat : Int) < twoTo bits := by
        rw [Int.toNat_of_nonneg hi.1]
        exact hi.2
      exact nat_rereads (Int.ofNat_lt.1 hlt)
    · cases h
  · cases h

def json : Format Json := ⟨fun _ => Raw.readJson, id⟩

theorem json_eq_ok {v : Json} : raw.readJson = .ok v ↔ raw.toJson? = some v := by
  unfold Raw.readJson
  cases raw.toJson? with
  | none => exact ⟨fun h => (by cases h), fun h => (by cases h)⟩
  | some w =>
    constructor <;> intro h <;> cases h <;> rfl

theorem json_stable : json.Stable := fun _ _ _ h _ =>
  json_eq_ok.2 (Raw.plain_of_toJson? (json_eq_ok.1 h))

def choice (known : Fields α) (name : α → String) : Format α :=
  ⟨fun source raw => raw.readChoice source known, fun x => .string (name x)⟩

theorem choice_rereads {known : Fields α} {name : α → String} {x : α}
    (h : Fields.get? known (name x) = some x) : (choice known name).Rereads x := by
  intro source
  show Raw.choose known (name x) = .ok x
  rw [Raw.choose, h]
  rfl

/-! ## Formats of values in values -/

def option (F : Format α) : Format (Option α) where
  read source raw := raw.readOption (F.read source)
  toJson x := (x.map F.toJson).getD .null

theorem option_rereads_none : F.option.Rereads none := fun _ => rfl

theorem option_rereads_some {x : α} (h : F.Rereads x) (hnull : F.toJson x ≠ .null) :
    F.option.Rereads (some x) := by
  intro source
  show (Raw.ofJson (F.toJson x)).readOption (F.read source) = .ok (some x)
  rw [Raw.readOption_of_ne_null (Raw.ofJson_ne_null hnull), h source]
  rfl

/-- Where only `null` is read as a value written so, an absent value is not mistaken for one. -/
theorem Stable.option (h : F.Stable)
    (hnull : ∀ {source raw x}, F.read source raw = .ok x → F.toJson x = .null → raw = .null) :
    F.option.Stable := by
  intro source raw x hx
  change raw.readOption (F.read source) = .ok x at hx
  by_cases hraw : raw = .null
  · subst hraw
    cases hx
    exact option_rereads_none
  · rw [Raw.readOption_of_ne_null hraw] at hx
    obtain ⟨y, hy, rfl⟩ := map_eq_ok.1 hx
    exact option_rereads_some (h source hy) fun hy' => hraw (hnull hy hy')

theorem option_string_rereads : ∀ x : Option String, string.option.Rereads x
  | none => option_rereads_none
  | some s => option_rereads_some (string_rereads s) Json.noConfusion

theorem option_map_json (x : Option Json) : x.map json.toJson = x := congrFun Option.map_id x

theorem option_json_stable : json.option.Stable := by
  refine json_stable.option fun {source raw v} h hv => ?_
  have hv : v = .null := hv
  have h : raw.toJson? = some v := json_eq_ok.1 h
  rw [hv] at h
  cases raw with
  | null => rfl
  | array items => obtain ⟨vs, -, hvs⟩ := Option.map_eq_some_iff.1 h; cases hvs
  | object fields => obtain ⟨vs, -, hvs⟩ := Option.map_eq_some_iff.1 h; cases hvs
  | _ => cases h

def list (F : Format α) : Format (List α) where
  read source raw := raw.readList source (F.read source)
  toJson xs := .array (xs.map F.toJson)

theorem list_rereads {xs : List α} (h : ∀ x ∈ xs, F.Rereads x) : F.list.Rereads xs := fun source =>
  Raw.readItemsFrom_ofItems (fun x hx => h x hx source) 0

theorem Stable.list (h : F.Stable) : F.list.Stable := fun source _ _ hxs =>
  list_rereads (Raw.forall_of_readList (fun _ _ => h source) hxs)

def map (F : Format α) : Format (Fields α) where
  read source raw := raw.readMap source (F.read source)
  toJson xs := .object (Fields.mapValues F.toJson xs)

theorem map_rereads {xs : Fields α} (hdistinct : Fields.Distinct xs)
    (h : ∀ entry ∈ xs, F.Rereads entry.2) : F.map.Rereads xs := by
  intro source
  have hread : F.map.read source (Raw.ofJson (F.map.toJson xs)) = .ok (Fields.merge [] xs) :=
    Raw.readEntries_ofFields (fun entry hentry => h entry hentry source) []
  rwa [show Fields.merge [] xs = xs from Fields.ofList_eq_self hdistinct] at hread

theorem Stable.map (h : F.Stable) : F.map.Stable := fun source _ _ hxs =>
  have ⟨hdistinct, hall⟩ := Raw.of_readMap (fun _ _ => h source) hxs
  map_rereads hdistinct hall

end Format

end

end SchemaSynth
