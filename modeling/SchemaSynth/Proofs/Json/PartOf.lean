import SchemaSynth.Json.Basic
import SchemaSynth.Proofs.Fields

/-!
# Parts of documents

`a.PartOf b` says that `b` has all that `a` has: every field of an object of `a`, at any depth, is a
field of the object at the same place of `b`, lists have the same length, and all other values are
the same. `partOf_merge_iff` says when an object stays part of itself after more was merged in.
-/

namespace SchemaSynth.Json

/-- Neither a list nor an object. -/
def isScalar : Json → Bool
  | .array _ | .object _ => false
  | _ => true

/-- All of the first document is in the second, at the same place. -/
inductive PartOf : Json → Json → Prop where
  | scalar {a : Json} : a.isScalar = true → PartOf a a
  | array {xs ys : List Json} : xs.length = ys.length →
      (∀ (i : Nat) (x y : Json), xs[i]? = some x → ys[i]? = some y → PartOf x y) →
      PartOf (.array xs) (.array ys)
  | object {xs ys : Fields Json} :
      (∀ key, (Fields.get? xs key).isSome → (Fields.get? ys key).isSome) →
      (∀ key x y, Fields.get? xs key = some x → Fields.get? ys key = some y → PartOf x y) →
      PartOf (.object xs) (.object ys)

section

variable {a b : Json} {xs ys : List Json} {fields more : Fields Json}

theorem partOf_object_iff : PartOf (.object fields) (.object more) ↔
    ∀ key x, Fields.get? fields key = some x → ∃ y, Fields.get? more key = some y ∧ PartOf x y := by
  constructor
  · intro h key x hx
    cases h with
    | scalar h => cases h
    | object hkey hvalue =>
      obtain ⟨y, hy⟩ := Option.isSome_iff_exists.1 (hkey key (by simp [hx]))
      exact ⟨y, hy, hvalue key x y hx hy⟩
  · intro h
    refine .object (fun key hkey => ?_) fun key x y hx hy => ?_
    · obtain ⟨x, hx⟩ := Option.isSome_iff_exists.1 hkey
      obtain ⟨y, hy, -⟩ := h key x hx
      simp [hy]
    · obtain ⟨y', hy', hxy⟩ := h key x hx
      rw [hy] at hy'
      cases hy'
      exact hxy

theorem PartOf.item (h : PartOf (.array xs) (.array ys)) {i : Nat} {x y : Json}
    (hx : xs[i]? = some x) (hy : ys[i]? = some y) : PartOf x y := by
  cases h with
  | scalar h => cases h
  | array _ hitem => exact hitem i x y hx hy

theorem partOf_array_map_iff {α : Type} (es : List α) (f g : α → Json) :
    PartOf (.array (es.map f)) (.array (es.map g)) ↔ ∀ e ∈ es, PartOf (f e) (g e) := by
  constructor
  · intro h e he
    obtain ⟨i, hi⟩ := List.mem_iff_getElem?.1 he
    exact h.item (i := i) (by simp [hi]) (by simp [hi])
  · intro h
    refine .array (by simp) fun i x y hx hy => ?_
    rw [List.getElem?_map] at hx hy
    obtain ⟨e, he, rfl⟩ := Option.map_eq_some_iff.1 hx
    rw [he] at hy
    cases hy
    exact h e (List.mem_of_getElem? he)

theorem PartOf.eq_of_isScalar (h : PartOf a b) (hb : b.isScalar = true) : a = b := by
  cases h with
  | scalar _ => rfl
  | array => cases hb
  | object => cases hb

theorem PartOf.refl : ∀ a : Json, PartOf a a
  | .null | .bool _ | .number _ | .string _ => .scalar rfl
  | .array xs => .array rfl fun i x y hx hy => by
    rw [hx] at hy
    cases hy
    have := List.mem_of_getElem? hx
    exact PartOf.refl x
  | .object fields => .object (fun _ h => h) fun key x y hx hy => by
    rw [hx] at hy
    cases hy
    have := Fields.mem_of_get? hx
    exact PartOf.refl x
termination_by a => sizeOf a
decreasing_by
  · have := List.sizeOf_lt_of_mem ‹x ∈ xs›
    simp only [array.sizeOf_spec]
    omega
  · have := List.sizeOf_lt_of_mem ‹(key, x) ∈ fields›
    simp only [Prod.mk.sizeOf_spec] at this
    simp only [object.sizeOf_spec]
    omega

/-- An object stays part of another with `extras` merged in exactly if it is part of that one, and
the extras that take the name of a field repeat its value. -/
theorem partOf_merge_iff {plain fields extras : Fields Json}
    (haligned : Fields.Aligned (fun a b => a.isScalar = true → b = a) plain fields)
    (hdistinct : Fields.Distinct extras)
    (hscalar : ∀ key value, Fields.get? extras key = some value → value.isScalar = true) :
    PartOf (.object plain) (.object (Fields.merge fields extras)) ↔
      (∀ key value, Fields.get? extras key = some value →
        ∀ field, Fields.get? fields key = some field → field = value) ∧
      ∀ key a b, Fields.get? plain key = some a → Fields.get? fields key = some b → PartOf a b := by
  rw [partOf_object_iff]
  constructor
  · intro h
    have kept : ∀ key value, Fields.get? extras key = some value →
        ∀ field, Fields.get? fields key = some field →
          field = value ∧ Fields.get? plain key = some value := by
      intro key value hvalue field hfield
      have halign := haligned.get? key
      rw [hfield] at halign
      cases hplain : Fields.get? plain key with
      | none => rw [hplain] at halign; cases halign
      | some a =>
        rw [hplain] at halign
        obtain ⟨y, hy, hpart⟩ := h key a hplain
        rw [Fields.get?_merge hdistinct, hvalue, Option.some_or] at hy
        cases hy
        -- The extra is a scalar, so what it covers is the same scalar, and so is the field.
        obtain rfl := hpart.eq_of_isScalar (hscalar key value hvalue)
        cases halign with
        | some halign => exact ⟨halign (hscalar key a hvalue), rfl⟩
    refine ⟨fun key value hvalue field hfield => (kept key value hvalue field hfield).1, ?_⟩
    intro key a b ha hb
    cases hvalue : Fields.get? extras key with
    | none =>
      obtain ⟨y, hy, hpart⟩ := h key a ha
      rw [Fields.get?_merge hdistinct, hvalue, Option.none_or, hb] at hy
      cases hy
      exact hpart
    | some value =>
      obtain ⟨rfl, hplain⟩ := kept key value hvalue b hb
      rw [ha] at hplain
      cases hplain
      exact .refl _
  · rintro ⟨hkeep, hpart⟩ key a ha
    have halign := haligned.get? key
    rw [ha] at halign
    cases hb : Fields.get? fields key with
    | none => rw [hb] at halign; cases halign
    | some b =>
      refine ⟨b, ?_, hpart key a b ha hb⟩
      rw [Fields.get?_merge hdistinct, hb]
      cases hvalue : Fields.get? extras key with
      | none => rfl
      | some value => rw [Option.some_or, hkeep key value hvalue b hb]

end

end SchemaSynth.Json
