import SchemaSynth.Fragment
import SchemaSynth.Proofs.Fields

/-!
# The parts of a fragment

`Fragment.parts` are the fragments right inside a fragment: items, properties, entries. Induction
over them stands in for that over the nested type, and `Everywhere p` says that `p` holds of a
fragment and of all fragments inside it, at every depth.
-/

namespace SchemaSynth

namespace Fragment

/-- The fragments right inside a fragment. -/
def parts : Fragment → List Fragment
  | .arrayOf items _ => [items]
  | .object props _ => props.map Prod.snd
  | .flat props _ => props.map Prod.snd
  | .alternatives entries => entries
  | .empty | .leaf .. | .bare _ => []

theorem mem_parts_of_mem_props {f : Fragment} {entry : String × Fragment}
    (h : entry ∈ f.props?.getD []) : entry.2 ∈ f.parts := by
  cases f with
  | object props marks => exact List.mem_map_of_mem h
  | flat props extras => exact List.mem_map_of_mem h
  | _ => cases h

theorem sizeOf_lt_of_mem_props {props : List (String × Fragment)} {g : Fragment}
    (h : g ∈ props.map Prod.snd) : sizeOf g < sizeOf props := by
  obtain ⟨⟨name, g⟩, hmem, rfl⟩ := List.mem_map.1 h
  have hlt := List.sizeOf_lt_of_mem hmem
  have hpair : sizeOf (name, g) = 1 + sizeOf name + sizeOf g := rfl
  show sizeOf g < sizeOf props
  omega

theorem sizeOf_lt_of_mem_parts {f g : Fragment} (h : g ∈ f.parts) : sizeOf g < sizeOf f := by
  cases f with
  | arrayOf items marks =>
    obtain rfl := List.mem_singleton.1 h
    simp only [arrayOf.sizeOf_spec]
    omega
  | object props marks =>
    have := sizeOf_lt_of_mem_props h
    simp only [object.sizeOf_spec]
    omega
  | flat props extras =>
    have := sizeOf_lt_of_mem_props h
    simp only [flat.sizeOf_spec]
    omega
  | alternatives entries =>
    have := List.sizeOf_lt_of_mem (show g ∈ entries from h)
    simp only [alternatives.sizeOf_spec]
    omega
  | _ => cases h

/-- What holds of a fragment if it holds of its parts holds of all fragments. -/
theorem induction_parts {motive : Fragment → Prop}
    (step : ∀ f, (∀ g ∈ f.parts, motive g) → motive f) (f : Fragment) : motive f :=
  step f fun g _ => induction_parts step g
termination_by sizeOf f
decreasing_by exact sizeOf_lt_of_mem_parts ‹_›

/-- `p` holds of the fragment and of everything inside it. -/
inductive Everywhere (p : Fragment → Prop) : Fragment → Prop where
  | intro {f : Fragment} : p f → (∀ g ∈ f.parts, Everywhere p g) → Everywhere p f

namespace Everywhere

variable {p q : Fragment → Prop} {f : Fragment}

theorem here (h : f.Everywhere p) : p f := by
  cases h with
  | intro h _ => exact h

theorem inside (h : f.Everywhere p) {g : Fragment} (hg : g ∈ f.parts) : g.Everywhere p := by
  cases h with
  | intro _ h => exact h g hg

theorem iff_parts : f.Everywhere p ↔ p f ∧ ∀ g ∈ f.parts, g.Everywhere p :=
  ⟨fun h => ⟨h.here, fun _ => h.inside⟩, fun h => .intro h.1 h.2⟩

theorem imp (h : f.Everywhere p) (hpq : ∀ g, p g → q g) : f.Everywhere q := by
  induction h with
  | intro hf _ ih => exact .intro (hpq _ hf) ih

end Everywhere

/-! ## Properties and entries one by one -/

section

variable {α : Type} {t : Fragment → α}

theorem eq_mapValues {ts : List (String × Fragment) → List (String × α)} (hnil : ts [] = [])
    (hcons : ∀ name f rest, ts ((name, f) :: rest) = (name, t f) :: ts rest) (props : Props) :
    ts props = Fields.mapValues t props := by
  induction props with
  | nil => exact hnil
  | cons entry rest ih => rw [hcons, ih]; rfl

theorem eq_map {ts : List Fragment → List α} (hnil : ts [] = [])
    (hcons : ∀ f rest, ts (f :: rest) = t f :: ts rest) (entries : List Fragment) :
    ts entries = entries.map t := by
  induction entries with
  | nil => exact hnil
  | cons f rest ih => rw [hcons, ih]; rfl

end

theorem markEntries_eq (entries : List Fragment) :
    markEntries entries = entries.map markOptional :=
  eq_map rfl (fun _ _ => rfl) entries

theorem bareProps_eq (props : Props) : bareProps props = Fields.mapValues toBare props :=
  eq_mapValues rfl (fun _ _ _ => rfl) props

theorem bareEntries_eq (entries : List Fragment) : bareEntries entries = entries.map toBare :=
  eq_map rfl (fun _ _ => rfl) entries

/-! ## Marks and bare leaves -/

theorem primitive_optional (name : String) (mark : Bool) :
    (primitive name).optional mark = .leaf (.primitive name) { optional := mark } := by
  cases mark <;> rfl

theorem enumeration_optional (values : List LiteralValue) (mark : Bool) :
    (enumeration values).optional mark = .leaf (.enum values) { optional := mark } := by
  cases mark <;> rfl

@[simp] theorem markOptional_markOptional (f : Fragment) :
    f.markOptional.markOptional = f.markOptional := by
  induction f using induction_parts with
  | step f ih =>
    cases f with
    | leaf kind marks => cases kind <;> rfl
    | alternatives entries =>
      have marked : ∀ e ∈ entries, e.markOptional.markOptional = e.markOptional := ih
      simp only [markOptional, markEntries_eq, List.map_map]
      exact congrArg alternatives (List.map_congr_left marked)
    | _ => rfl

theorem optional_optional (f : Fragment) (mark mark' : Bool) :
    (f.optional mark).optional mark' = f.optional (mark || mark') := by
  cases mark with
  | false => rfl
  | true =>
    cases mark' with
    | false => rfl
    | true => exact f.markOptional_markOptional

theorem optional_withExtras (f : Fragment) (extras : Extras) (mark : Bool) :
    (f.withExtras extras).optional mark = (f.optional mark).withExtras extras := by
  cases mark with
  | false => rfl
  | true =>
    cases extras with
    | nil => rfl
    | cons extra rest =>
      cases f with
      | leaf kind marks => cases kind <;> rfl
      | _ => rfl

theorem wrapped_eq (props : Props) (optional : Bool) (extras : Extras) :
    ((object props {}).optional optional).withExtras extras =
      .object props ⟨optional, Fields.merge [] extras⟩ := by
  cases optional <;> cases extras <;> rfl

theorem parts_withExtras (f : Fragment) (extras : Extras) :
    (f.withExtras extras).parts = f.parts := by
  unfold withExtras
  split
  · rfl
  · cases f <;> rfl

theorem mem_parts_markOptional {f g : Fragment} (h : g ∈ f.markOptional.parts) :
    g ∈ f.parts ∨ ∃ e ∈ f.parts, e.markOptional = g := by
  cases f with
  | leaf kind marks => cases kind <;> cases h
  | alternatives entries =>
    have h : g ∈ markEntries entries := h
    rw [markEntries_eq] at h
    exact .inr (List.mem_map.1 h)
  | _ => exact .inl h

theorem mem_parts_toBare {f g : Fragment} (h : g ∈ f.toBare.parts) :
    ∃ e ∈ f.parts, e.toBare = g := by
  have bared : ∀ props : Props, g ∈ (bareProps props).map Prod.snd →
      ∃ e ∈ props.map Prod.snd, e.toBare = g := by
    intro props h
    rw [bareProps_eq, Fields.mapValues, List.map_map] at h
    obtain ⟨entry, hentry, rfl⟩ := List.mem_map.1 h
    exact ⟨entry.2, List.mem_map_of_mem hentry, rfl⟩
  cases f with
  | object props marks => exact bared props h
  | flat props extras => exact bared props h
  | alternatives entries =>
    have h : g ∈ bareEntries entries := h
    rw [bareEntries_eq] at h
    exact List.mem_map.1 h
  | _ => cases h

theorem Everywhere.markOptional {p : Fragment → Prop} (hp : ∀ f, p f → p f.markOptional)
    {f : Fragment} (h : f.Everywhere p) : f.markOptional.Everywhere p := by
  induction f using induction_parts with
  | step f ih =>
    refine .intro (hp f h.here) fun g hg => ?_
    rcases mem_parts_markOptional hg with hg | ⟨e, he, rfl⟩
    · exact h.inside hg
    · exact ih e he (h.inside he)

theorem Everywhere.optional {p : Fragment → Prop} (hp : ∀ f, p f → p f.markOptional) {f : Fragment}
    (h : f.Everywhere p) (mark : Bool) : (f.optional mark).Everywhere p := by
  cases mark with
  | false => exact h
  | true => exact h.markOptional hp

theorem Everywhere.toBare {p q : Fragment → Prop} (hpq : ∀ f, p f → q f.toBare) {f : Fragment}
    (h : f.Everywhere p) : f.toBare.Everywhere q := by
  induction f using induction_parts with
  | step f ih =>
    refine .intro (hpq f h.here) fun g hg => ?_
    obtain ⟨e, he, rfl⟩ := mem_parts_toBare hg
    exact ih e he (h.inside he)

end Fragment

end SchemaSynth
