import SchemaSynth.Proofs.Fragment.Levels

/-!
# Marks on what is forbidden

Nothing may stand in the slot of a `forbidden` node, so a mark that the slot is optional says nothing
there, and `markOptional` leaves `Leaf.forbidden` alone. A primitive may go by the same name, and is
marked like any other (`MarkedForbidden`): itself, or as an entry of a list in the slot
(`NamesForbidden`). `MarkedFor` tells the two apart and asks for a cause of the mark.
-/

namespace SchemaSynth

theorem Leaf.eq_of_typeName_eq_forbidden {kind : Leaf} (h : kind.typeName = "forbidden") :
    kind = .forbidden ∨ kind = .primitive "forbidden" := by
  cases kind with
  | primitive name => exact .inr (congrArg Leaf.primitive h)
  | forbidden => exact .inl rfl
  | enum values => exact absurd (show "enum" = "forbidden" from h) (by decide)
  | array => exact absurd h (by decide)
  | object => exact absurd h (by decide)

namespace Fragment

/-- The node is rendered as `forbidden`, with the mark that its slot is optional. -/
def MarkedForbidden (g : Fragment) : Prop :=
  ∃ kind marks, g = .leaf kind marks ∧ kind.typeName = "forbidden" ∧ marks.optional = true

/-- In the slot of the fragment stands a primitive with the name `forbidden`. -/
inductive NamesForbidden : Fragment → Prop where
  | leaf (marks : Marks) : NamesForbidden (.leaf (.primitive "forbidden") marks)
  | entry {entries : List Fragment} {e : Fragment} : e ∈ entries → NamesForbidden e →
      NamesForbidden (.alternatives entries)

/-- If the node is rendered as `forbidden` and marked, it is a primitive, and there is a cause. -/
def MarkedFor (cause : Prop) (g : Fragment) : Prop :=
  g.MarkedForbidden → (∃ marks, g = .leaf (.primitive "forbidden") marks) ∧ cause

section

variable {cause : Prop} {f : Fragment}

/-! ## The name -/

theorem NamesForbidden.of_markOptional (h : f.markOptional.NamesForbidden) : f.NamesForbidden := by
  induction f using induction_parts with
  | step f ih =>
    cases f with
    | leaf kind marks =>
      cases kind with
      | primitive name =>
        cases h
        exact .leaf marks
      | _ => cases h
    | alternatives entries =>
      have h : (alternatives (markEntries entries)).NamesForbidden := h
      rw [markEntries_eq] at h
      cases h with
      | entry he hname =>
        obtain ⟨entry, hentry, rfl⟩ := List.mem_map.1 he
        exact .entry hentry (ih entry hentry hname)
    | _ => cases h

theorem NamesForbidden.of_optional {mark : Bool} (h : (f.optional mark).NamesForbidden) :
    f.NamesForbidden := by
  cases mark with
  | false => exact h
  | true => exact h.of_markOptional

/-! ## Marks with a cause -/

theorem markedFor_leaf (kind : Leaf) : (leaf kind {}).MarkedFor cause := by
  rintro ⟨_, _, h, -, hmark⟩
  cases h
  cases hmark

theorem MarkedFor.withExtras (h : f.MarkedFor cause) (extras : Extras) :
    (f.withExtras extras).MarkedFor cause := by
  unfold Fragment.withExtras
  split
  · exact h
  cases f with
  | leaf kind marks =>
    rintro ⟨_, _, hf, hname, hmark⟩
    cases hf
    obtain ⟨⟨_, hprimitive⟩, hcause⟩ := h ⟨kind, marks, rfl, hname, hmark⟩
    cases hprimitive
    exact ⟨⟨_, rfl⟩, hcause⟩
  | _ => exact nofun

theorem MarkedFor.markOptional (h : f.MarkedFor cause) (hcause : f.NamesForbidden → cause) :
    f.markOptional.MarkedFor cause := by
  cases f with
  | leaf kind marks =>
    by_cases hkind : kind = .forbidden
    · subst hkind
      exact h
    · rintro ⟨kind', marks', hf, hname, -⟩
      have hmarked : (leaf kind marks).markOptional = leaf kind { marks with optional := true } := by
        cases kind with
        | forbidden => exact absurd rfl hkind
        | _ => rfl
      obtain ⟨rfl, rfl⟩ := leaf.inj (hmarked.symm.trans hf)
      obtain rfl := (Leaf.eq_of_typeName_eq_forbidden hname).resolve_left hkind
      exact ⟨⟨_, hmarked⟩, hcause (.leaf marks)⟩
  | _ => exact nofun

namespace Everywhere

theorem markForbidden (h : f.Everywhere (MarkedFor cause)) (hcause : f.NamesForbidden → cause) :
    f.markOptional.Everywhere (MarkedFor cause) := by
  induction f using induction_parts with
  | step f ih =>
    refine .intro (h.here.markOptional hcause) fun g hg => ?_
    cases f with
    | leaf kind marks => cases kind <;> cases hg
    | alternatives entries =>
      have hg : g ∈ markEntries entries := hg
      rw [markEntries_eq] at hg
      obtain ⟨e, he, rfl⟩ := List.mem_map.1 hg
      exact ih e he (h.inside he) fun hname => hcause (.entry he hname)
    | _ => exact h.inside hg

theorem optionalForbidden (h : f.Everywhere (MarkedFor cause)) {mark : Bool}
    (hcause : mark = true → f.NamesForbidden → cause) :
    (f.optional mark).Everywhere (MarkedFor cause) := by
  cases mark with
  | false => exact h
  | true => exact h.markForbidden (hcause rfl)

end Everywhere

theorem not_markedForbidden_toBare (f : Fragment) : ¬ f.toBare.MarkedForbidden := by
  rintro ⟨kind, marks, h, -⟩
  cases f <;> cases h

/-- Every mark has its cause, and if there is a name in the slot to mark, that has a reason too. -/
structure Accounted (cause reason : Prop) (f : Fragment) : Prop where
  marks : f.Everywhere (MarkedFor cause)
  names : f.NamesForbidden → reason

namespace Accounted

variable {reason : Prop} {mark : Bool}

theorem imp {reason' : Prop} (h : f.Accounted cause reason) (hreason : reason → reason') :
    f.Accounted cause reason' :=
  ⟨h.marks, fun hname => hreason (h.names hname)⟩

/-- A mark is accounted for if the reason for a name is a cause to mark it. -/
theorem optional (h : f.Accounted cause reason) (hcause : mark = true → reason → cause) :
    (f.optional mark).Accounted cause reason where
  marks := h.marks.optionalForbidden fun hmark hname => hcause hmark (h.names hname)
  names hname := h.names hname.of_optional

theorem leaf {kind : Leaf} (hreason : kind = .primitive "forbidden" → reason) :
    (Fragment.leaf kind {}).Accounted cause reason where
  marks := .intro (markedFor_leaf kind) (List.forall_mem_nil _)
  names hname := by
    cases hname
    exact hreason rfl

theorem alternatives {entries : List Fragment} (h : ∀ e ∈ entries, e.Accounted cause reason) :
    (Fragment.alternatives entries).Accounted cause reason where
  marks := .intro nofun fun e he => (h e he).marks
  names hname := by
    cases hname with
    | entry he hname => exact (h _ he).names hname

/-- What is no leaf and no list has nothing in its slot but itself. -/
theorem of_parts (hleaf : ∀ kind marks, f ≠ .leaf kind marks)
    (hlist : ∀ entries, f ≠ .alternatives entries)
    (h : ∀ g ∈ f.parts, g.Everywhere (MarkedFor cause)) : f.Accounted cause reason where
  marks := .intro (fun ⟨kind, marks, hf, _⟩ => absurd hf (hleaf kind marks)) h
  names hname := by
    cases hname with
    | leaf marks => exact absurd rfl (hleaf _ marks)
    | entry => exact absurd rfl (hlist _)

end Accounted

end

end Fragment

end SchemaSynth
