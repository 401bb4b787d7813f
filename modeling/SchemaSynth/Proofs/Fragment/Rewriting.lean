import SchemaSynth.Proofs.Fragment.Parts

/-!
# Rewriting from the inside out

Baring leaves, erasing extras, unwrapping objects and dropping items all go the same way: the parts
of a fragment are rewritten first, then the fragment itself by a change that does not look into its
parts (`Rewrites`). What two such changes come to one after the other is decided on single fragments
(`Rewrites.comp_eq`), and so is whether they keep marks and properties in their places.
-/

namespace SchemaSynth

namespace Fragment

variable {node node' node'' t u v : Fragment → Fragment}

def mapParts (t : Fragment → Fragment) : Fragment → Fragment
  | .arrayOf items marks => .arrayOf (t items) marks
  | .object props marks => .object (Fields.mapValues t props) marks
  | .flat props extras => .flat (Fields.mapValues t props) extras
  | .alternatives entries => .alternatives (entries.map t)
  | .leaf kind marks => .leaf kind marks
  | .empty => .empty
  | .bare name => .bare name

theorem mapParts_mapParts (t u : Fragment → Fragment) (f : Fragment) :
    (f.mapParts u).mapParts t = f.mapParts (t ∘ u) := by
  cases f with
  | object props marks => exact congrArg (object · marks) (Fields.mapValues_mapValues u props t)
  | flat props extras => exact congrArg (flat · extras) (Fields.mapValues_mapValues u props t)
  | alternatives entries => exact congrArg alternatives List.map_map
  | _ => rfl

theorem mapParts_congr {f : Fragment} (h : ∀ g ∈ f.parts, t g = u g) :
    f.mapParts t = f.mapParts u := by
  cases f with
  | arrayOf items marks => exact congrArg (arrayOf · marks) (h items List.mem_cons_self)
  | object props marks => exact congrArg (object · marks) (Fields.mapValues_congr h)
  | flat props extras => exact congrArg (flat · extras) (Fields.mapValues_congr h)
  | alternatives entries => exact congrArg alternatives (List.map_congr_left h)
  | _ => rfl

/-- The branches of a union, not what is made of one type. -/
def isList : Fragment → Bool
  | .alternatives _ => true
  | _ => false

theorem mapParts_markOptional {f : Fragment} (h : f.isList = false) (t : Fragment → Fragment) :
    f.markOptional.mapParts t = (f.mapParts t).markOptional := by
  cases f with
  | leaf kind marks => cases kind <;> rfl
  | alternatives entries => cases h
  | _ => rfl

/-- `t` rewrites the parts of a fragment, and then what they stand in by `node`. -/
structure Rewrites (node t : Fragment → Fragment) : Prop where
  eq : ∀ f, t f = node (f.mapParts t)
  /-- The change is the same whatever the parts are. -/
  natural : ∀ (u : Fragment → Fragment) (f : Fragment), (node f).mapParts u = node (f.mapParts u)

namespace Rewrites

theorem unique (ht : Rewrites node t) (hu : Rewrites node u) (f : Fragment) : t f = u f := by
  induction f using induction_parts with
  | step f ih => rw [ht.eq, hu.eq, mapParts_congr ih]

theorem comp (ht : Rewrites node t) (hu : Rewrites node' u) : Rewrites (node ∘ node') (t ∘ u) where
  eq f := by
    show t (u f) = node (node' (f.mapParts (t ∘ u)))
    rw [ht.eq, hu.eq, hu.natural, mapParts_mapParts]
  natural v f := by
    show (node (node' f)).mapParts v = node (node' (f.mapParts v))
    rw [ht.natural, hu.natural]

/-- One change after another is a third if it is so on single fragments. -/
theorem comp_eq (ht : Rewrites node t) (hu : Rewrites node' u) (hv : Rewrites node'' v)
    (h : ∀ f, node (node' f) = node'' f) (f : Fragment) : t (u f) = v f := by
  have hcomp : Rewrites node'' (t ∘ u) := funext h ▸ ht.comp hu
  exact hcomp.unique hv f

theorem commute (ht : Rewrites node t) (hu : Rewrites node' u)
    (h : ∀ f, node (node' f) = node' (node f)) (f : Fragment) : t (u f) = u (t f) :=
  ht.comp_eq hu (hu.comp ht) h f

/-- The mark stays in its place if the change leaves lists alone and does not look at the mark. -/
theorem markOptional (ht : Rewrites node t)
    (hlist : ∀ entries, node (.alternatives entries) = .alternatives entries)
    (hmark : ∀ f, node f.markOptional = (node f).markOptional) (f : Fragment) :
    t f.markOptional = (t f).markOptional := by
  induction f using induction_parts with
  | step f ih =>
    cases h : f.isList with
    | false => rw [ht.eq, ht.eq f, mapParts_markOptional h, hmark]
    | true =>
      cases f with
      | alternatives entries =>
        have hentries : ∀ e ∈ entries, t e.markOptional = (t e).markOptional := ih
        simp only [Fragment.markOptional, markEntries_eq, ht.eq (.alternatives _), mapParts, hlist,
          List.map_map]
        exact congrArg alternatives (List.map_congr_left hentries)
      | _ => cases h

theorem optional (ht : Rewrites node t)
    (hlist : ∀ entries, node (.alternatives entries) = .alternatives entries)
    (hmark : ∀ f, node f.markOptional = (node f).markOptional) (f : Fragment) (mark : Bool) :
    t (f.optional mark) = (t f).optional mark := by
  cases mark with
  | false => rfl
  | true => exact ht.markOptional hlist hmark f

theorem props? (ht : Rewrites node t)
    (hprops : ∀ f, (node f).props?.getD [] = f.props?.getD []) (f : Fragment) :
    (t f).props?.getD [] = Fields.mapValues t (f.props?.getD []) := by
  rw [ht.eq, hprops]
  cases f <;> rfl

end Rewrites

/-! ## Bare leaves -/

/-- The name of the type in the place of a fragment without named parts. -/
def bareNode : Fragment → Fragment
  | .leaf kind _ => .bare kind.typeName
  | .arrayOf _ _ => .bare "array"
  | f => f

theorem rewrites_toBare : Rewrites bareNode toBare where
  eq f := by
    cases f with
    | object props marks => rw [toBare, bareProps_eq]; rfl
    | flat props extras => rw [toBare, bareProps_eq]; rfl
    | alternatives entries => rw [toBare, bareEntries_eq]; rfl
    | _ => rfl
  natural u f := by cases f <;> rfl

@[simp] theorem toBare_toBare (f : Fragment) : f.toBare.toBare = f.toBare :=
  rewrites_toBare.comp_eq rewrites_toBare rewrites_toBare (fun f => by cases f <;> rfl) f

theorem toBare_optional (f : Fragment) (mark : Bool) :
    (f.optional mark).toBare = f.toBare.optional mark := by
  refine rewrites_toBare.optional (fun _ => rfl) (fun f => ?_) f mark
  cases f with
  | leaf kind marks => cases kind <;> rfl
  | _ => rfl

end Fragment

end SchemaSynth
