import SchemaSynth.Proofs.Fragment.Rewriting

/-!
# Fragments without extras

`Fragment.eraseExtras` takes the extras out of a fragment at every depth. Marking, merging and
baring fragments commute with it, and adding extras disappears under it: none of them looks at the
extras that are there.
-/

namespace SchemaSynth

namespace Fragment

mutual

/-- The fragment with no extras anywhere. Without properties nothing is left of a flat object. -/
def eraseExtras : Fragment → Fragment
  | .leaf kind marks => .leaf kind { marks with extras := [] }
  | .arrayOf items marks => .arrayOf (eraseExtras items) { marks with extras := [] }
  | .object props marks => .object (eraseProps props) { marks with extras := [] }
  | .flat props _ => if props.isEmpty then .empty else .flat (eraseProps props) []
  | .alternatives entries => .alternatives (eraseEntries entries)
  | .empty => .empty
  | .bare name => .bare name

def eraseProps : List (String × Fragment) → List (String × Fragment)
  | [] => []
  | (name, f) :: rest => (name, eraseExtras f) :: eraseProps rest

def eraseEntries : List Fragment → List Fragment
  | [] => []
  | f :: rest => eraseExtras f :: eraseEntries rest

end

theorem eraseProps_eq (props : Props) : eraseProps props = Fields.mapValues eraseExtras props :=
  eq_mapValues rfl (fun _ _ _ => rfl) props

theorem eraseEntries_eq (entries : List Fragment) :
    eraseEntries entries = entries.map eraseExtras :=
  eq_map rfl (fun _ _ => rfl) entries

/-- The fragment without the extras beside its own `type` or properties. -/
def eraseNode : Fragment → Fragment
  | .leaf kind marks => .leaf kind { marks with extras := [] }
  | .arrayOf items marks => .arrayOf items { marks with extras := [] }
  | .object props marks => .object props { marks with extras := [] }
  | .flat props _ => if props.isEmpty then .empty else .flat props []
  | f => f

theorem rewrites_eraseExtras : Rewrites eraseNode eraseExtras where
  eq f := by
    cases f with
    | object props marks => rw [eraseExtras, eraseProps_eq]; rfl
    | flat props extras => simp only [eraseExtras, eraseNode, mapParts, eraseProps_eq,
        Fields.mapValues_isEmpty]
    | alternatives entries => rw [eraseExtras, eraseEntries_eq]; rfl
    | _ => rfl
  natural u f := by
    cases f with
    | flat props extras => cases props <;> rfl
    | _ => rfl

@[simp] theorem eraseExtras_optional (f : Fragment) (mark : Bool) :
    (f.optional mark).eraseExtras = f.eraseExtras.optional mark := by
  refine rewrites_eraseExtras.optional (fun _ => rfl) (fun f => ?_) f mark
  cases f with
  | leaf kind marks => cases kind <;> rfl
  | flat props extras => cases props <;> rfl
  | _ => rfl

@[simp] theorem eraseExtras_withExtras (f : Fragment) (extras : Extras) :
    (f.withExtras extras).eraseExtras = f.eraseExtras := by
  unfold withExtras
  split
  · rfl
  · cases f <;> rfl

theorem eraseExtras_toBare (f : Fragment) : f.toBare.eraseExtras = f.eraseExtras.toBare := by
  refine rewrites_eraseExtras.commute rewrites_toBare (fun f => ?_) f
  cases f with
  | flat props extras => cases props <;> rfl
  | _ => rfl

theorem props?_eraseExtras (f : Fragment) :
    f.eraseExtras.props?.getD [] = Fields.mapValues eraseExtras (f.props?.getD []) := by
  refine rewrites_eraseExtras.props? (fun f => ?_) f
  cases f with
  | flat props extras => cases props <;> rfl
  | _ => rfl

theorem objectExtras?_eraseExtras (f : Fragment) : f.eraseExtras.objectExtras?.getD [] = [] := by
  cases f with
  | flat props extras => cases props <;> rfl
  | _ => rfl

end Fragment

end SchemaSynth
