import SchemaSynth.Proofs.Fragment.Rewriting

/-!
# Fragments without wrapped objects

`Fragment.unwrap` puts the properties of every wrapped object in the place of the object, at every
depth. With the `type` the optional marker goes; extras stay. Marking and baring fragments commute
with it: what carries no marker loses none.
-/

namespace SchemaSynth

namespace Fragment

mutual

/-- The fragment with its objects flat. -/
def unwrap : Fragment → Fragment
  | .object props marks => .flat (unwrapProps props) marks.extras
  | .flat props extras => .flat (unwrapProps props) extras
  | .arrayOf items marks => .arrayOf (unwrap items) marks
  | .alternatives entries => .alternatives (unwrapEntries entries)
  | .leaf kind marks => .leaf kind marks
  | .empty => .empty
  | .bare name => .bare name

def unwrapProps : List (String × Fragment) → List (String × Fragment)
  | [] => []
  | (name, f) :: rest => (name, unwrap f) :: unwrapProps rest

def unwrapEntries : List Fragment → List Fragment
  | [] => []
  | f :: rest => unwrap f :: unwrapEntries rest

end

theorem unwrapProps_eq (props : Props) : unwrapProps props = Fields.mapValues unwrap props :=
  eq_mapValues rfl (fun _ _ _ => rfl) props

theorem unwrapEntries_eq (entries : List Fragment) :
    unwrapEntries entries = entries.map unwrap :=
  eq_map rfl (fun _ _ => rfl) entries

def unwrapNode : Fragment → Fragment
  | .object props marks => .flat props marks.extras
  | f => f

theorem rewrites_unwrap : Rewrites unwrapNode unwrap where
  eq f := by
    cases f with
    | object props marks => rw [unwrap, unwrapProps_eq]; rfl
    | flat props extras => rw [unwrap, unwrapProps_eq]; rfl
    | alternatives entries => rw [unwrap, unwrapEntries_eq]; rfl
    | _ => rfl
  natural u f := by cases f <;> rfl

@[simp] theorem unwrap_optional (f : Fragment) (mark : Bool) :
    (f.optional mark).unwrap = f.unwrap.optional mark := by
  refine rewrites_unwrap.optional (fun _ => rfl) (fun f => ?_) f mark
  cases f with
  | leaf kind marks => cases kind <;> rfl
  | _ => rfl

theorem unwrap_toBare (f : Fragment) : f.toBare.unwrap = f.unwrap.toBare :=
  rewrites_unwrap.commute rewrites_toBare (fun f => by cases f <;> rfl) f

theorem props?_unwrap (f : Fragment) :
    f.unwrap.props?.getD [] = Fields.mapValues unwrap (f.props?.getD []) :=
  rewrites_unwrap.props? (fun f => by cases f <;> rfl) f

@[simp] theorem objectExtras?_unwrap (f : Fragment) : f.unwrap.objectExtras? = f.objectExtras? := by
  cases f <;> rfl

end Fragment

end SchemaSynth
