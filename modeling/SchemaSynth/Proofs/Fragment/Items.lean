import SchemaSynth.Proofs.Fragment.Rewriting

/-!
# Fragments without items

`Fragment.dropItems` leaves of every array only that it is one, with its marks. Marking fragments,
adding extras and taking the properties of an object commute with it, since none of them looks into
an array; and once leaves are bare it changes nothing, since an array is a name by then.
-/

namespace SchemaSynth

namespace Fragment

mutual

/-- The fragment with its arrays of anything. -/
def dropItems : Fragment → Fragment
  | .arrayOf _ marks => .leaf .array marks
  | .object props marks => .object (dropItemsProps props) marks
  | .flat props extras => .flat (dropItemsProps props) extras
  | .alternatives entries => .alternatives (dropItemsEntries entries)
  | .leaf kind marks => .leaf kind marks
  | .empty => .empty
  | .bare name => .bare name

def dropItemsProps : List (String × Fragment) → List (String × Fragment)
  | [] => []
  | (name, f) :: rest => (name, dropItems f) :: dropItemsProps rest

def dropItemsEntries : List Fragment → List Fragment
  | [] => []
  | f :: rest => dropItems f :: dropItemsEntries rest

end

theorem dropItemsProps_eq (props : Props) :
    dropItemsProps props = Fields.mapValues dropItems props :=
  eq_mapValues rfl (fun _ _ _ => rfl) props

theorem dropItemsEntries_eq (entries : List Fragment) :
    dropItemsEntries entries = entries.map dropItems :=
  eq_map rfl (fun _ _ => rfl) entries

def dropItemsNode : Fragment → Fragment
  | .arrayOf _ marks => .leaf .array marks
  | f => f

theorem rewrites_dropItems : Rewrites dropItemsNode dropItems where
  eq f := by
    cases f with
    | object props marks => rw [dropItems, dropItemsProps_eq]; rfl
    | flat props extras => rw [dropItems, dropItemsProps_eq]; rfl
    | alternatives entries => rw [dropItems, dropItemsEntries_eq]; rfl
    | _ => rfl
  natural u f := by cases f <;> rfl

/-! ## Marks and extras -/

@[simp] theorem dropItems_optional (f : Fragment) (mark : Bool) :
    (f.optional mark).dropItems = f.dropItems.optional mark := by
  refine rewrites_dropItems.optional (fun _ => rfl) (fun f => ?_) f mark
  cases f with
  | leaf kind marks => cases kind <;> rfl
  | _ => rfl

@[simp] theorem isMapping_dropItems (f : Fragment) : f.dropItems.isMapping = f.isMapping := by
  cases f <;> rfl

@[simp] theorem dropItems_withExtras (f : Fragment) (extras : Extras) :
    (f.withExtras extras).dropItems = f.dropItems.withExtras extras := by
  unfold withExtras
  split
  · rfl
  · cases f <;> rfl

/-! ## Objects -/

theorem props?_dropItems (f : Fragment) :
    f.dropItems.props?.getD [] = Fields.mapValues dropItems (f.props?.getD []) :=
  rewrites_dropItems.props? (fun f => by cases f <;> rfl) f

@[simp] theorem objectExtras?_dropItems (f : Fragment) :
    f.dropItems.objectExtras? = f.objectExtras? := by
  cases f <;> rfl

/-! ## Bare leaves -/

theorem dropItems_toBare (f : Fragment) : f.toBare.dropItems = f.toBare :=
  rewrites_dropItems.comp_eq rewrites_toBare rewrites_toBare (fun f => by cases f <;> rfl) f

theorem toBare_dropItems (f : Fragment) : f.dropItems.toBare = f.toBare :=
  rewrites_toBare.comp_eq rewrites_dropItems rewrites_toBare (fun f => by cases f <;> rfl) f

end Fragment

end SchemaSynth
