import SchemaSynth.Proofs.Fragment.Unwrapping
import SchemaSynth.Proofs.Walk.Annotation

/-!
# Wrapped and flat objects

The two styles of objects say the same. A walk in flat style makes the visits of one in wrapped
style, and its schemas are those of the other with the `type` taken off their objects
(`schema_flat`), but for extras: a member has no place for them at a flat object.
-/

namespace SchemaSynth

def Config.withObjects (config : Config) (objects : ObjectStyle) : Config :=
  { config with mode := { config.mode with objects } }

namespace Walk

/-- A fragment without extras and with its objects flat. -/
def flatten (f : Fragment) : Fragment := f.eraseExtras.unwrap

section

variable {config : Config}

theorem flatten_optional (f : Fragment) (mark : Bool) :
    flatten (f.optional mark) = (flatten f).optional mark := by
  simp [flatten]

theorem flattenProps_eq (props : Props) :
    Fragment.unwrapProps (Fragment.eraseProps props) = Fields.mapValues flatten props := by
  rw [Fragment.unwrapProps_eq, Fragment.eraseProps_eq]
  simp [Fields.mapValues, flatten, Function.comp_def]

theorem assemble_flat (config : Config) (frame frame' : Frame) (optional : Bool) (props : Props)
    (extras : Extras) :
    flatten (assemble config frame optional props extras) =
      assemble (config.withObjects .flat) frame' optional (Fields.mapValues flatten props) [] := by
  have hflat : writesFlat (config.withObjects .flat) frame' = true := by
    simp [writesFlat, Config.withObjects]
  unfold assemble
  rw [hflat, Fields.mapValues_isEmpty]
  cases props with
  | nil => rfl
  | cons entry rest =>
    simp only [List.isEmpty_cons, Bool.false_eq_true, ↓reduceIte]
    split
    · simp [flatten, Fragment.eraseExtras, Fragment.unwrap, flattenProps_eq]
    · -- The marker goes with the `type`: a flat object has no place for it.
      rw [flatten, Fragment.eraseExtras_withExtras, Fragment.eraseExtras_optional,
        Fragment.unwrap_optional, Fragment.eraseExtras, Fragment.unwrap, flattenProps_eq]
      cases optional <;> rfl

theorem unwrap_styleLeaves (f : Fragment) :
    (styleLeaves config f).unwrap = styleLeaves config f.unwrap := by
  unfold styleLeaves
  cases config.mode.leaves
  · rfl
  · exact Fragment.unwrap_toBare f

/-- Walks that differ in the style of objects alone make the same schemas, once these have neither
extras nor wrapped objects. -/
theorem recast_flatten (config : Config) :
    Recast (config.withObjects .wrapped) ((config.withObjects .flat).annotated false) flatten where
  maxDepth := rfl
  arrayItems := rfl
  role _ := rfl
  empty := rfl
  leaf kind optional := flatten_optional (.leaf kind {}) optional
  items optional f := flatten_optional (.arrayOf f {}) optional
  alternatives optional fs := by
    rw [flatten_optional, flatten, Fragment.eraseExtras, Fragment.unwrap, Fragment.eraseEntries_eq,
      Fragment.unwrapEntries_eq, List.map_map]
    rfl
  annotateMember _ tags f := congrArg Fragment.unwrap (eraseExtras_annotateMember tags f)
  props f := by
    rw [flatten, Fragment.props?_unwrap, Fragment.props?_eraseExtras]
    simp [Fields.mapValues, flatten, Function.comp_def]
  objectExtras f := by
    rw [flatten, Fragment.objectExtras?_unwrap, Fragment.objectExtras?_eraseExtras]
  assemble optional props extras _ := assemble_flat ..
  styleLeaves f := by
    rw [flatten, eraseExtras_styleLeaves, unwrap_styleLeaves]
    rfl

end

end Walk

open Walk

/-- With flat objects a type has the schema that it has with wrapped ones, with the properties of
every object in place of the object, but for the extras; or the same error. -/
theorem TypeTable.schema_flat (table : TypeTable) (config : Config) (root : TypeId)
    (additional : Bool) :
    Fragment.eraseExtras <$> table.schema (config.withObjects .flat) root additional =
      (fun f => f.eraseExtras.unwrap) <$>
        table.schema (config.withObjects .wrapped) root additional := by
  have unannotated : table.schema ((config.withObjects .flat).annotated false) root additional =
      Fragment.eraseExtras <$> table.schema (config.withObjects .flat) root additional :=
    (recast_eraseExtras (config.withObjects .flat) config.mode.annotations false).schema_eq
      table root additional rfl
  exact unannotated.symm.trans ((recast_flatten config).schema_eq table root additional rfl)

end SchemaSynth
