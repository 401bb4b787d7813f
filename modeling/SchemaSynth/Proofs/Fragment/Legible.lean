import SchemaSynth.Proofs.Fragment.Rendering
import SchemaSynth.Proofs.Number.Value

/-!
# Fragments that can be read back

A fragment is rendered without a tag for what it is: a flat object shares its names with the `type`,
`props` and `optional` of other fragments, and primitive types their names with `enum` and `array`.
What can be told from the value all the same is told from its head (`form_toJson`), as long as there
are no extras and no bare names. For fragments that are `Legible` in this sense at every depth the
value determines the fragment (`eq_of_toJson`).
-/

namespace SchemaSynth

/-! ## Literals -/

/-- The number of a literal has no sign if it is zero. -/
def LiteralValue.Canonical : LiteralValue → Prop
  | .number x => x.Unsigned
  | .string _ | .boolean _ => True

theorem LiteralValue.eq_of_toJson {v w : LiteralValue} (hv : v.Canonical) (hw : w.Canonical)
    (h : v.toJson = w.toJson) : v = w := by
  cases v with
  | string s => cases w <;> cases h; rfl
  | boolean b => cases w <;> cases h; rfl
  | number x =>
    cases w with
    | number y => exact congrArg number (Binary64.eq_of_preferInt hv hw (Json.number.inj h))
    | _ => cases h

theorem map_inj_of_mem {α β : Type} {f : α → β} {xs ys : List α}
    (hf : ∀ x ∈ xs, ∀ y ∈ ys, f x = f y → x = y) (h : xs.map f = ys.map f) : xs = ys := by
  induction xs generalizing ys with
  | nil => exact (List.map_eq_nil_iff.1 h.symm).symm
  | cons x xs ih =>
    obtain ⟨y, ys, rfl, hxy, hrest⟩ := List.map_eq_cons_iff.1 h.symm
    have hx : x = y := hf x List.mem_cons_self y List.mem_cons_self hxy.symm
    have hxs : xs = ys := ih (fun a ha b hb =>
      hf a (List.mem_cons_of_mem _ ha) b (List.mem_cons_of_mem _ hb)) hrest.symm
    rw [hx, hxs]

namespace Leaf

/-- The names under `type` that are those of no primitive type. -/
def ownNames : List String := ["forbidden", "enum", "array", "object"]

/-- The name is not taken for that of another leaf, and literals have one text. -/
def Legible : Leaf → Prop
  | .primitive name => name ∉ ownNames
  | .enum values => ∀ value ∈ values, value.Canonical
  | .forbidden | .array | .object => True

theorem eq_of_typeName_of_body {kind kind' : Leaf} (h : kind.Legible) (h' : kind'.Legible)
    (hname : kind.typeName = kind'.typeName)
    (hbody : Fragment.leafBody kind = Fragment.leafBody kind') : kind = kind' := by
  have own {name : String} {kind : Leaf} (h : name ∉ ownNames) (hname : name = kind.typeName)
      (hkind : kind.typeName ∈ ownNames) : False := h (hname ▸ hkind)
  cases kind with
  | primitive name =>
    cases kind' with
    | primitive name' => exact congrArg primitive hname
    | _ => exact (own h hname (by simp [typeName, ownNames])).elim
  | enum values =>
    cases kind' with
    | primitive name' => exact (own h' hname.symm (by simp [typeName, ownNames])).elim
    | enum values' =>
      have hvalues : values.map LiteralValue.toJson = values'.map LiteralValue.toJson := by
        simpa [Fragment.leafBody] using hbody
      refine congrArg enum (map_inj_of_mem (fun v hv w hw => ?_) hvalues)
      exact LiteralValue.eq_of_toJson (h v hv) (h' w hw)
    | _ => exact absurd hname (by simp [typeName])
  | _ =>
    cases kind' with
    | primitive name' => exact (own h' hname.symm (by simp [typeName, ownNames])).elim
    | _ => first | rfl | exact absurd hname (by simp [typeName])

end Leaf

/-! ## Forms -/

/-- What a fragment is at its head. -/
inductive Form where
  | empty
  | typed
  | flat
  | list
  | bare
deriving DecidableEq, Repr

namespace Fragment

def form : Fragment → Form
  | .empty => .empty
  | .leaf .. | .arrayOf .. | .object .. => .typed
  | .flat .. => .flat
  | .alternatives _ => .list
  | .bare _ => .bare

end Fragment

/-- The form that a value shows: a `type` is a string, and stands first. -/
def Json.form : Json → Form
  | .object [] => .empty
  | .object ((_, .string _) :: _) => .typed
  | .object _ => .flat
  | .array _ => .list
  | _ => .bare

namespace Fragment

/-- There is nothing about the fragment that its value does not tell: it has no extras, is no bare
name and, if flat, has properties. -/
def Legible : Fragment → Prop
  | .empty | .alternatives _ => True
  | .leaf kind marks => kind.Legible ∧ marks.extras = []
  | .arrayOf _ marks | .object _ marks => marks.extras = []
  | .flat props extras => props ≠ [] ∧ extras = []
  | .bare _ => False

theorem Legible.markOptional {f : Fragment} (h : f.Legible) : f.markOptional.Legible := by
  cases f with
  | leaf kind marks => cases kind <;> exact h
  | _ => exact h

theorem typed_eq {typeName : String} {body : Fields Json} {marks : Marks} (h : marks.extras = []) :
    typed typeName body marks = .object (typedFields typeName body marks) := by
  unfold typed
  rw [h]
  rfl

/-- The form of a legible fragment shows in its value: of a flat object the first property is no
string, whatever its name. -/
theorem form_toJson {f : Fragment} (h : f.Everywhere Legible) : f.toJson.form = f.form := by
  have here := h.here
  cases f with
  | leaf kind marks =>
    show (typed _ _ _).form = _
    rw [typed_eq here.2]
    rfl
  | arrayOf items marks =>
    show (typed _ _ _).form = _
    rw [typed_eq here]
    rfl
  | object props marks =>
    show (typed _ _ _).form = _
    rw [typed_eq here]
    rfl
  | flat props extras =>
    obtain ⟨hprops, rfl⟩ := here
    obtain ⟨⟨name, first⟩, rest, rfl⟩ := List.exists_cons_of_ne_nil hprops
    have hfirst : first.Legible := (h.inside List.mem_cons_self).here
    cases first with
    | bare name => exact hfirst.elim
    | _ => rfl
  | bare name => exact here.elim
  | _ => rfl

/-! ## Equal values -/

section

variable {f g : Fragment}

theorem optional_notMem_of_append {body body' : Fields Json}
    (h : body ++ [("optional", .bool true)] = body') : "optional" ∈ Fields.keys body' := by
  rw [← h]
  simp [Fields.keys]

theorem typed_inj {typeName typeName' : String} {body body' : Fields Json} {marks marks' : Marks}
    (hmarks : marks.extras = []) (hmarks' : marks'.extras = [])
    (hbody : "optional" ∉ Fields.keys body) (hbody' : "optional" ∉ Fields.keys body')
    (h : typed typeName body marks = typed typeName' body' marks') :
    typeName = typeName' ∧ body = body' ∧ marks = marks' := by
  rw [typed_eq hmarks, typed_eq hmarks'] at h
  obtain ⟨hhead, htail⟩ : _ ∧ body ++ _ = body' ++ _ := List.cons.inj (Json.object.inj h)
  have hname : typeName = typeName' := Json.string.inj (Prod.mk.inj hhead).2
  obtain ⟨optional, extras⟩ := marks
  obtain ⟨optional', extras'⟩ := marks'
  obtain rfl : extras = [] := hmarks
  obtain rfl : extras' = [] := hmarks'
  cases optional <;> cases optional' <;>
    simp only [Bool.false_eq_true, ↓reduceIte, List.append_nil] at htail
  · exact ⟨hname, htail, rfl⟩
  · exact absurd (optional_notMem_of_append htail.symm) hbody
  · exact absurd (optional_notMem_of_append htail) hbody'
  · exact ⟨hname, List.append_cancel_right htail, rfl⟩

theorem propsToJson_inj {props props' : Props}
    (hparts : ∀ e ∈ props.map Prod.snd, ∀ e' ∈ props'.map Prod.snd, e.toJson = e'.toJson → e = e')
    (h : propsToJson props = propsToJson props') : props = props' := by
  rw [propsToJson_eq, propsToJson_eq] at h
  refine map_inj_of_mem (fun entry hentry entry' hentry' heq => ?_) h
  obtain ⟨hname, hvalue⟩ := Prod.mk.inj heq
  exact Prod.ext hname
    (hparts _ (List.mem_map_of_mem hentry) _ (List.mem_map_of_mem hentry') hvalue)

theorem entryToJson_of_legible (h : f.Legible) : entryToJson f = f.toJson := by
  cases f with
  | bare name => exact h.elim
  | _ => rfl

theorem optional_notMem_leafBody (kind : Leaf) : "optional" ∉ Fields.keys (leafBody kind) := by
  cases kind <;> simp [leafBody, Fields.keys]

theorem leafBody_ne (kind : Leaf) {key : String} (hkey : key ≠ "values") (value : Json) :
    leafBody kind ≠ [(key, value)] := by
  cases kind with
  | enum values =>
    intro h
    exact hkey (Prod.mk.inj (List.cons.inj h).1).1.symm
  | _ => exact nofun

theorem eq_of_typed (hf : f.Legible) (hg : g.Legible) (htyped : f.form = .typed)
    (htyped' : g.form = .typed)
    (hparts : ∀ e ∈ f.parts, ∀ e' ∈ g.parts, e.toJson = e'.toJson → e = e')
    (h : f.toJson = g.toJson) : f = g := by
  have items (v : Json) : "optional" ∉ Fields.keys [("items", v)] := by simp [Fields.keys]
  have props (v : Json) : "optional" ∉ Fields.keys [("props", v)] := by simp [Fields.keys]
  have leaf := optional_notMem_leafBody
  cases f with
  | leaf kind marks =>
    cases g with
    | leaf kind' marks' =>
      obtain ⟨hname, hbody, rfl⟩ := typed_inj hf.2 hg.2 (leaf kind) (leaf kind') h
      rw [Leaf.eq_of_typeName_of_body hf.1 hg.1 hname hbody]
    | arrayOf e' marks' =>
      obtain ⟨-, hbody, -⟩ := typed_inj hf.2 hg (leaf kind) (items _) h
      exact absurd hbody (leafBody_ne kind (by decide) _)
    | object props' marks' =>
      obtain ⟨-, hbody, -⟩ := typed_inj hf.2 hg (leaf kind) (props _) h
      exact absurd hbody (leafBody_ne kind (by decide) _)
    | _ => cases htyped'
  | arrayOf e marks =>
    cases g with
    | leaf kind' marks' =>
      obtain ⟨-, hbody, -⟩ := typed_inj hf hg.2 (items _) (leaf kind') h
      exact absurd hbody.symm (leafBody_ne kind' (by decide) _)
    | arrayOf e' marks' =>
      obtain ⟨-, hbody, rfl⟩ := typed_inj hf hg (items _) (items _) h
      have hitems : e.toJson = e'.toJson := (Prod.mk.inj (List.cons.inj hbody).1).2
      rw [hparts e (List.mem_singleton.2 rfl) e' (List.mem_singleton.2 rfl) hitems]
    | object props' marks' =>
      obtain ⟨hname, -, -⟩ := typed_inj hf hg (items _) (props _) h
      exact absurd hname (by decide)
    | _ => cases htyped'
  | object own marks =>
    cases g with
    | leaf kind' marks' =>
      obtain ⟨-, hbody, -⟩ := typed_inj hf hg.2 (props _) (leaf kind') h
      exact absurd hbody.symm (leafBody_ne kind' (by decide) _)
    | arrayOf e' marks' =>
      obtain ⟨hname, -, -⟩ := typed_inj hf hg (props _) (items _) h
      exact absurd hname (by decide)
    | object own' marks' =>
      obtain ⟨-, hbody, rfl⟩ := typed_inj hf hg (props _) (props _) h
      have hprops : propsToJson own = propsToJson own' :=
        Json.object.inj (Prod.mk.inj (List.cons.inj hbody).1).2
      rw [propsToJson_inj hparts hprops]
    | _ => cases htyped'
  | _ => cases htyped

/-- Legible fragments of one value are one fragment. -/
theorem eq_of_toJson (hf : f.Everywhere Legible) (hg : g.Everywhere Legible)
    (h : f.toJson = g.toJson) : f = g := by
  induction f using induction_parts generalizing g with
  | step f ih =>
    have hform : f.form = g.form := by rw [← form_toJson hf, ← form_toJson hg, h]
    have hparts : ∀ e ∈ f.parts, ∀ e' ∈ g.parts, e.toJson = e'.toJson → e = e' :=
      fun e he e' he' => ih e he (hf.inside he) (hg.inside he')
    cases f with
    | leaf | arrayOf | object => exact eq_of_typed hf.here hg.here rfl hform.symm hparts h
    | empty =>
      cases g with
      | empty => rfl
      | _ => cases hform
    | flat props extras =>
      cases g with
      | flat props' extras' =>
        obtain ⟨-, rfl⟩ := hf.here
        obtain ⟨-, rfl⟩ := hg.here
        have hprops : propsToJson props = propsToJson props' := Json.object.inj h
        rw [propsToJson_inj hparts hprops]
      | _ => cases hform
    | alternatives entries =>
      cases g with
      | alternatives entries' =>
        have hentries : entriesToJson entries = entriesToJson entries' := Json.array.inj h
        rw [entriesToJson_eq, entriesToJson_eq] at hentries
        refine congrArg alternatives (map_inj_of_mem (fun e he e' he' heq => ?_) hentries)
        rw [entryToJson_of_legible (hf.inside he).here,
          entryToJson_of_legible (hg.inside he').here] at heq
        exact hparts e he e' he' heq
      | _ => cases hform
    | bare name => exact hf.here.elim

end

end Fragment

end SchemaSynth
