import Mathlib.Data.List.Induction
import SchemaSynth.Proofs.Fragment.Rewriting

/-!
# Edits of a fragment

A fragment may be bared, marked optional and given extras, time and again and in any order. What
comes of it hangs on three things alone (`Change`): all the extras merged, whether a mark was among
the edits, and whether leaves were bared. `Change.apply_add` says what one more edit does to a
change, and `edited_eq_change` what a list of edits comes to.
-/

namespace SchemaSynth

namespace Fragment

/-- Extras of which no name occurs twice. -/
structure Additions where
  extras : Extras
  distinct : extras.Distinct

namespace Additions

def none : Additions := ⟨[], Fields.distinct_nil⟩

/-- These extras, and then more of them. Later values win, first places are kept. -/
def merge (these more : Additions) : Additions :=
  ⟨Fields.merge these.extras more.extras, these.distinct.merge more.extras⟩

theorem merge_assoc (a b c : Additions) : (a.merge b).merge c = a.merge (b.merge c) := by
  unfold merge
  congr 1
  exact (Fields.merge_merge b.distinct a.extras c.extras).symm

theorem merge_none (a : Additions) : a.merge none = a := rfl

theorem none_merge (a : Additions) : none.merge a = a := by
  unfold merge
  congr 1
  exact Fields.ofList_eq_self a.distinct

end Additions

/-- A change to a fragment as a whole. -/
inductive Edit where
  /-- Put the name of the type in the place of leaves. -/
  | bare
  /-- Mark the slot optional, or leave it as it is. -/
  | optional (mark : Bool)
  /-- Put extras beside the `type`. -/
  | extras (more : Additions)

namespace Edit

def apply : Edit → Fragment → Fragment
  | .bare, f => f.toBare
  | .optional mark, f => f.optional mark
  | .extras more, f => f.withExtras more.extras

def bares : Edit → Bool
  | .bare => true
  | .optional _ | .extras _ => false

def marks : Edit → Bool
  | .optional mark => mark
  | .bare | .extras _ => false

def entries : Edit → Extras
  | .extras more => more.extras
  | .bare | .optional _ => []

def allEntries (edits : List Edit) : Extras := edits.flatMap entries

end Edit

/-- What counts of a list of edits. -/
structure Change where
  additions : Additions
  optional : Bool
  bare : Bool

namespace Change

/-- All extras first, then the mark, then the bare leaves. -/
def apply (change : Change) (f : Fragment) : Fragment :=
  let marked := (f.withExtras change.additions.extras).optional change.optional
  if change.bare then marked.toBare else marked

/-- The change after one more edit. -/
def add (change : Change) : Edit → Change
  | .bare => { change with bare := true }
  | .optional mark => { change with optional := change.optional || mark }
  | .extras more => { change with additions := change.additions.merge more }

/-- The change that edits come to. -/
def ofEdits (edits : List Edit) : Change where
  additions := ⟨Fields.ofList (Edit.allEntries edits), Fields.distinct_ofList _⟩
  optional := edits.any Edit.marks
  bare := edits.any Edit.bares

theorem ofEdits_concat (edits : List Edit) (edit : Edit) :
    ofEdits (edits ++ [edit]) = (ofEdits edits).add edit := by
  cases edit with
  | bare => simp [ofEdits, add, Edit.allEntries, Edit.entries, Edit.marks, Edit.bares]
  | optional mark => simp [ofEdits, add, Edit.allEntries, Edit.entries, Edit.marks, Edit.bares]
  | extras more =>
    have merged : Fields.ofList (edits.flatMap Edit.entries ++ more.extras) =
        Fields.merge (Fields.ofList (edits.flatMap Edit.entries)) more.extras :=
      Fields.merge_append _ _ _
    simpa [ofEdits, add, Edit.allEntries, Edit.entries, Edit.marks, Edit.bares, Additions.merge]
      using merged

/-- Names stand where they first came, each with the value that came last. -/
theorem additions_ofEdits (edits : List Edit) :
    Fields.keys (ofEdits edits).additions.extras =
        (Fields.keys (Edit.allEntries edits)).eraseDups ∧
      ∀ key, Fields.get? (ofEdits edits).additions.extras key =
        Fields.get? (Edit.allEntries edits).reverse key := by
  refine ⟨Fields.keys_ofList _, fun key => ?_⟩
  exact (Fields.get?_merge_reverse [] _ key).trans Option.or_none

end Change

/-! ## Two edits -/

section

variable (f : Fragment)

theorem toBare_withExtras (extras : Extras) :
    (f.withExtras extras).toBare = f.toBare.withExtras extras := by
  cases extras with
  | nil => rfl
  | cons extra rest => cases f <;> rfl

theorem withExtras_withExtras (these more : Additions) :
    (f.withExtras these.extras).withExtras more.extras =
      f.withExtras (these.merge more).extras := by
  obtain ⟨these, hthese⟩ := these
  obtain ⟨more, hmore⟩ := more
  show (f.withExtras these).withExtras more = f.withExtras (Fields.merge these more)
  cases these with
  | nil => rw [show Fields.merge [] more = more from Fields.ofList_eq_self hmore]; rfl
  | cons extra rest =>
    cases more with
    | nil => rfl
    | cons extra' rest' =>
      have nonempty : (Fields.merge (extra :: rest) (extra' :: rest')).isEmpty = false :=
        List.isEmpty_eq_false_iff.2 (Fields.merge_ne_nil (List.cons_ne_nil _ _) _)
      have assoc (own : Extras) := Fields.merge_merge hthese own (extra' :: rest')
      cases f <;> simp [withExtras, nonempty, Marks.withExtras, assoc]

end

/-! ## Any number of edits -/

/-- It makes no difference whether an edit is part of a change or made after it. -/
theorem Change.apply_add (change : Change) (edit : Edit) (f : Fragment) :
    (change.add edit).apply f = edit.apply (change.apply f) := by
  obtain ⟨more, mark, bare⟩ := change
  cases edit with
  | bare => cases bare <;> simp [Change.add, Change.apply, Edit.apply]
  | optional mark' =>
    cases bare <;> simp [Change.add, Change.apply, Edit.apply, ← optional_optional, toBare_optional]
  | extras more' =>
    cases bare <;>
      simp [Change.add, Change.apply, Edit.apply, ← withExtras_withExtras, optional_withExtras,
        toBare_withExtras]

def edited (f : Fragment) (edits : List Edit) : Fragment :=
  edits.foldl (fun g edit => edit.apply g) f

theorem edited_eq_apply_ofEdits (f : Fragment) (edits : List Edit) :
    f.edited edits = (Change.ofEdits edits).apply f := by
  induction edits using List.reverseRecOn with
  | nil => rfl
  | append_singleton edits edit ih =>
    rw [Change.ofEdits_concat, Change.apply_add, ← ih]
    exact List.foldl_append

/-- A list of edits is one change: the extras of all of them merged, then the mark if one was put,
then the bare leaves if there were any. So two edits of different kinds may change places, marks and
bare leaves come once, and extras may be merged beforehand. -/
theorem edited_eq_change (f : Fragment) :
    (∀ edits : List Edit, let change := Change.ofEdits edits
      f.edited edits = change.apply f ∧
      Fields.keys change.additions.extras = (Fields.keys (Edit.allEntries edits)).eraseDups ∧
      ∀ key, Fields.get? change.additions.extras key =
        Fields.get? (Edit.allEntries edits).reverse key) ∧
    (∀ (more : Additions) (mark : Bool),
      (f.withExtras more.extras).optional mark = (f.optional mark).withExtras more.extras ∧
      (f.withExtras more.extras).toBare = f.toBare.withExtras more.extras ∧
      (f.optional mark).toBare = f.toBare.optional mark) ∧
    (∀ mark, (f.optional mark).optional mark = f.optional mark) ∧
    f.toBare.toBare = f.toBare ∧
    ∀ a b c : Additions,
      (f.withExtras a.extras).withExtras b.extras = f.withExtras (a.merge b).extras ∧
      (a.merge b).merge c = a.merge (b.merge c) ∧
      a.merge .none = a ∧ Additions.none.merge a = a := by
  refine ⟨fun edits => ⟨f.edited_eq_apply_ofEdits edits, Change.additions_ofEdits edits⟩,
    fun more mark => ⟨?_, ?_, ?_⟩, fun mark => ?_, f.toBare_toBare, fun a b c => ⟨?_, ?_, ?_⟩⟩
  · exact f.optional_withExtras more.extras mark
  · exact f.toBare_withExtras more.extras
  · exact f.toBare_optional mark
  · rw [optional_optional, Bool.or_self]
  · exact f.withExtras_withExtras a b
  · exact Additions.merge_assoc a b c
  · exact ⟨a.merge_none, a.none_merge⟩

/-- The entries of a list are marked before they are bared, so the mark is lost with the rest. -/
example : (alternatives [forbidden, primitive "string"]).edited [.optional true, .bare] =
    .alternatives [.bare "forbidden", .bare "string"] := rfl

end Fragment

end SchemaSynth
