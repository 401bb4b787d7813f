import SchemaSynth.Proofs.Fragment.Parts

/-!
# The levels of a fragment

`Fragment.level n` are the fragments that stand `n` levels below a fragment, each level one of
items, properties or entries. `FitsIn` bounds the number of levels; where there is room to spare, an
array on the last level may have a leaf for its items all the same.
-/

namespace SchemaSynth

namespace Fragment

/-- The fragments so many levels below a fragment. -/
def level : Nat → Fragment → List Fragment
  | 0, f => [f]
  | n + 1, f => f.parts.flatMap (level n)

/-- There are at most so many levels below the fragment. With room to spare an array on the last of
them may have items, if these are a leaf. -/
def FitsIn (spare : Prop) : Nat → Fragment → Prop
  | 0, f => f.parts = [] ∨ spare ∧ ∃ kind marks own, f = .arrayOf (.leaf kind marks) own
  | n + 1, f => ∀ g ∈ f.parts, FitsIn spare n g

section

variable {spare : Prop} {n k : Nat} {f g : Fragment}

theorem FitsIn.succ (h : f.FitsIn spare n) : f.FitsIn spare (n + 1) := by
  induction n generalizing f with
  | zero =>
    intro g hg
    rcases h with h | ⟨-, kind, marks, own, rfl⟩
    · rw [h] at hg
      cases hg
    · obtain rfl := List.mem_singleton.1 hg
      exact .inl rfl
  | succ n ih => exact fun g hg => ih (h g hg)

theorem FitsIn.props (h : f.FitsIn spare n) {entry : String × Fragment}
    (hentry : entry ∈ f.props?.getD []) : entry.2.FitsIn spare n := by
  have hpart : entry.2 ∈ f.parts := mem_parts_of_mem_props hentry
  cases n with
  | zero =>
    rcases h with h | ⟨-, kind, marks, own, rfl⟩
    · rw [h] at hpart
      cases hpart
    · cases hentry
  | succ n => exact (h _ hpart).succ

/-! ## Marks, extras and bare leaves -/

theorem FitsIn.markOptional (h : f.FitsIn spare n) : f.markOptional.FitsIn spare n := by
  induction n generalizing f with
  | zero =>
    rcases h with h | ⟨hspare, kind, marks, own, rfl⟩
    · refine .inl (List.eq_nil_iff_forall_not_mem.2 fun g hg => ?_)
      rcases mem_parts_markOptional hg with hg | ⟨e, he, -⟩
      · rw [h] at hg
        cases hg
      · rw [h] at he
        cases he
    · exact .inr ⟨hspare, kind, marks, _, rfl⟩
  | succ n ih =>
    intro g hg
    rcases mem_parts_markOptional hg with hg | ⟨e, he, rfl⟩
    · exact h g hg
    · exact ih (h e he)

theorem FitsIn.optional (h : f.FitsIn spare n) (mark : Bool) :
    (f.optional mark).FitsIn spare n := by
  cases mark with
  | false => exact h
  | true => exact h.markOptional

theorem FitsIn.withExtras (h : f.FitsIn spare n) (extras : Extras) :
    (f.withExtras extras).FitsIn spare n := by
  cases n with
  | zero =>
    rcases h with h | ⟨hspare, kind, marks, own, rfl⟩
    · exact .inl ((parts_withExtras f extras).trans h)
    · refine .inr ⟨hspare, kind, marks, ?_⟩
      unfold Fragment.withExtras
      split
      · exact ⟨own, rfl⟩
      · exact ⟨_, rfl⟩
  | succ n =>
    intro g hg
    rw [parts_withExtras] at hg
    exact h g hg

/-- With bare leaves arrays have no items, so there is no room that could be spared. -/
theorem FitsIn.toBare (h : f.FitsIn spare n) : f.toBare.FitsIn False n := by
  induction n generalizing f with
  | zero =>
    refine .inl (List.eq_nil_iff_forall_not_mem.2 fun g hg => ?_)
    rcases h with h | ⟨-, kind, marks, own, rfl⟩
    · obtain ⟨e, he, -⟩ := mem_parts_toBare hg
      rw [h] at he
      cases he
    · cases hg
  | succ n ih =>
    intro g hg
    obtain ⟨e, he, rfl⟩ := mem_parts_toBare hg
    exact ih (h e he)

/-! ## Levels -/

theorem mem_level_succ : g ∈ f.level (n + 1) ↔ ∃ part ∈ f.parts, g ∈ part.level n :=
  List.mem_flatMap

theorem level_of_parts_eq_nil (h : f.parts = []) : f.level (n + 1) = [] := by
  rw [level, h]
  rfl

theorem Everywhere.of_mem_level {p : Fragment → Prop} (h : f.Everywhere p) (hg : g ∈ f.level n) :
    p g := by
  induction n generalizing f with
  | zero => exact List.mem_singleton.1 hg ▸ h.here
  | succ n ih =>
    obtain ⟨part, hpart, hg⟩ := mem_level_succ.1 hg
    exact ih (h.inside hpart) hg

/-- What fits stands on one of the levels, or is a leaf for the items of an array on the last. -/
theorem FitsIn.of_mem_level (h : f.FitsIn spare n) (hg : g ∈ f.level k) :
    k ≤ n ∨ k = n + 1 ∧ spare ∧ (∃ kind marks, g = .leaf kind marks) ∧
      ∃ own, .arrayOf g own ∈ f.level n := by
  induction n generalizing f k with
  | zero =>
    cases k with
    | zero => exact .inl (Nat.le_refl 0)
    | succ k =>
      rcases h with h | ⟨hspare, kind, marks, own, rfl⟩
      · rw [level_of_parts_eq_nil h] at hg
        cases hg
      · obtain ⟨part, hpart, hg⟩ := mem_level_succ.1 hg
        obtain rfl := List.mem_singleton.1 hpart
        cases k with
        | zero =>
          obtain rfl := List.mem_singleton.1 hg
          exact .inr ⟨rfl, hspare, ⟨kind, marks, rfl⟩, own, List.mem_singleton.2 rfl⟩
        | succ k => cases hg
  | succ n ih =>
    cases k with
    | zero => exact .inl (Nat.zero_le _)
    | succ k =>
      obtain ⟨part, hpart, hg⟩ := mem_level_succ.1 hg
      rcases ih (h part hpart) hg with hle | ⟨rfl, hspare, hleaf, own, hown⟩
      · exact .inl (Nat.succ_le_succ hle)
      · exact .inr ⟨rfl, hspare, hleaf, own, mem_level_succ.2 ⟨part, hpart, hown⟩⟩

end

end Fragment

end SchemaSynth
