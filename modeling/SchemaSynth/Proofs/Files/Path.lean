import Mathlib.Data.List.Basic
import SchemaSynth.Files.Path

/-!
# Paths, cut and joined

A text is cut at each slash: what is in front of a slash and what is behind it are cut on their own,
and a text without one is a single part. The name a path ends in is one of its parts, so neither it
nor its stem has a slash. `Path.join` puts a slash and a name behind a path that is not empty.
-/

namespace SchemaSynth

/-! ## Cutting -/

namespace Path

theorem split_append_slash (front back : List Char) :
    split (front ++ '/' :: back) = split front ++ split back := by
  induction front with
  | nil => simp [split]
  | cons c front ih =>
    simp only [List.cons_append, split, ih]
    split
    · rfl
    · cases h : split front with
      | nil => exact absurd h (split_ne_nil front)
      | cons part parts => rfl

theorem split_of_notMem {cs : List Char} (h : '/' ∉ cs) : split cs = [cs] := by
  induction cs with
  | nil => rfl
  | cons c cs ih =>
    simp only [List.mem_cons, not_or] at h
    simp [split, Ne.symm h.1, ih h.2]

theorem slash_notMem_of_mem_split {cs part : List Char} (h : part ∈ split cs) : '/' ∉ part := by
  induction cs generalizing part with
  | nil => simp_all [split]
  | cons c cs ih =>
    simp only [split] at h
    split at h
    · obtain rfl | h := List.mem_cons.1 h
      · simp
      · exact ih h
    · rename_i hc
      cases hs : split cs with
      | nil => exact absurd hs (split_ne_nil cs)
      | cons first rest =>
        rw [hs] at h ih
        obtain rfl | h := List.mem_cons.1 h
        · simp [Ne.symm hc, ih List.mem_cons_self]
        · exact ih (List.mem_cons_of_mem _ h)

theorem slash_notMem_of_mem_parts {path part : String} (h : part ∈ parts path) :
    '/' ∉ part.toList := by
  obtain ⟨cs, hcs, rfl⟩ := List.mem_map.1 h
  simpa using slash_notMem_of_mem_split hcs

theorem mem_parts_of_mem_normalParts {path part : String} (h : part ∈ normalParts path) :
    part ∈ parts path := by
  unfold normalParts at h
  split at h
  · cases h
  · rename_i first rest hparts
    rw [hparts]
    obtain h | h := List.mem_append.1 h
    · split at h
      · cases h
      · exact List.mem_cons.2 (.inl (List.mem_singleton.1 h))
    · exact List.mem_cons_of_mem _ (List.mem_of_mem_filter h)

/-! ## The name a path ends in -/

theorem fileName?_mem_parts {path name : String} (h : fileName? path = some name) :
    name ∈ parts path := by
  unfold fileName? at h
  split at h
  · cases h
  · rename_i part hlast
    split at h
    · cases h
    · obtain rfl := Option.some.inj h
      exact mem_parts_of_mem_normalParts (List.mem_of_getLast? hlast)

theorem mem_of_mem_stemOfName {name : String} {c : Char} (h : c ∈ (stemOfName name).toList) :
    c ∈ name.toList := by
  unfold stemOfName at h
  simp only at h
  split at h
  · exact h
  · exact h
  · rename_i d stem _ hback
    have hsuffix : d :: stem <:+ name.toList.reverse := hback ▸ List.dropWhile_suffix _
    simpa using hsuffix.subset (List.mem_cons_of_mem _ (by simpa using h))

theorem slash_notMem_of_stem? {path stem : String} (h : stem? path = some stem) :
    '/' ∉ stem.toList := by
  obtain ⟨name, hname, rfl⟩ := Option.map_eq_some_iff.1 h
  exact fun hc => slash_notMem_of_mem_parts (fileName?_mem_parts hname) (mem_of_mem_stemOfName hc)

/-! ## Joining -/

theorem join_inj {path name name' : String} : join path name = join path name' ↔ name = name' := by
  unfold join
  split
  · rfl
  · split <;> exact String.append_right_inj _

theorem toList_join (path name : String) :
    (join path name).toList = name.toList ∧ path = "" ∨
      ∃ front, (join path name).toList = front ++ '/' :: name.toList ∧
        (path.toList = front ∨ path.toList = front ++ ['/']) := by
  unfold join
  split
  · rename_i h
    exact .inl ⟨rfl, String.isEmpty_iff.1 h⟩
  · right
    split
    · rename_i h
      obtain ⟨front, hfront⟩ := List.getLast?_eq_some_iff.1 (beq_iff_eq.1 h)
      exact ⟨front, by simp [hfront], .inr hfront⟩
    · exact ⟨path.toList, by simp, .inl rfl⟩

end Path

end SchemaSynth
