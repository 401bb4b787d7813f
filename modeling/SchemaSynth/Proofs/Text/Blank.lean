import Mathlib.Data.List.DropRight
import SchemaSynth.Text.Basic

/-!
# Texts between blanks

`IsBlankText` says that a text is nothing but blanks. Blanks before and after a text are what `trim`
takes away and all that it takes away (`trim_between`, `exists_between`).
-/

namespace SchemaSynth.Text

def IsBlankText (cs : List Char) : Prop := ∀ c ∈ cs, isBlank c = true

instance : DecidablePred IsBlankText := fun cs =>
  decidable_of_iff (cs.all isBlank = true) List.all_eq_true

variable {cs lead trail : List Char}

theorem IsBlankText.trimStart_append (h : IsBlankText lead) (cs : List Char) :
    trimStart (lead ++ cs) = trimStart cs :=
  List.dropWhile_append_of_pos h

theorem IsBlankText.trimEnd_append (h : IsBlankText trail) (cs : List Char) :
    trimEnd (cs ++ trail) = trimEnd cs := by
  unfold trimEnd
  rw [List.reverse_append, List.dropWhile_append_of_pos fun c hc => h c (List.mem_reverse.1 hc)]

theorem trimStart_eq_nil_iff : trimStart cs = [] ↔ IsBlankText cs := List.dropWhile_eq_nil_iff

theorem isBlank_of_trimStart {c : Char} {rest : List Char} (h : trimStart cs = c :: rest) :
    isBlank c = false := by
  have first : (cs.dropWhile isBlank).head? = some c := congrArg List.head? h
  rw [← List.find?_not_eq_head?_dropWhile] at first
  simpa using List.find?_some first

theorem trim_of_blank (h : IsBlankText cs) : trim cs = [] := by
  unfold trim
  rw [trimStart_eq_nil_iff.2 h]
  rfl

theorem trim_between (hlead : IsBlankText lead) (cs : List Char) (htrail : IsBlankText trail) :
    trim (lead ++ cs ++ trail) = trim cs := by
  have inner : trimStart (lead ++ cs ++ trail) = trimStart (cs ++ trail) := by
    rw [List.append_assoc, hlead.trimStart_append]
  unfold trim
  rw [inner]
  by_cases h : IsBlankText cs
  · have hall : IsBlankText (cs ++ trail) := List.forall_mem_append.2 ⟨h, htrail⟩
    rw [trimStart_eq_nil_iff.2 h, trimStart_eq_nil_iff.2 hall]
  · have kept : trimStart (cs ++ trail) = trimStart cs ++ trail := by
      unfold trimStart
      rw [List.dropWhile_append, if_neg]
      simpa [IsBlankText] using h
    rw [kept, htrail.trimEnd_append]

/-- A text stands between the blanks that trimming takes away. -/
theorem exists_between (cs : List Char) :
    ∃ lead trail, IsBlankText lead ∧ IsBlankText trail ∧ cs = lead ++ trim cs ++ trail := by
  refine ⟨cs.takeWhile isBlank, (trimStart cs).rtakeWhile isBlank,
    fun c => List.mem_takeWhile_imp, fun c => List.mem_rtakeWhile_imp, ?_⟩
  have inner : trim cs ++ (trimStart cs).rtakeWhile isBlank = trimStart cs :=
    List.rdropWhile_append_rtakeWhile
  rw [List.append_assoc, inner]
  exact List.takeWhile_append_dropWhile.symm

theorem trim_of_no_blank (h : ∀ c ∈ cs, isBlank c = false) : trim cs = cs := by
  obtain ⟨lead, trail, hlead, htrail, hcs⟩ := exists_between cs
  have hnil {part : List Char} (hpart : IsBlankText part) (hsub : part ⊆ cs) : part = [] :=
    List.eq_nil_iff_forall_not_mem.2 fun c hc =>
      Bool.false_ne_true ((h c (hsub hc)).symm.trans (hpart c hc))
  have hlead := hnil hlead fun c hc => by
    rw [hcs]
    exact List.mem_append_left _ (List.mem_append_left _ hc)
  have htrail := hnil htrail fun c hc => by
    rw [hcs]
    exact List.mem_append_right _ hc
  rw [hlead, htrail, List.nil_append, List.append_nil] at hcs
  exact hcs.symm

@[simp] theorem trim_trim (cs : List Char) : trim (trim cs) = trim cs := by
  obtain ⟨lead, trail, hlead, htrail, hcs⟩ := exists_between cs
  calc trim (trim cs) = trim (lead ++ trim cs ++ trail) := (trim_between hlead _ htrail).symm
    _ = trim cs := by rw [← hcs]

end SchemaSynth.Text
