import SchemaSynth.Annotations
import SchemaSynth.Proofs.Text.Blank
import SchemaSynth.Proofs.Text.Pattern

/-!
# Keys and values of tags

A raw line is cut by trimming it, dropping a sign and taking the first word. `linePattern` says what
a line looks like as a pattern with choices, and `lineEntry?_eq_captures` that cutting finds what
the pattern keeps under 1 and 2. `entry?_of_isKey` compares the two forms of a tag.
-/

namespace SchemaSynth

open Text

namespace DocTag

/-- A character that a word may have. -/
def notBlank (c : Char) : Bool := !isBlank c

/-- What follows the key of a line: blanks, and perhaps a text between them. -/
def textPattern : Pattern :=
  .seq (.optional (.seq (.several isBlank) (.group 2 (.few fun _ => true))))
    (.seq (.many isBlank) .stop)

def wordPattern : Pattern := .seq (.group 1 (.several notBlank)) textPattern

/-- The key of a line, perhaps with a sign, and what follows it. -/
def signedPattern : Pattern := .seq (.optional (.one (· == '@'))) wordPattern

/-- A raw line, `^\s*@?(\S+)(?:\s+(.*?))?\s*$`. -/
def linePattern : Pattern := .seq (.many isBlank) signedPattern

/-- No word goes on here: there is a blank or nothing. -/
def Apart (cs : List Char) : Prop := ∀ c ∈ cs.head?, isBlank c = true

def textGroups (cs : List Char) : Groups := if cs.isEmpty then [] else [(2, trim cs)]

section

variable {c : Char} {cs : List Char}

theorem notBlank_eq_true : notBlank c = true ↔ isBlank c = false := by simp [notBlank]

theorem apart_or_cons (cs : List Char) :
    Apart cs ∨ ∃ c rest, cs = c :: rest ∧ isBlank c = false := by
  cases cs with
  | nil => exact .inl nofun
  | cons c rest =>
    cases hc : isBlank c with
    | true => exact .inl fun c' hc' => Option.some.inj hc' ▸ hc
    | false => exact .inr ⟨c, rest, rfl, hc⟩

theorem apart_dropWhile (cs : List Char) : Apart (cs.dropWhile notBlank) := by
  intro c hc
  rw [← List.find?_not_eq_head?_dropWhile] at hc
  simpa [notBlank] using List.find?_some hc

theorem Apart.takeWhile_eq (h : Apart cs) : cs.takeWhile notBlank = [] := by
  cases cs with
  | nil => rfl
  | cons c cs => exact List.takeWhile_cons_of_neg (by simp [notBlank, h c rfl])

theorem Apart.dropWhile_eq (h : Apart cs) : cs.dropWhile notBlank = cs := by
  have whole := List.takeWhile_append_dropWhile (p := notBlank) (l := cs)
  rwa [h.takeWhile_eq] at whole

theorem apart_of_isBlankText (h : IsBlankText cs) : Apart cs :=
  fun c hc => h c (List.mem_of_mem_head? hc)

theorem apart_append {gap : List Char} (h : IsBlankText gap) (hne : gap ≠ []) (cs : List Char) :
    Apart (gap ++ cs) := by
  cases gap with
  | nil => exact absurd rfl hne
  | cons c gap => exact fun c' hc' => Option.some.inj hc' ▸ h c List.mem_cons_self

/-! ## The sign -/

theorem dropSign_of_ne (h : c ≠ '@') : dropSign (c :: cs) = c :: cs := by
  unfold dropSign
  split
  next heq => exact absurd (List.cons.inj heq).1 h
  next => rfl

theorem dropSign_sign (h : isBlank c = false) : dropSign ('@' :: c :: cs) = c :: cs := by
  rw [dropSign, h]
  rfl

theorem dropSign_sign_of_apart (h : Apart cs) : dropSign ('@' :: cs) = '@' :: cs := by
  cases cs with
  | nil => rfl
  | cons c cs => rw [dropSign, if_pos (h c rfl)]

theorem dropSign_of_apart (h : Apart cs) : dropSign cs = cs := by
  cases cs with
  | nil => rfl
  | cons c cs =>
    refine dropSign_of_ne ?_
    rintro rfl
    exact absurd (h '@' rfl) (by decide)

theorem exists_dropSign (h : isBlank c = false) (cs : List Char) :
    ∃ c' cs', dropSign (c :: cs) = c' :: cs' ∧ isBlank c' = false := by
  by_cases hc : c = '@'
  · subst hc
    obtain hcs | ⟨c, rest, rfl, hc⟩ := apart_or_cons cs
    · exact ⟨_, _, dropSign_sign_of_apart hcs, h⟩
    · exact ⟨_, _, dropSign_sign hc, hc⟩
  · exact ⟨_, _, dropSign_of_ne hc, h⟩

end

/-! ## The pattern -/

section

variable {c : Char} {cs : List Char} (groups : Groups)

/-- The shortest text that leaves blanks only is the text without the blanks at its end. -/
theorem run_few_blanks_stop (cs : List Char) :
    (Pattern.group 2 (.few fun _ => true)).run
        ((Pattern.seq (.many isBlank) .stop).run Pattern.done) groups cs =
      some ((2, trimEnd cs) :: groups) := by
  have blanks (rest : List Char) (groups : Groups) :
      (Pattern.seq (.many isBlank) .stop).run Pattern.done groups rest =
        if rest.all isBlank then some groups else none := Pattern.runMany_stop (some groups)
  simp only [Pattern.run] at blanks ⊢
  simp only [blanks]
  rw [Pattern.runFew_stop fun rest => (2, Pattern.consumed cs rest) :: groups,
    Pattern.consumed_rdropWhile]
  rfl

theorem run_textPattern (h : Apart cs) :
    textPattern.run Pattern.done groups cs = some (textGroups cs ++ groups) := by
  cases cs with
  | nil => rfl
  | cons c cs =>
    have kept : (Pattern.seq (.several isBlank) (.group 2 (.few fun _ => true))).run
        ((Pattern.seq (.many isBlank) .stop).run Pattern.done) groups (c :: cs) =
          some ((2, trim (c :: cs)) :: groups) := by
      rw [Pattern.run, Pattern.several, Pattern.run, Pattern.run, if_pos (h c rfl), trim,
        trimStart_cons, if_pos (h c rfl)]
      exact Pattern.runMany_of_some (run_few_blanks_stop groups (trimStart cs))
    rw [textPattern, Pattern.run, Pattern.run, kept]
    rfl

theorem run_wordPattern (h : isBlank c = false) :
    wordPattern.run Pattern.done groups (c :: cs) =
      some (textGroups ((c :: cs).dropWhile notBlank) ++
        (1, (c :: cs).takeWhile notBlank) :: groups) := by
  have hc : notBlank c = true := notBlank_eq_true.2 h
  have kept := run_textPattern ((1, (c :: cs).takeWhile notBlank) :: groups)
    (apart_dropWhile (c :: cs))
  rw [← Pattern.consumed_takeWhile, List.dropWhile_cons_of_pos hc] at kept
  rw [wordPattern, Pattern.run, Pattern.run, Pattern.several, Pattern.run, Pattern.run, if_pos hc,
    ← Pattern.consumed_takeWhile, List.dropWhile_cons_of_pos hc]
  exact Pattern.runMany_of_some kept

theorem run_wordPattern_of_apart (h : Apart cs) :
    wordPattern.run Pattern.done groups cs = none := by
  cases cs with
  | nil => rfl
  | cons c cs =>
    have hc : notBlank c = false := by simp [notBlank, h c rfl]
    rw [wordPattern, Pattern.run, Pattern.run, Pattern.several, Pattern.run, Pattern.run, hc]
    rfl

/-- The sign is taken from a line only where a key is left. -/
theorem run_signedPattern (cs : List Char) :
    signedPattern.run Pattern.done groups cs =
      wordPattern.run Pattern.done groups (dropSign cs) := by
  rw [signedPattern, Pattern.run, Pattern.run]
  cases cs with
  | nil => rfl
  | cons c cs =>
    by_cases hc : c = '@'
    · subst hc
      rw [Pattern.run, if_pos (beq_self_eq_true _)]
      obtain hcs | ⟨c, rest, rfl, hc⟩ := apart_or_cons cs
      · rw [run_wordPattern_of_apart _ hcs, dropSign_sign_of_apart hcs]
        rfl
      · rw [run_wordPattern _ hc, dropSign_sign hc, run_wordPattern _ hc]
        rfl
    · rw [Pattern.run, if_neg (by simpa using hc), dropSign_of_ne hc]
      rfl

end

/-- Nothing is kept of blanks, else the first word and the text after it. -/
theorem captures_linePattern (cs : List Char) :
    linePattern.captures cs = wordPattern.run Pattern.done [] (dropSign (trimStart cs)) := by
  rw [Pattern.captures, linePattern, Pattern.run, Pattern.run]
  cases hcs : trimStart cs with
  | nil =>
    have hblank : IsBlankText cs := trimStart_eq_nil_iff.1 hcs
    refine Pattern.runMany_eq_none fun rest hrest => ?_
    have happart : Apart rest := apart_of_isBlankText fun c hc => hblank c (hrest.mem hc)
    rw [run_signedPattern, dropSign_of_apart happart, run_wordPattern_of_apart _ happart]
  | cons c rest =>
    obtain ⟨c', rest', hword, hc'⟩ := exists_dropSign (isBlank_of_trimStart hcs) rest
    have first : signedPattern.run Pattern.done [] (trimStart cs) =
        wordPattern.run Pattern.done [] (dropSign (c :: rest)) := by rw [run_signedPattern, hcs]
    rw [hword, run_wordPattern [] hc'] at first ⊢
    exact Pattern.runMany_of_some first

/-! ## Entries -/

section

variable {line : String}

theorem lineEntry?_of_apart (h : Apart (dropSign (trimStart line.toList))) :
    lineEntry? line = none := by
  have hword : ((dropSign (trimStart line.toList)).takeWhile notBlank).isEmpty = true := by
    rw [h.takeWhile_eq]
    rfl
  exact if_pos hword

theorem lineEntry?_of_word {c : Char} {cs : List Char}
    (h : dropSign (trimStart line.toList) = c :: cs) (hc : isBlank c = false) :
    lineEntry? line = some (String.ofList ((c :: cs).takeWhile notBlank),
      TagText.coerce (some (String.ofList ((c :: cs).dropWhile notBlank)))) := by
  have hc : notBlank c = true := notBlank_eq_true.2 hc
  have hword : ((c :: cs).takeWhile notBlank).isEmpty = false := by
    rw [List.takeWhile_cons_of_pos hc]
    rfl
  unfold lineEntry?
  rw [h]
  exact if_neg (Bool.eq_false_iff.1 hword)

theorem coerce_eq_coerce {text text' : String} (h : trim text.toList = trim text'.toList) :
    TagText.coerce (some text) = TagText.coerce (some text') :=
  congrArg TagText.coerceTrimmed h

end

theorem coerce_textGroups (cs word : List Char) :
    TagText.coerce (((textGroups cs ++ [(1, word)]).lookup 2).map String.ofList) =
      TagText.coerce (some (String.ofList cs)) := by
  cases cs with
  | nil => rfl
  | cons c cs => exact coerce_eq_coerce (by simp)

theorem lookup_textGroups (cs word : List Char) :
    (textGroups cs ++ [(1, word)]).lookup 1 = some word := by
  cases cs <;> rfl

/-- Cutting a line finds what the pattern keeps: the key under 1, the text, if any, under 2. -/
theorem lineEntry?_eq_captures (line : String) :
    lineEntry? line = (linePattern.captures line.toList).bind fun groups =>
      (groups.lookup 1).map fun word =>
        (String.ofList word, TagText.coerce ((groups.lookup 2).map String.ofList)) := by
  rw [captures_linePattern]
  obtain happart | ⟨c, cs, hcs, hc⟩ := apart_or_cons (dropSign (trimStart line.toList))
  · rw [lineEntry?_of_apart happart, run_wordPattern_of_apart _ happart]
    rfl
  · rw [lineEntry?_of_word hcs hc, hcs, run_wordPattern [] hc, Option.bind_some,
      lookup_textGroups, coerce_textGroups]
    rfl

theorem lineEntry?_eq_none_iff (line : String) :
    lineEntry? line = none ↔ IsBlankText line.toList := by
  constructor
  · intro hnone
    by_contra hline
    cases hcs : trimStart line.toList with
    | nil => exact hline (trimStart_eq_nil_iff.1 hcs)
    | cons c rest =>
      obtain ⟨c', rest', hword, hc'⟩ := exists_dropSign (isBlank_of_trimStart hcs) rest
      rw [← hcs] at hword
      rw [lineEntry?_of_word hword hc'] at hnone
      cases hnone
  · intro hline
    refine lineEntry?_of_apart ?_
    rw [trimStart_eq_nil_iff.2 hline]
    exact nofun

/-! ## Both forms -/

/-- A word that does not begin with the sign. -/
structure IsKey (name : String) : Prop where
  ne_empty : name ≠ ""
  no_blank : ∀ c ∈ name.toList, isBlank c = false
  no_sign : name.toList.head? ≠ some '@'

section

variable {name : String}

theorem IsKey.exists_cons (h : IsKey name) :
    ∃ c cs, name.toList = c :: cs ∧ isBlank c = false ∧ c ≠ '@' := by
  obtain ⟨hne, hblank, hsign⟩ := h
  cases hname : name.toList with
  | nil => exact absurd (String.toList_eq_nil_iff.1 hname) hne
  | cons c cs =>
    rw [hname] at hblank hsign
    exact ⟨c, cs, rfl, hblank c List.mem_cons_self, fun h => hsign (congrArg some h)⟩

theorem lineEntry?_of_isKey (h : IsKey name) {lead sign rest : String}
    (hlead : IsBlankText lead.toList) (hsign : sign = "" ∨ sign = "@")
    (hrest : Apart rest.toList) :
    lineEntry? (lead ++ sign ++ name ++ rest) = some (name, TagText.coerce (some rest)) := by
  obtain ⟨c, cs, hname, hc, hne⟩ := h.exists_cons
  have hword : dropSign (trimStart (lead ++ sign ++ name ++ rest).toList) =
      c :: (cs ++ rest.toList) := by
    have hcut : trimStart (lead ++ sign ++ name ++ rest).toList =
        trimStart (sign.toList ++ c :: (cs ++ rest.toList)) := by
      rw [← hlead.trimStart_append (sign.toList ++ c :: (cs ++ rest.toList))]
      simp [hname]
    rw [hcut]
    obtain rfl | rfl := hsign
    · rw [String.toList_empty, List.nil_append, trimStart_cons, hc]
      exact dropSign_of_ne hne
    · exact dropSign_sign hc
  have hkey : ∀ c ∈ name.toList, notBlank c = true := fun c hc =>
    notBlank_eq_true.2 (h.no_blank c hc)
  rw [lineEntry?_of_word hword hc, ← List.cons_append, ← hname,
    List.takeWhile_append_of_pos hkey, List.dropWhile_append_of_pos hkey, hrest.takeWhile_eq,
    hrest.dropWhile_eq, List.append_nil, String.ofList_toList, String.ofList_toList]

theorem splitEntry?_of_isKey (h : IsKey name) {sign : String} (hsign : sign = "" ∨ sign = "@")
    (text : Option String) : splitEntry? (sign ++ name) text = some (name, TagText.coerce text) := by
  obtain ⟨c, cs, hname, -, hc⟩ := h.exists_cons
  have hdrop : (sign ++ name).toList.dropWhile (· == '@') = name.toList := by
    obtain rfl | rfl := hsign
    · simp [hname, hc]
    · simp [hname, hc]
  have hne : ¬name.toList.isEmpty = true := by simp [hname]
  unfold splitEntry?
  rw [hdrop]
  exact (if_neg hne).trans (by rw [String.ofList_toList])

/-- A raw line reads as the pattern says, and only blanks have no entry. Where a name is a key, a raw
line with that name and a text and a tag in two parts have one entry: the name, and what the text
stands for. Neither the sign before the name nor the blanks around name and text count, and a blank
text need not be there. -/
theorem entry?_of_isKey :
    (∀ line, entry? (.line line) = (linePattern.captures line.toList).bind fun groups =>
      (groups.lookup 1).map fun word =>
        (String.ofList word, TagText.coerce ((groups.lookup 2).map String.ofList))) ∧
    (∀ line, entry? (.line line) = none ↔ IsBlankText line.toList) ∧
    ∀ name lead gap trail sign text : String, IsKey name → IsBlankText lead.toList →
      IsBlankText gap.toList → gap ≠ "" → IsBlankText trail.toList → sign = "" ∨ sign = "@" →
      let entry := some (name, TagText.coerce (some text))
      entry? (.line (lead ++ sign ++ name ++ gap ++ text ++ trail)) = entry ∧
      (IsBlankText text.toList → entry? (.line (lead ++ sign ++ name ++ trail)) = entry) ∧
      entry? (.split (sign ++ name) (some text)) = entry := by
  refine ⟨lineEntry?_eq_captures, lineEntry?_eq_none_iff,
    fun name lead gap trail sign text hname hlead hgap hne htrail hsign => ⟨?_, fun htext => ?_, ?_⟩⟩
  · have happart : Apart (gap ++ text ++ trail).toList := by
      rw [String.append_assoc, String.toList_append]
      exact apart_append hgap (mt String.toList_eq_nil_iff.1 hne) _
    have hline : lead ++ sign ++ name ++ gap ++ text ++ trail =
        lead ++ sign ++ name ++ (gap ++ text ++ trail) := by simp only [String.append_assoc]
    have htrim : trim (gap ++ text ++ trail).toList = trim text.toList := by
      simp only [String.toList_append]
      exact trim_between hgap _ htrail
    rw [hline]
    exact (lineEntry?_of_isKey hname hlead hsign happart).trans
      (congrArg (fun value => some (name, value)) (coerce_eq_coerce htrim))
  · have htrim : trim trail.toList = trim text.toList := by
      rw [trim_of_blank htrail, trim_of_blank htext]
    exact (lineEntry?_of_isKey hname hlead hsign (apart_of_isBlankText htrail)).trans
      (congrArg (fun value => some (name, value)) (coerce_eq_coerce htrim))
  · exact splitEntry?_of_isKey hname hsign (some text)

/-- A text may have blanks and signs inside, and a text of blanks may be left out. -/
theorem entry?_pattern :
    IsKey "pattern" ∧
    entry? (.line " @pattern\ta  @b\n") = some ("pattern", .string "a  @b") ∧
    entry? (.split "@pattern" (some "a  @b")) = some ("pattern", .string "a  @b") ∧
    entry? (.line "pattern ") = some ("pattern", .bool true) := by
  have key : IsKey "pattern" :=
    ⟨by decide, fun c hc => notBlank_eq_true.1 (List.all_eq_true.1 (by decide) c hc), by decide⟩
  have signed := entry?_of_isKey.2.2 "pattern" " " "\t" "\n" "@" "a  @b" key (by decide)
    (by decide) (by decide) (by decide) (.inr rfl)
  have bare := entry?_of_isKey.2.2 "pattern" "" " " " " "" "\n" key (by decide)
    (by decide) (by decide) (by decide) (.inl rfl)
  exact ⟨key, signed.1, signed.2.2, bare.2.1 (by decide)⟩

end

end DocTag

end SchemaSynth
