import Mathlib.Data.List.DropRight

/-!
# Patterns with choices

A `Pattern` describes texts by classes of characters. Where it leaves a choice, the ways to match
are tried in an order, and the first one counts that lets all that follows match as well:
`Pattern.run` is given what follows as a function and goes back to the last choice when that fails.
The lemmas say how the choices come out that are no real ones: characters of a class that nothing
after them wants (`runMany_of_some`), and as few characters as leave blanks alone (`runFew_stop`).
-/

namespace SchemaSynth.Text

/-- What a text has to look like. -/
inductive Pattern where
  /-- One character of a class. -/
  | one (p : Char → Bool)
  /-- Characters of a class, as many as possible. -/
  | many (p : Char → Bool)
  /-- Characters of a class, as few as possible. -/
  | few (p : Char → Bool)
  | seq (first second : Pattern)
  /-- The pattern if possible, or nothing. -/
  | optional (inner : Pattern)
  /-- The pattern, and what it matches is kept under a number. -/
  | group (number : Nat) (inner : Pattern)
  /-- The end of the text. -/
  | stop

/-- What groups have matched, the last one first. -/
abbrev Groups := List (Nat × List Char)

namespace Pattern

/-- At least one character of a class, as many as possible. -/
def several (p : Char → Bool) : Pattern := .seq (.one p) (.many p)

section

variable {α : Type}

/-- Characters of a class, the most first, before a text that is right for what follows. -/
def runMany (p : Char → Bool) (next : List Char → Option α) : List Char → Option α
  | [] => next []
  | c :: cs => if p c then (runMany p next cs).or (next (c :: cs)) else next (c :: cs)

/-- Characters of a class, the fewest first, before a text that is right for what follows. -/
def runFew (p : Char → Bool) (next : List Char → Option α) : List Char → Option α
  | [] => next []
  | c :: cs => (next (c :: cs)).or (if p c then runFew p next cs else none)

/-- What stands in a text before the rest of it. -/
def consumed (cs rest : List Char) : List Char := cs.take (cs.length - rest.length)

/-- The first way to match the start of a text that is right for what follows. -/
def run : Pattern → (Groups → List Char → Option α) → Groups → List Char → Option α
  | .one _, _, _, [] => none
  | .one p, next, groups, c :: cs => if p c then next groups cs else none
  | .many p, next, groups, cs => runMany p (next groups) cs
  | .few p, next, groups, cs => runFew p (next groups) cs
  | .seq first second, next, groups, cs => first.run (second.run next) groups cs
  | .optional inner, next, groups, cs => (inner.run next groups cs).or (next groups cs)
  | .group number inner, next, groups, cs =>
    inner.run (fun groups rest => next ((number, consumed cs rest) :: groups) rest) groups cs
  | .stop, next, groups, cs => if cs.isEmpty then next groups cs else none

/-- Nothing has to follow. -/
def done : Groups → List Char → Option Groups := fun groups _ => some groups

/-- What the groups match in a text that starts with the pattern. -/
def captures (pattern : Pattern) (cs : List Char) : Option Groups := pattern.run done [] cs

end

/-! ## Choices that are none -/

section

variable {α : Type} {p : Char → Bool} {next : List Char → Option α} {cs : List Char}

/-- If what follows accepts all that is left after the last character of the class, that is the first
way. -/
theorem runMany_of_some {a : α} (h : next (cs.dropWhile p) = some a) :
    runMany p next cs = some a := by
  induction cs with
  | nil => exact h
  | cons c cs ih =>
    unfold runMany
    by_cases hc : p c = true
    · rw [List.dropWhile_cons_of_pos hc] at h
      rw [if_pos hc, ih h]
      rfl
    · rw [List.dropWhile_cons_of_neg hc] at h
      rw [if_neg hc]
      exact h

theorem runMany_eq_none (h : ∀ rest, rest <:+ cs → next rest = none) :
    runMany p next cs = none := by
  induction cs with
  | nil => exact h [] List.suffix_rfl
  | cons c cs ih =>
    have here := h (c :: cs) List.suffix_rfl
    unfold runMany
    split
    · rw [ih fun rest hrest => h rest (hrest.trans (List.suffix_cons c cs)), here]
      rfl
    · exact here

theorem runMany_stop (accept : Option α) :
    runMany p (fun rest => if rest.isEmpty then accept else none) cs =
      if cs.all p then accept else none := by
  induction cs with
  | nil => rfl
  | cons c cs ih =>
    unfold runMany
    by_cases hc : p c = true
    · rw [if_pos hc, ih, List.all_cons, hc, Bool.true_and]
      exact Option.or_none
    · rw [if_neg hc, List.all_cons, Bool.eq_false_iff.2 hc]
      rfl

theorem rtakeWhile_cons {c : Char} (h : ¬(c :: cs).all p = true) :
    (c :: cs).rtakeWhile p = cs.rtakeWhile p := by
  unfold List.rtakeWhile
  rw [List.reverse_cons, List.takeWhile_append]
  split
  next hlength =>
    have hreverse : cs.reverse.takeWhile p = cs.reverse :=
      (List.takeWhile_prefix p).eq_of_length hlength
    have hcs : ∀ x ∈ cs, p x = true := fun x hx =>
      List.takeWhile_eq_self_iff.1 hreverse x (List.mem_reverse.2 hx)
    have hc : ¬p c = true := fun hc => h (List.all_eq_true.2 (List.forall_mem_cons.2 ⟨hc, hcs⟩))
    simp [hc, hreverse]
  next => rfl

/-- As few characters as leave nothing but characters of a class. -/
theorem runFew_stop (accept : List Char → α) :
    runFew (fun _ => true) (fun rest => if rest.all p then some (accept rest) else none) cs =
      some (accept (cs.rtakeWhile p)) := by
  induction cs with
  | nil => rfl
  | cons c cs ih =>
    unfold runFew
    by_cases h : (c :: cs).all p = true
    · have hself : (c :: cs).rtakeWhile p = c :: cs :=
        List.rtakeWhile_eq_self_iff.2 fun x hx => List.all_eq_true.1 h x hx
      rw [if_pos h, hself]
      rfl
    · rw [if_neg h, if_pos rfl, ih, rtakeWhile_cons h]
      rfl

theorem consumed_append (before rest : List Char) : consumed (before ++ rest) rest = before := by
  simp [consumed]

theorem consumed_takeWhile (p : Char → Bool) (cs : List Char) :
    consumed cs (cs.dropWhile p) = cs.takeWhile p := by
  have cut := consumed_append (cs.takeWhile p) (cs.dropWhile p)
  rwa [List.takeWhile_append_dropWhile] at cut

theorem consumed_rdropWhile (p : Char → Bool) (cs : List Char) :
    consumed cs (cs.rtakeWhile p) = cs.rdropWhile p := by
  have cut := consumed_append (cs.rdropWhile p) (cs.rtakeWhile p)
  rwa [List.rdropWhile_append_rtakeWhile] at cut

end

end Pattern

end SchemaSynth.Text
