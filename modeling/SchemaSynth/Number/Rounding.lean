/-!
# Rounding to binary64

`twoTo n` and `tenTo n` are the powers that binary and decimal numbers are made of.

`nearest` gives the mantissa and exponent of the binary64 number nearest to a quotient of natural
numbers, a tie going to the even mantissa. Of the ways to write a number as a mantissa and a power
of two it gives the normal one (`normal_nearest`): the mantissa is as long as it can be, or the
exponent as small.
-/

namespace SchemaSynth

def twoTo (n : Nat) : Nat := Nat.pow 2 n

def tenTo (n : Nat) : Nat := Nat.pow 10 n

theorem twoTo_succ (n : Nat) : twoTo (n + 1) = twoTo n * 2 := rfl

theorem twoTo_pos (n : Nat) : 0 < twoTo n := Nat.pow_pos (by decide)

theorem twoTo_add (m n : Nat) : twoTo (m + n) = twoTo m * twoTo n := Nat.pow_add 2 m n

theorem twoTo_lt_succ (n : Nat) : twoTo n < twoTo (n + 1) :=
  Nat.pow_lt_pow_right (by decide) (Nat.lt_succ_self n)

theorem twoTo_le_twoTo {m n : Nat} (h : m ≤ n) : twoTo m ≤ twoTo n :=
  Nat.pow_le_pow_right (by decide) h

theorem tenTo_pos (n : Nat) : 0 < tenTo n := Nat.pow_pos (by decide)

namespace Binary64

/-- The least exponent, that of zero and of the numbers too small for a full mantissa. -/
def minExponent : Int := -1074

def maxExponent : Int := 971

/-- The mantissa has 53 bits, or fewer at the least exponent. -/
structure Normal (mantissa : Nat) (exponent : Int) : Prop where
  mantissa_lt : mantissa < twoTo 53
  minExponent_le : minExponent ≤ exponent
  full : twoTo 52 ≤ mantissa ∨ exponent = minExponent

instance (mantissa : Nat) (exponent : Int) : Decidable (Normal mantissa exponent) :=
  decidable_of_iff (mantissa < twoTo 53 ∧ minExponent ≤ exponent ∧
      (twoTo 52 ≤ mantissa ∨ exponent = minExponent))
    ⟨fun h => ⟨h.1, h.2.1, h.2.2⟩, fun h => ⟨h.1, h.2, h.3⟩⟩

/-- `2 ^ e` as a factor: one for a negative exponent. -/
def powUp (e : Int) : Nat := twoTo e.toNat

theorem powUp_pos (e : Int) : 0 < powUp e := twoTo_pos _

theorem powUp_shift {e e' : Int} (h : e ≤ e') :
    powUp (-e) * powUp e' = powUp (-e') * powUp e * powUp (e' - e) := by
  unfold powUp
  rw [← twoTo_add, ← twoTo_add, ← twoTo_add]
  congr 1
  omega

/-- `num / den` to the nearest natural number, a tie to the even one. -/
def nearestQuotient (num den : Nat) : Nat :=
  let q := num / den
  let r := num % den
  if 2 * r > den || (2 * r == den && q % 2 == 1) then q + 1 else q

/-- The exponent at which `num / den` has a mantissa of 53 bits, but never below the least one. -/
def exponentOf (num den : Nat) : Int :=
  let guess : Int := (num.log2 : Int) - den.log2 - 53
  let fit := if num * powUp (-guess) / (den * powUp guess) < twoTo 53 then guess else guess + 1
  max fit minExponent

/-- The mantissa and exponent of the number nearest to `num / den`, a tie going to the even
mantissa. The exponent may exceed the largest one. -/
def nearest (num den : Nat) : Nat × Int :=
  let e := exponentOf num den
  let m := nearestQuotient (num * powUp (-e)) (den * powUp e)
  if m = twoTo 53 then (twoTo 52, e + 1) else (m, e)

section

variable {num den : Nat} {e e' : Int}

/-- At an exponent the quotient has no more than 53 bits before the point. -/
def Below (num den : Nat) (e : Int) : Prop := num * powUp (-e) < twoTo 53 * (den * powUp e)

/-- At an exponent the quotient has at least 53 bits before the point. -/
def Above (num den : Nat) (e : Int) : Prop := twoTo 52 * (den * powUp e) ≤ num * powUp (-e)

theorem scaled_shift (num den : Nat) (h : e ≤ e') :
    num * powUp (-e) * (den * powUp e') =
      num * powUp (-e') * (den * powUp e) * powUp (e' - e) := by
  calc num * powUp (-e) * (den * powUp e')
      = num * den * (powUp (-e) * powUp e') := by ac_rfl
    _ = num * den * (powUp (-e') * powUp e * powUp (e' - e)) := by rw [powUp_shift h]
    _ = num * powUp (-e') * (den * powUp e) * powUp (e' - e) := by ac_rfl

theorem scaled_succ (num den : Nat) (e : Int) :
    num * powUp (-e) * (den * powUp (e + 1)) =
      num * powUp (-(e + 1)) * (den * powUp e * 2) := by
  have two : powUp (e + 1 - e) = 2 := by
    rw [show e + 1 - e = 1 by omega]
    rfl
  rw [scaled_shift num den (Int.le_add_one (Int.le_refl e)), two, Nat.mul_assoc]

theorem Below.mono (h : Below num den e) (hle : e ≤ e') : Below num den e' := by
  have shift := scaled_shift num den hle
  have grow : num * powUp (-e') * (den * powUp e) ≤ num * powUp (-e) * (den * powUp e') := by
    rw [shift]
    exact Nat.le_mul_of_pos_right _ (powUp_pos _)
  have hden : 0 < den * powUp e' := by
    refine Nat.mul_pos (Nat.pos_of_ne_zero fun h0 => ?_) (powUp_pos _)
    rw [Below, h0] at h
    simp at h
  refine Nat.lt_of_mul_lt_mul_right (a := den * powUp e) ?_
  calc num * powUp (-e') * (den * powUp e)
      ≤ num * powUp (-e) * (den * powUp e') := grow
    _ < twoTo 53 * (den * powUp e) * (den * powUp e') := Nat.mul_lt_mul_of_pos_right h hden
    _ = twoTo 53 * (den * powUp e') * (den * powUp e) := by ac_rfl

theorem above_succ (hden : 0 < den) (h : ¬ Below num den e) : Above num den (e + 1) := by
  have large : twoTo 53 * (den * powUp e) ≤ num * powUp (-e) := Nat.le_of_not_lt h
  refine Nat.le_of_mul_le_mul_right (c := den * powUp e * 2) ?_
    (Nat.mul_pos (Nat.mul_pos hden (powUp_pos e)) (by decide))
  calc twoTo 52 * (den * powUp (e + 1)) * (den * powUp e * 2)
      = twoTo 52 * 2 * (den * powUp e) * (den * powUp (e + 1)) := by ac_rfl
    _ ≤ num * powUp (-e) * (den * powUp (e + 1)) := Nat.mul_le_mul_right _ large
    _ = num * powUp (-(e + 1)) * (den * powUp e * 2) := scaled_succ num den e

theorem below_succ (hden : 0 < den) (h : num * powUp (-e) < twoTo 54 * (den * powUp e)) :
    Below num den (e + 1) := by
  refine Nat.lt_of_mul_lt_mul_right (a := den * powUp e * 2) ?_
  calc num * powUp (-(e + 1)) * (den * powUp e * 2)
      = num * powUp (-e) * (den * powUp (e + 1)) := (scaled_succ num den e).symm
    _ < twoTo 54 * (den * powUp e) * (den * powUp (e + 1)) :=
        Nat.mul_lt_mul_of_pos_right h (Nat.mul_pos hden (powUp_pos _))
    _ = twoTo 53 * (den * powUp (e + 1)) * (den * powUp e * 2) := by
        rw [twoTo_succ 53]; ac_rfl

/-- The lengths of numerator and denominator tell the length of the quotient up to one bit. -/
theorem guess_bounds (hnum : num ≠ 0) (hden : den ≠ 0) (hguess : e = num.log2 - den.log2 - 53) :
    Above num den e ∧ num * powUp (-e) < twoTo 54 * (den * powUp e) := by
  have hnum_ge : twoTo num.log2 ≤ num := Nat.log2_self_le hnum
  have hnum_lt : num < twoTo (num.log2 + 1) := Nat.lt_log2_self
  have hden_ge : twoTo den.log2 ≤ den := Nat.log2_self_le hden
  have hden_lt : den < twoTo (den.log2 + 1) := Nat.lt_log2_self
  unfold Above powUp
  constructor
  · calc twoTo 52 * (den * twoTo e.toNat)
        ≤ twoTo 52 * (twoTo (den.log2 + 1) * twoTo e.toNat) :=
          Nat.mul_le_mul_left _ (Nat.mul_le_mul_right _ (Nat.le_of_lt hden_lt))
      _ = twoTo num.log2 * twoTo (-e).toNat := by
          rw [← twoTo_add, ← twoTo_add, ← twoTo_add]
          congr 1
          omega
      _ ≤ num * twoTo (-e).toNat := Nat.mul_le_mul_right _ hnum_ge
  · calc num * twoTo (-e).toNat
        < twoTo (num.log2 + 1) * twoTo (-e).toNat :=
          Nat.mul_lt_mul_of_pos_right hnum_lt (twoTo_pos _)
      _ = twoTo 54 * (twoTo den.log2 * twoTo e.toNat) := by
          rw [← twoTo_add, ← twoTo_add, ← twoTo_add]
          congr 1
          omega
      _ ≤ twoTo 54 * (den * twoTo e.toNat) :=
          Nat.mul_le_mul_left _ (Nat.mul_le_mul_right _ hden_ge)

/-- At the exponent that is chosen the quotient has 53 bits before the point, or fewer and the
exponent is the least. -/
theorem exponentOf_spec (hnum : num ≠ 0) (hden : den ≠ 0) :
    Below num den (exponentOf num den) ∧
      (Above num den (exponentOf num den) ∨ exponentOf num den = minExponent) := by
  have hden_pos := Nat.pos_of_ne_zero hden
  obtain ⟨habove, hlt⟩ := guess_bounds hnum hden rfl
  obtain ⟨fit, hbelow, habove, hexponent⟩ : ∃ fit, Below num den fit ∧ Above num den fit ∧
      exponentOf num den = max fit minExponent := by
    by_cases hfit : Below num den (num.log2 - den.log2 - 53)
    · refine ⟨_, hfit, habove, ?_⟩
      unfold exponentOf
      dsimp only
      rw [if_pos ((Nat.div_lt_iff_lt_mul (Nat.mul_pos hden_pos (powUp_pos _))).2 hfit)]
    · refine ⟨_, below_succ hden_pos hlt, above_succ hden_pos hfit, ?_⟩
      unfold exponentOf
      dsimp only
      rw [if_neg (mt (Nat.div_lt_iff_lt_mul (Nat.mul_pos hden_pos (powUp_pos _))).1 hfit)]
  rw [hexponent]
  refine ⟨hbelow.mono (Int.le_max_left ..), ?_⟩
  rcases Int.le_total fit minExponent with hle | hle
  · exact .inr (Int.max_eq_right hle)
  · rw [Int.max_eq_left hle]
    exact .inl habove

theorem div_le_nearestQuotient (num den : Nat) : num / den ≤ nearestQuotient num den := by
  unfold nearestQuotient
  dsimp only
  split
  · exact Nat.le_succ _
  · exact Nat.le_refl _

theorem nearestQuotient_le (num den : Nat) : nearestQuotient num den ≤ num / den + 1 := by
  unfold nearestQuotient
  dsimp only
  split
  · exact Nat.le_refl _
  · exact Nat.le_succ _

theorem nearestQuotient_le_of_below (hden : den ≠ 0) (h : Below num den e) :
    nearestQuotient (num * powUp (-e)) (den * powUp e) ≤ twoTo 53 := by
  have hpos : 0 < den * powUp e := Nat.mul_pos (Nat.pos_of_ne_zero hden) (powUp_pos e)
  exact Nat.le_trans (nearestQuotient_le ..) ((Nat.div_lt_iff_lt_mul hpos).2 h)

/-- What is rounded is normal. -/
theorem normal_nearest (hnum : num ≠ 0) (hden : den ≠ 0) :
    Normal (nearest num den).1 (nearest num den).2 := by
  obtain ⟨hbelow, hfull⟩ := exponentOf_spec hnum hden
  have hmin : minExponent ≤ exponentOf num den := Int.le_max_right ..
  unfold nearest
  generalize exponentOf num den = e at hbelow hfull hmin
  have hpos : 0 < den * powUp e := Nat.mul_pos (Nat.pos_of_ne_zero hden) (powUp_pos e)
  have hle := nearestQuotient_le_of_below hden hbelow
  dsimp only
  split
  · exact ⟨twoTo_lt_succ 52, Int.le_add_one hmin, .inl (Nat.le_refl _)⟩
  · next hm =>
    refine ⟨Nat.lt_of_le_of_ne hle hm, hmin, hfull.imp_left fun habove => ?_⟩
    exact Nat.le_trans ((Nat.le_div_iff_mul_le hpos).2 habove) (div_le_nearestQuotient ..)

end

end Binary64

end SchemaSynth
