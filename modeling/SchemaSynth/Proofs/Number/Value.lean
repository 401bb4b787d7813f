import SchemaSynth.Number.Basic

/-!
# Binary64 numbers of one value

As every binary64 number is normal, numbers of one magnitude differ only in their sign
(`Binary64.eq_of_num_mul_den`). So no two of them become the same integer where whole numbers are
written as integers, but for the two zeros (`Binary64.eq_of_preferInt`).
-/

namespace SchemaSynth

namespace Binary64

/-- Zero has no sign. -/
def Unsigned (x : Binary64) : Prop := x.mantissa = 0 → x.negative = false

theorem unsigned_unsignedZero (x : Binary64) : x.unsignedZero.Unsigned := by
  unfold unsignedZero
  split
  · exact fun _ => rfl
  · next h => exact fun hm => absurd (by simpa [isZero] using hm) h

section

variable {x y : Binary64}

theorem eq_of_exponent_le (h : x.num * y.den = y.num * x.den) (hle : x.exponent ≤ y.exponent) :
    x.mantissa = y.mantissa ∧ x.exponent = y.exponent := by
  have hm : x.mantissa = y.mantissa * powUp (y.exponent - x.exponent) := by
    unfold num den at h
    refine Nat.eq_of_mul_eq_mul_right
      (Nat.mul_pos (powUp_pos x.exponent) (powUp_pos (-y.exponent))) ?_
    calc x.mantissa * (powUp x.exponent * powUp (-y.exponent))
        = x.mantissa * powUp x.exponent * powUp (-y.exponent) := by ac_rfl
      _ = y.mantissa * powUp y.exponent * powUp (-x.exponent) := h
      _ = y.mantissa * (powUp (-x.exponent) * powUp y.exponent) := by ac_rfl
      _ = y.mantissa * (powUp (-y.exponent) * powUp x.exponent *
            powUp (y.exponent - x.exponent)) := by rw [powUp_shift hle]
      _ = y.mantissa * powUp (y.exponent - x.exponent) *
            (powUp x.exponent * powUp (-y.exponent)) := by ac_rfl
  rcases Int.lt_or_eq_of_le hle with hlt | heq
  · -- The mantissa of `y` is short, so its exponent is the least, and cannot be above that of `x`.
    have two : 2 ≤ powUp (y.exponent - x.exponent) := by
      unfold powUp
      exact twoTo_le_twoTo (m := 1) (by omega)
    have hshort : y.mantissa * 2 < twoTo 52 * 2 := by
      rw [← twoTo_succ]
      exact Nat.lt_of_le_of_lt (hm ▸ Nat.mul_le_mul_left _ two) x.normal.mantissa_lt
    have hmin := x.normal.minExponent_le
    rcases y.normal.full with hfull | hexp <;> omega
  · rw [heq, Int.sub_self] at hm
    exact ⟨hm.trans (Nat.mul_one _), heq⟩

theorem eq_of_num_mul_den (h : x.num * y.den = y.num * x.den) :
    x.mantissa = y.mantissa ∧ x.exponent = y.exponent := by
  rcases Int.le_total x.exponent y.exponent with hle | hle
  · exact eq_of_exponent_le h hle
  · exact (eq_of_exponent_le h.symm hle).imp Eq.symm Eq.symm

theorem den_pos (x : Binary64) : 0 < x.den := powUp_pos _

theorem of_whole? {n : Int} (h : x.whole? = some n) :
    x.num = n.natAbs * x.den ∧ (x.mantissa ≠ 0 → x.negative = decide (n < 0)) := by
  unfold whole? at h
  split at h
  next hmod =>
    have hnum : x.num / x.den * x.den = x.num :=
      Nat.div_mul_cancel (Nat.dvd_of_mod_eq_zero hmod)
    have hpos : x.mantissa ≠ 0 → 0 < x.num / x.den := by
      intro hm
      refine Nat.pos_of_ne_zero fun hq => hm ?_
      rw [hq, Nat.zero_mul] at hnum
      exact (Nat.mul_eq_zero.1 hnum.symm).resolve_right (Nat.ne_of_gt (powUp_pos _))
    rw [← Int.natCast_ediv] at h
    generalize x.num / x.den = q at h hnum hpos
    cases hneg : x.negative with
    | false =>
      simp only [hneg, Bool.false_eq_true, ↓reduceIte, Option.some.injEq] at h
      subst h
      exact ⟨hnum.symm, fun _ => (decide_eq_false (by omega)).symm⟩
    | true =>
      simp only [hneg, ↓reduceIte, Option.some.injEq] at h
      subst h
      refine ⟨by rw [Int.natAbs_neg, Int.natAbs_natCast, hnum], fun hm => ?_⟩
      have := hpos hm
      exact (decide_eq_true (by omega)).symm
  · cases h

/-- Numbers that are the same integer are one number, if zero has no sign. -/
theorem eq_of_whole? (hx : x.Unsigned) (hy : y.Unsigned) {n : Int} (h : x.whole? = some n)
    (h' : y.whole? = some n) : x = y := by
  obtain ⟨hnum, hsign⟩ := of_whole? h
  obtain ⟨hnum', hsign'⟩ := of_whole? h'
  have hsame : x.num * y.den = y.num * x.den := by
    rw [hnum, hnum']
    ac_rfl
  obtain ⟨hm, he⟩ := eq_of_num_mul_den hsame
  have hneg : x.negative = y.negative := by
    by_cases hzero : x.mantissa = 0
    · rw [hx hzero, hy (hm ▸ hzero)]
    · rw [hsign hzero, hsign' (hm ▸ hzero)]
  cases x
  cases y
  cases hm
  cases he
  cases hneg
  rfl

/-- The largest signed integer has more bits than a mantissa, all of them ones. -/
theorem whole?_ne_maxSigned : x.whole? ≠ some Number.maxSigned := by
  intro h
  have hnum : x.num = 9223372036854775807 * x.den := (of_whole? h).1
  have hlt : x.mantissa < 9007199254740992 := x.normal.mantissa_lt
  have hden := x.den_pos
  unfold num at hnum
  rcases Int.lt_or_le 0 x.exponent with hpos | hneg
  · -- An even number.
    obtain ⟨k, hk⟩ := Nat.exists_eq_add_of_lt (Int.pos_iff_toNat_pos.1 hpos)
    have hone : x.den = 1 := by
      unfold den powUp
      rw [show (-x.exponent).toNat = 0 by omega]
      rfl
    unfold powUp at hnum
    rw [hk, twoTo_succ, ← Nat.mul_assoc, hone] at hnum
    omega
  · have hone : powUp x.exponent = 1 := by
      unfold powUp
      rw [show x.exponent.toNat = 0 by omega]
      rfl
    rw [hone] at hnum
    omega

end

end Binary64

open Binary64

theorem Number.preferInt_cases (x : Binary64) :
    preferInt x = .double x ∨ ∃ n, x.whole? = some n ∧ n ≤ maxSigned + 1 ∧ n ≠ maxSigned ∧
      preferInt x = .int (min n maxSigned) := by
  unfold preferInt
  cases h : x.whole? with
  | none => exact .inl rfl
  | some n =>
    dsimp only
    split
    · next hn =>
      refine .inr ⟨n, rfl, hn.2, ?_, rfl⟩
      rintro rfl
      exact whole?_ne_maxSigned h
    · exact .inl rfl

/-- Numbers that are written alike are one number, if zero has no sign: the largest signed integer,
which is written for `2 ^ 63`, is none itself. -/
theorem Binary64.eq_of_preferInt {x y : Binary64} (hx : x.Unsigned) (hy : y.Unsigned)
    (h : Number.preferInt x = Number.preferInt y) : x = y := by
  rcases Number.preferInt_cases x with hpx | ⟨n, hn, hle, hne, hpx⟩ <;>
    rcases Number.preferInt_cases y with hpy | ⟨m, hm, hle', hne', hpy⟩ <;>
    rw [hpx, hpy] at h
  · exact Number.double.inj h
  · cases h
  · cases h
  · have hmin := Number.int.inj h
    obtain rfl : n = m := by omega
    exact eq_of_whole? hx hy hn hm

end SchemaSynth
