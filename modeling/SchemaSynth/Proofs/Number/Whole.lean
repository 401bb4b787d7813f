import SchemaSynth.Proofs.Number.Nearest

/-!
# Whole numbers

`whole?` gives the integer that a binary64 number is (`whole?_eq_some_iff`), so a whole number that
is written as an integer keeps its value. The one that does not is `2 ^ 63`, which is written as the
largest signed integer (`Number.value_preferInt`).
-/

namespace SchemaSynth

namespace Binary64

section

variable {x : Binary64} {n : ℤ}

theorem magnitude_mul_den (x : Binary64) : x.magnitude * x.den = x.num := by
  unfold magnitude den num
  rw [Nat.cast_mul, powUp_cast x.exponent]
  ring

theorem num_eq_iff {m : Nat} : x.num = m * x.den ↔ x.magnitude = m := by
  have hden : (x.den : ℚ) ≠ 0 := by exact_mod_cast x.den_pos.ne'
  rw [← Nat.cast_inj (R := ℚ), Nat.cast_mul, ← magnitude_mul_den]
  exact mul_left_inj' hden

theorem whole?_of_magnitude {m : Nat} (h : x.magnitude = m) :
    x.whole? = some (if x.negative then -(m : ℤ) else m) := by
  have hnum : x.num = m * x.den := num_eq_iff.2 h
  have hdiv : (x.num : ℤ) / x.den = m := by
    rw [hnum, Nat.cast_mul]
    exact Int.mul_ediv_cancel _ (by exact_mod_cast x.den_pos.ne')
  unfold whole?
  rw [if_pos (by rw [hnum, Nat.mul_mod_left]), hdiv]

theorem whole?_eq_some_iff : x.whole? = some n ↔ x.value = n := by
  constructor
  · intro h
    have hm : x.magnitude = n.natAbs := num_eq_iff.1 (of_whole? h).1
    have hn := Option.some.inj ((whole?_of_magnitude hm).symm.trans h)
    unfold value signed
    rw [hm, ← hn]
    split <;> simp
  · intro h
    have hm : x.magnitude = n.natAbs := by
      rw [← abs_value, h, Nat.cast_natAbs, Int.cast_abs]
    rw [whole?_of_magnitude hm]
    have hvalue : ((if x.negative then -(n.natAbs : ℤ) else n.natAbs : ℤ) : ℚ) = n := by
      rw [← h, value, signed, hm]
      split <;> simp
    exact congrArg some (by exact_mod_cast hvalue)

theorem value_unsignedZero (x : Binary64) : x.unsignedZero.value = x.value := by
  unfold unsignedZero
  split
  · next h =>
    have hm : x.mantissa = 0 := by simpa [isZero] using h
    have hzero : x.value = 0 := by
      rw [← abs_eq_zero, abs_value, magnitude, hm]
      simp
    rw [value_zero, hzero]
  · rfl

theorem signed_natAbs (n : ℤ) : signed (decide (n < 0)) (n.natAbs / (1 : Nat)) = n := by
  unfold signed
  rw [Nat.cast_one, div_one, Nat.cast_natAbs]
  split
  · next h =>
    rw [abs_of_neg (of_decide_eq_true h)]
    simp
  · next h =>
    rw [abs_of_nonneg (by simpa using h)]

theorem value_ofInt (h : ∃ y : Binary64, y.value = n) : (ofInt n).value = n := by
  obtain ⟨y, hy⟩ := h
  exact (value_round Nat.one_ne_zero (hy.trans (signed_natAbs n).symm)).trans (signed_natAbs n)

end

end Binary64

namespace Number

/-- The rational number that a number of a document stands for. -/
def value : Number → ℚ
  | .int n => n
  | .double x => x.value

/-- An integer, or a finite binary64 number. -/
def IsFinite : Number → Prop
  | .int _ => True
  | .double x => x.isFinite = true

variable {x : Binary64} {n : ℤ}

theorem isFinite_preferInt (h : x.isFinite = true) : (preferInt x).IsFinite := by
  rcases preferInt_cases x with hx | ⟨_, _, _, _, hx⟩
  · rw [hx]
    exact h
  · rw [hx]
    trivial

/-- A whole number is written with its value, unless it is `2 ^ 63`. -/
theorem value_preferInt (h : x.value = n) :
    (preferInt x).value = if n = 2 ^ 63 then 2 ^ 63 - 1 else n := by
  have hmin : minInt = -2 ^ 63 := by decide
  have hmax : maxSigned = 2 ^ 63 - 1 := by decide
  unfold preferInt
  rw [Binary64.whole?_eq_some_iff.2 h, hmin, hmax]
  dsimp only
  split
  · next hn =>
    split
    · next heq =>
      rw [heq]
      norm_num [value]
    · next hne =>
      rw [min_eq_left (by omega)]
      rfl
  · next hn =>
    rw [if_neg (by omega)]
    exact h

theorem value_toBinary64 {k : Number} (hk : k.value = n) (h : ∃ y : Binary64, y.value = n) :
    k.toBinary64.value = n := by
  cases k with
  | int m =>
    obtain rfl : m = n := Int.cast_injective (α := ℚ) hk
    exact Binary64.value_ofInt h
  | double x => exact hk

end Number

end SchemaSynth
