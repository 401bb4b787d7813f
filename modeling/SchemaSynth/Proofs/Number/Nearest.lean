import Mathlib.Algebra.Order.Field.Power
import Mathlib.Algebra.Order.Field.Rat
import Mathlib.Tactic.FieldSimp
import Mathlib.Tactic.Linarith
import Mathlib.Tactic.NormNum
import Mathlib.Tactic.Positivity
import Mathlib.Tactic.Ring
import SchemaSynth.Proofs.Number.Value

/-!
# Rounding to the nearest number

`Binary64.value` is the rational number that a binary64 number stands for. `round` gives a number
that no other is nearer to than it is (`abs_round_sub_le`), so a value that some number has is kept
(`value_round`). The result is finite as long as the value is below `limit`, half a step above the
largest finite number (`isFinite_round`).
-/

namespace SchemaSynth

def signed (negative : Bool) (magnitude : ℚ) : ℚ := if negative then -magnitude else magnitude

namespace Binary64

def magnitude (x : Binary64) : ℚ := x.mantissa * 2 ^ x.exponent

/-- The rational number that a number stands for. -/
def value (x : Binary64) : ℚ := signed x.negative x.magnitude

/-- Half a step above the largest finite number. -/
def limit : ℚ := (2 ^ 54 - 1) * 2 ^ (970 : ℤ)

/-- A finite number that no other is nearer to a value than. -/
structure Nearest (x : Binary64) (v : ℚ) : Prop where
  isFinite : x.isFinite = true
  abs_sub_le : ∀ y : Binary64, y.isFinite = true → |x.value - v| ≤ |y.value - v|

/-! ## Rounding to a whole number -/

theorem nearestQuotient_cases (num : Nat) {den : Nat} (hden : 0 < den) :
    ∃ q r, num = q * den + r ∧ r < den ∧
      (nearestQuotient num den = q ∧ (2 * r < den ∨ 2 * r = den ∧ q % 2 = 0) ∨
        nearestQuotient num den = q + 1 ∧ (den < 2 * r ∨ 2 * r = den ∧ q % 2 = 1)) := by
  refine ⟨num / den, num % den, (Nat.div_add_mod' num den).symm, Nat.mod_lt _ hden, ?_⟩
  unfold nearestQuotient
  dsimp only
  split
  · next h =>
    refine .inr ⟨rfl, ?_⟩
    simpa using h
  · next h =>
    refine .inl ⟨rfl, ?_⟩
    simp only [Bool.or_eq_true, decide_eq_true_eq, Bool.and_eq_true, beq_iff_eq] at h
    omega

theorem nearestQuotient_bounds (num : Nat) {den : Nat} (hden : 0 < den) :
    2 * (nearestQuotient num den * den) ≤ 2 * num + den ∧
      2 * num ≤ 2 * (nearestQuotient num den * den) + den := by
  obtain ⟨q, r, hnum, hr, ⟨heq, h⟩ | ⟨heq, h⟩⟩ := nearestQuotient_cases num hden
  · rw [heq]
    omega
  · rw [heq, Nat.add_one_mul q]
    omega

theorem lt_nearestQuotient_iff {num den k : Nat} (hden : 0 < den) (hk : k % 2 = 1) :
    k < nearestQuotient num den ↔ (2 * k + 1) * den ≤ 2 * num := by
  have double : (2 * k + 1) * den = 2 * (k * den) + den := by
    rw [Nat.add_one_mul, Nat.mul_assoc]
  rw [double]
  obtain ⟨q, r, hnum, hr, hq⟩ := nearestQuotient_cases num hden
  rcases Nat.lt_trichotomy k q with hlt | rfl | hlt
  · have := Nat.mul_le_mul_right den (Nat.succ_le_of_lt hlt)
    rw [Nat.succ_mul] at this
    omega
  · omega
  · have := Nat.mul_le_mul_right den (Nat.succ_le_of_lt hlt)
    rw [Nat.succ_mul] at this
    omega

theorem abs_nearestQuotient_sub_le (num : Nat) {den : Nat} (hden : 0 < den) :
    |(nearestQuotient num den : ℚ) - num / den| ≤ 1 / 2 := by
  obtain ⟨hle, hge⟩ := nearestQuotient_bounds num hden
  have hle : (2 * (nearestQuotient num den * den) : ℚ) ≤ 2 * num + den := by exact_mod_cast hle
  have hge : (2 * num : ℚ) ≤ 2 * (nearestQuotient num den * den) + den := by exact_mod_cast hge
  have hden : (0 : ℚ) < den := by exact_mod_cast hden
  have hdiff : (nearestQuotient num den : ℚ) - num / den =
      (nearestQuotient num den * den - num) / den := by field_simp
  rw [hdiff, abs_div, abs_of_pos hden, div_le_iff₀ hden, abs_le]
  constructor <;> linarith

theorem abs_sub_le_of_half {m : Nat} {q : ℚ} (h : |(m : ℚ) - q| ≤ 1 / 2) (k : Nat) :
    |(m : ℚ) - q| ≤ |(k : ℚ) - q| := by
  by_cases hk : m = k
  · rw [hk]
  · have apart : (1 : ℚ) ≤ |(m : ℚ) - k| := by
      rw [← Int.cast_natCast m, ← Int.cast_natCast k]
      exact_mod_cast Int.one_le_abs (sub_ne_zero.2 (Nat.cast_injective.ne hk))
    have := abs_sub_le (m : ℚ) q k
    rw [abs_sub_comm q] at this
    linarith

/-! ## Steps of an exponent -/

theorem twoTo_cast (n : Nat) : (twoTo n : ℚ) = 2 ^ n := Nat.cast_pow 2 n

theorem powUp_cast (e : ℤ) : (powUp e : ℚ) = 2 ^ e * powUp (-e) := by
  unfold powUp
  rw [twoTo_cast, twoTo_cast, ← zpow_natCast, ← zpow_natCast, ← zpow_add₀ two_ne_zero]
  congr 1
  omega

theorem powUp_cast_pos (e : ℤ) : (0 : ℚ) < powUp e := by exact_mod_cast powUp_pos e

theorem scaled_cast (num : Nat) {den : Nat} (hden : den ≠ 0) (e : ℤ) :
    ((num * powUp (-e) : Nat) : ℚ) / (den * powUp e : Nat) * 2 ^ e = num / den := by
  have hup := powUp_cast e
  have hpos := powUp_cast_pos (-e)
  have hden : (den : ℚ) ≠ 0 := by exact_mod_cast hden
  push_cast
  rw [hup]
  field_simp

section

variable {num den : Nat}

theorem nearest_eq (num den : Nat) :
    ((nearest num den).1 : ℚ) * 2 ^ (nearest num den).2 =
      nearestQuotient (num * powUp (-exponentOf num den)) (den * powUp (exponentOf num den)) *
        2 ^ exponentOf num den := by
  unfold nearest
  dsimp only
  split
  · next h =>
    rw [h, twoTo_succ 52, zpow_add_one₀ two_ne_zero]
    push_cast
    ring
  · rfl

theorem abs_nearest_sub_le (num : Nat) {den : Nat} (hden : den ≠ 0) (k : Nat) :
    |((nearest num den).1 : ℚ) * 2 ^ (nearest num den).2 - num / den| ≤
      |(k : ℚ) * 2 ^ exponentOf num den - num / den| := by
  have hstep : (0 : ℚ) < 2 ^ exponentOf num den := by positivity
  have hpos : 0 < den * powUp (exponentOf num den) :=
    Nat.mul_pos (Nat.pos_of_ne_zero hden) (powUp_pos _)
  have steps (m : Nat) : |(m : ℚ) * 2 ^ exponentOf num den - num / den| =
      |(m : ℚ) - (num * powUp (-exponentOf num den) : Nat) /
        (den * powUp (exponentOf num den) : Nat)| * 2 ^ exponentOf num den := by
    rw [← scaled_cast num hden (exponentOf num den), ← sub_mul, abs_mul, abs_of_pos hstep]
  have half := abs_nearestQuotient_sub_le (num * powUp (-exponentOf num den)) hpos
  rw [nearest_eq, steps, steps]
  exact mul_le_mul_of_nonneg_right (abs_sub_le_of_half half k) hstep.le

theorem Below.cast {e : ℤ} (hden : den ≠ 0) (h : Below num den e) :
    (num : ℚ) / den < 2 ^ 53 * 2 ^ e := by
  have hpos : (0 : ℚ) < (den * powUp e : Nat) := by
    exact_mod_cast Nat.mul_pos (Nat.pos_of_ne_zero hden) (powUp_pos e)
  have hlt : ((num * powUp (-e) : Nat) : ℚ) < 2 ^ 53 * (den * powUp e : Nat) := by exact_mod_cast h
  rw [← scaled_cast num hden e]
  exact mul_lt_mul_of_pos_right ((div_lt_iff₀ hpos).2 hlt) (by positivity)

theorem Above.cast {e : ℤ} (hden : den ≠ 0) (h : Above num den e) :
    2 ^ 52 * 2 ^ e ≤ (num : ℚ) / den := by
  have hpos : (0 : ℚ) < (den * powUp e : Nat) := by
    exact_mod_cast Nat.mul_pos (Nat.pos_of_ne_zero hden) (powUp_pos e)
  have hle : (2 ^ 52 * (den * powUp e : Nat) : ℚ) ≤ (num * powUp (-e) : Nat) := by exact_mod_cast h
  rw [← scaled_cast num hden e]
  exact mul_le_mul_of_nonneg_right ((le_div_iff₀ hpos).2 hle) (by positivity)

theorem magnitude_nonneg (y : Binary64) : 0 ≤ y.magnitude := by
  unfold magnitude
  positivity

theorem exists_steps {y : Binary64} {e : ℤ} (h : e ≤ y.exponent) :
    ∃ k : Nat, y.magnitude = k * 2 ^ e := by
  refine ⟨y.mantissa * 2 ^ (y.exponent - e).toNat, ?_⟩
  have hpow : (2 : ℚ) ^ y.exponent = 2 ^ (y.exponent - e).toNat * 2 ^ e := by
    rw [← zpow_natCast, ← zpow_add₀ two_ne_zero]
    congr 1
    omega
  unfold magnitude
  rw [hpow]
  push_cast
  ring

theorem magnitude_lt (y : Binary64) : y.magnitude < 2 ^ 53 * 2 ^ y.exponent := by
  have hm : (y.mantissa : ℚ) < 2 ^ 53 := by exact_mod_cast y.normal.mantissa_lt
  exact mul_lt_mul_of_pos_right hm (by positivity)

/-- Where the quotient has a full mantissa, numbers with a smaller exponent are below it. -/
theorem magnitude_le_of_exponent_lt (hnum : num ≠ 0) (hden : den ≠ 0) {y : Binary64}
    (h : y.exponent < exponentOf num den) :
    y.magnitude ≤ 2 ^ 52 * 2 ^ exponentOf num den ∧
      2 ^ 52 * 2 ^ exponentOf num den ≤ (num : ℚ) / den := by
  have hmin := y.normal.minExponent_le
  have habove : Above num den (exponentOf num den) :=
    (exponentOf_spec hnum hden).2.resolve_right (by omega)
  refine ⟨?_, habove.cast hden⟩
  calc y.magnitude ≤ 2 ^ 53 * 2 ^ y.exponent := y.magnitude_lt.le
    _ ≤ 2 ^ 53 * 2 ^ (exponentOf num den - 1) := by
        gcongr
        · norm_num
        · omega
    _ = 2 ^ 52 * 2 ^ exponentOf num den := by
        rw [zpow_sub_one₀ two_ne_zero]
        ring

/-- No number has a magnitude nearer to a quotient than the one that is rounded to. -/
theorem abs_nearest_sub_magnitude_le (hnum : num ≠ 0) (hden : den ≠ 0) (y : Binary64) :
    |((nearest num den).1 : ℚ) * 2 ^ (nearest num den).2 - num / den| ≤
      |y.magnitude - num / den| := by
  rcases Int.lt_or_le y.exponent (exponentOf num den) with hlt | hge
  · -- The first number with 53 bits at the exponent is a whole number of steps, and between them.
    obtain ⟨hy, hfirst⟩ := magnitude_le_of_exponent_lt hnum hden hlt
    have nearer := abs_nearest_sub_le num hden (twoTo 52)
    rw [twoTo_cast, abs_sub_comm (2 ^ 52 * _), abs_of_nonneg (sub_nonneg.2 hfirst)] at nearer
    rw [abs_sub_comm y.magnitude, abs_of_nonneg (sub_nonneg.2 (hy.trans hfirst))]
    exact nearer.trans (sub_le_sub_left hy _)
  · obtain ⟨k, hk⟩ := exists_steps hge
    rw [hk]
    exact abs_nearest_sub_le num hden k

end

/-! ## Rounding with a sign -/

section

variable {negative : Bool} {num den : Nat}

theorem abs_signed_sub (negative : Bool) (a b : ℚ) :
    |signed negative a - signed negative b| = |a - b| := by
  cases negative with
  | false => rfl
  | true =>
    show |-a - -b| = |a - b|
    rw [neg_sub_neg, abs_sub_comm]

theorem abs_signed (negative : Bool) {a : ℚ} (h : 0 ≤ a) : |signed negative a| = a := by
  cases negative with
  | false => exact abs_of_nonneg h
  | true => exact (abs_neg a).trans (abs_of_nonneg h)

theorem abs_value (y : Binary64) : |y.value| = y.magnitude :=
  abs_signed y.negative y.magnitude_nonneg

theorem value_zero (negative : Bool) : (zero negative).value = 0 := by
  cases negative <;> simp [value, signed, magnitude, zero]

theorem round_of_ne_zero (hden : den ≠ 0) (hnum : num ≠ 0) :
    round negative num den hden =
      ⟨negative, (nearest num den).1, (nearest num den).2, normal_nearest hnum hden⟩ := by
  unfold round
  rw [dif_neg hnum]

theorem round_zero (hden : den ≠ 0) : round negative 0 den hden = zero negative := by
  unfold round
  rw [dif_pos rfl]

/-- No number is nearer to a value than the one that it is rounded to. -/
theorem abs_round_sub_le (negative : Bool) (num : Nat) {den : Nat} (hden : den ≠ 0) (y : Binary64) :
    |(round negative num den hden).value - signed negative (num / den)| ≤
      |y.value - signed negative (num / den)| := by
  by_cases hnum : num = 0
  · subst hnum
    have hzero : signed negative ((0 : Nat) / den) = 0 := by cases negative <;> simp [signed]
    rw [round_zero, value_zero, hzero]
    simp
  · have hquotient : (0 : ℚ) ≤ num / den := by positivity
    calc |(round negative num den hden).value - signed negative (num / den)|
        = |((nearest num den).1 : ℚ) * 2 ^ (nearest num den).2 - num / den| := by
          rw [round_of_ne_zero hden hnum]
          exact abs_signed_sub negative _ _
      _ ≤ |y.magnitude - num / den| := abs_nearest_sub_magnitude_le hnum hden y
      _ = |(|y.value| - |signed negative (num / den)|)| := by
          rw [abs_value, abs_signed negative hquotient]
      _ ≤ |y.value - signed negative (num / den)| := abs_abs_sub_abs_le _ _

/-- A value that some number has is not changed. -/
theorem value_round (hden : den ≠ 0) {y : Binary64} (h : y.value = signed negative (num / den)) :
    (round negative num den hden).value = signed negative (num / den) := by
  have nearest := abs_round_sub_le negative num hden y
  rw [h, sub_self, abs_zero] at nearest
  exact sub_eq_zero.1 (abs_eq_zero.1 (le_antisymm nearest (abs_nonneg _)))

theorem exponent_nearest (num den : Nat) :
    (nearest num den).2 =
      if nearestQuotient (num * powUp (-exponentOf num den)) (den * powUp (exponentOf num den)) =
        twoTo 53 then exponentOf num den + 1 else exponentOf num den := by
  unfold nearest
  dsimp only
  split <;> rfl

theorem limit_eq : limit = (2 ^ 54 - 1) / 2 * 2 ^ maxExponent := by
  unfold limit
  rw [show maxExponent = 970 + 1 from rfl, zpow_add_one₀ two_ne_zero]
  ring

theorem limit_le_twoTo : limit ≤ twoTo 1024 := by
  rw [twoTo_cast, show 1024 = 54 + 970 from rfl, pow_add, ← zpow_natCast 2 970]
  exact mul_le_mul_of_nonneg_right (sub_le_self _ zero_le_one) (by positivity)

theorem last_half_le_iff (den num : Nat) :
    18014398509481983 * den ≤ 2 * num ↔ (2 ^ 54 - 1) / 2 * (den : ℚ) ≤ num := by
  rw [← Nat.cast_le (α := ℚ), Nat.cast_mul, Nat.cast_mul 2]
  constructor <;> intro h <;> norm_num at h ⊢ <;> linarith

/-- At the largest exponent the mantissa is carried over from `limit` on. -/
theorem carries_iff (hden : den ≠ 0) (hbelow : Below num den maxExponent) :
    nearestQuotient (num * powUp (-maxExponent)) (den * powUp maxExponent) = twoTo 53 ↔
      limit ≤ (num : ℚ) / den := by
  have hpos : 0 < den * powUp maxExponent := Nat.mul_pos (Nat.pos_of_ne_zero hden) (powUp_pos _)
  have hle := nearestQuotient_le_of_below hden hbelow
  have hlast : nearestQuotient (num * powUp (-maxExponent)) (den * powUp maxExponent) = twoTo 53 ↔
      twoTo 53 - 1 < nearestQuotient (num * powUp (-maxExponent)) (den * powUp maxExponent) := by
    have := twoTo_pos 53
    omega
  have hcast : (0 : ℚ) < (den * powUp maxExponent : Nat) := by exact_mod_cast hpos
  have hodd : 2 * (twoTo 53 - 1) + 1 = 18014398509481983 := by decide
  rw [hlast, lt_nearestQuotient_iff hpos (by decide), hodd, limit_eq,
    ← scaled_cast num hden maxExponent, mul_le_mul_iff_left₀ (by positivity), le_div_iff₀ hcast,
    last_half_le_iff]

theorem Below.lt_limit {e : ℤ} (h : Below num den e) (hden : den ≠ 0) (he : e < maxExponent) :
    (num : ℚ) / den < limit :=
  calc (num : ℚ) / den < 2 ^ 53 * 2 ^ e := h.cast hden
    _ ≤ 2 ^ 53 * 2 ^ (970 : ℤ) := by
        gcongr
        · norm_num
        · exact Int.le_of_lt_add_one he
    _ ≤ limit := by
        unfold limit
        gcongr
        norm_num

theorem Above.limit_le {e : ℤ} (h : Above num den e) (hden : den ≠ 0) (he : maxExponent < e) :
    limit ≤ (num : ℚ) / den :=
  calc limit ≤ 2 ^ 54 * 2 ^ (970 : ℤ) := by
        unfold limit
        gcongr
        norm_num
    _ = 2 ^ 52 * 2 ^ (972 : ℤ) := by
        rw [show (972 : ℤ) = 970 + 2 from rfl, zpow_add₀ two_ne_zero]
        ring
    _ ≤ 2 ^ 52 * 2 ^ e := by
        gcongr
        · norm_num
        · exact Int.add_one_le_of_lt he
    _ ≤ num / den := h.cast hden

/-- Values are rounded to finite numbers up to half a step above the largest one. -/
theorem isFinite_round (negative : Bool) (num : Nat) {den : Nat} (hden : den ≠ 0) :
    (round negative num den hden).isFinite = true ↔ (num : ℚ) / den < limit := by
  by_cases hnum : num = 0
  · subst hnum
    have hlimit : (0 : ℚ) < limit := by
      unfold limit
      positivity
    rw [round_zero]
    exact iff_of_true rfl (by simpa using hlimit)
  obtain ⟨hbelow, habove⟩ := exponentOf_spec hnum hden
  rw [round_of_ne_zero hden hnum]
  show decide ((nearest num den).2 ≤ maxExponent) = true ↔ _
  rw [decide_eq_true_iff, exponent_nearest]
  rcases lt_trichotomy (exponentOf num den) maxExponent with hlt | heq | hgt
  · exact iff_of_true (by split <;> omega) (hbelow.lt_limit hden hlt)
  · rw [heq] at hbelow ⊢
    rw [← not_le, ← carries_iff hden hbelow]
    split <;> simp [*]
  · have hmin : exponentOf num den ≠ minExponent := by
      rintro hmin
      rw [hmin] at hgt
      exact absurd hgt (by decide)
    exact iff_of_false (by split <;> omega)
      (not_lt.2 ((habove.resolve_right hmin).limit_le hden hgt))

theorem abs_signed_div (negative : Bool) (num den : Nat) :
    |signed negative (num / den)| = (num : ℚ) / den :=
  abs_signed negative (by positivity)

theorem round?_of_lt (negative : Bool) (hden : den ≠ 0) (h : (num : ℚ) / den < limit) :
    ∃ x, round? negative num den = some x ∧ x.Nearest (signed negative (num / den)) := by
  have hfinite := (isFinite_round negative num hden).2 h
  refine ⟨round negative num den hden, ?_, hfinite, fun y _ => abs_round_sub_le negative num hden y⟩
  unfold round?
  rw [dif_neg hden]
  exact if_pos hfinite

theorem round?_of_le (negative : Bool) (hden : den ≠ 0) (h : limit ≤ (num : ℚ) / den) :
    round? negative num den = none := by
  unfold round?
  rw [dif_neg hden]
  exact if_neg (mt (isFinite_round negative num hden).1 (not_lt.2 h))

theorem magnitude_lt_limit {x : Binary64} (h : x.isFinite = true) : x.magnitude < limit := by
  have hexp : x.exponent ≤ maxExponent := of_decide_eq_true h
  have hm : (x.mantissa : ℚ) + 1 ≤ 2 ^ 53 := by exact_mod_cast x.normal.mantissa_lt
  calc x.magnitude ≤ (2 ^ 53 - 1) * 2 ^ maxExponent := by
        unfold magnitude
        gcongr
        · linarith
        · norm_num
    _ < limit := by
        rw [limit_eq]
        gcongr
        norm_num

theorem Nearest.value_eq {x y : Binary64} (h : x.Nearest y.value) (hy : y.isFinite = true) :
    x.value = y.value := by
  have nearer := h.abs_sub_le y hy
  rw [sub_self, abs_zero] at nearer
  exact sub_eq_zero.1 (abs_eq_zero.1 (le_antisymm nearer (abs_nonneg _)))

end

end Binary64

end SchemaSynth
