import SchemaSynth.Number.Rounding

/-!
# Binary64 numbers

A finite binary64 number is a sign, a mantissa below `2 ^ 53` and an exponent of two, in one
normal form: the mantissa is at least `2 ^ 52`, or the exponent is the least one. `round` gives the
number nearest to a quotient of natural numbers, a tie going to the even mantissa; sums, products
and quotients are the exact ones, rounded once.
-/

namespace SchemaSynth

/-- The number `± mantissa * 2 ^ exponent`, written in the one normal way. -/
structure Binary64 where
  negative : Bool
  mantissa : Nat
  exponent : Int
  normal : Binary64.Normal mantissa exponent
deriving DecidableEq, Repr

namespace Binary64

def zero (negative : Bool) : Binary64 := ⟨negative, 0, minExponent, by decide⟩

def isZero (x : Binary64) : Bool := x.mantissa == 0

/-- No exponent beyond the largest one. -/
def isFinite (x : Binary64) : Bool := x.exponent ≤ maxExponent

/-- The number nearest to `± num / den`, a tie going to the even mantissa. The exponent may exceed
the largest one: then the quotient is too big for a finite number. -/
def round (negative : Bool) (num den : Nat) (hden : den ≠ 0) : Binary64 :=
  if hnum : num = 0 then zero negative
  else
    let x := nearest num den
    ⟨negative, x.1, x.2, normal_nearest hnum hden⟩

/-- `round`, where the result is finite. By zero there is no quotient. -/
def round? (negative : Bool) (num den : Nat) : Option Binary64 :=
  if hden : den = 0 then none
  else
    let x := round negative num den hden
    if x.isFinite then some x else none

/-- The number nearest to an integer. -/
def ofInt (n : Int) : Binary64 := round (n < 0) n.natAbs 1 Nat.one_ne_zero

def num (x : Binary64) : Nat := x.mantissa * powUp x.exponent

def den (x : Binary64) : Nat := powUp (-x.exponent)

/-- The exact integer a whole number is, if it is whole. Both zeros are `0`. -/
def whole? (x : Binary64) : Option Int :=
  if x.num % x.den = 0 then
    let n : Int := x.num / x.den
    some (if x.negative then -n else n)
  else none

/-- The same number with a zero made positive. -/
def unsignedZero (x : Binary64) : Binary64 := if x.isZero then zero false else x

def signedNum (x : Binary64) : Int := if x.negative then -x.num else x.num

/-- Product, if it is finite. -/
def mul? (x y : Binary64) : Option Binary64 :=
  round? (x.negative != y.negative) (x.num * y.num) (x.den * y.den)

/-- Quotient by a number other than zero, if it is finite. -/
def div? (x y : Binary64) : Option Binary64 :=
  round? (x.negative != y.negative) (x.num * y.den) (x.den * y.num)

/-- Sum, if it is finite. Opposite numbers add to positive zero. -/
def add? (x y : Binary64) : Option Binary64 :=
  let n := x.signedNum * y.den + y.signedNum * x.den
  round? (if n = 0 then x.negative && y.negative else n < 0) n.natAbs (x.den * y.den)

/-- Equality of values: the two zeros are equal. -/
def same (x y : Binary64) : Bool := x.signedNum * y.den == y.signedNum * x.den

end Binary64

end SchemaSynth
