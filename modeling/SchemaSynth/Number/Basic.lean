import SchemaSynth.Number.Shortest

/-!
# Numbers of a document

A number is an integer of 64 bits, signed or not, or a binary64 number. The two kinds stay apart:
`1` and `1.0` are different numbers with different texts.

A literal with neither fraction nor exponent whose digits fit 64 bits is an integer. Any other is
read in two roundings: the leading digits that fit 64 bits, first of the whole part and then of the
fraction, become a binary64 number, which is multiplied or divided by a power of ten.
`NumberLiteral.value?` fails where the number is too big.
-/

namespace SchemaSynth

/-- An integer or a binary64 number. -/
inductive Number where
  | int (value : Int)
  | double (value : Binary64)
deriving DecidableEq, Repr

namespace Number

/-- The least integer kept as such. -/
def minInt : Int := -(twoTo 63 : Nat)

def maxSigned : Int := (twoTo 63 : Nat) - 1

def text : Number → String
  | .int n => toString n
  | .double x => x.text

def toBinary64 : Number → Binary64
  | .int n => Binary64.ofInt n
  | .double x => x

/-- A binary64 number written as an integer where it is whole and between `-2 ^ 63` and `2 ^ 63`,
the upper end becoming the largest signed integer. -/
def preferInt (x : Binary64) : Number :=
  match x.whole? with
  | some n => if minInt ≤ n ∧ n ≤ maxSigned + 1 then .int (min n maxSigned) else .double x
  | none => .double x

end Number

/-- The parts of a number literal; the digits are values, most significant first. -/
structure NumberLiteral where
  negative : Bool
  whole : List Nat
  fraction : Option (List Nat)
  exponent : Option Int
deriving DecidableEq, Repr

namespace NumberLiteral

/-- Append digits to a significand while it stays below `2 ^ 64`; the digits left over come with
the result. -/
def appendDigits (significand : Nat) : List Nat → Nat × List Nat
  | [] => (significand, [])
  | d :: rest =>
    if significand * 10 + d < twoTo 64 then appendDigits (significand * 10 + d) rest
    else (significand, d :: rest)

def powerOfTen (n : Nat) : Binary64 := Binary64.round false (tenTo n) 1 Nat.one_ne_zero

/-- The largest power of ten that is a finite binary64 number. -/
def maxPower : Nat := 308

/-- `x / 10 ^ n`, in steps of the largest power. Two such steps leave nothing of a significand. -/
def scaleDown (x : Binary64) (n : Nat) : Option Binary64 :=
  if n ≤ maxPower then x.div? (powerOfTen n)
  else do
    let y ← x.div? (powerOfTen maxPower)
    if n - maxPower ≤ maxPower then y.div? (powerOfTen (n - maxPower))
    else pure (Binary64.zero x.negative)

/-- `± significand * 10 ^ exponent`, if it is finite. -/
def scale? (negative : Bool) (significand : Nat) (exponent : Int) : Option Binary64 :=
  let x := Binary64.round negative significand 1 Nat.one_ne_zero
  if exponent < 0 then scaleDown x exponent.natAbs
  else if exponent ≤ maxPower then x.mul? (powerOfTen exponent.natAbs)
  else if x.isZero then some x
  else none

/-- The number that a sign and an unsigned integer of 64 bits stand for. A negative one outside the
signed range, and `-0`, are binary64 numbers. -/
def ofInteger (negative : Bool) (n : Nat) : Number :=
  if !negative then .int n
  else if n ≠ 0 ∧ n ≤ twoTo 63 then .int (-n)
  else .double (Binary64.round true n 1 Nat.one_ne_zero)

/-- The number a literal stands for, unless it is too big. -/
def value? (l : NumberLiteral) : Option Number :=
  let (significand, dropped) := appendDigits 0 l.whole
  match l.fraction, l.exponent, dropped with
  | none, none, [] => some (ofInteger l.negative significand)
  | _, _, _ =>
    let digits := l.fraction.getD []
    let (significand, rest) := appendDigits significand digits
    let exponent := (dropped.length : Int) - (digits.length - rest.length : Nat) + l.exponent.getD 0
    (scale? l.negative significand exponent).map .double

end NumberLiteral

end SchemaSynth
