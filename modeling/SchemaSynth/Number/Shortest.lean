import SchemaSynth.Number.Binary64

/-!
# Shortest decimal digits

`Binary64.shortest` gives the fewest decimal digits that read back as the same number, and of
those the nearest ones; `Binary64.text` writes them. For each count of digits only the two
neighbours of the number on that decimal grid can be nearest, so two candidates are tried a count.
-/

namespace SchemaSynth

namespace Binary64

structure Decimal where
  digits : Nat
  exponent : Int
deriving DecidableEq, Repr

namespace Decimal

def num (d : Decimal) : Nat := d.digits * tenTo d.exponent.toNat

def den (d : Decimal) : Nat := tenTo (-d.exponent).toNat

/-- The same value without trailing zeros in its digits; `fuel` bounds the zeros dropped. -/
def strip : Nat → Decimal → Decimal
  | 0, d => d
  | fuel + 1, d =>
    if d.digits ≠ 0 ∧ d.digits % 10 = 0 then strip fuel ⟨d.digits / 10, d.exponent + 1⟩ else d

end Decimal

def digitCount (n : Nat) : Nat := (Nat.toDigits 10 n).length

/-- The exponent of ten of the leading decimal digit of `num / den`. -/
def leadingExponent (num den : Nat) : Int :=
  if den ≤ num then (digitCount (num / den) : Int) - 1
  else
    Int.negOfNat (digitCount ((den + num - 1) / num - 1))

/-- Four times the mantissa, so that the ends of the interval of reals that round to the number
are whole too: they lie two units away, one unit below a power of two. -/
def interval (x : Binary64) : Nat × Nat :=
  let m := 4 * x.mantissa
  (if x.mantissa = twoTo 52 ∧ minExponent < x.exponent then m - 1 else m - 2, m + 2)

/-- Whether a decimal reads back as the magnitude of `x`: the ends count for an even mantissa. -/
def readsBack (x : Binary64) (d : Decimal) : Bool :=
  let (lo, hi) := x.interval
  let e := x.exponent - 2
  let v := d.num * powUp (-e)
  let unit := d.den * powUp e
  if x.mantissa % 2 = 0 then lo * unit ≤ v && v ≤ hi * unit else lo * unit < v && v < hi * unit

/-- The neighbours of the magnitude of `x` with `count` digits that read back, nearest first. -/
def candidates (x : Binary64) (count : Nat) : List Decimal :=
  let e := leadingExponent x.num x.den - count + 1
  let n := x.num * tenTo (-e).toNat
  let d := x.den * tenTo e.toNat
  let q := n / d
  let r := n % d
  let near := if 2 * r < d || (2 * r == d && q % 2 == 0) then [q, q + 1] else [q + 1, q]
  (near.map fun digits => ⟨digits, e⟩).filter x.readsBack

/-- The first count of digits, from `count` on, with a neighbour that reads back. -/
def shortestFrom (x : Binary64) : Nat → Nat → Decimal
  | 0, count => ((x.candidates count).head?).getD ⟨0, 0⟩
  | fuel + 1, count => ((x.candidates count).head?).getD (shortestFrom x fuel (count + 1))

/-- The fewest decimal digits that read back as the magnitude of `x`, and of those the nearest.
Seventeen digits always suffice. -/
def shortest (x : Binary64) : Decimal :=
  if x.isZero then ⟨0, 0⟩ else (shortestFrom x 16 1).strip 17

/-- Decimal exponents from here on are written in scientific notation. -/
def scientificFrom : Int := 16

/-- Decimal exponents below this one are written in scientific notation. -/
def positionalFrom : Int := -5

/-- Digits with a point behind the first `place` of them, at least one on both sides. -/
def positional (digits : List Char) (place : Int) : List Char :=
  if place ≤ 0 then '0' :: '.' :: (List.replicate (-place).toNat '0' ++ digits)
  else if place < digits.length then
    digits.take place.toNat ++ '.' :: digits.drop place.toNat
  else digits ++ List.replicate (place.toNat - digits.length) '0' ++ ['.', '0']

/-- Digits with a point behind the first, and an exponent of ten. -/
def scientific (digits : List Char) (exponent : Int) : List Char :=
  let mark := if exponent < 0 then [] else ['+']
  digits.take 1 ++ (if digits.length > 1 then '.' :: digits.drop 1 else []) ++
    'e' :: mark ++ (toString exponent).toList

/-- The text of a number: its shortest digits, positional from `1e-5` up to `1e16` and scientific
elsewhere. -/
def text (x : Binary64) : String :=
  let d := x.shortest
  let digits := Nat.toDigits 10 d.digits
  let exponent := d.exponent + digits.length - 1
  let body :=
    if x.isZero then ['0', '.', '0']
    else if positionalFrom ≤ exponent ∧ exponent < scientificFrom then
      positional digits (exponent + 1)
    else scientific digits exponent
  String.ofList (if x.negative then '-' :: body else body)

end Binary64

end SchemaSynth
