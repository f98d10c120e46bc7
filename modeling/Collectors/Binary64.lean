/-!
# Shortest decimals of binary64 words

A binary64 word is kept as its 64 bits, so that two numbers are equal exactly when their words
are. The text of a finite word is the shortest decimal that rounds back to it:

* `Binary64.significand` and `Binary64.exponent` read a word as `significand * 2 ^ exponent`;
* `Binary64.interval` is the set of reals that round to it, in units of a quarter of the last
  place, with its ends included exactly when the significand is even;
* `Binary64.shortest` tries the decimal grids with 1, 2, …, 17 digits and takes the first that
  has a point in the interval, the nearer of two;
* `Binary64.layout` writes the digits positionally between `1e-5` and `1e16` and with an
  exponent otherwise.

All of it is exact arithmetic on natural numbers.
-/

namespace Collectors
namespace Binary64

/-- The sign bit. -/
def negative (bits : UInt64) : Bool := bits >>> 63 == 1

/-- The biased exponent field. -/
def field (bits : UInt64) : Nat := ((bits >>> 52) &&& 0x7ff).toNat

/-- The 52 fraction bits. -/
def fraction (bits : UInt64) : Nat := (bits &&& 0xfffffffffffff).toNat

/-- The integer significand of a finite word. -/
def significand (bits : UInt64) : Nat :=
  if field bits = 0 then fraction bits else 0x10000000000000 + fraction bits

/-- The power of two that scales the significand of a finite word. -/
def exponent (bits : UInt64) : Int := max (field bits : Int) 1 - 1075

/-- What rounds to a finite word: `low`, `mid` and `high` in quarters of the last place. The gap
below a power of two is half the gap above it. -/
structure Interval where
  low : Nat
  mid : Nat
  high : Nat
  /-- Whether the two ends belong to the interval. -/
  closed : Bool

/-- The interval of a finite word. -/
def interval (bits : UInt64) : Interval :=
  let m := significand bits
  let low := if fraction bits = 0 ∧ 1 < field bits then 4 * m - 1 else 4 * m - 2
  { low, mid := 4 * m, high := 4 * m + 2, closed := m % 2 = 0 }

/-- The interval brought to a common denominator with the decimal grid of step `10 ^ k`: its
three marks and the step, all multiplied by one positive factor. -/
def scaled (bits : UInt64) (k : Int) : Interval × Nat :=
  let v := interval bits
  let q := exponent bits - 2
  let up := Nat.pow 2 q.toNat * Nat.pow 10 (-k).toNat
  ({ v with low := v.low * up, mid := v.mid * up, high := v.high * up },
    Nat.pow 2 (-q).toNat * Nat.pow 10 k.toNat)

/-- Whether a scaled number lies in the interval. -/
def Interval.holds (v : Interval) (x : Nat) : Bool :=
  if v.closed then v.low ≤ x && x ≤ v.high else v.low < x && x < v.high

/-- The point of the grid of step `10 ^ k` that rounds to the word, the nearer one if its two
neighbours both do. -/
def onGrid (bits : UInt64) (k : Int) : Option Nat :=
  let (v, step) := scaled bits k
  let below := v.mid / step
  let fitsBelow := below ≠ 0 ∧ v.holds (below * step)
  let fitsAbove := v.holds ((below + 1) * step)
  let nearBelow := 2 * (v.mid - below * step) ≤ step
  if fitsBelow ∧ (nearBelow ∨ ¬ fitsAbove) then some below
  else if fitsAbove then some (below + 1)
  else none

/-- The number of digits before the point of a positive finite word; negative for a word below
a tenth. -/
def magnitude (bits : UInt64) : Int :=
  let q := exponent bits
  let n := significand bits * Nat.pow 2 q.toNat * Nat.pow 10 400 / Nat.pow 2 (-q).toNat
  (Nat.toDigits 10 n).length - 400

/-- A decimal `digits * 10 ^ k` without trailing zeros. -/
def trim (digits : List Char) (k : Int) : List Char × Int :=
  let zeros := digits.reverse.takeWhile (· = '0')
  (digits.take (digits.length - zeros.length), k + zeros.length)

/-- The digits and the power of ten of the shortest decimal of a positive finite word. -/
def shortest (bits : UInt64) : List Char × Int :=
  let e := magnitude bits
  let found := (List.range 17).findSome? fun n =>
    let k := e - (n + 1 : Nat)
    (onGrid bits k).map fun digits => trim (Nat.toDigits 10 digits) k
  found.getD (['0'], 0)

/-- A power of ten as it follows the mark `e`. -/
def exponentText (e : Int) : List Char :=
  if e < 0 then '-' :: Nat.toDigits 10 e.natAbs else Nat.toDigits 10 e.natAbs

/-- The written form of `digits * 10 ^ k`: positional with a fraction part for values from `1e-5`
up to `1e16`, else one digit before the point and an exponent. -/
def layout (digits : List Char) (k : Int) : List Char :=
  let kk := digits.length + k
  if 0 ≤ k ∧ kk ≤ 16 then digits ++ List.replicate k.toNat '0' ++ ['.', '0']
  else if 0 < kk ∧ kk ≤ 16 then digits.take kk.toNat ++ '.' :: digits.drop kk.toNat
  else if -5 < kk ∧ kk ≤ 0 then '0' :: '.' :: List.replicate (-kk).toNat '0' ++ digits
  else
    let fraction := digits.drop 1
    digits.take 1 ++ (if fraction.isEmpty then [] else '.' :: fraction) ++
      'e' :: exponentText (kk - 1)

/-- The text of a finite word; the sign of a zero is kept. -/
def text (bits : UInt64) : List Char :=
  let body :=
    if significand bits = 0 then ['0', '.', '0']
    else
      let (digits, k) := shortest bits
      layout digits k
  if negative bits then '-' :: body else body

end Binary64
end Collectors
