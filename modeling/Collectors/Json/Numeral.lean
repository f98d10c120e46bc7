import Collectors.Json.Basic

/-!
# Numerals and their values

A numeral is a number as it is written: a sign, digits, and perhaps a fraction and an exponent.
`Numeral.value` is what it stands for:

* digits alone are an integer if they fit 64 bits, unsigned or (behind a minus sign) signed;
  minus zero is the binary64 negative zero;
* every other numeral is a binary64 word. Its leading digits are gathered while they fit 64 bits;
  integer digits behind them count as powers of ten and fraction digits behind them are dropped.
  The gathered number is scaled by one multiplication or division by a power of ten;
* a numeral too large for a finite word has no value.
-/

namespace Collectors
namespace Json

/-- A number as it is written; the digits stand most significant first. -/
structure Numeral where
  negative : Bool
  whole : List Nat
  fraction : List Nat
  /-- The exponent; `none` where no exponent is written. -/
  exponent : Option Int
  /-- Whether a decimal point is written. -/
  point : Bool
  deriving DecidableEq

namespace Numeral

/-- The largest 64-bit number. -/
def maxWord : Nat := 0xFFFFFFFFFFFFFFFF

/-- The number that some digits write, behind a number already read. -/
def ofDigits (start : Nat) (digits : List Nat) : Nat :=
  digits.foldl (fun n d => 10 * n + d) start

/-- Gathers digits while the number fits 64 bits; the digits that are left come second. -/
def gather (n : Nat) : List Nat → Nat × List Nat
  | [] => (n, [])
  | d :: rest => if 10 * n + d ≤ maxWord then gather (10 * n + d) rest else (n, d :: rest)

/-- `10 ^ n` as a binary64 number. -/
def power (n : Nat) : Float := Float.ofScientific 1 false n

/-- Scales by `10 ^ e` in one step when the power of ten is a finite number. A smaller scale is
taken in steps of `1e-308` until nothing is left; a result that is not finite is refused. -/
def scale (x : Float) (e : Int) : Option Float :=
  if 308 < e then if x == 0 then some x else none
  else if 0 ≤ e then
    let y := x * power e.toNat
    if y.isInf then none else some y
  else if -308 ≤ e then some (x / power (-e).toNat)
  else if x == 0 then some x
  else scale (x / power 308) (e + 308)
termination_by (-e).toNat
decreasing_by omega

/-- The binary64 word of a numeral, scaled from its leading digits. -/
def real (n : Numeral) : Option UInt64 :=
  let (lead, behind) := gather 0 n.whole
  let (lead, dropped) := gather lead n.fraction
  let kept := n.fraction.length - dropped.length
  let e := (behind.length : Int) - kept + n.exponent.getD 0
  (scale (UInt64.ofNat lead).toFloat e).map fun x => (if n.negative then -x else x).toBits

/-- What a numeral stands for; `none` if it is too large. -/
def value (n : Numeral) : Option Number :=
  let whole := ofDigits 0 n.whole
  if n.point ∨ n.exponent.isSome then n.real.map .real
  else if n.negative then
    if whole ≠ 0 ∧ whole ≤ 0x8000000000000000 then some (.int (-whole)) else n.real.map .real
  else if whole ≤ maxWord then some (.int whole)
  else n.real.map .real

end Numeral
end Json
end Collectors
