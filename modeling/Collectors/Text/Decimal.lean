/-!
# Decimal numbers

Numbers as people write them: decimal digits, perhaps behind a sign.
-/

namespace Collectors
namespace Decimal

/-- The number that decimal digits write; `none` without a digit or with another character. -/
def digits? (cs : List Char) : Option Nat :=
  if !cs.isEmpty && cs.all Char.isDigit then some (Nat.ofDigitChars 10 cs 0) else none

/-- The number that decimal digits write, perhaps behind a plus sign; `none` if it is greater
than `limit`. -/
def unsigned? (limit : Nat) (cs : List Char) : Option Nat :=
  let digits := match cs with
    | '+' :: rest => rest
    | cs => cs
  (digits? digits).filter (· ≤ limit)

/-- The number that decimal digits write, perhaps behind a sign; `none` if it is not between
`low` and `high`. -/
def signed? (low high : Int) (cs : List Char) : Option Int :=
  let n := match cs with
    | '-' :: rest => (digits? rest).map fun n => -(n : Int)
    | '+' :: rest => (digits? rest).map fun n => (n : Int)
    | cs => (digits? cs).map fun n => (n : Int)
  n.filter fun n => low ≤ n ∧ n ≤ high

end Decimal
end Collectors
