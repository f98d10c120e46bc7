import Collectors.Text.Hex

/-!
# Percent-encoding

In a percent-encoded text `%` and two hexadecimal digits stand for one byte. `percentDecoded`
takes every other `%` as it is, and `isPercentEncoded` tells whether there is none.
-/

namespace Collectors

/-- The bytes of a percent-encoded text. -/
def percentDecoded : List Char → List UInt8
  | [] => []
  | '%' :: a :: b :: rest =>
    match Hex.byte? a b with
    | some byte => byte :: percentDecoded rest
    | none => 37 :: percentDecoded (a :: b :: rest)
  | c :: rest => c.toString.toUTF8.toList ++ percentDecoded rest
termination_by cs => cs.length

/-- Whether two hexadecimal digits stand behind every `%`. -/
def isPercentEncoded : List Char → Bool
  | [] => true
  | '%' :: a :: b :: rest => (Hex.byte? a b).isSome && isPercentEncoded rest
  | c :: rest => c ≠ '%' && isPercentEncoded rest

end Collectors
