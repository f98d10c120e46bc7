import Collectors.Text.Hex

/-!
# Collector ids

A collector is named by sixteen bytes. Their text has 32 hexadecimal digits in groups of 8, 4, 4,
4 and 12 with hyphens between them, in lower case; `CollectorId.parse` reads digits of either
case and no other form. Ids are ordered as their bytes are.
-/

namespace Collectors

/-- The id of a collector: sixteen bytes. -/
structure CollectorId where
  bytes : List UInt8
  length_bytes : bytes.length = 16
  deriving DecidableEq

namespace CollectorId

/-- The number of characters of the text of an id. -/
def textLength : Nat := 36

/-- The id with some bytes, if they are sixteen. -/
def ofBytes? (bytes : List UInt8) : Option CollectorId :=
  if h : bytes.length = 16 then some ⟨bytes, h⟩ else none

/-- The digits of some bytes. -/
def digits (bytes : List UInt8) : List Char := bytes.flatMap Hex.ofByte

/-- The characters of the text of an id. -/
def chars (id : CollectorId) : List Char :=
  digits (id.bytes.take 4) ++ '-' :: digits ((id.bytes.drop 4).take 2) ++
    '-' :: digits ((id.bytes.drop 6).take 2) ++ '-' :: digits ((id.bytes.drop 8).take 2) ++
    '-' :: digits (id.bytes.drop 10)

/-- The text of an id. -/
def text (id : CollectorId) : String := String.ofList id.chars

instance : ToString CollectorId := ⟨text⟩

/-- The text of an id in messages meant for people who look into a program. -/
def debugText (id : CollectorId) : String := "CollectorId(" ++ id.text ++ ")"

/-- Why a text names no collector. -/
inductive ParseError where
  /-- The text has `found` bytes. -/
  | length (found : Nat)
  /-- The text has the length of an id, but not its digits and hyphens. -/
  | form
  deriving DecidableEq

/-- The digits of a text with hyphens at their four places; `none` if one is missing. -/
def withoutHyphens (cs : List Char) : Option (List Char) :=
  if cs[8]? = some '-' ∧ cs[13]? = some '-' ∧ cs[18]? = some '-' ∧ cs[23]? = some '-' then
    some (cs.take 8 ++ (cs.drop 9).take 4 ++ (cs.drop 14).take 4 ++ (cs.drop 19).take 4 ++
      cs.drop 24)
  else none

/-- Reads the text of an id. -/
def parse (text : String) : Except ParseError CollectorId :=
  if text.utf8ByteSize = textLength then
    match (withoutHyphens text.toList).bind fun ds => (Hex.bytes? ds).bind ofBytes? with
    | some id => .ok id
    | none => .error .form
  else .error (.length text.utf8ByteSize)

/-- Whether `a` comes before `b` or is equal to it. -/
def le (a b : CollectorId) : Bool := a.bytes ≤ b.bytes

end CollectorId
end Collectors
