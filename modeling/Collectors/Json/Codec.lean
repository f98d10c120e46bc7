import Collectors.Json.Document
import Collectors.Json.Printer

/-!
# Codecs: typed values as JSON

A `Codec` writes the values of a type as JSON and reads them from a document. Reading visits the
document in the order of its text and stops at the first fault:

* `Fault.malformed`: the text is no JSON, is cut short, nests too deep or has too many elements;
* `Fault.mismatch`: the text is readable, but a value has the wrong kind or range, or is missing
  or repeated.

The number passed to `Codec.decode` is how many more arrays and objects may be opened.
-/

namespace Collectors
namespace Json

/-- Why a text does not read as a value of a type. -/
inductive Fault where
  | malformed
  | mismatch
  deriving DecidableEq

/-- How many arrays and objects may be open at once. -/
def maxDepth : Nat := 127

namespace Document

/-- The fault of a value whose kind is not the expected one: a value that cannot be read at all
is malformed. -/
def unexpected : Document → Fault
  | .broken => .malformed
  | .string none => .malformed
  | .number n => if n.value.isNone then .malformed else .mismatch
  | _ => .mismatch

mutual

/-- A document as a free value, its object members sorted by name. -/
def toJson : Document → Nat → Except Fault Json
  | .null, _ => .ok .null
  | .bool b, _ => .ok (.bool b)
  | .number n, _ =>
    match n.value with
    | some v => .ok (.number v)
    | none => .error .malformed
  | .string (some s), _ => .ok (.string s)
  | .string none, _ => .error .malformed
  | .array _ _, 0 => .error .malformed
  | .array items closed, room + 1 => do
    let values ← toJsonItems items room
    if closed then return .array values else .error .malformed
  | .object _ _, 0 => .error .malformed
  | .object members ending, room + 1 => do
    let values ← toJsonMembers members room
    if ending = .closed then return .object (sortMembers values) else .error .malformed
  | .broken, _ => .error .malformed

/-- The items of an array as free values. -/
def toJsonItems : List Document → Nat → Except Fault (List Json)
  | [], _ => .ok []
  | item :: rest, room => do
    let value ← item.toJson room
    let values ← toJsonItems rest room
    return value :: values

/-- The members of an object as free values, in the order of the text. -/
def toJsonMembers : List (Option String × Document) → Nat → Except Fault (List (String × Json))
  | [], _ => .ok []
  | (none, _) :: _, _ => .error .malformed
  | (some name, value) :: rest, room => do
    let value ← value.toJson room
    let values ← toJsonMembers rest room
    return (name, value) :: values

end

mutual

/-- Whether a value that nobody asked for has the form of JSON. Numbers may be too large, strings
may lack half of a pair, and nesting is free. -/
def wellFormed : Document → Bool
  | .array items closed => wellFormedItems items && closed
  | .object members ending => wellFormedMembers members && ending = .closed
  | .broken => false
  | _ => true

/-- Whether some items have the form of JSON. -/
def wellFormedItems : List Document → Bool
  | [] => true
  | item :: rest => item.wellFormed && wellFormedItems rest

/-- Whether some members have the form of JSON. -/
def wellFormedMembers : List (Option String × Document) → Bool
  | [] => true
  | (_, value) :: rest => value.wellFormed && wellFormedMembers rest

end

end Document

/-- A way to write the values of a type as JSON and to read them back. -/
structure Codec (α : Type) where
  encode : α → Json
  decode : Nat → Document → Except Fault α

namespace Codec

variable {α β : Type}

/-- The written form of a value. -/
def write (c : Codec α) (a : α) : String := (c.encode a).render

/-- Reads a text that holds one value and nothing behind it but blanks. -/
def read (c : Codec α) (text : String) : Except Fault α := do
  let (tree, complete) := Document.ofText text
  let a ← c.decode maxDepth tree
  if complete then return a else .error .malformed

/-- Reads the first value of a text, whatever is behind it. -/
def readFront (c : Codec α) (text : String) : Except Fault α :=
  c.decode maxDepth (Document.ofText text).1

/-- Free values. -/
def free : Codec Json where
  encode := id
  decode room tree := tree.toJson room

/-- Strings. -/
def text : Codec String where
  encode := .string
  decode
    | _, .string (some s) => .ok s
    | _, tree => .error tree.unexpected

/-- Integers from `low` to `high`, written without fraction or exponent. -/
def integer (low high : Int) : Codec Int where
  encode := Json.int
  decode
    | _, .number n =>
      match n.value with
      | some (.int i) => if low ≤ i ∧ i ≤ high then .ok i else .error .mismatch
      | some (.real _) => .error .mismatch
      | none => .error .malformed
    | _, tree => .error tree.unexpected

/-- A codec for values that are written as values of another type; `make` refuses those that
stand for nothing. -/
def via (c : Codec α) (make : α → Option β) (raw : β → α) : Codec β where
  encode b := c.encode (raw b)
  decode room tree := do
    match make (← c.decode room tree) with
    | some b => return b
    | none => .error .mismatch

/-- Signed 32-bit integers. -/
def int32 : Codec Int32 :=
  (integer (-0x80000000) 0x7FFFFFFF).via (fun i => some (Int32.ofInt i)) Int32.toInt

/-- Unsigned 16-bit integers. -/
def uint16 : Codec UInt16 :=
  (integer 0 0xFFFF).via (fun i => some (UInt16.ofNat i.toNat)) (fun n => n.toNat)

/-- Unsigned 64-bit integers. -/
def uint64 : Codec UInt64 :=
  (integer 0 0xFFFFFFFFFFFFFFFF).via (fun i => some (UInt64.ofNat i.toNat)) (fun n => n.toNat)

/-- Values that may be absent; absence is written `null`. -/
def optional (c : Codec α) : Codec (Option α) where
  encode
    | none => .null
    | some a => c.encode a
  decode
    | _, .null => .ok none
    | room, tree => (c.decode room tree).map some

/-- The value that carries nothing, written `null`. -/
def unit : Codec Unit where
  encode _ := .null
  decode
    | _, .null => .ok ()
    | _, tree => .error tree.unexpected

/-- Decodes items one after another. -/
def decodeItems (c : Codec α) (room : Nat) : List Document → Except Fault (List α)
  | [] => .ok []
  | item :: rest => do
    let a ← c.decode room item
    let as ← c.decodeItems room rest
    return a :: as

/-- Lists, written as arrays. -/
def list (c : Codec α) : Codec (List α) where
  encode as := .array (as.map c.encode)
  decode
    | 0, .array _ _ => .error .malformed
    | room + 1, .array items closed => do
      let as ← c.decodeItems room items
      if closed then return as else .error .malformed
    | _, tree => .error tree.unexpected

end Codec
end Json
end Collectors
