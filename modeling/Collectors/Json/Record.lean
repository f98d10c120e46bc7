import Collectors.Json.Codec

/-!
# Records

A record is written as an object with its fields in the order of their declaration. It is read
from an object, whose members may come in any order and among members that nobody asked for, or
from an array that holds the fields in their order.

`Fields α σ` lists the fields of a record whose values make up the product `α`; `σ` holds the
same values while some of them are still missing. Every function on it is a recursion on the
list of fields.
-/

namespace Collectors
namespace Json

/-- A field of a record. -/
structure Field (α : Type) where
  name : String
  codec : Codec α
  /-- The value when an object does not name the field; `none` if it must be named. -/
  unnamed : Option α
  /-- The value when an array ends before the field; `none` if it must be there. -/
  beyond : Option α
  /-- Whether the field is left out when a value is written. -/
  omitted : α → Bool

namespace Field

variable {α : Type}

/-- A field that must be there. -/
def required (name : String) (codec : Codec α) : Field α :=
  { name, codec, unnamed := none, beyond := none, omitted := fun _ => false }

/-- A field with a value of its own where it is missing. -/
def default (name : String) (codec : Codec α) (value : α) : Field α :=
  { name, codec, unnamed := some value, beyond := some value, omitted := fun _ => false }

/-- A field that an object names only when it holds something. -/
def whenPresent (name : String) (codec : Codec α) : Field (Option α) :=
  { name, codec := codec.optional, unnamed := some none, beyond := none,
    omitted := Option.isNone }

end Field

/-- The fields of a record, in the order of their declaration. -/
inductive Fields : Type → Type → Type 1 where
  | nil : Fields Unit Unit
  | cons {α β σ : Type} (field : Field α) (rest : Fields β σ) : Fields (α × β) (Option α × σ)

namespace Fields

/-- No field has a value yet. -/
def empty : {α σ : Type} → Fields α σ → σ
  | _, _, .nil => ()
  | _, _, .cons _ rest => (none, rest.empty)

/-- The members that a record is written with. -/
def members : {α σ : Type} → Fields α σ → α → List (String × Json)
  | _, _, .nil, () => []
  | _, _, .cons field rest, (a, b) =>
    if field.omitted a then rest.members b
    else (field.name, field.codec.encode a) :: rest.members b

/-- Stores the value of a named member; `none` if no field has the name. A field that is named
again is a mismatch, whatever its value. -/
def store (room : Nat) (name : String) (value : Document) :
    {α σ : Type} → Fields α σ → σ → Option (Except Fault σ)
  | _, _, .nil, () => none
  | _, _, .cons field rest, (a, s) =>
    if name = field.name then
      match a with
      | some _ => some (.error .mismatch)
      | none => some ((field.codec.decode room value).map fun a => (some a, s))
    else (store room name value rest s).map fun r => r.map fun s => (a, s)

/-- Stores the members of an object one after another. -/
def storeAll (room : Nat) {α σ : Type} (fields : Fields α σ) :
    List (Option String × Document) → σ → Except Fault σ
  | [], s => .ok s
  | (none, _) :: _, _ => .error .malformed
  | (some name, value) :: rest, s =>
    match fields.store room name value s with
    | some r => do storeAll room fields rest (← r)
    | none =>
      if value.wellFormed then storeAll room fields rest s else .error .malformed

/-- The values of all fields once every member has been stored. -/
def complete : {α σ : Type} → Fields α σ → σ → Except Fault α
  | _, _, .nil, () => .ok ()
  | _, _, .cons field rest, (a, s) =>
    match a.or field.unnamed with
    | some a => (rest.complete s).map fun b => (a, b)
    | none => .error .mismatch

/-- The values of all fields from the items of an array. -/
def ofItems (room : Nat) (closed : Bool) :
    {α σ : Type} → Fields α σ → List Document → Except Fault α
  | _, _, .nil, items => if items.isEmpty && closed then .ok () else .error .malformed
  | _, _, .cons field rest, item :: items => do
    let a ← field.codec.decode room item
    let b ← ofItems room closed rest items
    return (a, b)
  | _, _, .cons field rest, [] =>
    if closed then
      match field.beyond with
      | some a => (ofItems room closed rest []).map fun b => (a, b)
      | none => .error .mismatch
    else .error .malformed

end Fields

namespace Codec

variable {α σ : Type}

/-- The codec of a record with the given fields, as the product of their values. -/
def record (fields : Fields α σ) : Codec α where
  encode a := .object (fields.members a)
  decode
    | 0, .array _ _ | 0, .object _ _ => .error .malformed
    | room + 1, .array items closed => fields.ofItems room closed items
    | room + 1, .object members ending => do
      let s ← fields.storeAll room members fields.empty
      if ending = .closed then fields.complete s else .error .malformed
    | _, tree => .error tree.unexpected

end Codec
end Json
end Collectors
