import Collectors.Config
import Collectors.Yaml.Node

/-!
# Configurations in YAML

`ServerConfig.ofYaml?` reads the configuration of an endpoint from a YAML document. Only a plain
scalar is a number or nothing; any scalar is a text. What is not written, or written as nothing,
has its default.
-/

namespace Collectors
namespace Yaml

/-- Whether a scalar is written as nothing at all. -/
def Node.isNothing : Node → Bool
  | .scalar _ s => s.style = .plain && s.text.isEmpty
  | _ => false

/-- Whether a text is a word for nothing. -/
def isNullWord (cs : List Char) : Bool :=
  cs = ['~'] || cs = "null".toList || cs = "Null".toList || cs = "NULL".toList

/-- The tag of integers. -/
def intTag : List Char := "tag:yaml.org,2002:int".toList

/-- The tag of nothing. -/
def nullTag : List Char := "tag:yaml.org,2002:null".toList

/-- The number that some digits write; `none` without a digit. -/
def digits? (base : Nat) (cs : List Char) : Option Nat :=
  if cs.isEmpty then none
  else cs.foldlM (fun n c => do
    let d ← Hex.value? c
    if d < base then some (base * n + d) else none) 0

/-- The base that some text in front of digits stands for. -/
def base? : List Char → Option (Nat × List Char)
  | '0' :: 'x' :: rest => some (16, rest)
  | '0' :: 'o' :: rest => some (8, rest)
  | '0' :: 'b' :: rest => some (2, rest)
  | _ => none

/-- The number that a text writes: in decimal without a zero in front, or in another base. A plus
sign may stand in front of it. -/
def unsigned? (cs : List Char) : Option Nat :=
  let digits := match cs with
    | '+' :: rest => rest
    | cs => cs
  match base? digits with
  | some (base, rest) => digits? base rest
  | none =>
    match digits with
    | '0' :: d :: _ => if d.isDigit then none else digits? 10 digits
    | _ => digits? 10 digits

namespace Document

/-- The text of a scalar. -/
def text? (d : Document) (n : Node) : Option String :=
  match d.target? n with
  | some (.scalar _ s) => some (String.ofList s.text)
  | _ => none

/-- The number that a scalar writes, if it is at most `limit`. -/
def unsigned? (d : Document) (limit : Nat) (n : Node) : Option Nat :=
  match d.target? n with
  | some (.scalar tag s) =>
    if s.style = .plain || (s.style = .literal && tag = some intTag) then
      (Yaml.unsigned? s.text).filter (· ≤ limit)
    else none
  | _ => none

/-- The text of a scalar that may stand for nothing. -/
def optionalText? (d : Document) (n : Node) : Option (Option String) :=
  match d.target? n with
  | some (.scalar tag s) =>
    let text := some (some (String.ofList s.text))
    if s.style ≠ .plain then text
    else if tag = some nullTag then if isNullWord s.text then some none else none
    else if tag.isSome then text
    else if s.text.isEmpty || isNullWord s.text then some none
    else text
  | _ => none

/-- The items of a sequence; nothing stands for no item. -/
def items? (d : Document) (n : Node) : Option (List Node) :=
  match d.target? n with
  | some (.sequence items) => some items
  | some n => if n.isNothing then some [] else none
  | none => none

/-- The members of a mapping by their names; nothing stands for no member. -/
def members? (d : Document) (n : Node) : Option (List (String × Node)) :=
  match d.target? n with
  | some (.mapping members) =>
    members.mapM fun (key, value) => (d.text? key).map fun name => (name, value)
  | some n => if n.isNothing then some [] else none
  | none => none

/-- The member with a name, read with `read`; `default` if there is none. No name stands there
twice. -/
def field? {α : Type} (read : Node → Option α) (default : α) (name : String)
    (members : List (String × Node)) : Option α :=
  match members.filter fun m => m.1 = name with
  | [] => some default
  | [m] => read m.2
  | _ => none

/-- The configuration of one provider. -/
def provider? (d : Document) (n : Node) : Option ProviderConfig := do
  let members ← d.members? n
  let providerId ← field? (d.unsigned? 0xFFFF) 0 "provider_id" members
  let token ← field? d.optionalText? none "token" members
  let poolSize ← field? (d.unsigned? 0xFFFFFFFFFFFFFFFF) defaultPoolSize.toNat "pool_size" members
  return { providerId := UInt16.ofNat providerId, token, poolSize := UInt64.ofNat poolSize }

/-- The configurations of the providers that a node lists. -/
def providers? (d : Document) (n : Node) : Option (List ProviderConfig) :=
  (d.items? n).bind fun items => items.mapM d.provider?

end Document
end Yaml

namespace ServerConfig

/-- The configuration of an endpoint in a document. -/
def ofDocument? (d : Yaml.Document) : Option ServerConfig := do
  let members ← d.members? d.root
  let providers ← Yaml.Document.field? d.providers? [] "providers" members
  return { providers }

/-- The configuration of an endpoint in a YAML text. -/
def ofYaml? (text : String) : Option ServerConfig := (Yaml.Document.ofText? text).bind ofDocument?

end ServerConfig
end Collectors
