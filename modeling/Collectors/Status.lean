import Collectors.Json.Codec

/-!
# Statuses

Every answer to a request carries one of twelve statuses. A status is written as its name; it is
also read from an object whose only member is the name with nothing as its value.
-/

namespace Collectors

/-- The status of an answer. -/
inductive Status where
  | success
  | allocation
  | invalidArgs
  | invalidProvider
  | invalidCollector
  | invalidBackend
  | invalidConfig
  | invalidToken
  | fromTransport
  | opUnsupported
  | opForbidden
  | other
  deriving DecidableEq

namespace Status

/-- All statuses. -/
def all : List Status :=
  [success, allocation, invalidArgs, invalidProvider, invalidCollector, invalidBackend,
    invalidConfig, invalidToken, fromTransport, opUnsupported, opForbidden, other]

/-- The name of a status on the wire. -/
def name : Status → String
  | success => "success"
  | allocation => "allocation"
  | invalidArgs => "invalid_args"
  | invalidProvider => "invalid_provider"
  | invalidCollector => "invalid_collector"
  | invalidBackend => "invalid_backend"
  | invalidConfig => "invalid_config"
  | invalidToken => "invalid_token"
  | fromTransport => "from_transport"
  | opUnsupported => "op_unsupported"
  | opForbidden => "op_forbidden"
  | other => "other"

instance : ToString Status := ⟨name⟩

/-- The status with a name. -/
def ofName? (n : String) : Option Status := all.find? fun s => s.name = n

/-- Whether the answer carries what was asked for. -/
def isSuccess (s : Status) : Bool := s = success

open Json in
/-- Reads the name of a status in a document. -/
def decode : Nat → Document → Except Fault Status
  | _, .string (some n) =>
    match ofName? n with
    | some s => .ok s
    | none => .error .mismatch
  | 0, .object _ _ => .error .malformed
  | _ + 1, .object ((some n, value) :: members) ending =>
    match ofName? n, value with
    | none, _ => .error .mismatch
    | some s, .null => if members.isEmpty ∧ ending = .closed then .ok s else .error .malformed
    | some _, value => .error value.unexpected
  | _ + 1, .object [] .misfit => .error .mismatch
  | _, _ => .error .malformed

/-- The codec of statuses. -/
def codec : Json.Codec Status where
  encode s := .string s.name
  decode := decode

end Status
end Collectors
