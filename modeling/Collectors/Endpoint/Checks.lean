import Collectors.Endpoint.Service

/-!
# The order of checks

A call has to pass checks, and the first one that it fails is what it is answered with. This file
says what the checks are and in which order they are made, each with the status of its failure.
Those of `Endpoint.admission` come before anything is done for the call; those of `Provider.judge`
belong to what the call asks for, and some of them are made by a backend.

A call into a backend may also break down. What that comes to is left open here (`broken`), because
it is no check that the call fails.
-/

namespace Collectors

/-- What checks come to: all are passed, or the first that fails has a status. -/
abbrev Verdict := Except Status Unit

namespace Verdict

/-- The status of the check that failed, or success. -/
def status : Verdict → Status
  | .ok () => .success
  | .error status => status

/-- What a result tells of its checks. -/
def ofResult {α : Type} : Except Error α → Verdict
  | .ok _ => .ok ()
  | .error e => .error e.status

/-- What a call into a backend comes to. -/
def ofOutcome {α : Type} (broken : Verdict) : Option (Except Error α) → Verdict
  | some result => ofResult result
  | none => broken

/-- The check that something holds. -/
def demand (status : Status) (holds : Bool) : Verdict := if holds then .ok () else .error status

/-- The check that something is there. -/
def require {α : Type} (status : Status) : Option α → Except Status α
  | some a => .ok a
  | none => .error status

end Verdict

open Verdict (ofOutcome demand require)

variable {β ι ω : Type}

namespace Provider

/-- The checks behind a backend that was asked for an instance: that it made one, and that the id is
free. The instance that was made for a taken id is closed; whether that fails is not looked at. -/
def judgeMade (broken : Verdict) (b : Behaviour β ι ω) (p : Provider β ι) (id : CollectorId) :
    Option (Except Error ι) × ω → Verdict
  | (some (.ok i), w) =>
    if p.table.contains id then
      if (b.close i w).1.isNone then broken *> .error .invalidCollector
      else .error .invalidCollector
    else .ok ()
  | (some (.error e), _) => .error e.status
  | (none, _) => broken

/-- The checks that are made for a request once it is admitted. Whether a destroy fails is not
looked at. -/
def judge (broken : Verdict) (b : Behaviour β ι ω) (p : Provider β ι) (w : ω) :
    Request → Verdict
  | .instantiate mode _ backend config id => do
    demand .invalidProvider !p.table.closed
    let made ← require .invalidBackend (p.registry.find? backend)
    p.judgeMade broken b id (b.instantiate made mode config w)
  | .close _ id => do
    let c ← require .invalidCollector (p.table.get? id)
    ofOutcome broken (b.close c.resource w).1
  | .destroy _ id => do
    let c ← require .invalidCollector (p.table.get? id)
    if (b.destroy c.resource w).1.isNone then broken else .ok ()
  | .sum id x y => do
    let c ← require .invalidCollector (p.table.get? id)
    ofOutcome broken (b.sum c.resource x y w).1
  | .invoke id operation args => do
    let c ← require .invalidCollector (p.table.get? id)
    ofOutcome broken (b.invoke c.resource operation args w).1
  | .hello id =>
    match p.table.get? id with
    | some c => if (b.hello c.resource w).1.isNone then broken else .ok ()
    | none => .ok ()
  | .list _ _ | .shutdown => .ok ()

end Provider

namespace Endpoint

/-- The checks before anything is done for a call: that its segment is the id of a provider, that
there is this provider, that the body can be read, and that an administrative request carries the
token. They find the provider and the request. -/
def admission (limit : Nat) (mint : CollectorId) (h : Host β ι) (rpc : Rpc) (segment : List Char)
    (r : Http.Request) : Except Status (Provider β ι × Request) := do
  let id ← require .invalidArgs (Http.providerId? segment)
  let p ← require .invalidProvider ((h.attached.lookup id).bind h.provider?)
  let request ← require .fromTransport (decoded? limit rpc mint r)
  demand .invalidToken (request.token?.all p.token.check)
  return (p, request)

/-- All checks of a call. -/
def verdict (broken : Verdict) (b : Behaviour β ι ω) (limit : Nat) (mint : CollectorId)
    (h : Host β ι) (w : ω) (rpc : Rpc) (segment : List Char) (r : Http.Request) : Verdict := do
  let (p, request) ← admission limit mint h rpc segment r
  p.judge broken b w request

end Endpoint
end Collectors
