import Collectors.Endpoint

/-!
# Service of requests

A `Service` is what came of some HTTP requests that an endpoint answered one after another: an
`Exchange` for every request, and the host and the backends that are left. It shows what was told
about every call, be it by the status in the body of its answer (`Envelope.status?`), or, for a
greeting, whose answer says nothing, by what it was addressed to (`Endpoint.greetingStatus`).
-/

namespace Collectors

open Json (Codec Fields)

/-- The call to whose path a request is posted, with the segment of the path that names the
provider; `none` if it is a request of another kind. -/
def Http.Request.call? (r : Http.Request) : Option (Rpc × List Char) :=
  match Http.Route.ofTarget? r.target with
  | some (.rpc rpc segment) => if r.method = "POST" then some (rpc, segment) else none
  | _ => none

namespace Envelope

/-- The one field of an answer that every answer has. -/
def statusField : Fields (Status × Unit) (Option Status × Unit) :=
  .cons (.required "status" Status.codec) .nil

/-- The status that the body of an answer carries, whatever else is in it. -/
def status? (body : ByteArray) : Option Status :=
  (String.fromUTF8? body).bind fun text =>
    ((Codec.record statusField).read text).toOption.map Prod.fst

end Envelope

variable {β ι ω : Type}

/-- A request with its answer. -/
structure Exchange (β ι : Type) where
  /-- The host as the request found it. -/
  host : Host β ι
  /-- The id that a new collector was to get. -/
  mint : CollectorId
  request : Http.Request
  response : Http.Response

/-- What came of some requests. -/
structure Service (β ι ω : Type) where
  exchanges : List (Exchange β ι) := []
  host : Host β ι
  world : ω

namespace Endpoint

/-- The request in the body of a call: the body must be declared to be JSON, have at most `limit`
bytes, and hold what the call asks for. -/
def decoded? (limit : Nat) (rpc : Rpc) (mint : CollectorId) (r : Http.Request) : Option Request :=
  if Http.declaresJson r.contentType ∧ r.body.size ≤ limit then
    (request rpc mint (Json.textOf r.body)).toOption
  else none

/-- What a greeting comes to: the status of the lookup where there is no such provider, be the
body as it may, and else success, if the body can be read. Whether there is such a collector does
not matter. -/
def greetingStatus (limit : Nat) (mint : CollectorId) (h : Host β ι) (segment : List Char)
    (r : Http.Request) : Status :=
  match provider h segment with
  | .error e => e.status
  | .ok _ => if (decoded? limit .hello mint r).isSome then .success else .fromTransport

/-- Answers requests one after another, each with the id for a new collector. -/
def serve (b : Behaviour β ι ω) (limit : Nat) (h : Host β ι) (w : ω) :
    List (CollectorId × Http.Request) → Service β ι ω
  | [] => { host := h, world := w }
  | (mint, request) :: rest =>
    let next := handle b limit mint request h w
    let later := serve b limit next.host next.world rest
    { later with
      exchanges := { host := h, mint, request, response := next.response } :: later.exchanges }

end Endpoint

/-- The call that a request was, with the status that its answer tells; for a greeting it is what
the greeting came to. -/
def Exchange.told (limit : Nat) (e : Exchange β ι) : Option (Rpc × Status) :=
  e.request.call?.bind fun (rpc, segment) =>
    let status? :=
      if rpc = .hello then some (Endpoint.greetingStatus limit e.mint e.host segment e.request)
      else Envelope.status? e.response.body
    status?.map fun status => (rpc, status)

end Collectors
