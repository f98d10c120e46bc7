import Collectors.Envelope
import Collectors.Host
import Collectors.Http
import Collectors.Json.Bytes

/-!
# Endpoints

An endpoint answers HTTP requests for the providers of a host. `Endpoint.plan` checks a request:
its route, its method, the provider id, the provider, and the body, in this order. What is left
is either a refusal or a request to a provider; `Endpoint.answer` closes its result into an
envelope. A greeting is always accepted, before anybody looks at it, and its answer says nothing
more.

`Endpoint.handle` does all of it, and counts every request to a call under the status of its
answer.
-/

namespace Collectors

/-- The largest body that is read where nothing else is said. -/
def defaultBodyLimit : Nat := 2 * 1024 * 1024

namespace Endpoint

/-- What is to be done for an HTTP request. -/
inductive Plan where
  /-- Nothing: it is answered. -/
  | respond (response : Http.Response)
  /-- Show the metrics. -/
  | metrics (withBody : Bool)
  /-- Answer a call with an error. -/
  | refuse (rpc : Rpc) (e : Error)
  /-- Hand a request to the provider at a place. -/
  | perform (rpc : Rpc) (place : Nat) (request : Request)

/-- Reads the body of a call; a new collector is to get the id `mint`. What is behind the first
value of the body is not read. -/
def request (rpc : Rpc) (mint : CollectorId) (text : String) : Except Json.Fault Request :=
  let read {α : Type} (c : Json.Codec α) (make : α → Request) : Except Json.Fault Request :=
    (c.readFront text).map make
  match rpc with
  | .createCollector =>
    read InstantiateRequest.codec fun r => .instantiate .create r.token r.backend r.config mint
  | .openCollector =>
    read InstantiateRequest.codec fun r => .instantiate .open r.token r.backend r.config mint
  | .closeCollector => read RemoveRequest.codec fun r => .close r.token r.id
  | .destroyCollector => read RemoveRequest.codec fun r => .destroy r.token r.id
  | .listCollectors => read ListRequest.codec fun r => .list r.token r.maxIds.toNat
  | .hello => read HelloRequest.codec fun r => .hello r.id
  | .sum => read SumRequest.codec fun r => .sum r.id r.x r.y
  | .invoke => read InvokeRequest.codec fun r => .invoke r.id r.operation r.args

/-- Checks the body of a call: that it is declared to be JSON, that it is at most `limit` bytes
long, and that it can be read. -/
def body (limit : Nat) (rpc : Rpc) (mint : CollectorId) (r : Http.Request) :
    Except Error Request :=
  if ¬ Http.declaresJson r.contentType then
    .error (.protocol "Expected request with `Content-Type: application/json`")
  else if limit < r.body.size then
    .error (.protocol "Failed to buffer the request body: length limit exceeded")
  else
    match request rpc mint (Json.textOf r.body) with
    | .ok request => .ok request
    | .error .malformed =>
      .error (.protocol ("Failed to parse the request body as JSON: " ++
        Json.Fault.malformed.message))
    | .error .mismatch =>
      .error (.protocol ("Failed to deserialize the JSON body into the target type: " ++
        Json.Fault.mismatch.message))

/-- The place of the provider that a path segment names. -/
def provider {β ι : Type} (h : Host β ι) (segment : List Char) : Except Error Nat :=
  match Http.providerId? segment with
  | some id => h.find id
  | none => .error (.invalidArgs "bad provider id: not a number below 65536")

/-- Checks an HTTP request. -/
def plan {β ι : Type} (limit : Nat) (mint : CollectorId) (r : Http.Request) (h : Host β ι) :
    Plan :=
  match Http.Route.ofTarget? r.target with
  | none => .respond { status := 404 }
  | some route =>
    if ¬ route.allowed.contains r.method then
      .respond { status := 405, allow := some (",".intercalate route.allowed) }
    else
      match route with
      | .health =>
        .respond
          { status := 200, contentType := some "text/plain; charset=utf-8"
            body := if r.method = "HEAD" then .empty else "ok".toUTF8 }
      | .metrics => .metrics (r.method ≠ "HEAD")
      | .rpc rpc segment =>
        match provider h segment with
        | .error e => .refuse rpc e
        | .ok place =>
          match body limit rpc mint r with
          | .error e => .refuse rpc e
          | .ok request => .perform rpc place request

/-- What a request gave, as the result of its answer. -/
def payload : Answer → Json
  | .done => .null
  | .id id => IdReply.codec.encode { id }
  | .ids ids => ListReply.codec.encode { count := UInt64.ofNat ids.length, ids }
  | .sum result => SumReply.codec.encode { result }
  | .value result => InvokeReply.codec.encode { result }
  | .count n => .int n

/-- The answer to a call: to a greeting that it was accepted, else the result in an envelope. -/
def answer (rpc : Rpc) (result : Except Error Answer) : Http.Response :=
  if rpc = .hello then { status := 202 }
  else
    let envelope := Envelope.ofResult (result.map payload)
    { status := 200, contentType := some Http.jsonType
      body := ((Envelope.codec .free).write envelope).toUTF8 }

/-- The result of a call that ran on a worker: that it broke down is an internal error. -/
def ofWorker (result : Option (Except Error Answer)) : Except Error Answer :=
  match result with
  | some r => r
  | none => TaskEnd.crashed.result

/-- The status under which a call that reached its provider is counted: a greeting as success,
else the status of its answer. -/
def statusOf (rpc : Rpc) (result : Except Error Answer) : Status :=
  match rpc, result with
  | .hello, _ => .success
  | _, .ok _ => .success
  | _, .error e => e.status

/-- What an HTTP request leads to. -/
structure Next (β ι ω : Type) where
  response : Http.Response
  host : Host β ι
  world : ω
  warnings : List Warning := []

variable {β ι ω : Type}

/-- Counts a handled call. -/
def record (h : Host β ι) (rpc : Rpc) (status : Status) : Host β ι :=
  { h with metrics := h.metrics.record rpc status }

/-- Answers the metrics. -/
def metricsResponse (m : Metrics) (withBody : Bool) : Http.Response :=
  { status := 200, contentType := some "text/plain; version=0.0.4"
    body := if withBody then m.text.toUTF8 else .empty }

/-- Answers an HTTP request whose body has at most `limit` bytes; a new collector gets the id
`mint`. -/
def handle (b : Behaviour β ι ω) (limit : Nat) (mint : CollectorId) (r : Http.Request)
    (h : Host β ι) (w : ω) : Next β ι ω :=
  match plan limit mint r h with
  | .respond response => { response, host := h, world := w }
  | .metrics withBody =>
    { response := metricsResponse h.metrics withBody, host := h, world := w }
  | .refuse rpc e =>
    { response := answer rpc (.error e), host := record h rpc e.status, world := w }
  | .perform rpc place request =>
    let next := h.perform b place request w
    let result := ofWorker next.result
    { response := answer rpc result, host := record next.host rpc (statusOf rpc result),
      world := next.world, warnings := next.warnings }

end Endpoint
end Collectors
