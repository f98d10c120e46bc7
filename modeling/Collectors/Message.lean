import Collectors.Error
import Collectors.Json.Record

/-!
# Messages

The bodies of requests and the results of answers, with the codec of each. A field that may be
missing says what is read then; every other field must be there.
-/

namespace Collectors

open Json (Codec Field Fields)

/-- Asks for a new collector, or for one on state that exists already. -/
structure InstantiateRequest where
  backend : String
  /-- Passed on to the backend as it is. -/
  config : Option String
  token : Option String
  deriving DecidableEq

/-- The codec of requests for a new collector. -/
def InstantiateRequest.codec : Codec InstantiateRequest :=
  (Codec.record <|
    .cons (.required "type" .text) <|
    .cons (.default "config" (.optional .text) none) <|
    .cons (.default "token" (.optional .text) none) .nil).via
    (fun (backend, config, token, ()) => some { backend, config, token })
    fun r => (r.backend, r.config, r.token, ())

/-- Asks to close or to destroy a collector. -/
structure RemoveRequest where
  id : CollectorId
  token : Option String
  deriving DecidableEq

/-- The codec of requests to remove a collector. -/
def RemoveRequest.codec : Codec RemoveRequest :=
  (Codec.record <|
    .cons (.required "id" CollectorId.codec) <|
    .cons (.default "token" (.optional .text) none) .nil).via
    (fun (id, token, ()) => some { id, token })
    fun r => (r.id, r.token, ())

/-- Asks for the ids of the oldest collectors. -/
structure ListRequest where
  token : Option String
  maxIds : UInt64
  deriving DecidableEq

/-- The codec of requests for ids. -/
def ListRequest.codec : Codec ListRequest :=
  (Codec.record <|
    .cons (.default "token" (.optional .text) none) <|
    .cons (.required "max_ids" .uint64) .nil).via
    (fun (token, maxIds, ()) => some { token, maxIds })
    fun r => (r.token, r.maxIds, ())

/-- Asks a collector to greet. -/
structure HelloRequest where
  id : CollectorId
  deriving DecidableEq

/-- The codec of requests to greet. -/
def HelloRequest.codec : Codec HelloRequest :=
  (Codec.record <| .cons (.required "id" CollectorId.codec) .nil).via
    (fun (id, ()) => some { id })
    fun r => (r.id, ())

/-- Asks a collector to add two numbers. -/
structure SumRequest where
  id : CollectorId
  x : Int32
  y : Int32
  deriving DecidableEq

/-- The codec of requests to add. -/
def SumRequest.codec : Codec SumRequest :=
  (Codec.record <|
    .cons (.required "id" CollectorId.codec) <|
    .cons (.required "x" .int32) <|
    .cons (.required "y" .int32) .nil).via
    (fun (id, x, y, ()) => some { id, x, y })
    fun r => (r.id, r.x, r.y, ())

/-- Asks a collector to run an operation of its backend. -/
structure InvokeRequest where
  id : CollectorId
  operation : String
  args : Json

/-- The codec of requests to run an operation. -/
def InvokeRequest.codec : Codec InvokeRequest :=
  (Codec.record <|
    .cons (.required "id" CollectorId.codec) <|
    .cons (.required "operation" .text) <|
    .cons (.default "args" .free .null) .nil).via
    (fun (id, operation, args, ()) => some { id, operation, args })
    fun r => (r.id, r.operation, r.args, ())

/-- The id of a collector that was made. -/
structure IdReply where
  id : CollectorId
  deriving DecidableEq

/-- The codec of replies with one id. -/
def IdReply.codec : Codec IdReply :=
  (Codec.record <| .cons (.required "id" CollectorId.codec) .nil).via
    (fun (id, ()) => some { id })
    fun r => (r.id, ())

/-- The ids of the oldest collectors and their number. -/
structure ListReply where
  count : UInt64
  ids : List CollectorId
  deriving DecidableEq

/-- The codec of replies with ids. -/
def ListReply.codec : Codec ListReply :=
  (Codec.record <|
    .cons (.required "count" .uint64) <|
    .cons (.required "ids" CollectorId.codec.list) .nil).via
    (fun (count, ids, ()) => some { count, ids })
    fun r => (r.count, r.ids, ())

/-- A sum. -/
structure SumReply where
  result : Int32
  deriving DecidableEq

/-- The codec of replies with a sum. -/
def SumReply.codec : Codec SumReply :=
  (Codec.record <| .cons (.required "result" .int32) .nil).via
    (fun (result, ()) => some { result })
    fun r => (r.result, ())

/-- The result of an operation. -/
structure InvokeReply where
  result : Json

/-- The codec of replies with the result of an operation. -/
def InvokeReply.codec : Codec InvokeReply :=
  (Codec.record <| .cons (.required "result" .free) .nil).via
    (fun (result, ()) => some { result })
    fun r => (r.result, ())

end Collectors
