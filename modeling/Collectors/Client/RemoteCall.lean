import Collectors.Admin
import Collectors.Client.Remote
import Collectors.Provider.Call

/-!
# Calls of a client

A `RemoteCall` is anything that a client can ask of a provider over the wire: the five calls of an
administrator and the three calls through a handle. `RemoteCall.make` makes it over a network, and
`RemoteCall.request` is what the provider is asked by it, so that the two ways to a provider can be
compared. `RemoteCall.told` is what the wire tells of a result.
-/

namespace Collectors

/-- A call of a client. -/
inductive RemoteCall where
  | create (r : InstantiateRequest)
  | openExisting (r : InstantiateRequest)
  | close (r : RemoveRequest)
  | destroy (r : RemoveRequest)
  | list (r : ListRequest)
  | hello (h : Handle)
  | sum (h : Handle) (x y : Int32)
  | invoke (h : Handle) (operation : String) (args : Json)

namespace RemoteCall

/-- The call on the wire. -/
def rpc : RemoteCall → Rpc
  | create _ => .createCollector
  | openExisting _ => .openCollector
  | close _ => .closeCollector
  | destroy _ => .destroyCollector
  | list _ => .listCollectors
  | hello _ => .hello
  | sum _ _ _ => .sum
  | invoke _ _ _ => .invoke

/-- The body that a client sends. -/
def body : RemoteCall → String
  | create r => InstantiateRequest.codec.write r
  | openExisting r => InstantiateRequest.codec.write r
  | close r => RemoveRequest.codec.write r
  | destroy r => RemoveRequest.codec.write r
  | list r => ListRequest.codec.write r
  | hello h => HelloRequest.codec.write { id := h.collector }
  | sum h x y => SumRequest.codec.write { id := h.collector, x, y }
  | invoke h operation args => InvokeRequest.codec.write { id := h.collector, operation, args }

/-- What the provider is asked; a new collector gets the id `mint`. -/
def request (mint : CollectorId) : RemoteCall → Request
  | create r => .instantiate .create r.token r.backend r.config mint
  | openExisting r => .instantiate .open r.token r.backend r.config mint
  | close r => .close r.token r.id
  | destroy r => .destroy r.token r.id
  | list r => .list r.token r.maxIds.toNat
  | hello h => .hello h.collector
  | sum h x y => .sum h.collector x y
  | invoke h operation args => .invoke h.collector operation args

/-- The handle that a call is made through. -/
def handle? : RemoteCall → Option Handle
  | hello h | sum h _ _ | invoke h _ _ => some h
  | _ => none

/-- Whether a call goes to an address. An administrator names the address with every call; a
handle has its own until it is freed. -/
def GoesTo (a : Address) : RemoteCall → Prop
  | hello h | sum h _ _ | invoke h _ _ => h.target = some a
  | _ => True

/-- Makes a call over a network. What the client gets is told as an answer of a provider. -/
def make {σ : Type} (net : Network σ) (a : Address) (s : σ) :
    RemoteCall → Except Error Answer × σ
  | create r => let (result, s) := Admin.create net a r s; (result.map .id, s)
  | openExisting r => let (result, s) := Admin.openExisting net a r s; (result.map .id, s)
  | close r => let (result, s) := Admin.close net a r s; (result.map fun _ => .done, s)
  | destroy r => let (result, s) := Admin.destroy net a r s; (result.map fun _ => .done, s)
  | list r => let (result, s) := Admin.list net a r s; (result.map .ids, s)
  | hello h => let (result, s) := h.hello net s; (result.map fun _ => .done, s)
  | sum h x y => let (result, s) := h.sum net x y s; (result.map .sum, s)
  | invoke h operation args =>
    let (result, s) := h.invoke net operation args s
    (result.map .value, s)

/-- What a client is told of the result of its call: of a greeting only that it was accepted, and
of an error its status and its wording. -/
def told (call : RemoteCall) (result : Except Error Answer) : Except Error Answer :=
  match call with
  | hello _ => .ok .done
  | _ => result.mapError fun e => .remote e.status e.message

/-- The status under which a result is answered and counted. -/
def statusOf : Except Error Answer → Status
  | .ok _ => .success
  | .error e => e.status

end RemoteCall
end Collectors
