import Collectors.Client
import Collectors.Message
import Collectors.Transport

/-!
# Calls through handles

The three calls that anybody may make on a collector. A handle that has been freed refuses them
without a request being sent.
-/

namespace Collectors
namespace Handle

variable {σ : Type}

/-- Has the collector greet; it is not told whether there is one. -/
def hello (net : Network σ) (h : Handle) (s : σ) : Except Error Unit × σ :=
  match h.target? with
  | .ok a =>
    Transport.notify net a Rpc.hello.name (HelloRequest.codec.write { id := h.collector }) s
  | .error e => (.error e, s)

/-- Has the collector add two numbers. -/
def sum (net : Network σ) (h : Handle) (x y : Int32) (s : σ) : Except Error Int32 × σ :=
  match h.target? with
  | .ok a =>
    let (reply, s) := Transport.callFor net SumReply.codec a Rpc.sum.name
      (SumRequest.codec.write { id := h.collector, x, y }) s
    (reply.map SumReply.result, s)
  | .error e => (.error e, s)

/-- Has the collector run an operation of its backend. -/
def invoke (net : Network σ) (h : Handle) (operation : String) (args : Json) (s : σ) :
    Except Error Json × σ :=
  match h.target? with
  | .ok a =>
    let (reply, s) := Transport.callFor net InvokeReply.codec a Rpc.invoke.name
      (InvokeRequest.codec.write { id := h.collector, operation, args }) s
    (reply.map InvokeReply.result, s)
  | .error e => (.error e, s)

end Handle
end Collectors
