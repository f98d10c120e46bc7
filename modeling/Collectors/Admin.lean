import Collectors.Message
import Collectors.Transport

/-!
# Administration over the wire

The five calls that make, end and list collectors. Every one carries the admin token.
-/

namespace Collectors
namespace Admin

variable {σ : Type}

/-- Asks for a new collector: `rpc` says whether on new or on existing state. -/
def instantiate (net : Network σ) (rpc : Rpc) (a : Address) (r : InstantiateRequest) (s : σ) :
    Except Error CollectorId × σ :=
  let (reply, s) :=
    Transport.callFor net IdReply.codec a rpc.name (InstantiateRequest.codec.write r) s
  (reply.map IdReply.id, s)

/-- Creates a collector. -/
def create (net : Network σ) (a : Address) (r : InstantiateRequest) (s : σ) :
    Except Error CollectorId × σ :=
  instantiate net .createCollector a r s

/-- Opens a collector on state that exists already. -/
def openExisting (net : Network σ) (a : Address) (r : InstantiateRequest) (s : σ) :
    Except Error CollectorId × σ :=
  instantiate net .openCollector a r s

/-- Asks to end a collector: `rpc` says whether to close or to destroy it. -/
def remove (net : Network σ) (rpc : Rpc) (a : Address) (r : RemoveRequest) (s : σ) :
    Except Error Unit × σ :=
  let (reply, s) := Transport.call net .unit a rpc.name (RemoveRequest.codec.write r) s
  (reply.map fun _ => (), s)

/-- Closes a collector. -/
def close (net : Network σ) (a : Address) (r : RemoveRequest) (s : σ) : Except Error Unit × σ :=
  remove net .closeCollector a r s

/-- Destroys a collector. -/
def destroy (net : Network σ) (a : Address) (r : RemoveRequest) (s : σ) :
    Except Error Unit × σ :=
  remove net .destroyCollector a r s

/-- The ids of the oldest collectors. -/
def list (net : Network σ) (a : Address) (r : ListRequest) (s : σ) :
    Except Error (List CollectorId) × σ :=
  let (reply, s) :=
    Transport.callFor net ListReply.codec a Rpc.listCollectors.name (ListRequest.codec.write r) s
  (reply.map ListReply.ids, s)

end Admin
end Collectors
