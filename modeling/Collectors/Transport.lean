import Collectors.Address
import Collectors.Envelope
import Collectors.Http
import Collectors.Http.Url
import Collectors.Json.Bytes

/-!
# Transport of calls

A `Network` posts a JSON text to a URL and brings back a response. `Transport.send` posts a call
to a provider; what the response says is told by `Transport.reply` for a call that waits for its
result and by `Transport.accepted` for one that does not.
-/

namespace Collectors

/-- What carries requests, with a state `σ`: the endpoints that can be reached, for instance. -/
structure Network (σ : Type) where
  /-- Posts a body to a URL. -/
  post : (url body : String) → σ → Except TransportFailure Http.Response × σ

namespace Network

/-- The network on which nobody listens. -/
def silent : Network Unit where
  post url _ _ := (.error (if Http.Url.isValid url then .unreachable else .invalidUrl), ())

/-- The same network with a count of all that was posted. -/
def counted {σ : Type} (net : Network σ) : Network (Nat × σ) where
  post url body s := let (r, w) := net.post url body s.2; (r, (s.1 + 1, w))

end Network

namespace Transport

variable {α σ : Type}

/-- The error of a response whose status code is not the one that was hoped for. -/
def unexpectedStatus (a : Address) (rpc : String) (status : Nat) : Error :=
  .protocol (toString a ++ " answered " ++ Http.statusText status ++ " to " ++ rpc)

/-- The envelope in a body. -/
def envelope? (payload : Json.Codec α) (body : ByteArray) : Option (Envelope α) :=
  ((Envelope.codec payload).read (Json.textOf body)).toOption

/-- What the response to a call says. -/
def reply (payload : Json.Codec α) (a : Address) (rpc : String) (r : Http.Response) :
    Except Error (Option α) :=
  if r.status ≠ 200 then .error (unexpectedStatus a rpc r.status)
  else
    match envelope? payload r.body with
    | some e => e.toResult
    | none => .error (.transport .undecodable)

/-- What the response to a call says whose result must be there. -/
def replyFor (payload : Json.Codec α) (a : Address) (rpc : String) (r : Http.Response) :
    Except Error α := do
  match ← reply payload a rpc r with
  | some result => return result
  | none => .error (.protocol (rpc ++ " reply carries no result"))

/-- What the response to a notice says: whether it was accepted. -/
def accepted (a : Address) (rpc : String) (r : Http.Response) : Except Error Unit :=
  if 200 ≤ r.status ∧ r.status < 300 then .ok () else .error (unexpectedStatus a rpc r.status)

/-- Posts a body to a provider and reads the response with `read`. -/
def send (net : Network σ) (a : Address) (rpc body : String)
    (read : Http.Response → Except Error α) (s : σ) : Except Error α × σ :=
  match net.post (a.url rpc) body s with
  | (.ok response, s) => (read response, s)
  | (.error failure, s) => (.error (.transport failure), s)

/-- Makes a call and waits for its result, which may be missing. -/
def call (net : Network σ) (payload : Json.Codec α) (a : Address) (rpc body : String) (s : σ) :
    Except Error (Option α) × σ :=
  send net a rpc body (reply payload a rpc) s

/-- Makes a call that must have a result. -/
def callFor (net : Network σ) (payload : Json.Codec α) (a : Address) (rpc body : String)
    (s : σ) : Except Error α × σ :=
  send net a rpc body (replyFor payload a rpc) s

/-- Makes a call without waiting for it to be handled. -/
def notify (net : Network σ) (a : Address) (rpc body : String) (s : σ) : Except Error Unit × σ :=
  send net a rpc body (accepted a rpc) s

end Transport
end Collectors
