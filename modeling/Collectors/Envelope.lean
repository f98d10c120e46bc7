import Collectors.Message

/-!
# The envelope of an answer

An answer is an `Envelope`: a status, the wording of the error if the status is not success, and
the result if it is. `Envelope.ofResult` closes one and `Envelope.toResult` opens it on the other
side, where an error comes out as `Error.remote`.
-/

namespace Collectors

open Json (Codec Field Fields)

/-- An answer with a result of type `α`. -/
structure Envelope (α : Type) where
  status : Status
  message : Option String
  result : Option α

namespace Envelope

variable {α : Type}

/-- The answer of a call that succeeded. -/
def ok (result : α) : Envelope α := { status := .success, message := none, result := some result }

/-- The answer of a call that failed. -/
def ofError (e : Error) : Envelope α :=
  { status := e.status, message := some e.message, result := none }

/-- The answer of a call. -/
def ofResult : Except Error α → Envelope α
  | .ok result => ok result
  | .error e => ofError e

/-- What an answer says to the caller. -/
def toResult (a : Envelope α) : Except Error (Option α) :=
  if a.status.isSuccess then .ok a.result else .error (Error.ofStatus a.status a.message)

/-- The codec of answers: a missing message or result is not written. -/
def codec (payload : Codec α) : Codec (Envelope α) :=
  (Codec.record <|
    .cons (.required "status" Status.codec) <|
    .cons (.whenPresent "message" .text) <|
    .cons (.whenPresent "result" payload) .nil).via
    (fun (status, message, result, ()) => some { status, message, result })
    fun a => (a.status, a.message, a.result, ())

end Envelope
end Collectors
