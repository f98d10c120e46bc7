import Collectors.CollectorId
import Collectors.Status

/-!
# Errors

`Error` says why a call failed. Every error has a wording (`Error.message`) and one status under
which it is answered (`Error.status`); the other side of the wire turns the status and the
wording into `Error.remote`. What a parser or the library that carries requests reports has a text
of its own. Only a call that did not reach its provider may succeed when it is made again
(`Error.isRetryable`).
-/

namespace Collectors

/-- The index that tells apart the providers of one endpoint. -/
abbrev ProviderId := UInt16

/-- Why a request got no answer that can be read. -/
inductive TransportFailure.Kind where
  /-- Nothing accepts the connection. -/
  | unreachable
  | timedOut
  /-- The address is no URL. -/
  | invalidUrl
  /-- The answer does not have the form that was asked for. -/
  | undecodable
  deriving DecidableEq

/-- A failure of the library that carries requests, with a wording of its own. -/
structure TransportFailure where
  kind : TransportFailure.Kind
  text : String
  deriving DecidableEq

namespace TransportFailure

/-- Whether the same request may get through another time. -/
def isRetryable (f : TransportFailure) : Bool :=
  match f.kind with
  | .unreachable | .timedOut => true
  | .invalidUrl | .undecodable => false

/-- Nothing accepts the connection. -/
def unreachable : TransportFailure :=
  { kind := .unreachable, text := "nothing accepts the connection" }

/-- The address is no URL. -/
def invalidUrl : TransportFailure := { kind := .invalidUrl, text := "the address is no URL" }

/-- The answer cannot be read. -/
def undecodable : TransportFailure := { kind := .undecodable, text := "the answer cannot be read" }

end TransportFailure

/-- What a text that is no JSON is reported as, where its parser says nothing else of it. -/
def Json.Fault.message : Json.Fault → String
  | .malformed => "the text is not JSON"
  | .mismatch => "the text does not have the expected fields"

/-- Why a call failed. -/
inductive Error where
  | internal (text : String)
  | configuration (text : String)
  | allocation (text : String)
  | invalidArgs (text : String)
  | invalidProvider (provider : ProviderId)
  | providerAlreadyRegistered (provider : ProviderId)
  | invalidToken
  /-- The provider is shutting down and takes no more collectors. -/
  | tableClosed
  | opForbidden (text : String)
  | collectorNotFound (id : String)
  | collectorExists (id : String)
  | invalidCollectorId (text : String)
  | backendNotFound (backend : String)
  | backendAlreadyRegistered (backend : String)
  | invalidConfig (backend reason : String)
  | opUnsupported (backend operation : String)
  | backendOperationFailed (backend operation reason : String)
  | transport (failure : TransportFailure)
  | protocol (text : String)
  /-- The other side answered with a status other than success. -/
  | remote (status : Status) (message : String)
  /-- A text is no JSON; `text` is what the parser says of it. -/
  | jsonParse (fault : Json.Fault) (text : String := fault.message)
  /-- A text is no YAML; `text` is what the parser says of it. -/
  | yamlParse (text : String := "the text is not a configuration in YAML")
  | io (text : String)
  deriving DecidableEq

namespace Error

/-- The wording of an error. -/
def message : Error → String
  | internal text => "Internal error: " ++ text
  | configuration text => "Configuration error: " ++ text
  | allocation text => "Allocation failed: " ++ text
  | invalidArgs text => "Invalid argument: " ++ text
  | invalidProvider provider => "Invalid provider: " ++ toString provider
  | providerAlreadyRegistered provider => "Provider already registered: " ++ toString provider
  | invalidToken => "Invalid token"
  | tableClosed => "Provider is shutting down"
  | opForbidden text => "Operation forbidden: " ++ text
  | collectorNotFound id => "Collector not found: " ++ id
  | collectorExists id => "Collector already exists: " ++ id
  | invalidCollectorId text => "Invalid collector id: " ++ text
  | backendNotFound backend => "Backend not found: " ++ backend
  | backendAlreadyRegistered backend => "Backend already registered: " ++ backend
  | invalidConfig backend reason =>
    "Invalid configuration for backend " ++ backend ++ ": " ++ reason
  | opUnsupported backend operation =>
    "Operation " ++ operation ++ " not supported by backend " ++ backend
  | backendOperationFailed backend operation reason =>
    "Backend operation failed: " ++ backend ++ " - " ++ operation ++ ": " ++ reason
  | transport failure => "Transport error: " ++ failure.text
  | protocol text => "Malformed request or response: " ++ text
  | remote status message =>
    "Remote call failed with status " ++ status.name ++ ": " ++ message
  | jsonParse _ text => "JSON parse error: " ++ text
  | yamlParse text => "YAML parse error: " ++ text
  | io text => "IO error: " ++ text

instance : ToString Error := ⟨message⟩

/-- The status under which an error is answered. -/
def status : Error → Status
  | allocation _ => .allocation
  | invalidArgs _ | invalidCollectorId _ | configuration _ => .invalidArgs
  | invalidProvider _ | providerAlreadyRegistered _ | tableClosed => .invalidProvider
  | collectorNotFound _ | collectorExists _ => .invalidCollector
  | backendNotFound _ | backendAlreadyRegistered _ => .invalidBackend
  | invalidConfig _ _ => .invalidConfig
  | invalidToken => .invalidToken
  | opUnsupported _ _ => .opUnsupported
  | opForbidden _ => .opForbidden
  | transport _ | protocol _ => .fromTransport
  | remote status _ => status
  | internal _ | backendOperationFailed _ _ _ | jsonParse _ _ | yamlParse _ | io _ =>
    .other

/-- The error of an answer with a status other than success; the name of the status stands in
for a missing message. -/
def ofStatus (status : Status) (message : Option String) : Error :=
  .remote status (message.getD status.name)

/-- Whether making the same call again may succeed. -/
def isRetryable : Error → Bool
  | transport failure => failure.isRetryable
  | _ => false

end Error

namespace CollectorId

/-- The wording of a text that names no collector. -/
def ParseError.message : ParseError → String
  | .length found =>
    "expected " ++ toString textLength ++ " characters, got " ++ toString found
  | .form => "not 32 hexadecimal digits in five groups"

/-- Reads an id that somebody passed in. -/
def ofText (text : String) : Except Error CollectorId :=
  match parse text with
  | .ok id => .ok id
  | .error e => .error (.invalidCollectorId e.message)

/-- The codec of ids: the strings that are their texts. -/
def codec : Json.Codec CollectorId :=
  Json.Codec.text.via (fun s => (parse s).toOption) text

end CollectorId
end Collectors
