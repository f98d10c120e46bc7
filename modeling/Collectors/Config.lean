import Collectors.Error
import Collectors.Json.Record

/-!
# Configurations

A `ProviderConfig` describes one provider and a `ServerConfig` the providers of one endpoint. Both
fill in what is missing. A configuration is valid if no provider id occurs twice in it.
-/

namespace Collectors

open Json (Codec Field Fields)

/-- The number of workers of a provider whose configuration names none. -/
def defaultPoolSize : UInt64 := 16

/-- The configuration of one provider. -/
structure ProviderConfig where
  providerId : ProviderId := 0
  /-- The admin token; none and the empty one guard nothing. -/
  token : Option String := none
  poolSize : UInt64 := defaultPoolSize
  deriving DecidableEq

/-- The codec of provider configurations. -/
def ProviderConfig.codec : Codec ProviderConfig :=
  (Codec.record <|
    .cons (.default "provider_id" .uint16 0) <|
    .cons (.default "token" (.optional .text) none) <|
    .cons (.default "pool_size" .uint64 defaultPoolSize) .nil).via
    (fun (providerId, token, poolSize, ()) => some { providerId, token, poolSize })
    fun c => (c.providerId, c.token, c.poolSize, ())

/-- The configuration of an endpoint. -/
structure ServerConfig where
  providers : List ProviderConfig := []
  deriving DecidableEq

namespace ServerConfig

/-- The codec of endpoint configurations. -/
def codec : Codec ServerConfig :=
  (Codec.record <| .cons (.default "providers" ProviderConfig.codec.list []) .nil).via
    (fun (providers, ()) => some { providers })
    fun c => (c.providers, ())

/-- The first entry of `rest` whose element is in `seen` or in front of it in `rest`. -/
def firstRepeat [DecidableEq α] (seen : List α) : List α → Option α
  | [] => none
  | a :: rest => if a ∈ seen then some a else firstRepeat (a :: seen) rest

/-- Refuses a configuration that lists a provider id twice. -/
def validate (c : ServerConfig) : Except Error Unit :=
  match firstRepeat [] (c.providers.map (·.providerId)) with
  | none => .ok ()
  | some id => .error (.configuration ("provider id " ++ toString id ++ " listed twice"))

end ServerConfig

/-- How an endpoint listens. -/
structure ListenConfig where
  /-- The address to bind: host and port. -/
  address : String := "0.0.0.0:8090"
  /-- The largest request body, in bytes. -/
  maxBodySize : Nat := 1024 * 1024
  deriving DecidableEq

end Collectors
