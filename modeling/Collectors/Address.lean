import Collectors.Rpc
import Collectors.Text.Blank

/-!
# Addresses of providers

An `Address` is the base URL of an endpoint and the id of one of its providers. `Address.new`
takes an endpoint as people write it: white space around it and slashes behind it do not matter,
and a missing scheme is `http`.
-/

namespace Collectors

/-- The address of one provider. -/
structure Address where
  baseUrl : String
  providerId : ProviderId
  deriving DecidableEq

namespace Address

/-- An endpoint without the white space around it and the slashes behind it. -/
def normalChars (endpoint : List Char) : List Char :=
  trimEnd (· = '/') (trimBlank endpoint)

/-- Whether an endpoint names its scheme. -/
def hasScheme (endpoint : List Char) : Bool :=
  "http://".toList.isPrefixOf endpoint || "https://".toList.isPrefixOf endpoint

/-- The address of a provider on an endpoint that is written as `host:port` or as a URL. -/
def new (endpoint : String) (providerId : ProviderId) : Address :=
  let rest := normalChars endpoint.toList
  { baseUrl := String.ofList (if hasScheme rest then rest else "http://".toList ++ rest),
    providerId }

/-- The URL to which the call named `rpc` is posted. -/
def url (a : Address) (rpc : String) : String := a.baseUrl ++ Rpc.path a.providerId rpc

instance : ToString Address := ⟨fun a => a.baseUrl ++ "#" ++ toString a.providerId⟩

end Address
end Collectors
