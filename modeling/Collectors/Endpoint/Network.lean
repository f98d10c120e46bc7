import Collectors.Endpoint
import Collectors.Transport

/-!
# The network of one endpoint

`Endpoint.network` connects clients to one endpoint that listens at a base URL. Bodies arrive as
they were sent, in both directions; whatever is posted elsewhere reaches nobody.
-/

namespace Collectors
namespace Endpoint

variable {β ι ω : Type}

/-- The request that a JSON text posted to `target` arrives as. -/
def posted (target body : String) : Http.Request :=
  { method := "POST", target, contentType := some Http.jsonType, body := body.toUTF8 }

/-- The network on which an endpoint listens at the URL `base`; a new collector gets the id
`mint`. -/
def network (b : Behaviour β ι ω) (limit : Nat) (mint : CollectorId) (base : String) :
    Network (Host β ι × ω) where
  post url body s :=
    if base.toList.isPrefixOf url.toList then
      let target := String.ofList (url.toList.drop base.toList.length)
      let next := handle b limit mint (posted target body) s.1 s.2
      (.ok next.response, (next.host, next.world))
    else ((Network.silent.post url body ()).1, s)

end Endpoint
end Collectors
