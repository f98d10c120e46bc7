import Collectors.Rpc
import Collectors.Text.Decimal
import Collectors.Text.Percent
import Collectors.Text.Split

/-!
# Routes

The paths an endpoint knows: the eight calls on a provider, the health of the endpoint and its
metrics. A path is compared as it is written; only the provider id in it may be percent-encoded.
-/

namespace Collectors
namespace Http

/-- A path that an endpoint knows. -/
inductive Route where
  /-- A call on the provider whose id is written as `segment`. -/
  | rpc (rpc : Rpc) (segment : List Char)
  | health
  | metrics
  deriving DecidableEq

/-- The path of a request target, without its query and fragment. -/
def pathOf (target : String) : List Char := target.toList.takeWhile fun c => c ≠ '?' && c ≠ '#'

namespace Route

/-- The route of a request target. -/
def ofTarget? (target : String) : Option Route :=
  match (pieces '/' (pathOf target)).map String.ofList with
  | ["", "health"] => some .health
  | ["", "metrics"] => some .metrics
  | ["", "v1", "providers", segment, name] =>
    (Rpc.ofName? name).map fun r => .rpc r segment.toList
  | _ => none

/-- The methods that a route allows. -/
def allowed : Route → List String
  | rpc _ _ => ["POST"]
  | health | metrics => ["GET", "HEAD"]

end Route

/-- The provider id that a path segment writes. -/
def providerId? (segment : List Char) : Option ProviderId := do
  let text ← String.fromUTF8? ⟨(percentDecoded segment).toArray⟩
  let n ← Decimal.unsigned? 0xFFFF text.toList
  return UInt16.ofNat n

end Http
end Collectors
