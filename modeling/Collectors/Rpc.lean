import Collectors.Error

/-!
# Remote calls and their paths

Eight calls can be made on a provider over the wire. Each has a name, which is the last segment
of the path it is posted to.
-/

namespace Collectors

/-- A call that can be made over the wire. -/
inductive Rpc where
  | createCollector
  | openCollector
  | closeCollector
  | destroyCollector
  | listCollectors
  | hello
  | sum
  | invoke
  deriving DecidableEq

namespace Rpc

/-- All remote calls. -/
def all : List Rpc :=
  [createCollector, openCollector, closeCollector, destroyCollector, listCollectors, hello, sum,
    invoke]

/-- The name of a call. -/
def name : Rpc → String
  | createCollector => "create_collector"
  | openCollector => "open_collector"
  | closeCollector => "close_collector"
  | destroyCollector => "destroy_collector"
  | listCollectors => "list_collectors"
  | hello => "hello"
  | sum => "sum"
  | invoke => "invoke"

/-- The call with a name. -/
def ofName? (n : String) : Option Rpc := all.find? fun r => r.name = n

/-- The path to which the call named `rpc` is posted. -/
def path (provider : ProviderId) (rpc : String) : String :=
  "/v1/providers/" ++ toString provider ++ "/" ++ rpc

end Rpc
end Collectors
