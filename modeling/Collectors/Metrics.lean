import Collectors.Rpc

/-!
# Metrics

An endpoint counts the requests it handled, by call and by the status of the answer, and shows for
every provider id how many collectors are live. `Metrics.text` writes both in the text format of
metrics.
-/

namespace Collectors

/-- The requests handled and the collectors that are live. -/
structure Metrics where
  /-- How many requests were handled, by call and status; every pair stands at most once. -/
  requests : List ((Rpc × Status) × Nat) := []
  /-- What the gauges of the provider ids show; every id stands at most once. -/
  gauges : List (ProviderId × Nat) := []

namespace Metrics

/-- Gives a key a value in a list of pairs, in place of the value that it has. -/
def assign {κ α : Type} [DecidableEq κ] (key : κ) (value : α) : List (κ × α) → List (κ × α)
  | [] => [(key, value)]
  | (k, v) :: rest => if k = key then (key, value) :: rest else (k, v) :: assign key value rest

/-- How many requests for a call were answered with a status. -/
def handled (m : Metrics) (rpc : Rpc) (status : Status) : Nat :=
  (m.requests.lookup (rpc, status)).getD 0

/-- Counts one handled request. -/
def record (m : Metrics) (rpc : Rpc) (status : Status) : Metrics :=
  { m with requests := assign (rpc, status) (m.handled rpc status + 1) m.requests }

/-- What the gauge of a provider id shows; `none` if there was never such a provider. -/
def gauge? (m : Metrics) (provider : ProviderId) : Option Nat := m.gauges.lookup provider

/-- Sets the gauge of a provider id. -/
def setGauge (m : Metrics) (provider : ProviderId) (n : Nat) : Metrics :=
  { m with gauges := assign provider n m.gauges }

/-- A sample with labels. -/
def sample (name : String) (labels : List (String × String)) (n : Nat) : String :=
  name ++ "\x7b" ++ ",".intercalate (labels.map fun (k, v) => k ++ "=\"" ++ v ++ "\"") ++ "\x7d " ++
    toString n

/-- The metrics as text. -/
def text (m : Metrics) : String :=
  let live := m.gauges.map fun (p, n) =>
    sample "collector_live_collectors" [("provider_id", toString p)] n
  let requests := m.requests.map fun ((r, s), n) =>
    sample "collector_rpc_requests_total" [("rpc", r.name), ("status", s.name)] n
  let lines :=
    (if live.isEmpty then [] else
      ["# HELP collector_live_collectors Collectors currently registered, by provider",
        "# TYPE collector_live_collectors gauge"] ++ live) ++
    (if requests.isEmpty then [] else
      ["# HELP collector_rpc_requests_total RPC requests handled, by rpc name and status",
        "# TYPE collector_rpc_requests_total counter"] ++ requests)
  String.join (lines.map (· ++ "\n"))

end Metrics
end Collectors
