import Collectors.Host.Traffic
import Collectors.Table.Activity

/-!
# A ledger of traffic

A `Ledger` is kept beside the traffic on a host. It knows what was asked, by the jobs and by the
errands, and it looks at the tables around every step of a job: a collector that is there only
behind the step has arrived, and one that is there only in front of it has departed
(`Ledger.step`). It has no part in what happens.

The answers of calls tell of arrivals and departures, too: `Ledger.tellsEntered`,
`Ledger.tellsClosed`, `Ledger.tellsDestroyed` and `Ledger.counted` say how.
-/

namespace Collectors

variable {β ι ω : Type}

/-- A collector that came into a table or left it, with the job that did it and the place of the
table. -/
structure Passage (ι : Type) where
  job : Nat
  place : Nat
  collector : Collector ι

/-- The request of a call that is at its start. -/
def Call.request? : Call β ι → Option Request
  | start r => some r
  | _ => none

/-- The collectors in the table of the provider at a place. -/
def Host.entries (h : Host β ι) (place : Nat) : List (Collector ι) :=
  (h.providers[place]?.map fun p => p.table.entries).getD []

/-- Traffic with a record of what was asked, and of who came into a table and left it. -/
structure Ledger (β ι ω : Type) where
  traffic : Traffic β ι ω
  /-- The request of every job. -/
  requests : List Request := []
  /-- The order of every errand. -/
  orders : List Order := []
  arrivals : List (Passage ι) := []
  departures : List (Passage ι) := []

namespace Ledger

/-- The passages of collectors that are among `l` and not among `m`. -/
def passages (job place : Nat) (l m : List (Collector ι)) : List (Passage ι) :=
  (Collector.beyond l m).map fun collector => { job, place, collector }

/-- What an event leads to, and what is written down of it. -/
def step (b : Behaviour β ι ω) (l : Ledger β ι ω) (e : Traffic.Event β) : Ledger β ι ω :=
  let before := l.traffic
  let after := before.step b e
  let asked := (after.jobs.drop before.jobs.length).filterMap fun j => j.call.request?
  let l := { l with traffic := after, requests := l.requests ++ asked }
  match e with
  | .order o => { l with orders := l.orders ++ [o] }
  | .job i =>
    match before.jobs[i]? with
    | some j =>
      let had := before.host.entries j.place
      let has := after.host.entries j.place
      { l with
        arrivals := l.arrivals ++ passages i j.place has had
        departures := l.departures ++ passages i j.place had has }
    | none => l
  | _ => l

/-- What a schedule leads to, and what is written down of it. -/
def run (b : Behaviour β ι ω) (l : Ledger β ι ω) (schedule : List (Traffic.Event β)) :
    Ledger β ι ω :=
  schedule.foldl (step b) l

/-- The requests to the provider at a place that have been answered, with their answers. -/
def answersAt (l : Ledger β ι ω) (place : Nat) : List (Request × Except Error Answer) :=
  (l.requests.zip l.traffic.jobs).filterMap fun (r, j) =>
    if j.place = place then j.call.result?.map fun a => (r, a) else none

/-- Whether an error says that nothing was removed: there was no such collector, or the token was
wrong. -/
def refuses : Error → Bool
  | .collectorNotFound _ | .invalidToken => true
  | _ => false

/-- Whether an answer tells that a collector was entered. -/
def tellsEntered : Request × Except Error Answer → Bool
  | (.instantiate _ _ _ _ _, .ok _) => true
  | _ => false

/-- Whether an answer tells that a collector was closed, be it that its close failed. -/
def tellsClosed : Request × Except Error Answer → Bool
  | (.close _ _, .ok _) => true
  | (.close _ _, .error e) => !refuses e
  | _ => false

/-- Whether an answer tells that a collector was destroyed. -/
def tellsDestroyed : Request × Except Error Answer → Bool
  | (.destroy _ _, .ok _) => true
  | _ => false

/-- How many collectors the answer of a shutdown counts. -/
def counted : Request × Except Error Answer → Nat
  | (.shutdown, .ok (.count n)) => n
  | _ => 0

end Ledger
end Collectors
