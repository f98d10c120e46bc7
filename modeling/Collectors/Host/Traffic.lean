import Collectors.Host

/-!
# Traffic on a host

Any number of calls act on a host at the same time. A `Job` is a call on one provider, made by
whoever has hold of the provider; an `Errand` is a call on the set of attached providers, which
starts jobs of its own and waits for them. Both are cut into the steps that nothing can come in
between: one look at the set or one change of it, or one `Call.step`.

`Traffic.step` lets one of them take its next step, or lets something new come in; a schedule is a
list of events, and `Traffic.run` takes its steps one after another. `Traffic.Reachable` are the
states that some schedule leads to, from a process without providers.
-/

namespace Collectors

/-- A call on the provider at a place. -/
structure Job (β ι : Type) where
  place : Nat
  call : Call β ι

/-- What may be asked of the set of attached providers. -/
inductive Order where
  /-- Hand a request to the provider with an id. -/
  | request (id : ProviderId) (r : Request)
  /-- Detach the provider with an id and shut it down. -/
  | deregister (id : ProviderId)
  /-- Detach all providers and shut them down. -/
  | shutdown

namespace Errand

/-- What is still to be done for an order. -/
inductive Stage where
  /-- Everything. -/
  | start (o : Order)
  /-- Detach the providers with some ids, as far as they are attached. -/
  | detach (rest : List ProviderId)
  /-- Shut down the providers that were detached, each by a job of its own. -/
  | begin
  /-- Wait for the answer of a request. -/
  | await
  /-- Wait until everything is shut down. -/
  | join
  /-- Nothing: the order has its answer; `none` if a job broke down. -/
  | finished (result : Option (Except Error Answer))

end Errand

/-- A call on the set of attached providers. -/
structure Errand where
  stage : Errand.Stage
  /-- The places of the providers that it detached. -/
  detached : List Nat := []
  /-- The jobs that it started, by their places in the list of all jobs. -/
  jobs : List Nat := []

/-- A host and everything that is going on there. -/
structure Traffic (β ι ω : Type) where
  host : Host β ι := {}
  world : ω
  jobs : List (Job β ι) := []
  errands : List Errand := []

namespace Traffic

/-- What may happen next. -/
inductive Event (β : Type) where
  /-- A provider is made. -/
  | make (config : ProviderConfig) (dummy : β)
  /-- The provider at a place is attached under its id, if the id is free. -/
  | attach (place : Nat)
  /-- The provider at a place gets another backend. -/
  | addBackend (place : Nat) (name : String) (backend : β)
  /-- An answered request is counted. -/
  | tally (rpc : Rpc) (status : Status)
  /-- Somebody hands a request to the provider at a place. -/
  | request (place : Nat) (r : Request)
  /-- Somebody gives an order to the set of attached providers. -/
  | order (o : Order)
  /-- A job takes its next step. -/
  | job (i : Nat)
  /-- An errand takes its next step. -/
  | errand (i : Nat)

variable {β ι ω : Type}

/-- The answer of a job that is done; `none` while it is not, and if it broke down. -/
def answer? (s : Traffic β ι ω) (i : Nat) : Option (Except Error Answer) :=
  s.jobs[i]?.bind fun j => j.call.result?

/-- Whether a job has nothing left to do. -/
def isDone (s : Traffic β ι ω) (i : Nat) : Bool := s.jobs[i]?.all fun j => j.call.isDone

/-- The number that an answer counts. -/
def counted : Except Error Answer → Option Nat
  | .ok (.count n) => some n
  | _ => none

/-- The sum of what some jobs counted; `none` if one of them did not. -/
def total (s : Traffic β ι ω) (jobs : List Nat) : Option Nat :=
  (jobs.mapM fun i => (s.answer? i).bind counted).map fun counts => counts.foldl (· + ·) 0

/-- Lets the job at `i` take its next step. -/
def stepJob (b : Behaviour β ι ω) (s : Traffic β ι ω) (i : Nat) : Traffic β ι ω :=
  match s.jobs[i]? with
  | none => s
  | some j =>
    let (call, host, world, _) := s.host.step b j.place j.call s.world
    { s with host, world, jobs := s.jobs.set i { j with call } }

/-- Adds jobs behind the others. -/
def addJobs (s : Traffic β ι ω) (jobs : List (Job β ι)) : Traffic β ι ω :=
  { s with jobs := s.jobs ++ jobs }

/-- Replaces the errand at `i`. -/
def setErrand (s : Traffic β ι ω) (i : Nat) (e : Errand) : Traffic β ι ω :=
  { s with errands := s.errands.set i e }

/-- Lets the errand at `i` take its next step, where its stage is that of `e`. -/
def stepErrandAs (s : Traffic β ι ω) (i : Nat) (e : Errand) : Traffic β ι ω :=
  match e.stage with
  | .start (.request id r) =>
    match s.host.find id with
    | .ok place =>
      (s.addJobs [{ place, call := .start r }]).setErrand i
        { e with stage := .await, jobs := [s.jobs.length] }
    | .error err => s.setErrand i { e with stage := .finished (some (.error err)) }
  | .start (.deregister id) =>
    match s.host.detach id with
    | .ok (place, host) =>
      { s with host }.setErrand i { e with stage := .begin, detached := [place] }
    | .error err => s.setErrand i { e with stage := .finished (some (.error err)) }
  | .start .shutdown => s.setErrand i { e with stage := .detach s.host.ids }
  | .detach [] => s.setErrand i { e with stage := .begin }
  | .detach (id :: rest) =>
    match s.host.detach id with
    | .ok (place, host) =>
      { s with host }.setErrand i
        { e with stage := .detach rest, detached := e.detached ++ [place] }
    | .error _ => s.setErrand i { e with stage := .detach rest }
  | .begin =>
    (s.addJobs (e.detached.map fun place => { place, call := .start .shutdown })).setErrand i
      { e with stage := .join, jobs := List.range' s.jobs.length e.detached.length }
  | .await =>
    if e.jobs.all s.isDone then
      s.setErrand i { e with stage := .finished (e.jobs.head?.bind s.answer?) }
    else s
  | .join =>
    if e.jobs.all s.isDone then
      s.setErrand i { e with stage := .finished ((s.total e.jobs).map fun n => .ok (.count n)) }
    else s
  | .finished _ => s

/-- Lets the errand at `i` take its next step. -/
def stepErrand (s : Traffic β ι ω) (i : Nat) : Traffic β ι ω :=
  match s.errands[i]? with
  | none => s
  | some e => s.stepErrandAs i e

/-- What an event leads to. Nobody has hold of a provider that there is not. -/
def step (b : Behaviour β ι ω) (s : Traffic β ι ω) : Event β → Traffic β ι ω
  | .make config dummy =>
    match s.host.make config dummy with
    | some (_, host) => { s with host }
    | none => s
  | .attach place =>
    match s.host.providers[place]? with
    | some p =>
      match s.host.attach p.id place with
      | .ok host => { s with host }
      | .error _ => s
    | none => s
  | .addBackend place name backend =>
    match s.host.provider? place with
    | some p =>
      match p.registerBackend name backend with
      | .ok p => { s with host := s.host.put place p }
      | .error _ => s
    | none => s
  | .tally rpc status =>
    { s with host := { s.host with metrics := s.host.metrics.record rpc status } }
  | .request place r =>
    if place < s.host.providers.length then
      s.addJobs [{ place, call := .start r }]
    else s
  | .order o => { s with errands := s.errands ++ [{ stage := .start o }] }
  | .job i => s.stepJob b i
  | .errand i => s.stepErrand i

/-- What a schedule leads to. -/
def run (b : Behaviour β ι ω) (s : Traffic β ι ω) (schedule : List (Event β)) : Traffic β ι ω :=
  schedule.foldl (step b) s

/-- Whether some schedule leads to a state from a process without providers. -/
def Reachable (b : Behaviour β ι ω) (w : ω) (s : Traffic β ι ω) : Prop :=
  ∃ schedule, run b { world := w } schedule = s

end Traffic
end Collectors
