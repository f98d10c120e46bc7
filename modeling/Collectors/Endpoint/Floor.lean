import Collectors.Endpoint

/-!
# Endpoints with workers

Every provider of an endpoint has workers of its own. A request that arrives over the network is
checked, and handed to the provider that it names as a task for one of them; it waits until one is
idle. Whoever has hold of a provider makes calls on it without a worker, or spawns tasks of their
own on its pool.

A `Desk` is what is going on at one provider, and `Desk.step` is what an event there leads to. It
looks at nothing but the desk, the provider and the backends. A `Floor` is a host with the desks of
its providers; everything in it happens in steps, in any order.
-/

namespace Collectors

variable {β ι ω : Type}

/-- What a worker of a provider is wanted for. -/
inductive Task (β ι : Type) where
  /-- A call over the network. -/
  | rpc (rpc : Rpc) (call : Call β ι)
  /-- Something that somebody who has hold of the provider wants done. -/
  | own

/-- What is going on at a provider. -/
structure Desk (β ι : Type) where
  /-- The workers; a task is known by its place among the tasks. -/
  pool : WorkerPool Nat Answer
  tasks : List (Task β ι) := []
  /-- The calls that need no worker. -/
  calls : List (Call β ι) := []

/-- What somebody is told. -/
inductive Reply where
  | http (response : Http.Response)
  | result (r : Except Error Answer)

namespace Desk

/-- What may happen at a provider. -/
inductive Event (β : Type) where
  /-- Somebody who has hold of the provider makes a request. -/
  | call (r : Request)
  /-- The call at `i` takes its next step. -/
  | step (i : Nat)
  /-- Somebody who has hold of the provider spawns a task. -/
  | spawn
  /-- Such a task is let finish. -/
  | finish (t : Nat) (e : TaskEnd Answer)
  /-- The task `t` for a call over the network takes its next step, if it has a worker. -/
  | work (t : Nat)
  /-- The provider gets another backend. -/
  | addBackend (name : String) (backend : β)

/-- What an event at a provider leads to. -/
structure Next (β ι ω : Type) where
  provider : Provider β ι
  desk : Desk β ι
  world : ω
  reply : Option Reply := none
  /-- The call that is to be counted, with the status of its answer. -/
  tally : Option (Rpc × Status) := none

/-- Spawns a task. -/
def spawn (d : Desk β ι) (t : Task β ι) : Desk β ι :=
  { d with pool := d.pool.spawn d.tasks.length, tasks := d.tasks ++ [t] }

/-- How the task for a call ends. -/
def taskEnd : Option (Except Error Answer) → TaskEnd Answer
  | some r => .returned r
  | none => .crashed

/-- Ends the task `t` for a call that has its result; a greeting was answered before. -/
def conclude (t : Nat) (rpc : Rpc) (n : Call.Next β ι ω) (d : Desk β ι) : Next β ι ω :=
  let next :=
    { provider := n.provider
      desk := { d with pool := d.pool.finish t (taskEnd n.call.result?) }
      world := n.world }
  let result := Endpoint.ofWorker n.call.result?
  if rpc = .hello then next
  else
    { next with
      reply := some (.http (Endpoint.answer rpc result))
      tally := some (rpc, Endpoint.statusOf rpc result) }

/-- What an event at the provider `p` leads to. -/
def step (b : Behaviour β ι ω) (p : Provider β ι) (d : Desk β ι) (w : ω) :
    Event β → Next β ι ω
  | .call r => { provider := p, desk := { d with calls := d.calls ++ [.start r] }, world := w }
  | .step i =>
    match d.calls[i]? with
    | some call =>
      let n := call.step b p w
      { provider := n.provider
        desk := { d with calls := d.calls.set i n.call }
        world := n.world
        reply := if call.isDone then none else n.call.result?.map .result }
    | none => { provider := p, desk := d, world := w }
  | .spawn => { provider := p, desk := d.spawn .own, world := w }
  | .finish t e =>
    match d.tasks[t]? with
    | some .own => { provider := p, desk := { d with pool := d.pool.finish t e }, world := w }
    | _ => { provider := p, desk := d, world := w }
  | .work t =>
    match d.tasks[t]? with
    | some (.rpc rpc call) =>
      if t ∈ d.pool.running then
        let n := call.step b p w
        let d := { d with tasks := d.tasks.set t (.rpc rpc n.call) }
        if n.call.isDone then conclude t rpc n d
        else { provider := n.provider, desk := d, world := n.world }
      else { provider := p, desk := d, world := w }
    | _ => { provider := p, desk := d, world := w }
  | .addBackend name backend =>
    match p.registerBackend name backend with
    | .ok p => { provider := p, desk := d, world := w }
    | .error e => { provider := p, desk := d, world := w, reply := some (.result (.error e)) }

end Desk

/-- Whether an HTTP request is addressed to a call of the provider with an id, be it a call that
there is not. -/
def Http.Request.Addresses (r : Http.Request) (id : ProviderId) : Prop :=
  ∃ segment name, (pieces '/' (Http.pathOf r.target)).map String.ofList =
    ["", "v1", "providers", segment, name] ∧ Http.providerId? segment.toList = some id

/-- A host with the desks of its providers. -/
structure Floor (β ι ω : Type) where
  host : Host β ι := {}
  world : ω
  /-- The desks, in the order of the providers. -/
  desks : List (Desk β ι) := []

namespace Floor

/-- What may happen at an endpoint. A provider is deregistered by detaching it and making a request
for its shutdown, and so are all providers when the set of them is shut down. -/
inductive Event (β : Type) where
  /-- A provider is made. -/
  | make (config : ProviderConfig) (dummy : β)
  /-- The provider at a place is attached under its id; the id must be free. -/
  | attach (place : Nat)
  /-- The provider with an id is detached. -/
  | detach (id : ProviderId)
  /-- An HTTP request arrives whose body may have at most `limit` bytes; a new collector is to get
  the id `mint`. -/
  | http (limit : Nat) (mint : CollectorId) (r : Http.Request)
  /-- Something happens at the provider at a place. -/
  | desk (place : Nat) (e : Desk.Event β)

/-- Counts a call, if there is one to count. -/
def tally (h : Host β ι) : Option (Rpc × Status) → Host β ι
  | some (rpc, status) => Endpoint.record h rpc status
  | none => h

/-- Hands a request to a worker of the provider at a place. Whoever greets is answered at once. -/
def accept (s : Floor β ι ω) (rpc : Rpc) (place : Nat) (request : Request) :
    Floor β ι ω × Option Reply :=
  let s := { s with desks := s.desks.modify place fun d => d.spawn (.rpc rpc (.start request)) }
  if rpc = .hello then
    ({ s with host := Endpoint.record s.host rpc .success },
      some (.http (Endpoint.answer rpc (.ok .done))))
  else (s, none)

/-- What an event leads to, and what somebody is told by it. -/
def step (b : Behaviour β ι ω) (s : Floor β ι ω) : Event β → Floor β ι ω × Option Reply
  | .make config dummy =>
    match s.host.make config dummy, WorkerPool.new config.poolSize with
    | some (_, host), some pool => ({ s with host, desks := s.desks ++ [{ pool }] }, none)
    | _, _ => (s, none)
  | .attach place =>
    match s.host.providers[place]? with
    | some p =>
      match s.host.attach p.id place with
      | .ok host => ({ s with host }, none)
      | .error e => (s, some (.result (.error e)))
    | none => (s, none)
  | .detach id =>
    match s.host.detach id with
    | .ok (_, host) => ({ s with host }, none)
    | .error e => (s, some (.result (.error e)))
  | .http limit mint r =>
    match Endpoint.plan limit mint r s.host with
    | .respond response => (s, some (.http response))
    | .metrics withBody => (s, some (.http (Endpoint.metricsResponse s.host.metrics withBody)))
    | .refuse rpc e =>
      ({ s with host := Endpoint.record s.host rpc e.status },
        some (.http (Endpoint.answer rpc (.error e))))
    | .perform rpc place request => s.accept rpc place request
  | .desk place e =>
    match s.host.provider? place, s.desks[place]? with
    | some p, some d =>
      let n := d.step b p s.world e
      ({ host := tally (s.host.put place n.provider) n.tally
         world := n.world
         desks := s.desks.set place n.desk }, n.reply)
    | _, _ => (s, none)

/-- What a schedule leads to, and what somebody is told by each of its events. -/
def run (b : Behaviour β ι ω) (s : Floor β ι ω) :
    List (Event β) → Floor β ι ω × List (Option Reply)
  | [] => (s, [])
  | e :: es =>
    let (s, reply) := s.step b e
    let (s, replies) := run b s es
    (s, reply :: replies)

/-- Whether some schedule leads to a state from an endpoint without providers. -/
def Reachable (b : Behaviour β ι ω) (w : ω) (s : Floor β ι ω) : Prop :=
  ∃ schedule, (run b { world := w } schedule).1 = s

/-- Something that is addressed to a provider. -/
inductive Message (β : Type) where
  /-- An HTTP request. -/
  | http (limit : Nat) (mint : CollectorId) (r : Http.Request)
  /-- The provider is detached. -/
  | detach
  /-- Somebody who has hold of the provider does something, or something goes on there. -/
  | desk (e : Desk.Event β)

/-- What happens when a message is sent to the provider with an id, by those who have hold of the
one at a place. -/
def Message.event (id : ProviderId) (place : Nat) : Message β → Event β
  | http limit mint r => .http limit mint r
  | detach => .detach id
  | desk e => .desk place e

/-- Whether a message is for the provider with an id. -/
def Message.Addresses (id : ProviderId) : Message β → Prop
  | http _ _ r => r.Addresses id
  | _ => True

end Floor
end Collectors
