import Collectors.Endpoint

/-!
# Sessions

A `Session` is what happens to the providers of a process one after another, each thing to its end
before the next begins. An `Operation` is what may be done: a provider is made, attached or both, it
gets another backend, somebody who has hold of it makes a request, it is deregistered, all are shut
down, or an HTTP request is answered.

An operation comes down to its *deeds* (`Session.deeds`): the changes that a host goes through one
after another. `Session.speaker` tells which provider publishes the size of its table by a deed,
and `Session.word` which one did so last under its id.
-/

namespace Collectors
namespace Session

/-- What is done to a host in one go. -/
inductive Deed (β : Type) where
  | make (config : ProviderConfig)
  /-- Attach the provider at a place under its id, if the id is free. -/
  | attach (place : Nat)
  /-- Detach the provider with an id, if it is attached. -/
  | detach (id : ProviderId)
  | addBackend (place : Nat) (name : String) (backend : β)
  | perform (place : Nat) (r : Request)
  /-- Count an answered request. -/
  | tally (rpc : Rpc) (status : Status)

/-- What may be done to the providers of a process. -/
inductive Operation (β : Type) where
  | make (config : ProviderConfig)
  /-- Attach the provider at a place; its id must be free. -/
  | attach (place : Nat)
  /-- Make and attach a provider. -/
  | register (config : ProviderConfig)
  | addBackend (place : Nat) (name : String) (backend : β)
  /-- Make a request to the provider at a place. -/
  | perform (place : Nat) (r : Request)
  /-- Detach the provider with an id and shut it down. -/
  | deregister (id : ProviderId)
  /-- Detach all providers and shut them down. -/
  | shutdown
  /-- Answer an HTTP request whose body has at most `limit` bytes; a new collector gets the id
  `mint`. -/
  | answer (limit : Nat) (mint : CollectorId) (r : Http.Request)

variable {β ι ω : Type}

/-- Does one thing, where `dummy` is the built-in backend of new providers; `none` if there cannot
be so many workers. -/
def act (b : Behaviour β ι ω) (dummy : β) (s : Host β ι × ω) : Deed β → Option (Host β ι × ω)
  | .make config => (s.1.make config dummy).map fun (_, h) => (h, s.2)
  | .attach place =>
    match s.1.providers[place]? with
    | some p =>
      match s.1.attach p.id place with
      | .ok h => some (h, s.2)
      | .error _ => some s
    | none => some s
  | .detach id =>
    match s.1.detach id with
    | .ok (_, h) => some (h, s.2)
    | .error _ => some s
  | .addBackend place name backend =>
    match s.1.provider? place with
    | some p =>
      match p.registerBackend name backend with
      | .ok p => some (s.1.put place p, s.2)
      | .error _ => some s
    | none => some s
  | .perform place r =>
    let next := s.1.perform b place r s.2
    some (next.host, next.world)
  | .tally rpc status => some (Endpoint.record s.1 rpc status, s.2)

/-- Does an operation; `none` if it does not come to its end. -/
def step (b : Behaviour β ι ω) (dummy : β) (s : Host β ι × ω) :
    Operation β → Option (Host β ι × ω)
  | .make config => act b dummy s (.make config)
  | .attach place => act b dummy s (.attach place)
  | .register config => (s.1.register config dummy).map fun (_, h) => (h, s.2)
  | .addBackend place name backend => act b dummy s (.addBackend place name backend)
  | .perform place r => act b dummy s (.perform place r)
  | .deregister id =>
    let next := s.1.deregister b id s.2
    some (next.host, next.world)
  | .shutdown =>
    let next := s.1.shutdownAll b s.2
    next.result.map fun _ => (next.host, next.world)
  | .answer limit mint r =>
    let next := Endpoint.handle b limit mint r s.1 s.2
    some (next.host, next.world)

/-- Does operations one after another. -/
def run (b : Behaviour β ι ω) (dummy : β) (s : Host β ι × ω) (ops : List (Operation β)) :
    Option (Host β ι × ω) :=
  ops.foldlM (step b dummy) s

/-- What an operation comes down to. -/
def deeds (b : Behaviour β ι ω) (s : Host β ι × ω) : Operation β → List (Deed β)
  | .make config => [.make config]
  | .attach place => [.attach place]
  | .register config => [.make config, .attach s.1.providers.length]
  | .addBackend place name backend => [.addBackend place name backend]
  | .perform place r => [.perform place r]
  | .deregister id =>
    match s.1.find id with
    | .ok place => [.detach id, .perform place .shutdown]
    | .error _ => []
  | .shutdown =>
    s.1.attached.map (fun entry => .detach entry.1) ++
      s.1.attached.map fun entry => .perform entry.2 .shutdown
  | .answer limit mint r =>
    match Endpoint.plan limit mint r s.1 with
    | .respond _ | .metrics _ => []
    | .refuse rpc e => [.tally rpc e.status]
    | .perform rpc place request =>
      let result := Endpoint.ofWorker (s.1.perform b place request s.2).result
      [.perform place request, .tally rpc (Endpoint.statusOf rpc result)]

/-! ### Who publishes -/

/-- How many collectors were entered into the table of the provider at a place, and how many were
removed. -/
def moves (h : Host β ι) (place : Nat) : Option (Nat × Nat) :=
  h.providers[place]?.map fun p => (p.table.inserted, p.table.removed)

/-- The provider that publishes the size of its table by a deed that leads from `h` to `h'`: a new
one, or one that is shut down or whose collectors come or go. -/
def speaker (h h' : Host β ι) : Deed β → Option Nat
  | .make _ => some h.providers.length
  | .perform place .shutdown => some place
  | .perform place _ => if moves h' place = moves h place then none else some place
  | _ => none

/-- The providers that published last under their ids, after one more deed. -/
def heard (h h' : Host β ι) (d : Deed β) (word : ProviderId → Option Nat) :
    ProviderId → Option Nat :=
  match speaker h h' d with
  | none => word
  | some place => fun id =>
    if (h'.providers[place]?.map Provider.id) = some id then some place else word id

/-- The providers that published last under their ids, after deeds. -/
def wordOfDeeds (b : Behaviour β ι ω) (dummy : β) (s : Host β ι × ω)
    (word : ProviderId → Option Nat) : List (Deed β) → ProviderId → Option Nat
  | [] => word
  | d :: ds =>
    match act b dummy s d with
    | some s' => wordOfDeeds b dummy s' (heard s.1 s'.1 d word) ds
    | none => word

/-- The providers that published last under their ids, after operations. -/
def word (b : Behaviour β ι ω) (dummy : β) (s : Host β ι × ω) (last : ProviderId → Option Nat) :
    List (Operation β) → ProviderId → Option Nat
  | [] => last
  | op :: ops =>
    match step b dummy s op with
    | some s' => word b dummy s' (wordOfDeeds b dummy s last (deeds b s op)) ops
    | none => last

end Session
end Collectors
