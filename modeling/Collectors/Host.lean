import Collectors.Metrics
import Collectors.Provider.Call

/-!
# Hosts of several providers

A `Host` keeps every provider that was made, whether it is attached or not, and names it by its
place. Requests reach the attached ones by their ids; whoever kept the place of a provider reaches
it also after it was detached.

The gauge of a provider id belongs to the host: all providers with one id publish to the same
gauge, and making a provider sets it to nothing. `Host.provider?` and `Host.put` load and store it
with the table.
-/

namespace Collectors

/-- The providers of a process. -/
structure Host (β ι : Type) where
  /-- All providers in the order in which they were made. -/
  providers : List (Provider β ι) := []
  /-- The places of the attached providers, sorted by id. -/
  attached : List (ProviderId × Nat) := []
  metrics : Metrics := {}

/-- What a request to a host leads to; `none` as the result says that it broke down. -/
structure Host.Next (β ι ω : Type) where
  result : Option (Except Error Answer)
  host : Host β ι
  world : ω
  warnings : List Warning := []

namespace Host

variable {β ι ω : Type}

/-- The provider at a place, with the gauge of its id. -/
def provider? (h : Host β ι) (place : Nat) : Option (Provider β ι) :=
  h.providers[place]?.map fun p =>
    { p with table := { p.table with gauge := h.metrics.gauge? p.id } }

/-- Stores the provider at a place, and the gauge of its id. -/
def put (h : Host β ι) (place : Nat) (p : Provider β ι) : Host β ι :=
  { h with
    providers := h.providers.set place p
    metrics :=
      match p.table.gauge with
      | some n => h.metrics.setGauge p.id n
      | none => h.metrics }

/-- Makes a provider; `none` if there cannot be so many workers. -/
def make (h : Host β ι) (config : ProviderConfig) (dummy : β) : Option (Nat × Host β ι) :=
  (Provider.new config dummy).map fun p =>
    (h.providers.length,
      { h with providers := h.providers ++ [p], metrics := h.metrics.setGauge p.id 0 })

/-- Puts an attached provider in front of the first one with a greater id. -/
def enter (id : ProviderId) (place : Nat) : List (ProviderId × Nat) → List (ProviderId × Nat)
  | [] => [(id, place)]
  | (i, q) :: rest => if id < i then (id, place) :: (i, q) :: rest else (i, q) :: enter id place rest

/-- Attaches the provider at a place; its id must be free. -/
def attach (h : Host β ι) (id : ProviderId) (place : Nat) : Except Error (Host β ι) :=
  if (h.attached.lookup id).isSome then .error (.providerAlreadyRegistered id)
  else .ok { h with attached := enter id place h.attached }

/-- The place of the attached provider with an id. -/
def find (h : Host β ι) (id : ProviderId) : Except Error Nat :=
  match h.attached.lookup id with
  | some place => .ok place
  | none => .error (.invalidProvider id)

/-- The ids of the attached providers, sorted. -/
def ids (h : Host β ι) : List ProviderId := h.attached.map Prod.fst

/-- Detaches the provider with an id. -/
def detach (h : Host β ι) (id : ProviderId) : Except Error (Nat × Host β ι) :=
  (h.find id).map fun place =>
    (place, { h with attached := h.attached.filter fun entry => entry.1 ≠ id })

/-- Makes and attaches a provider. A provider that cannot be attached has been made all the
same. -/
def register (h : Host β ι) (config : ProviderConfig) (dummy : β) :
    Option (Except Error Unit × Host β ι) :=
  (h.make config dummy).map fun (place, h) =>
    match h.attach config.providerId place with
    | .ok h => (.ok (), h)
    | .error e => (.error e, h)

/-- Makes and attaches one provider for every configuration, up to the first that cannot be
attached. -/
def registerAll (h : Host β ι) (dummy : β) :
    List ProviderConfig → Option (Except Error Unit × Host β ι)
  | [] => some (.ok (), h)
  | config :: rest =>
    match h.register config dummy with
    | none => none
    | some (.ok (), h) => h.registerAll dummy rest
    | some (.error e, h) => some (.error e, h)

/-- A host with one provider for every configuration; `none` if one of them cannot have so many
workers. -/
def ofConfigs (configs : List ProviderConfig) (dummy : β) : Option (Except Error (Host β ι)) :=
  (registerAll {} dummy configs).map fun (r, h) => r.map fun _ => h

/-- Takes one step of a call on the provider at a place. A place without a provider leaves the
call as it is. -/
def step (b : Behaviour β ι ω) (h : Host β ι) (place : Nat) (call : Call β ι) (w : ω) :
    Call β ι × Host β ι × ω × List Warning :=
  match h.provider? place with
  | none => (call, h, w, [])
  | some p =>
    let next := call.step b p w
    (next.call, h.put place next.provider, next.world, next.warnings)

/-- Handles a request to the provider at a place, with nobody else acting on it. -/
def perform (b : Behaviour β ι ω) (h : Host β ι) (place : Nat) (r : Request) (w : ω) :
    Next β ι ω :=
  match h.provider? place with
  | none => { result := none, host := h, world := w }
  | some p =>
    let next := p.perform b r w
    { result := next.call.result?, host := h.put place next.provider, world := next.world,
      warnings := next.warnings }

/-- Handles a request to the attached provider with an id. -/
def performOn (b : Behaviour β ι ω) (h : Host β ι) (id : ProviderId) (r : Request) (w : ω) :
    Next β ι ω :=
  match h.find id with
  | .ok place => h.perform b place r w
  | .error e => { result := some (.error e), host := h, world := w }

/-- Detaches a provider and shuts it down. -/
def deregister (b : Behaviour β ι ω) (h : Host β ι) (id : ProviderId) (w : ω) : Next β ι ω :=
  match h.detach id with
  | .ok (place, h) => h.perform b place .shutdown w
  | .error e => { result := some (.error e), host := h, world := w }

/-- Detaches the providers with some ids, as far as they are attached; their places come first. -/
def detachAll (h : Host β ι) : List ProviderId → List Nat × Host β ι
  | [] => ([], h)
  | id :: rest =>
    match h.detach id with
    | .ok (place, h) =>
      let (places, h) := h.detachAll rest
      (place :: places, h)
    | .error _ => h.detachAll rest

/-- Shuts down the providers at some places, one after another; the result counts the closed
collectors behind the first `total`. -/
def shutdownEach (b : Behaviour β ι ω) (h : Host β ι) (w : ω) (total : Nat) :
    List Nat → Next β ι ω
  | [] => { result := some (.ok (.count total)), host := h, world := w }
  | place :: rest =>
    let next := h.perform b place .shutdown w
    match next.result with
    | some (.ok (.count n)) =>
      let last := shutdownEach b next.host next.world (total + n) rest
      { last with warnings := next.warnings ++ last.warnings }
    | _ => { next with result := none }

/-- Detaches all providers and shuts them down. -/
def shutdownAll (b : Behaviour β ι ω) (h : Host β ι) (w : ω) : Next β ι ω :=
  let (places, h) := h.detachAll h.ids
  h.shutdownEach b w 0 places

end Host
end Collectors
