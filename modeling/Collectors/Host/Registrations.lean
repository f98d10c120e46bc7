import Collectors.Host.Traffic

/-!
# Registrations of backends

A provider is made with the built-in backend, and others may be registered with it at any time.
`Traffic.registrations` lists what was to be registered with the provider at a place, by whatever
goes on at a host; a registration that is refused stands there, too. `Host.backend?` is what the
provider has under a name.

`Relayed` says what the caller of an operation is told of what came of it at the instance.
-/

namespace Collectors

variable {β ι ω : Type}

/-- The backend that the provider at a place has under a name. -/
def Host.backend? (h : Host β ι) (place : Nat) (name : String) : Option β :=
  h.providers[place]?.bind fun p => p.registry.find? name

namespace Traffic

/-- What an event is to register with the provider at a place, which has to be there: the built-in
backend with a new provider, or another one with a provider that was made before. -/
def registration? (s : Traffic β ι ω) (place : Nat) : Event β → Option (String × β)
  | .make config dummy =>
    if (s.host.make config dummy).isSome ∧ place = s.host.providers.length then
      some (Dummy.backendName, dummy)
    else none
  | .addBackend place' name backend =>
    if place' = place ∧ place < s.host.providers.length then some (name, backend) else none
  | _ => none

/-- What a schedule is to register with the provider at a place, oldest first. -/
def registrations (b : Behaviour β ι ω) (place : Nat) (s : Traffic β ι ω) :
    List (Event β) → List (String × β)
  | [] => []
  | e :: es => (s.registration? place e).toList ++ registrations b place (s.step b e) es

end Traffic

/-- What the caller of an operation of a collector of `backend` is told of an outcome at the
instance: that an operation is not supported is said of the backend by which the collector is known,
whatever the instance calls it, and anything else is passed on as it is. -/
inductive Relayed (backend : String) :
    Option (Except Error Json) → Option (Except Error Answer) → Prop where
  | value (v : Json) : Relayed backend (some (.ok v)) (some (.ok (.value v)))
  | unsupported (other operation : String) :
      Relayed backend (some (.error (.opUnsupported other operation)))
        (some (.error (.opUnsupported backend operation)))
  | error {e : Error} (other : ∀ b operation, e ≠ .opUnsupported b operation) :
      Relayed backend (some (.error e)) (some (.error e))
  | broken : Relayed backend none none

end Collectors
