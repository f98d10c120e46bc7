import Collectors.Provider
import Collectors.Table.Removal

/-!
# Calls on a provider

A `Request` is what may be asked of a provider and an `Answer` is what a request that succeeds
gives. A request is handled in steps: a look at the token, the closed flag or the registry, a
change of the table, or a call into a backend. `Call` says what is still to be done and
`Call.step` does the next thing, so that calls on one provider may take their steps in any order.

`Provider.perform` handles a request with nobody else acting on the provider: it takes all steps,
whose number `Call.rank` bounds.
-/

namespace Collectors

/-- What may be asked of a provider. Requests for a new collector bring the id that it gets. -/
inductive Request where
  | instantiate (mode : Mode) (token : Option String) (backend : String) (config : Option String)
      (id : CollectorId)
  | close (token : Option String) (id : CollectorId)
  | destroy (token : Option String) (id : CollectorId)
  | list (token : Option String) (limit : Nat)
  | hello (id : CollectorId)
  | sum (id : CollectorId) (x y : Int32)
  | invoke (id : CollectorId) (operation : String) (args : Json)
  | shutdown

namespace Request

/-- The token of an administrative request; `none` if anybody may make the request. -/
def token? : Request → Option (Option String)
  | instantiate _ token _ _ _ | close token _ | destroy token _ | list token _ => some token
  | hello _ | sum _ _ _ | invoke _ _ _ | shutdown => none

/-- The same request with another token, if it carries one. -/
def withToken (token : Option String) : Request → Request
  | instantiate mode _ backend config id => instantiate mode token backend config id
  | close _ id => close token id
  | destroy _ id => destroy token id
  | list _ limit => list token limit
  | r => r

/-- The id of the collector that a request is made to. -/
def collector? : Request → Option CollectorId
  | close _ id | destroy _ id | hello id | sum id _ _ | invoke id _ _ => some id
  | instantiate _ _ _ _ _ | list _ _ | shutdown => none

end Request

/-- What a request gives. -/
inductive Answer where
  | done
  | id (id : CollectorId)
  | ids (ids : List CollectorId)
  | sum (result : Int32)
  | value (result : Json)
  | count (n : Nat)

/-- What is still to be done for a request. -/
inductive Call (β ι : Type) where
  /-- Everything: the token of an administrative request is not yet checked. -/
  | start (r : Request)
  /-- See whether the table is closed. -/
  | checkClosed (mode : Mode) (backend : String) (config : Option String) (id : CollectorId)
  /-- Look up the backend. -/
  | findBackend (mode : Mode) (backend : String) (config : Option String) (id : CollectorId)
  /-- Have the backend make an instance. -/
  | instantiate (made : β) (mode : Mode) (backend : String) (config : Option String)
      (id : CollectorId)
  /-- Enter a collector. -/
  | insert (c : Collector ι)
  /-- Close the instance of a collector that was refused because of `e`. -/
  | closeRefused (c : Collector ι) (e : Error)
  /-- Remove one collector and close it, or all of them. -/
  | remove (r : Removal ι)
  /-- Detach a collector that is to be destroyed. -/
  | detachToDestroy (id : CollectorId)
  /-- Destroy the instance of a detached collector. -/
  | destroy (c : Collector ι)
  /-- Read the ids of the table. -/
  | list (limit : Nat)
  /-- Have the instance of a collector that was found greet. -/
  | hello (c : Collector ι)
  /-- Have the instance of a collector that was found add. -/
  | sum (c : Collector ι) (x y : Int32)
  /-- Have the instance of a collector that was found run an operation. -/
  | invoke (c : Collector ι) (operation : String) (args : Json)
  /-- Nothing: the request has its answer. -/
  | finished (result : Except Error Answer)
  /-- Nothing: a call into a backend broke down. -/
  | broken

/-- What a step leads to: what is left to do, and the provider and the state of the backends
then. -/
structure Call.Next (β ι ω : Type) where
  call : Call β ι
  provider : Provider β ι
  world : ω
  warnings : List Warning := []

namespace Call

variable {β ι ω : Type}

/-- Whether there is nothing left to do. -/
def isDone : Call β ι → Bool
  | finished _ | broken => true
  | _ => false

/-- A removal as part of a request. -/
def ofRemoval : Removal ι → Call β ι
  | .removed result => .finished (result.map fun _ => .done)
  | .tornDown total => .finished (.ok (.count total))
  | .broken => .broken
  | r => .remove r

/-- What is left of a request once its token has been checked, or once its collector has been
looked up. -/
def begin (p : Provider β ι) : Request → Call β ι
  | .instantiate mode token backend config id =>
    match p.authorize token with
    | .ok () => .checkClosed mode backend config id
    | .error e => .finished (.error e)
  | .close token id =>
    match p.authorize token with
    | .ok () => .remove (.detach id true)
    | .error e => .finished (.error e)
  | .destroy token id =>
    match p.authorize token with
    | .ok () => .detachToDestroy id
    | .error e => .finished (.error e)
  | .list token limit =>
    match p.authorize token with
    | .ok () => .list limit
    | .error e => .finished (.error e)
  | .hello id =>
    match p.table.get? id with
    | some c => .hello c
    | none => .finished (.ok .done)
  | .sum id x y =>
    match p.table.get? id with
    | some c => .sum c x y
    | none => .finished (.error (.collectorNotFound id.text))
  | .invoke id operation args =>
    match p.table.get? id with
    | some c => .invoke c operation args
    | none => .finished (.error (.collectorNotFound id.text))
  | .shutdown => .remove .drain

/-- The end of a call into a backend. -/
def ofOutcome {α : Type} (give : α → Answer) : Option (Except Error α) → Call β ι
  | none => .broken
  | some r => .finished (r.map give)

/-- The error of an operation as its caller sees it: an operation that is not supported names
the backend of the collector. -/
def renameUnsupported (backend : String) : Error → Error
  | .opUnsupported _ operation => .opUnsupported backend operation
  | e => e

/-- Does the next thing. -/
def step (b : Behaviour β ι ω) (call : Call β ι) (p : Provider β ι) (w : ω) : Next β ι ω :=
  match call with
  | .start r => { call := begin p r, provider := p, world := w }
  | .checkClosed mode backend config id =>
    { call :=
        if p.table.closed then .finished (.error .tableClosed)
        else .findBackend mode backend config id
      provider := p, world := w }
  | .findBackend mode backend config id =>
    { call :=
        match p.registry.find? backend with
        | some made => .instantiate made mode backend config id
        | none => .finished (.error (.backendNotFound backend))
      provider := p, world := w }
  | .instantiate made mode backend config id =>
    match b.instantiate made mode config w with
    | (none, w) => { call := .broken, provider := p, world := w }
    | (some (.error e), w) => { call := .finished (.error e), provider := p, world := w }
    | (some (.ok resource), w) =>
      { call := .insert { id, backend, resource }, provider := p, world := w }
  | .insert c =>
    match p.table.insert c with
    | .ok t =>
      { call := .finished (.ok (.id c.id)), provider := { p with table := t }, world := w }
    | .error e => { call := .closeRefused c e, provider := p, world := w }
  | .closeRefused c e =>
    match b.close c.resource w with
    | (none, w) => { call := .broken, provider := p, world := w }
    | (some (.ok ()), w) => { call := .finished (.error e), provider := p, world := w }
    | (some (.error _), w) =>
      { call := .finished (.error e), provider := p, world := w,
        warnings := [.closeOfUnregistered] }
  | .remove r =>
    let next := r.step b.close p.table w
    { call := ofRemoval next.removal, provider := { p with table := next.table },
      world := next.world, warnings := next.warnings }
  | .detachToDestroy id =>
    match p.table.take id with
    | none =>
      { call := .finished (.error (.collectorNotFound id.text)), provider := p, world := w }
    | some (c, t) => { call := .destroy c, provider := { p with table := t }, world := w }
  | .destroy c =>
    match b.destroy c.resource w with
    | (none, w) => { call := .broken, provider := p, world := w }
    | (some (.ok ()), w) => { call := .finished (.ok .done), provider := p, world := w }
    | (some (.error _), w) =>
      { call := .finished (.ok .done), provider := p, world := w, warnings := [.destroyFailed] }
  | .list limit =>
    { call := .finished (.ok (.ids (p.table.list limit))), provider := p, world := w }
  | .hello c =>
    let (r, w) := b.hello c.resource w
    { call := ofOutcome (fun _ => .done) (r.map .ok), provider := p, world := w }
  | .sum c x y =>
    let (r, w) := b.sum c.resource x y w
    { call := ofOutcome .sum r, provider := p, world := w }
  | .invoke c operation args =>
    let (r, w) := b.invoke c.resource operation args w
    { call := ofOutcome .value (r.map fun r => r.mapError (renameUnsupported c.backend))
      provider := p, world := w }
  | call => { call, provider := p, world := w }

/-- An upper bound on the number of steps that are left while nobody else acts on the
provider. -/
def rank (call : Call β ι) (p : Provider β ι) : Nat :=
  match call with
  | .start _ => 2 * p.table.size + 6
  | .checkClosed _ _ _ _ => 5
  | .findBackend _ _ _ _ => 4
  | .instantiate _ _ _ _ _ => 3
  | .insert _ => 2
  | .closeRefused _ _ => 1
  | .remove r => r.rank p.table + 1
  | .detachToDestroy _ => 2
  | .destroy _ => 1
  | .list _ => 1
  | .hello _ => 1
  | .sum _ _ _ => 1
  | .invoke _ _ _ => 1
  | .finished _ => 0
  | .broken => 0

theorem rank_ofRemoval_le (r : Removal ι) (p : Provider β ι) :
    (ofRemoval r : Call β ι).rank p ≤ r.rank p.table + 1 := by
  cases r <;> simp [ofRemoval, rank]

theorem rank_begin_lt (p : Provider β ι) (r : Request) :
    (begin p r).rank p < 2 * p.table.size + 6 := by
  cases r with
  | shutdown => simp [begin, rank, Removal.rank]
  | instantiate | close | destroy | list | hello | sum | invoke =>
    simp only [begin]; split <;> simp [rank, Removal.rank]

theorem rank_ofOutcome {α : Type} (give : α → Answer) (r : Option (Except Error α))
    (p : Provider β ι) : (ofOutcome give r : Call β ι).rank p = 0 := by
  cases r <;> rfl

theorem rank_step_lt {b : Behaviour β ι ω} {call : Call β ι} {p : Provider β ι} {w : ω}
    (h : call.isDone = false) :
    (call.step b p w).call.rank (call.step b p w).provider < call.rank p := by
  cases call with
  | start r => exact rank_begin_lt p r
  | checkClosed | findBackend | instantiate | insert | closeRefused | detachToDestroy | destroy =>
    simp only [step]; split <;> simp [rank]
  | remove r =>
    simp only [step]
    have hle := rank_ofRemoval_le (β := β) (r.step b.close p.table w).removal
      { p with table := (r.step b.close p.table w).table }
    cases hd : r.isDone with
    | false =>
      have : (r.step b.close p.table w).removal.rank (r.step b.close p.table w).table <
          r.rank p.table := Removal.rank_step_lt hd
      simp only [rank] at hle ⊢
      omega
    | true => cases r <;> simp [Removal.isDone] at hd <;> simp [Removal.step, ofRemoval, rank]
  | list => simp [step, rank]
  | hello | sum | invoke => simp [step, rank_ofOutcome]; simp [rank]
  | finished | broken => simp [isDone] at h

/-- Takes all steps, with nobody else acting on the provider. -/
def run (b : Behaviour β ι ω) (call : Call β ι) (p : Provider β ι) (w : ω) : Next β ι ω :=
  if _h : call.isDone then { call, provider := p, world := w }
  else
    let next := call.step b p w
    let last := run b next.call next.provider next.world
    { last with warnings := next.warnings ++ last.warnings }
termination_by call.rank p
decreasing_by exact rank_step_lt (by simpa using _h)

/-- The answer of a call that has nothing left to do; `none` if it broke down. -/
def result? : Call β ι → Option (Except Error Answer)
  | finished r => some r
  | _ => none

end Call

/-- Handles a request with nobody else acting on the provider. -/
def Provider.perform {β ι ω : Type} (b : Behaviour β ι ω) (r : Request) (p : Provider β ι)
    (w : ω) : Call.Next β ι ω :=
  (Call.start r).run b p w

end Collectors
