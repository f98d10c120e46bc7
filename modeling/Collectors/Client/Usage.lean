import Collectors.Client

/-!
# The use of a client

Whoever has hold of a client object may copy it, drop it, open a handle with it, or finalize the
client, which takes the object away. Whoever has hold of a handle object may copy it, drop it, take
one more reference, or give one back. `Usage.run` does such things one after another, as far as
there is an object to do them with, and keeps a record of what was done, answered and warned of.

Everything else in this file is read off from the record alone: which objects there still are
(`Usage.objects`, `Usage.handleObjects`), which references (`Usage.references`), and which handles
were dropped for good before they were released (`Usage.isLost`).
-/

namespace Collectors

/-- What can be done with a client object, or with an object of the handle at a place. -/
inductive Act where
  | clone
  | drop
  | finalize
  | openHandle (target : Address) (collector : CollectorId)
  | cloneHandle (place : Nat)
  | dropHandle (place : Nat)
  | retain (place : Nat)
  | release (place : Nat)
  deriving DecidableEq

namespace Act

/-- The handle that an act is done with. -/
def place? : Act → Option Nat
  | cloneHandle place | dropHandle place | retain place | release place => some place
  | clone | drop | finalize | openHandle _ _ => none

/-- Whether an act opens a handle. -/
def opens : Act → Bool
  | openHandle _ _ => true
  | _ => false

/-- Whether there is an object that an act can be done with. -/
def isPossible (a : Act) (c : Client) : Bool :=
  match a.place? with
  | none => 0 < c.objects
  | some place => c.handles[place]?.any fun h => 0 < h.objects

end Act

/-- Does something. The result is the number of open handles, where somebody is told. -/
def Client.act (c : Client) : Act → Next (Except Error (Option Nat))
  | .clone => { result := .ok none, client := c.clone }
  | .drop => { c.drop with result := .ok none }
  | .finalize => { c.finalize with result := .ok (some c.finalize.result) }
  | .openHandle target collector =>
    { result := .ok none, client := (c.openHandle target collector).2 }
  | .cloneHandle place => { result := .ok none, client := c.cloneHandle place }
  | .dropHandle place => { c.dropHandle place with result := .ok none }
  | .retain place =>
    match c.retain place with
    | .ok c => { result := .ok none, client := c }
    | .error e => { result := .error e, client := c }
  | .release place => { c.release place with result := (c.release place).result.map fun _ => none }

/-- Whether a warning says that the last reference to a client went. -/
def Warning.isFarewell : Warning → Bool
  | droppedWithOpenHandles _ => true
  | _ => false

/-- Something that was done, with what it gave. -/
structure Act.Done where
  act : Act
  result : Except Error (Option Nat)
  warnings : List Warning

/-- A client in use. -/
structure Usage where
  client : Client := {}
  /-- What was done so far. -/
  past : List Act.Done := []

namespace Usage

/-- What is there after one more thing was done. -/
def after (u : Usage) (c : Client) (d : Act.Done) : Usage := { client := c, past := u.past ++ [d] }

/-- Does something, if there is an object for it. -/
def step (u : Usage) (a : Act) : Usage :=
  if a.isPossible u.client then
    let next := u.client.act a
    u.after next.client { act := a, result := next.result, warnings := next.warnings }
  else u

/-- Does one thing after another. -/
def run (u : Usage) (acts : List Act) : Usage := acts.foldl step u

/-! ### What the record says -/

/-- How often something was done without being refused. -/
def times (u : Usage) (a : Act) : Nat := u.past.countP fun d => d.act = a && d.result.isOk

/-- How many handles were opened; they have the places below. -/
def opened (u : Usage) : Nat := u.past.countP fun d => d.act.opens

/-- The client objects that there are. -/
def objects (u : Usage) : Nat := 1 + u.times .clone - (u.times .drop + u.times .finalize)

/-- The objects that there are of a handle. -/
def handleObjects (u : Usage) (place : Nat) : Nat :=
  1 + u.times (.cloneHandle place) - u.times (.dropHandle place)

/-- The references to a handle that were not given back. -/
def references (u : Usage) (place : Nat) : Nat :=
  1 + u.times (.retain place) - u.times (.release place)

/-- Whether there is an object of a handle that was not released. -/
def isHeld (u : Usage) (place : Nat) : Bool := 0 < u.handleObjects place && 0 < u.references place

/-- Whether a handle was dropped for good without being released. -/
def isLost (u : Usage) (place : Nat) : Bool :=
  u.handleObjects place = 0 && 0 < u.references place

/-- How many handles were released, so that no reference is left. -/
def released (u : Usage) : Nat := (List.range u.opened).countP fun place => u.references place = 0

/-- How many handles were dropped for good without being released. -/
def lost (u : Usage) : Nat := (List.range u.opened).countP u.isLost

/-- Whether there is a client object or an object of a handle that was not released. -/
def isAlive (u : Usage) : Bool := 0 < u.objects || (List.range u.opened).any u.isHeld

/-- All warnings, oldest first. -/
def warnings (u : Usage) : List Warning := u.past.flatMap Act.Done.warnings

/-- How often it was warned that the last reference to the client went. -/
def farewells (u : Usage) : Nat := u.warnings.countP Warning.isFarewell

/-- What there is to warn of when something is done: of handles that are open, whoever finalizes the
client; and of handles that are lost, when the client goes without ever having been finalized. -/
def due (u : Usage) (a : Act) : List Warning :=
  (if a = .finalize ∧ u.opened ≠ u.released then
    [.finalizedWithOpenHandles (u.opened - u.released)]
  else []) ++
  (if u.isAlive ∧ ¬ (u.step a).isAlive ∧ (u.step a).times .finalize = 0 ∧ (u.step a).lost ≠ 0 then
    [.droppedWithOpenHandles (u.step a).lost]
  else [])

end Usage
end Collectors
