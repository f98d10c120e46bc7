import Collectors.Address
import Collectors.Warning

/-!
# Clients and their handles

A `Client` hands out handles on collectors and counts those that were not yet released. Client
objects are copied and dropped, and so are handle objects; all objects of one handle share one
count of references, which starts at one and never leaves zero again.

The reference that brings a count to zero is released in two steps: `Client.countDown` changes
the count, and `Client.free` takes the handle's address away and counts the handle as released.
Other threads may act in between. `HandleCall` says what is still to be done. Taking the address
away and counting is one step because the address is locked until both are done: nobody can look
at one without the other.

A client stays alive as long as there is a client object or an object of a handle that still has
its address. When the last of them goes while handles are open, and the client was never
finalized, it warns once (`Client.settle`).
-/

namespace Collectors

/-- A handle on one collector, as all its objects see it. -/
structure Handle where
  collector : CollectorId
  /-- Where the provider is; `none` once the handle has been freed. -/
  target : Option Address
  /-- The references that were not yet released, as a machine word. -/
  refcount : UInt64 := 1
  /-- The number of handle objects. -/
  objects : Nat := 1
  deriving DecidableEq

namespace Handle

/-- The references that were not yet released. -/
def count (h : Handle) : Nat := h.refcount.toNat

/-- Whether the handle was released as often as it was referred to. -/
def isReleased (h : Handle) : Bool := h.refcount = 0

/-- The error of a call through a handle that is released. -/
def released (h : Handle) : Error :=
  .invalidArgs ("handle on collector " ++ h.collector.text ++ " already released")

/-- Where calls through the handle go. -/
def target? (h : Handle) : Except Error Address :=
  match h.target with
  | some a => .ok a
  | none => .error h.released

/-- Whether the handle keeps its client alive. -/
def holds (h : Handle) : Bool := h.target.isSome && 0 < h.objects

/-- A short description for people who look into a program. -/
def debugText (h : Handle) : String :=
  "CollectorHandle \x7b id: " ++ h.collector.debugText ++ ", refcount: " ++ toString h.count ++
    " \x7d"

end Handle

/-- What all objects of one client share. A handle is named by its place in the list. -/
structure Client where
  /-- The handles that were not yet freed. -/
  openHandles : Nat := 0
  finalized : Bool := false
  /-- The number of client objects. -/
  objects : Nat := 1
  /-- All handles that were ever opened, in the order in which they were. -/
  handles : List Handle := []
  deriving DecidableEq

/-- What a step leads to. -/
structure Client.Next (α : Type) where
  result : α
  client : Client
  warnings : List Warning := []

namespace Client

/-- How many objects keep the client alive. -/
def references (c : Client) : Nat := c.objects + c.handles.countP Handle.holds

/-- Changes the handle at a place. -/
def modify (c : Client) (place : Nat) (f : Handle → Handle) : Client :=
  { c with handles := c.handles.modify place f }

/-- The end of a step from `before` that leaves `after`: the client goes if nothing refers to it
any more. -/
def settle {α : Type} (result : α) (before after : Client) : Next α :=
  { result, client := after
    warnings :=
      if 0 < before.references ∧ after.references = 0 ∧ ¬ after.finalized ∧
          after.openHandles ≠ 0 then
        [.droppedWithOpenHandles after.openHandles]
      else [] }

/-- A short description for people who look into a program. -/
def debugText (c : Client) : String :=
  "Client \x7b open_handles: " ++ toString c.openHandles ++ " \x7d"

/-! ### Client objects -/

/-- Copies a client object. -/
def clone (c : Client) : Client := { c with objects := c.objects + 1 }

/-- Drops a client object. -/
def drop (c : Client) : Next Unit := settle () c { c with objects := c.objects - 1 }

/-- Finalizes the client and drops the object it is done with; the result is the number of open
handles. -/
def finalize (c : Client) : Next Nat :=
  let next := settle c.openHandles c { c with finalized := true, objects := c.objects - 1 }
  { next with
    warnings :=
      if c.openHandles = 0 then next.warnings
      else .finalizedWithOpenHandles c.openHandles :: next.warnings }

/-! ### Handle objects -/

/-- Opens a handle on a collector; the result is its place. Nobody is asked whether the collector
exists. -/
def openHandle (c : Client) (target : Address) (collector : CollectorId) : Nat × Client :=
  (c.handles.length,
    { c with
      openHandles := c.openHandles + 1
      handles := c.handles ++ [{ collector, target := some target }] })

/-- Copies a handle object. -/
def cloneHandle (c : Client) (place : Nat) : Client :=
  c.modify place fun h => { h with objects := h.objects + 1 }

/-- Drops a handle object without releasing anything. -/
def dropHandle (c : Client) (place : Nat) : Next Unit :=
  settle () c (c.modify place fun h => { h with objects := h.objects - 1 })

/-! ### References of a handle -/

/-- Takes one more reference. A released handle is not revived. -/
def retain (c : Client) (place : Nat) : Except Error Client :=
  match c.handles[place]? with
  | none => .ok c
  | some h =>
    if h.refcount = 0 then .error h.released
    else .ok (c.modify place fun h => { h with refcount := h.refcount + 1 })

/-- Gives one reference back; the result is whether it was the last. -/
def countDown (c : Client) (place : Nat) : Except Error (Bool × Client) :=
  match c.handles[place]? with
  | none => .ok (false, c)
  | some h =>
    if h.refcount = 0 then .error h.released
    else .ok (h.refcount = 1, c.modify place fun h => { h with refcount := h.refcount - 1 })

/-- Takes the address away from a handle, if it still has one, and counts it as released. -/
def free (c : Client) (place : Nat) : Next Unit :=
  match c.handles[place]? with
  | none => { result := (), client := c }
  | some h =>
    if h.target.isSome then
      settle () c
        { c.modify place (fun h => { h with target := none }) with
          openHandles := c.openHandles - 1 }
    else { result := (), client := c }

end Client

/-- What is still to be done for a call on a handle. -/
inductive HandleCall where
  /-- Take one more reference. -/
  | retain (place : Nat)
  /-- Give one reference back. -/
  | release (place : Nat)
  /-- Free the handle whose last reference was given back. -/
  | free (place : Nat)
  /-- Nothing. -/
  | finished (result : Except Error Unit)

namespace HandleCall

/-- Does the next thing. -/
def step (call : HandleCall) (c : Client) : Client.Next HandleCall :=
  match call with
  | .retain place =>
    match c.retain place with
    | .ok c => { result := .finished (.ok ()), client := c }
    | .error e => { result := .finished (.error e), client := c }
  | .release place =>
    match c.countDown place with
    | .ok (true, c) => { result := .free place, client := c }
    | .ok (false, c) => { result := .finished (.ok ()), client := c }
    | .error e => { result := .finished (.error e), client := c }
  | .free place =>
    let next := c.free place
    { next with result := .finished (.ok ()) }
  | .finished result => { result := .finished result, client := c }

end HandleCall

/-- Releases a handle once, with nobody else acting on it: in one step, or in two if the reference
was the last. -/
def Client.release (c : Client) (place : Nat) : Client.Next (Except Error Unit) :=
  let next := (HandleCall.release place).step c
  match next.result with
  | .finished result => { next with result }
  | call =>
    let last := call.step next.client
    { result := .ok (), client := last.client, warnings := next.warnings ++ last.warnings }

end Collectors
