import Collectors.Client

/-!
# Sharing of handles

Any number of threads act on a client and on its handles at the same time. A call on a handle is
cut into the steps that nothing can come in between, as `HandleCall.step` takes them; everything
else that is done to a client is one step.

`Sharing.step` lets something new come in or lets a call take its next step, and `Sharing.run`
takes the events of a schedule one after another. What the calls did to the handles is kept in a
record, in which every handle can look up how often it was referred to and released.
-/

namespace Collectors

/-- What a step of a call did to the handle at a place. -/
inductive Deed where
  /-- It took one more reference. -/
  | retained (place : Nat)
  /-- It gave a reference back. -/
  | released (place : Nat)
  /-- The reference that it gave back was the last. -/
  | emptied (place : Nat)
  /-- It took the address away and counted the handle as released. -/
  | freed (place : Nat)
  deriving DecidableEq

/-- A client and the calls of all threads on its handles. -/
structure Sharing where
  client : Client := {}
  calls : List HandleCall := []
  /-- What was done so far. -/
  deeds : List Deed := []

namespace HandleCall

/-- Whether a call is over. -/
def isDone : HandleCall → Bool
  | finished _ => true
  | _ => false

/-- What the next step of a call does. -/
def deeds (call : HandleCall) (c : Client) : List Deed :=
  match call with
  | .retain place =>
    match c.retain place with
    | .ok _ => [.retained place]
    | .error _ => []
  | .release place =>
    match c.countDown place with
    | .ok (last, _) => if last then [.released place, .emptied place] else [.released place]
    | .error _ => []
  | .free place => if (c.handles[place]?.bind Handle.target).isSome then [.freed place] else []
  | .finished _ => []

end HandleCall

namespace Sharing

/-- What may happen next. Handles are named by their places, and calls by theirs. -/
inductive Event where
  | openHandle (target : Address) (collector : CollectorId)
  | cloneHandle (place : Nat)
  | dropHandle (place : Nat)
  | clone
  | drop
  | finalize
  /-- A thread is about to take a reference. -/
  | retain (place : Nat)
  /-- A thread is about to give a reference back. -/
  | release (place : Nat)
  /-- A call takes its next step. -/
  | call (i : Nat)

/-- Lets a thread begin a call on the handle at a place. Nobody has hold of a handle that there is
not. -/
def begin (s : Sharing) (place : Nat) (call : HandleCall) : Sharing :=
  if place < s.client.handles.length then { s with calls := s.calls ++ [call] } else s

/-- Lets the call at `i` take its next step. -/
def stepCall (s : Sharing) (i : Nat) : Sharing :=
  match s.calls[i]? with
  | none => s
  | some call =>
    let next := call.step s.client
    { client := next.client, calls := s.calls.set i next.result,
      deeds := s.deeds ++ call.deeds s.client }

/-- What an event leads to. -/
def step (s : Sharing) : Event → Sharing
  | .openHandle target collector => { s with client := (s.client.openHandle target collector).2 }
  | .cloneHandle place => { s with client := s.client.cloneHandle place }
  | .dropHandle place => { s with client := (s.client.dropHandle place).client }
  | .clone => { s with client := s.client.clone }
  | .drop => { s with client := s.client.drop.client }
  | .finalize => { s with client := s.client.finalize.client }
  | .retain place => s.begin place (.retain place)
  | .release place => s.begin place (.release place)
  | .call i => s.stepCall i

/-- What a schedule leads to. -/
def run (s : Sharing) (schedule : List Event) : Sharing := schedule.foldl step s

/-- How often a reference to the handle at a place was taken. -/
def retained (s : Sharing) (place : Nat) : Nat := s.deeds.count (.retained place)

/-- How often a reference to the handle at a place was given back. -/
def released (s : Sharing) (place : Nat) : Nat := s.deeds.count (.released place)

/-- How often the last reference to the handle at a place was given back. -/
def emptied (s : Sharing) (place : Nat) : Nat := s.deeds.count (.emptied place)

/-- How often the handle at a place was freed. -/
def freed (s : Sharing) (place : Nat) : Nat := s.deeds.count (.freed place)

/-- Whether no handle has so many references that one more could not be counted. -/
def Bounded (s : Sharing) : Prop :=
  ∀ place, 1 + s.retained place < UInt64.size - 1 + s.released place

/-- Whether that is so in every state of a schedule. -/
def BoundedAlong (s : Sharing) : List Event → Prop
  | [] => s.Bounded
  | e :: es => s.Bounded ∧ (s.step e).BoundedAlong es

end Sharing
end Collectors
