import Collectors.WorkerPool

/-!
# Workloads

What happens around a pool while tasks are spawned on it and let finish. Whoever spawns a task
gets a handle, which may be dropped or awaited; the pool may be cloned, and a clone has a size of
its own and everything else in common with the pool. Tasks are numbered in the order in which they
are spawned.

`Workload.step` is what an event leads to once all tasks have run as far as they can, and
`Workload.run` takes the events of a schedule one after another.
-/

namespace Collectors

/-- What has become of the handle of a task. -/
inductive JoinHandle (α : Type) where
  | held
  | dropped
  /-- Somebody waits for the task to end. -/
  | awaited
  /-- Somebody waited, and was told how the task ended. -/
  | joined (e : TaskEnd α)

namespace JoinHandle

variable {α : Type}

/-- Tells whoever waits how the task ended, once it did. -/
def poll (h : JoinHandle α) (ended : Option (TaskEnd α)) : JoinHandle α :=
  match h, ended with
  | awaited, some e => joined e
  | h, _ => h

/-- Drops the handle, unless its task was already joined. -/
def drop : JoinHandle α → JoinHandle α
  | joined e => joined e
  | _ => dropped

/-- Waits for the task, unless the handle is gone. -/
def await : JoinHandle α → JoinHandle α
  | held => awaited
  | h => h

end JoinHandle

/-- A pool, its clones, and the tasks that were spawned on them. -/
structure Workload (α : Type) where
  pool : WorkerPool Nat α
  /-- The sizes of the pool and of its clones. -/
  views : List Nat
  /-- The handles of all tasks. -/
  handles : List (JoinHandle α) := []
  /-- Which tasks were let finish and how, in the order in which they were. -/
  told : List (Nat × TaskEnd α) := []

namespace Workload

variable {α : Type}

/-- What may happen next. The pool and its clones are told apart by their places. -/
inductive Event (α : Type) where
  /-- A task is spawned. -/
  | spawn (view : Nat)
  /-- A task is spawned, and somebody waits for it. -/
  | run (view : Nat)
  /-- A task is let finish. -/
  | finish (t : Nat) (e : TaskEnd α)
  /-- The handle of a task is dropped. -/
  | drop (t : Nat)
  /-- Somebody waits for a task. -/
  | await (t : Nat)
  /-- The pool or a clone of it is cloned. -/
  | clone (view : Nat)

/-- A pool on which nothing was spawned yet. -/
def new (pool : WorkerPool Nat α) : Workload α where
  pool := pool
  views := [pool.size]

/-- The number of idle workers that a clone of the pool sees. -/
def available? (s : Workload α) (view : Nat) : Option Nat :=
  s.views[view]?.map fun _ => s.pool.available

/-- How a task was let finish, if it was. -/
def told? (s : Workload α) (t : Nat) : Option (TaskEnd α) := s.told.lookup t

/-- Spawns the next task. -/
def spawn (s : Workload α) (view : Nat) (h : JoinHandle α) : Workload α :=
  if view < s.views.length then
    { s with pool := s.pool.spawn s.handles.length, handles := s.handles ++ [h] }
  else s

/-- What an event does before anybody who waits is told of it. -/
def act (s : Workload α) : Event α → Workload α
  | .spawn view => s.spawn view .held
  | .run view => s.spawn view .awaited
  | .finish t e =>
    if t < s.handles.length then
      { s with pool := s.pool.finish t e, told := s.told ++ [(t, e)] }
    else s
  | .drop t => { s with handles := s.handles.modify t .drop }
  | .await t => { s with handles := s.handles.modify t .await }
  | .clone view => { s with views := s.views ++ s.views[view]?.toList }

/-- Tells everybody who waits for a task that has ended. -/
def deliver (s : Workload α) : Workload α :=
  { s with handles := s.handles.mapIdx fun t h => h.poll (s.pool.endOf t) }

/-- What an event leads to. -/
def step (s : Workload α) (e : Event α) : Workload α := (s.act e).deliver

/-- What a schedule leads to. -/
def run (s : Workload α) (schedule : List (Event α)) : Workload α := schedule.foldl step s

end Workload
end Collectors
