import Collectors.Error

/-!
# Worker pools

A pool has a fixed number of workers. A task that is spawned waits until it gets a worker, first
come, first served; it holds the worker until it ends. A task may be let finish while it still
waits, and then ends as soon as it gets a worker.

The pool keeps for every task that ended how it ended. Whoever spawned a task may ask for that
(`WorkerPool.endOf`) or not: the pool does not change with it.
-/

namespace Collectors

/-- How a task ends: with a result, or by breaking down. -/
inductive TaskEnd (α : Type) where
  | returned (result : Except Error α)
  | crashed

/-- The most workers a pool can have. -/
def maxWorkers : Nat := 0x1FFFFFFFFFFFFFFF

/-- A pool whose tasks are named by `τ` and give results of type `α`. -/
structure WorkerPool (τ α : Type) where
  size : Nat
  /-- The number of idle workers. -/
  available : Nat
  /-- The tasks that hold a worker, in the order in which they got it. -/
  running : List τ := []
  /-- The tasks without a worker, in the order in which they were spawned. -/
  waiting : List τ := []
  /-- The tasks that got a worker so far, in the order in which they did. -/
  served : List τ := []
  /-- How tasks will end that were let finish without a worker. -/
  ready : List (τ × TaskEnd α) := []
  /-- How tasks ended, in the order in which they did. -/
  ended : List (τ × TaskEnd α) := []

namespace WorkerPool

variable {τ α : Type} [DecidableEq τ]

/-- The number of workers for a configured one: zero stands for the default. -/
def sizeFor (configured : UInt64) : Nat :=
  if configured = 0 then 16 else configured.toNat

/-- A pool with a configured number of workers; `none` if there cannot be so many. -/
def new (configured : UInt64) : Option (WorkerPool τ α) :=
  let size := sizeFor configured
  if size ≤ maxWorkers then some { size, available := size } else none

/-- Takes a worker back while some tasks wait: the first of them gets it. One that was let finish
ends at once and gives the worker back in turn. -/
def handOn (p : WorkerPool τ α) : List τ → WorkerPool τ α
  | [] => { p with available := p.available + 1, waiting := [] }
  | t :: rest =>
    match p.ready.lookup t with
    | some e => handOn { p with served := p.served ++ [t], ended := p.ended ++ [(t, e)] } rest
    | none =>
      { p with running := p.running ++ [t], served := p.served ++ [t], waiting := rest }

/-- Spawns a task. -/
def spawn (p : WorkerPool τ α) (t : τ) : WorkerPool τ α :=
  if 0 < p.available then
    { p with
      available := p.available - 1, running := p.running ++ [t], served := p.served ++ [t] }
  else { p with waiting := p.waiting ++ [t] }

/-- Lets a task finish. -/
def finish (p : WorkerPool τ α) (t : τ) (e : TaskEnd α) : WorkerPool τ α :=
  if t ∈ p.running then
    { p with running := p.running.erase t, ended := p.ended ++ [(t, e)] }.handOn p.waiting
  else if t ∈ p.waiting then { p with ready := p.ready ++ [(t, e)] }
  else p

/-- How a task ended, once it did. -/
def endOf (p : WorkerPool τ α) (t : τ) : Option (TaskEnd α) := p.ended.lookup t

end WorkerPool

/-- What the caller of a task is told: that it broke down is an internal error. -/
def TaskEnd.result {α : Type} : TaskEnd α → Except Error α
  | returned r => r
  | crashed => .error (.internal "worker task failed: the task broke down")

end Collectors
