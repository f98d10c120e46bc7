import Collectors.Table
import Collectors.Warning

/-!
# Removals

Removing collectors takes several steps, because an entry leaves its table before its instance is
closed. A `Removal` says what is still to be done; `Removal.step` does the next thing. Between
two steps other calls may act on the same table.

`Removal.run` takes the steps one after another. `Removal.rank` bounds their number.
-/

namespace Collectors

/-- What is still to be done to remove one collector, or all of them. -/
inductive Removal (ι : Type) where
  /-- Detach the collector with an id, and then close its instance if asked to. -/
  | detach (id : CollectorId) (close : Bool)
  /-- Close the instance of a detached collector. -/
  | close (c : Collector ι)
  /-- Count the failure to close it. -/
  | countFailure (e : Error)
  /-- Close the table and detach everything. -/
  | drain
  /-- Count what was detached. -/
  | countDrained (detached : List (Collector ι))
  /-- Close the instances of `rest`, of `total` detached collectors. -/
  | closeAll (rest : List (Collector ι)) (total : Nat)
  /-- Count the failure to close one of them. -/
  | countFailureOfAll (rest : List (Collector ι)) (total : Nat)
  /-- One collector has been removed, or there was a reason not to. -/
  | removed (result : Except Error Unit)
  /-- Everything has been removed. -/
  | tornDown (total : Nat)
  /-- The close of an instance broke down. -/
  | broken

/-- What a step leads to: what is left to do, and the table and the state of the backends then. -/
structure Removal.Next (ι ω : Type) where
  removal : Removal ι
  table : Table ι
  world : ω
  warnings : List Warning := []

namespace Removal

variable {ι ω : Type}

/-- Whether there is nothing left to do. -/
def isDone : Removal ι → Bool
  | removed _ | tornDown _ | broken => true
  | _ => false

/-- Does the next thing; `close` closes an instance. -/
def step (close : ι → ω → Option (Except Error Unit) × ω) (r : Removal ι) (t : Table ι) (w : ω) :
    Next ι ω :=
  match r with
  | .detach id runClose =>
    match t.take id with
    | none => { removal := .removed (.error (.collectorNotFound id.text)), table := t, world := w }
    | some (c, t) =>
      { removal := if runClose then .close c else .removed (.ok ()), table := t, world := w }
  | .close c =>
    match close c.resource w with
    | (none, w) => { removal := .broken, table := t, world := w }
    | (some (.ok ()), w) => { removal := .removed (.ok ()), table := t, world := w }
    | (some (.error e), w) => { removal := .countFailure e, table := t, world := w }
  | .countFailure e =>
    { removal := .removed (.error e), table := t.countCloseFailure, world := w }
  | .drain =>
    let (detached, t) := t.drain
    { removal := .countDrained detached, table := t, world := w }
  | .countDrained detached =>
    { removal := .closeAll detached detached.length, table := t.countRemoved detached.length,
      world := w }
  | .closeAll [] total => { removal := .tornDown total, table := t, world := w }
  | .closeAll (c :: rest) total =>
    match close c.resource w with
    | (none, w) => { removal := .broken, table := t, world := w }
    | (some (.ok ()), w) => { removal := .closeAll rest total, table := t, world := w }
    | (some (.error _), w) => { removal := .countFailureOfAll rest total, table := t, world := w }
  | .countFailureOfAll rest total =>
    { removal := .closeAll rest total, table := t.countCloseFailure, world := w,
      warnings := [.closeAtTeardown] }
  | r => { removal := r, table := t, world := w }

/-- An upper bound on the number of steps that are left while nobody else acts on the table. -/
def rank (r : Removal ι) (t : Table ι) : Nat :=
  match r with
  | .detach _ _ => 3
  | .close _ => 2
  | .countFailure _ => 1
  | .drain => 2 * t.size + 3
  | .countDrained detached => 2 * detached.length + 2
  | .closeAll rest _ => 2 * rest.length + 1
  | .countFailureOfAll rest _ => 2 * rest.length + 2
  | _ => 0

theorem rank_step_lt {close : ι → ω → Option (Except Error Unit) × ω} {r : Removal ι}
    {t : Table ι} {w : ω} (h : r.isDone = false) :
    (r.step close t w).removal.rank (r.step close t w).table < r.rank t := by
  cases r with
  | detach id runClose => simp only [step]; split <;> (try split) <;> simp [rank]
  | close c => simp only [step]; split <;> simp [rank]
  | countFailure e => simp [step, rank]
  | drain => simp [step, rank, Table.drain, Table.size]
  | countDrained detached => simp [step, rank]
  | closeAll rest total =>
    cases rest with
    | nil => simp [step, rank]
    | cons c rest =>
      simp only [step]
      split
      all_goals
        simp only [rank, List.length_cons]
        omega
  | countFailureOfAll rest total => simp [step, rank]
  | removed _ | tornDown _ | broken => simp [isDone] at h

/-- Takes all steps, with nobody else acting on the table. -/
def run (close : ι → ω → Option (Except Error Unit) × ω) (r : Removal ι) (t : Table ι) (w : ω) :
    Next ι ω :=
  if _h : r.isDone then { removal := r, table := t, world := w }
  else
    let next := r.step close t w
    let last := run close next.removal next.table next.world
    { last with warnings := next.warnings ++ last.warnings }
termination_by r.rank t
decreasing_by exact rank_step_lt (by simpa using _h)

end Removal
end Collectors
