import Mathlib.Algebra.GroupWithZero.Nat
import Collectors.Table.History

/-!
# Calls that overlap on a table

Many may call a table at once. Every change of a table is one step; a removal takes several
(`Removal.step`), any other call takes one. A `Table.Activity` is a table with all calls that were
ever made on it, and `Activity.step` makes one more call or lets one take its next step.

Beside the table it is written down who came in, who went out at which call, and which instances a
call closed. What the table counts has no part in that: those who come and go are found by looking
at the entries around every step.
-/

namespace Collectors

variable {ι ω : Type}

/-- Those of some collectors whose ids are not among those of others. -/
def Collector.beyond (l m : List (Collector ι)) : List (Collector ι) :=
  l.filter fun c => c.id ∉ m.map Collector.id

namespace Table

/-- An instance that was closed, and what that gave; `none` if it broke down. -/
abbrev Close (ι : Type) := ι × Option (Except Error Unit)

/-- Whether a close failed. -/
def Close.failed : Close ι → Bool
  | (_, some (.error _)) => true
  | _ => false

/-- Closes an instance and writes it down. -/
def noted (close : ι → ω → Option (Except Error Unit) × ω) (i : ι) (w : List (Close ι) × ω) :
    Option (Except Error Unit) × List (Close ι) × ω :=
  let (result, world) := close i w.2
  (result, w.1 ++ [(i, result)], world)

/-- How far a call has come. -/
inductive Stage (ι : Type) where
  /-- The call is a single step, which is still to be taken. -/
  | ready
  /-- The call is a removal, of which this is left. -/
  | removing (r : Removal ι)
  | replied (reply : Reply ι)

namespace Op

/-- Where a call starts. -/
def stage : Op ι → Stage ι
  | .remove id runClose => .removing (.detach id runClose)
  | .removeAll => .removing .drain
  | _ => .ready

/-- What a call replies when its removal is done. -/
def replyOf : Op ι → Removal ι → Reply ι
  | .removeAll, r => tornDownOf r
  | _, r => removedOf r

/-- Where a call is when its removal has come this far. -/
def stageOf (op : Op ι) (r : Removal ι) : Stage ι :=
  if r.isDone then .replied (op.replyOf r) else .removing r

end Op

/-- A call, with what it has done. -/
structure Job (ι : Type) where
  op : Op ι
  stage : Stage ι
  /-- The collectors that went out at its steps. -/
  departed : List (Collector ι) := []
  /-- The closes of its steps, oldest first. -/
  closes : List (Close ι) := []

namespace Job

/-- A call that was just made. -/
def of (op : Op ι) : Job ι := { op, stage := op.stage }

/-- What the call replied; `none` while it is in progress. -/
def reply? (j : Job ι) : Option (Reply ι) :=
  match j.stage with
  | .replied reply => some reply
  | _ => none

/-- Whether the call is an insert that was accepted. -/
def accepted (j : Job ι) : Bool := (j.reply?.bind fun reply => entered? (j.op, reply)).isSome

/-- How many closes of the call failed. -/
def failures (j : Job ι) : Nat := j.closes.countP Close.failed

/-- What the next step of a call leads to: where it is then, the table, all closes of the call, and
the state of the backends. -/
def next (close : ι → ω → Option (Except Error Unit) × ω) (j : Job ι) (t : Table ι) (w : ω) :
    Stage ι × Table ι × List (Close ι) × ω :=
  match j.stage with
  | .ready =>
    let (reply, t, w) := t.apply (noted close) (j.closes, w) j.op
    (.replied reply, t, w)
  | .removing r =>
    let next := r.step (noted close) t (j.closes, w)
    (j.op.stageOf next.removal, next.table, next.world)
  | .replied reply => (.replied reply, t, j.closes, w)

/-- Takes the next step of a call. -/
def step (close : ι → ω → Option (Except Error Unit) × ω) (j : Job ι) (t : Table ι) (w : ω) :
    Job ι × Table ι × ω :=
  let (stage, t', closes, w) := j.next close t w
  let departed := j.departed ++ Collector.beyond t.entries t'.entries
  ({ j with stage, departed, closes }, t', w)

end Job

/-- A table and all calls on it. -/
structure Activity (ι ω : Type) where
  table : Table ι
  world : ω
  jobs : List (Job ι) := []
  /-- The collectors that ever came in, oldest first. -/
  entered : List (Collector ι) := []

namespace Activity

/-- What may happen next. The calls are told apart by their places. -/
inductive Event (ι : Type) where
  | call (op : Op ι)
  /-- A call takes its next step. -/
  | step (i : Nat)

/-- A new table, on which nobody has called. -/
def start (gauge : Option Nat) (w : ω) : Activity ι ω := { table := withGauge gauge, world := w }

/-- What an event leads to. -/
def step (close : ι → ω → Option (Except Error Unit) × ω) (a : Activity ι ω) :
    Event ι → Activity ι ω
  | .call op => { a with jobs := a.jobs ++ [.of op] }
  | .step i =>
    match a.jobs[i]? with
    | none => a
    | some j =>
      let (j, table, world) := j.step close a.table a.world
      { table, world, jobs := a.jobs.set i j
        entered := a.entered ++ Collector.beyond table.entries a.table.entries }

/-- What a schedule leads to. -/
def run (close : ι → ω → Option (Except Error Unit) × ω) (a : Activity ι ω)
    (schedule : List (Event ι)) : Activity ι ω :=
  schedule.foldl (step close) a

/-- How many collectors went out at the steps of all calls. -/
def departures (a : Activity ι ω) : Nat := (a.jobs.map fun j => j.departed.length).sum

/-- How many closes failed at the steps of all calls. -/
def failures (a : Activity ι ω) : Nat := (a.jobs.map Job.failures).sum

/-- Whether no call is in progress. -/
def Quiet (a : Activity ι ω) : Prop := ∀ j ∈ a.jobs, j.reply?.isSome = true

end Activity
end Table
end Collectors
