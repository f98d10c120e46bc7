import Collectors.Table.Removal

/-!
# The history of a table

A `Table.History` is a table together with everything that was ever asked of it: its *log* has
every call with its reply, oldest first. `History.perform` makes one more call.

What a table has to hold can be read off its log alone. `Log.live` are the collectors that were
entered and that no later call removed or replaced, and `Log.Fits` says what a call must reply
after what went before.
-/

namespace Collectors
namespace Table

/-- A call on a table. -/
inductive Op (ι : Type) where
  | insert (c : Collector ι)
  | take (id : CollectorId)
  /-- Detach a collector, and close its instance if asked to. -/
  | remove (id : CollectorId) (close : Bool)
  | removeAll
  | get (id : CollectorId)
  | contains (id : CollectorId)
  | size
  | isEmpty
  | list (limit : Nat)

/-- What a call on a table gives. -/
inductive Reply (ι : Type) where
  | inserted (result : Except Error Unit)
  | collector (c : Option (Collector ι))
  /-- The result of a removal; `none` if the close of the instance broke down. -/
  | removed (result : Option (Except Error Unit))
  /-- The number of removed collectors; `none` if the close of an instance broke down. -/
  | tornDown (total : Option Nat)
  | truth (value : Bool)
  | count (n : Nat)
  | ids (ids : List CollectorId)

/-- Calls with their replies, oldest first. -/
abbrev Log (ι : Type) := List (Op ι × Reply ι)

variable {ι ω : Type}

/-- What a finished removal of one collector came to. -/
def removedOf : Removal ι → Reply ι
  | .removed result => .removed (some result)
  | _ => .removed none

/-- What a finished removal of all collectors came to. -/
def tornDownOf : Removal ι → Reply ι
  | .tornDown total => .tornDown (some total)
  | _ => .tornDown none

/-- Makes a call; `close` closes an instance. -/
def apply (close : ι → ω → Option (Except Error Unit) × ω) (t : Table ι) (w : ω) :
    Op ι → Reply ι × Table ι × ω
  | .insert c =>
    match t.insert c with
    | .ok t => (.inserted (.ok ()), t, w)
    | .error e => (.inserted (.error e), t, w)
  | .take id =>
    match t.take id with
    | some (c, t) => (.collector (some c), t, w)
    | none => (.collector none, t, w)
  | .remove id runClose =>
    let last := (Removal.detach id runClose).run close t w
    (removedOf last.removal, last.table, last.world)
  | .removeAll =>
    let last := Removal.drain.run close t w
    (tornDownOf last.removal, last.table, last.world)
  | .get id => (.collector (t.get? id), t, w)
  | .contains id => (.truth (t.contains id), t, w)
  | .size => (.count t.size, t, w)
  | .isEmpty => (.truth t.isEmpty, t, w)
  | .list limit => (.ids (t.list limit), t, w)

/-- A table and all that was asked of it. -/
structure History (ι ω : Type) where
  table : Table ι
  world : ω
  log : Log ι := []

namespace History

/-- Makes one more call. -/
def perform (close : ι → ω → Option (Except Error Unit) × ω) (h : History ι ω) (op : Op ι) :
    History ι ω :=
  let (reply, table, world) := h.table.apply close h.world op
  { table, world, log := h.log ++ [(op, reply)] }

/-- Makes calls on a new table. -/
def of (close : ι → ω → Option (Except Error Unit) × ω) (gauge : Option Nat) (w : ω)
    (ops : List (Op ι)) : History ι ω :=
  ops.foldl (perform close) { table := Table.withGauge gauge, world := w }

end History

/-! ### What a log says -/

/-- The collector that a call entered. -/
def entered? : Op ι × Reply ι → Option (Collector ι)
  | (.insert c, .inserted (.ok ())) => some c
  | _ => none

/-- Whether a call is a removal of the collector with an id. -/
def Op.removes (id : CollectorId) : Op ι → Bool
  | .take i => i = id
  | .remove i _ => i = id
  | .removeAll => true
  | _ => false

/-- Whether a call tears the table down. -/
def Op.drains : Op ι → Bool
  | .removeAll => true
  | _ => false

namespace Log

/-- Whether one of some calls removes the collector with an id, or enters another one. -/
def overtakes (id : CollectorId) (later : Log ι) : Bool :=
  later.any fun e => e.1.removes id || (entered? e).any fun c => c.id = id

/-- The collectors whose latest accepted insert no removal has followed, in the order of these
inserts. -/
def live : Log ι → List (Collector ι)
  | [] => []
  | e :: later =>
    match entered? e with
    | some c => if overtakes c.id later then live later else c :: live later
    | none => live later

/-- The ids of the live collectors. -/
def liveIds (log : Log ι) : List CollectorId := log.live.map Collector.id

/-- The collector of the latest accepted insert of an id. -/
def latest (log : Log ι) (id : CollectorId) : Option (Collector ι) :=
  (log.filterMap entered?).reverse.find? fun c => c.id = id

/-- Whether the table was torn down. -/
def drained (log : Log ι) : Bool := log.any fun e => e.1.drains

/-- What an insert has to come to. -/
def verdict (past : Log ι) (c : Collector ι) : Except Error Unit :=
  if past.drained then .error .tableClosed
  else if c.id ∈ past.liveIds then .error (.collectorExists c.id.text)
  else .ok ()

/-- The collector that has to be there under an id. -/
def current (past : Log ι) (id : CollectorId) : Option (Collector ι) :=
  if id ∈ past.liveIds then past.latest id else none

/-- What a call must reply after some calls. A removal that closes replies what the close gave,
which the log does not know. -/
def Fits (past : Log ι) : Op ι → Reply ι → Prop
  | .insert c, reply => reply = .inserted (past.verdict c)
  | .take id, reply => reply = .collector (past.current id)
  | .remove id runClose, reply => ∃ result, reply = .removed result ∧
      (id ∉ past.liveIds → result = some (.error (.collectorNotFound id.text))) ∧
      (id ∈ past.liveIds → runClose = false → result = some (.ok ()))
  | .removeAll, reply => ∃ total, reply = .tornDown total ∧
      ∀ n ∈ total, n = past.liveIds.length
  | .get id, reply => reply = .collector (past.current id)
  | .contains id, reply => reply = .truth (decide (id ∈ past.liveIds))
  | .size, reply => reply = .count past.liveIds.length
  | .isEmpty, reply => reply = .truth past.liveIds.isEmpty
  | .list limit, reply => reply = .ids (past.liveIds.take limit)

end Log
end Table
end Collectors
