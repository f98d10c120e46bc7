import Collectors.Error

/-!
# Tables of collectors

A `Table` holds the live collectors of a provider in the order in which they were entered, with
no id twice. It counts what was entered and removed, publishes its size to a gauge with every
change, and once it has been drained it stays closed and takes no more collectors.

`insert`, `take` and `drain` are the changes, each in one step. They touch only the table: ending
the instance of a removed collector is for whoever removed it (`Removal`).
-/

namespace Collectors

/-- A registered collector: its id, the name of the backend that made it, and what it made. -/
structure Collector (ι : Type) where
  id : CollectorId
  backend : String
  resource : ι

/-- The collectors of a provider. -/
structure Table (ι : Type) where
  /-- The live collectors, oldest first. -/
  entries : List (Collector ι) := []
  nodup_ids : (entries.map Collector.id).Nodup := by simp
  /-- Whether the table has been drained. -/
  closed : Bool := false
  /-- The gauge that shows the number of entries; `none` if the table publishes nowhere. -/
  gauge : Option Nat := none
  /-- How many collectors were entered. -/
  inserted : Nat := 0
  /-- How many collectors were removed. -/
  removed : Nat := 0
  /-- How many closes of removed instances failed. -/
  closeFailures : Nat := 0

/-- The counters of a table at one moment. -/
structure TableStats where
  live : Nat
  inserted : Nat
  removed : Nat
  closeFailures : Nat
  deriving DecidableEq

namespace Table

variable {ι : Type}

/-- A table that publishes to a gauge, which shows nothing from then on. -/
def withGauge (gauge : Option Nat) : Table ι := { gauge := gauge.map fun _ => 0 }

/-- The ids of the live collectors, oldest first. -/
def ids (t : Table ι) : List CollectorId := t.entries.map Collector.id

/-- The number of live collectors. -/
def size (t : Table ι) : Nat := t.entries.length

/-- Whether there is no live collector. -/
def isEmpty (t : Table ι) : Bool := t.entries.isEmpty

/-- The collector with an id. -/
def get? (t : Table ι) (id : CollectorId) : Option (Collector ι) :=
  t.entries.find? fun c => c.id = id

/-- Whether there is a collector with an id. -/
def contains (t : Table ι) (id : CollectorId) : Bool := (t.get? id).isSome

/-- The ids of the oldest collectors, at most `limit` of them. -/
def list (t : Table ι) (limit : Nat) : List CollectorId := t.ids.take limit

/-- The counters. -/
def stats (t : Table ι) : TableStats :=
  { live := t.size, inserted := t.inserted, removed := t.removed,
    closeFailures := t.closeFailures }

/-- What a gauge shows once a size is published to it. -/
def publish (gauge : Option Nat) (size : Nat) : Option Nat := gauge.map fun _ => size

theorem nodup_ids_append {t : Table ι} {c : Collector ι} (h : (t.get? c.id).isNone) :
    ((t.entries ++ [c]).map Collector.id).Nodup := by
  simp only [get?, Option.isNone_iff_eq_none, List.find?_eq_none, decide_eq_true_eq] at h
  simp only [List.map_append, List.map_cons, List.map_nil, List.nodup_append]
  refine ⟨t.nodup_ids, by simp, fun a ha b hb => ?_⟩
  obtain ⟨d, hd, rfl⟩ := List.mem_map.1 ha
  simp only [List.mem_singleton] at hb
  exact hb ▸ h d hd

/-- Enters a collector behind the others. A closed table refuses it, and so does a table in which
its id is taken. -/
def insert (t : Table ι) (c : Collector ι) : Except Error (Table ι) :=
  if t.closed then .error .tableClosed
  else if h : (t.get? c.id).isNone then
    .ok { t with
      entries := t.entries ++ [c]
      nodup_ids := nodup_ids_append h
      gauge := publish t.gauge (t.size + 1)
      inserted := t.inserted + 1 }
  else .error (.collectorExists c.id.text)

/-- The table without the collector that has an id. -/
def without (t : Table ι) (id : CollectorId) : Table ι :=
  let rest := t.entries.filter fun c => c.id ≠ id
  { t with
    entries := rest
    nodup_ids := t.nodup_ids.sublist (List.filter_sublist.map _)
    gauge := publish t.gauge rest.length
    removed := t.removed + 1 }

/-- Detaches the collector with an id without ending it. -/
def take (t : Table ι) (id : CollectorId) : Option (Collector ι × Table ι) :=
  (t.get? id).map fun c => (c, t.without id)

/-- Closes the table and detaches every collector. They are counted as removed in a step of its
own (`countRemoved`). -/
def drain (t : Table ι) : List (Collector ι) × Table ι :=
  (t.entries,
    { t with entries := [], nodup_ids := by simp, closed := true, gauge := publish t.gauge 0 })

/-- Counts removed collectors. -/
def countRemoved (t : Table ι) (n : Nat) : Table ι := { t with removed := t.removed + n }

/-- Counts a close that failed. -/
def countCloseFailure (t : Table ι) : Table ι := { t with closeFailures := t.closeFailures + 1 }

end Table
end Collectors
