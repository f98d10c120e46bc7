import Collectors.Proofs.Lists
import Collectors.Table.Activity

/-!
# What the operations of a table do

A table is looked at through its entries. `Table.get?_eq_some_iff` says what a lookup finds;
`Table.insert_cases` and `Table.take_cases` say everything that entering and detaching a collector
can come to, so that later proofs need not look into either. `Collector.beyond` finds who came and
who went.
-/

namespace Collectors

variable {ι : Type}

namespace Table

/-! ### Lookups -/

theorem mem_ids {t : Table ι} {id : CollectorId} :
    id ∈ t.ids ↔ ∃ c ∈ t.entries, c.id = id := by
  simp [ids]

theorem get?_eq_none_iff {t : Table ι} {id : CollectorId} : t.get? id = none ↔ id ∉ t.ids := by
  rw [get?, List.find?_eq_none, mem_ids]
  simp

/-- No two entries of a table have one id. -/
theorem entry_unique {t : Table ι} {c d : Collector ι} (hc : c ∈ t.entries) (hd : d ∈ t.entries)
    (h : c.id = d.id) : c = d :=
  List.inj_on_of_nodup_map t.nodup_ids hc hd h

theorem get?_eq_some_iff {t : Table ι} {id : CollectorId} {c : Collector ι} :
    t.get? id = some c ↔ c ∈ t.entries ∧ c.id = id := by
  constructor
  · intro h
    exact ⟨List.mem_of_find?_eq_some h, by simpa using List.find?_some h⟩
  · rintro ⟨hc, rfl⟩
    cases h : t.get? c.id with
    | none => exact absurd (mem_ids.2 ⟨c, hc, rfl⟩) (get?_eq_none_iff.1 h)
    | some d =>
      have hd : d ∈ t.entries := List.mem_of_find?_eq_some h
      have hid : d.id = c.id := by simpa using List.find?_some h
      rw [entry_unique hd hc hid]

theorem contains_eq {t : Table ι} {id : CollectorId} : t.contains id = decide (id ∈ t.ids) := by
  by_cases h : id ∈ t.ids
  · obtain ⟨c, hc, rfl⟩ := mem_ids.1 h
    rw [contains, get?_eq_some_iff.2 ⟨hc, rfl⟩]
    simp [h]
  · rw [contains, get?_eq_none_iff.2 h]
    simp [h]

/-! ### Changes -/

/-- Entering a collector: a closed table refuses it, else a table that has its id does, and else
it comes behind the others. -/
theorem insert_cases (t : Table ι) (c : Collector ι) :
    (t.closed = true ∧ t.insert c = .error .tableClosed) ∨
    (t.closed = false ∧ c.id ∈ t.ids ∧ t.insert c = .error (.collectorExists c.id.text)) ∨
    (t.closed = false ∧ c.id ∉ t.ids ∧ ∃ t', t.insert c = .ok t' ∧
      t'.entries = t.entries ++ [c] ∧ t'.closed = false ∧
      t'.gauge = publish t.gauge (t.size + 1) ∧ t'.inserted = t.inserted + 1 ∧
      t'.removed = t.removed ∧ t'.closeFailures = t.closeFailures) := by
  cases hclosed : t.closed with
  | true => exact .inl ⟨rfl, by simp [insert, hclosed]⟩
  | false =>
    refine .inr ?_
    by_cases hid : c.id ∈ t.ids
    · have hsome : t.get? c.id ≠ none := fun h => get?_eq_none_iff.1 h hid
      exact .inl ⟨rfl, hid, by simp [insert, hclosed, hsome]⟩
    · have hnone : t.get? c.id = none := get?_eq_none_iff.2 hid
      refine .inr ⟨rfl, hid, ?_⟩
      simp only [insert, hclosed, hnone, Bool.false_eq_true, if_false, Option.isNone_none,
        dite_true]
      exact ⟨_, rfl, rfl, rfl, rfl, rfl, rfl, rfl⟩

/-- A collector that is there leaves. -/
theorem take_of_get? {t : Table ι} {id : CollectorId} {c : Collector ι} (h : t.get? id = some c) :
    t.take id = some (c, t.without id) := by
  rw [take, h]
  rfl

/-- Detaching a collector: it is there and leaves, or it is not there. -/
theorem take_cases (t : Table ι) (id : CollectorId) :
    (id ∉ t.ids ∧ t.take id = none) ∨
    ∃ c ∈ t.entries, c.id = id ∧ t.take id = some (c, t.without id) := by
  cases h : t.get? id with
  | none => exact .inl ⟨get?_eq_none_iff.1 h, by simp [take, h]⟩
  | some c =>
    obtain ⟨hc, hid⟩ := get?_eq_some_iff.1 h
    exact .inr ⟨c, hc, hid, take_of_get? h⟩

@[simp] theorem entries_without (t : Table ι) (id : CollectorId) :
    (t.without id).entries = t.entries.filter fun c => c.id ≠ id := rfl

@[simp] theorem closed_without (t : Table ι) (id : CollectorId) :
    (t.without id).closed = t.closed := rfl

@[simp] theorem entries_drain (t : Table ι) : t.drain.2.entries = [] := rfl

@[simp] theorem closed_drain (t : Table ι) : t.drain.2.closed = true := rfl

@[simp] theorem detached_drain (t : Table ι) : t.drain.1 = t.entries := rfl

@[simp] theorem entries_countRemoved (t : Table ι) (n : Nat) :
    (t.countRemoved n).entries = t.entries := rfl

@[simp] theorem closed_countRemoved (t : Table ι) (n : Nat) :
    (t.countRemoved n).closed = t.closed := rfl

@[simp] theorem entries_countCloseFailure (t : Table ι) :
    t.countCloseFailure.entries = t.entries := rfl

@[simp] theorem closed_countCloseFailure (t : Table ι) :
    t.countCloseFailure.closed = t.closed := rfl

/-- A detached collector and the others make up the table that it was in. -/
theorem perm_without {t : Table ι} {c : Collector ι} (hc : c ∈ t.entries) :
    t.entries.Perm (c :: (t.without c.id).entries) :=
  perm_cons_filter_key Collector.id t.nodup_ids hc

end Table

/-! ### Who came and who went -/

namespace Collector

theorem beyond_self (l : List (Collector ι)) : beyond l l = [] :=
  List.filter_eq_nil_iff.2 fun c hc => by simpa using ⟨c, hc, rfl⟩

theorem beyond_nil_right (l : List (Collector ι)) : beyond l [] = l := by
  simp [beyond]

theorem beyond_nil_left (l : List (Collector ι)) : beyond [] l = [] := rfl

theorem beyond_eq_nil_of_subset {l m : List (Collector ι)} (h : l ⊆ m) : beyond l m = [] :=
  List.filter_eq_nil_iff.2 fun c hc => by simpa using ⟨c, h hc, rfl⟩

theorem beyond_append {l : List (Collector ι)} {c : Collector ι}
    (hc : c.id ∉ l.map Collector.id) : beyond (l ++ [c]) l = [c] := by
  have hold : l.filter (fun d => d.id ∉ l.map Collector.id) = [] := beyond_self l
  have hnew : [c].filter (fun d => d.id ∉ l.map Collector.id) = [c] := by
    rw [List.filter_singleton, decide_eq_true hc]
    rfl
  rw [beyond, List.filter_append, hold, hnew, List.nil_append]

theorem beyond_filter (l : List (Collector ι)) (id : CollectorId) :
    beyond l (l.filter fun c => c.id ≠ id) = l.filter fun c => c.id = id := by
  refine List.filter_congr fun c hc => decide_eq_decide.2 ⟨fun hnot => ?_, fun hid hmem => ?_⟩
  · by_contra hne
    exact hnot (List.mem_map.2 ⟨c, List.mem_filter.2 ⟨hc, by simpa using hne⟩, rfl⟩)
  · obtain ⟨d, hd, hdc⟩ := List.mem_map.1 hmem
    rw [List.mem_filter, hdc, hid] at hd
    simp at hd

/-- Of those that stay behind without `c`, only `c` is missing. -/
theorem beyond_without {t : Table ι} {c : Collector ι} (hc : c ∈ t.entries) :
    beyond t.entries (t.entries.filter fun d => d.id ≠ c.id) = [c] := by
  rw [beyond_filter]
  exact filter_key_eq Collector.id t.nodup_ids hc

end Collector
end Collectors
