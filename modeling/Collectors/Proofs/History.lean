import Collectors.Proofs.Table
import Collectors.Table.History

/-!
# Tables and their histories

A table keeps an ordered list of collectors and a flag; its log remembers every call. This file
shows that the two agree after any calls (`History.of_refines`): the entries are the collectors that
the log says are live, in the same order, and the flag is set if the table was torn down. Every
reply and every later answer can therefore be read off the log.
-/

namespace Collectors

variable {ι ω : Type} (close : ι → ω → Option (Except Error Unit) × ω)

/-! ### Removals that nobody disturbs -/

namespace Removal

theorem run_of_isDone {r : Removal ι} (h : r.isDone = true) (t : Table ι) (w : ω) :
    r.run close t w = { removal := r, table := t, world := w } := by
  rw [run, dif_pos h]

theorem run_of_not_isDone {r : Removal ι} (h : r.isDone = false) (t : Table ι) (w : ω) :
    let next := r.step close t w
    (r.run close t w).removal = (next.removal.run close next.table next.world).removal ∧
      (r.run close t w).table = (next.removal.run close next.table next.world).table ∧
      (r.run close t w).world = (next.removal.run close next.table next.world).world := by
  rw [run, dif_neg (by simp [h])]
  exact ⟨rfl, rfl, rfl⟩

/-- Closing a detached collector gives what its instance gives, and leaves the table alone. -/
theorem run_close (c : Collector ι) (t : Table ι) (w : ω) :
    let last := (Removal.close c).run close t w
    Table.removedOf last.removal = .removed (close c.resource w).1 ∧
      last.table.entries = t.entries ∧ last.table.closed = t.closed := by
  obtain ⟨hr, ht, -⟩ := run_of_not_isDone close (r := .close c) rfl t w
  dsimp only
  rw [hr, ht, step]
  rcases close c.resource w with ⟨_ | (e | _), w'⟩
  · rw [run_of_isDone close rfl]
    exact ⟨rfl, rfl, rfl⟩
  · obtain ⟨hr, ht, -⟩ := run_of_not_isDone close (r := .countFailure e) rfl t w'
    dsimp only
    rw [hr, ht, step, run_of_isDone close rfl]
    exact ⟨rfl, rfl, rfl⟩
  · rw [run_of_isDone close rfl]
    exact ⟨rfl, rfl, rfl⟩

/-- Closing detached collectors leaves the table alone. -/
theorem run_closeAll (rest : List (Collector ι)) (total : Nat) (t : Table ι) (w : ω) :
    let last := (closeAll rest total).run close t w
    (last.removal = .tornDown total ∨ last.removal = .broken) ∧
      last.table.entries = t.entries ∧ last.table.closed = t.closed := by
  induction rest generalizing t w with
  | nil =>
    obtain ⟨hr, ht, -⟩ := run_of_not_isDone close (r := .closeAll [] total) rfl t w
    dsimp only
    rw [hr, ht, step, run_of_isDone close rfl]
    exact ⟨.inl rfl, rfl, rfl⟩
  | cons c rest ih =>
    obtain ⟨hr, ht, -⟩ :=
      run_of_not_isDone close (r := .closeAll (c :: rest) total) rfl t w
    dsimp only
    rw [hr, ht, step]
    rcases close c.resource w with ⟨_ | (e | _), w'⟩
    · rw [run_of_isDone close rfl]
      exact ⟨.inr rfl, rfl, rfl⟩
    · obtain ⟨hr, ht, -⟩ :=
        run_of_not_isDone close (r := .countFailureOfAll rest total) rfl t w'
      dsimp only
      rw [hr, ht, step]
      exact ih t.countCloseFailure w'
    · exact ih t w'

end Removal

namespace Table

/-- Removing a collector that is not there only says so. -/
theorem run_detach_absent {t : Table ι} {id : CollectorId} (h : id ∉ t.ids) (runClose : Bool)
    (w : ω) :
    let last := (Removal.detach id runClose).run close t w
    removedOf last.removal = .removed (some (.error (.collectorNotFound id.text))) ∧
      last.table = t := by
  have htake : t.take id = none := by
    rw [take, get?_eq_none_iff.2 h, Option.map_none]
  obtain ⟨hr, ht, -⟩ :=
    Removal.run_of_not_isDone close (r := .detach id runClose) rfl t w
  dsimp only
  rw [hr, ht, Removal.step, htake, Removal.run_of_isDone close rfl]
  exact ⟨rfl, rfl⟩

/-- Removing a collector that is there detaches it, whatever its close gives. -/
theorem run_detach_present {t : Table ι} {id : CollectorId} (h : id ∈ t.ids) (runClose : Bool)
    (w : ω) :
    let last := (Removal.detach id runClose).run close t w
    (∃ result, removedOf last.removal = .removed result ∧
      (runClose = false → result = some (.ok ()))) ∧
      last.table.entries = (t.without id).entries ∧ last.table.closed = t.closed := by
  obtain ⟨hr, ht, -⟩ :=
    Removal.run_of_not_isDone close (r := .detach id runClose) rfl t w
  rcases t.take_cases id with ⟨hid, -⟩ | ⟨c, -, -, htake⟩
  · exact absurd h hid
  · dsimp only
    rw [hr, ht, Removal.step, htake]
    cases runClose with
    | false =>
      dsimp only
      rw [if_neg Bool.false_ne_true, Removal.run_of_isDone close rfl]
      exact ⟨⟨_, rfl, fun _ => rfl⟩, rfl, rfl⟩
    | true =>
      dsimp only
      rw [if_pos rfl]
      obtain ⟨hreply, hentries, hclosed⟩ := Removal.run_close close c (t.without id) w
      exact ⟨⟨_, hreply, Bool.noConfusion⟩, hentries, hclosed⟩

/-- Removing all collectors empties the table and closes it. -/
theorem run_drain (t : Table ι) (w : ω) :
    let last := Removal.drain.run close t w
    (∃ total, tornDownOf last.removal = .tornDown total ∧ ∀ n ∈ total, n = t.entries.length) ∧
      last.table.entries = [] ∧ last.table.closed = true := by
  obtain ⟨hr, ht, -⟩ := Removal.run_of_not_isDone close (r := .drain) rfl t w
  obtain ⟨hr', ht', -⟩ :=
    Removal.run_of_not_isDone close (r := .countDrained t.entries) rfl t.drain.2 w
  obtain ⟨hlast, hentries, hclosed⟩ := Removal.run_closeAll close t.entries
    t.entries.length (t.drain.2.countRemoved t.entries.length) w
  simp only [Removal.step, detached_drain] at hr ht hr' ht'
  dsimp only
  rw [hr, ht, hr', ht']
  refine ⟨?_, hentries, hclosed⟩
  rcases hlast with hlast | hlast <;> rw [hlast]
  · exact ⟨_, rfl, by simp⟩
  · exact ⟨_, rfl, by simp⟩

/-! ### What one more call does to a log -/

theorem entered?_eq_some {e : Op ι × Reply ι} {c : Collector ι} :
    entered? e = some c ↔ e = (.insert c, .inserted (.ok ())) := by
  constructor
  · intro h
    unfold entered? at h
    split at h
    · rw [Option.some.inj h]
    · cases h
  · rintro rfl
    rfl

namespace Log

theorem verdict_eq_ok {past : Log ι} {c : Collector ι} :
    past.verdict c = .ok () ↔ past.drained = false ∧ c.id ∉ past.liveIds := by
  unfold verdict
  by_cases h₁ : past.drained = true
  · simp [h₁]
  · by_cases h₂ : c.id ∈ past.liveIds <;> simp [h₁, h₂]

/-- One more call takes away the live collectors that it removes or replaces, and enters its own. -/
theorem live_concat (log : Log ι) (e : Op ι × Reply ι) :
    live (log ++ [e]) =
      (live log).filter (fun c => !overtakes c.id [e]) ++ (entered? e).toList := by
  induction log with
  | nil =>
    cases h : entered? e <;> simp [live, h, overtakes]
  | cons e' log ih =>
    rw [List.cons_append, live, live]
    cases h : entered? e' with
    | none => exact ih
    | some c =>
      have hlater : overtakes c.id (log ++ [e]) = (overtakes c.id log || overtakes c.id [e]) :=
        List.any_append
      dsimp only
      rw [hlater]
      -- Already overtaken, overtaken by the last call, or still live.
      by_cases h₁ : overtakes c.id log = true
      · rw [h₁, Bool.true_or, if_pos rfl, if_pos rfl, ih]
      · by_cases h₂ : overtakes c.id [e] = true <;> simp [h₁, h₂, ih]

theorem drained_concat (log : Log ι) (e : Op ι × Reply ι) :
    drained (log ++ [e]) = (drained log || e.1.drains) := by
  simp [drained]

/-- A call that enters nothing and removes nothing leaves the live collectors alone. -/
theorem live_concat_idle (log : Log ι) {e : Op ι × Reply ι} (he : entered? e = none)
    (hr : ∀ id, e.1.removes id = false) : live (log ++ [e]) = live log := by
  rw [live_concat, he, List.filter_eq_self.2 (by simp [overtakes, he, hr])]
  exact List.append_nil _

/-- A call that removes one collector leaves the others in their order. -/
theorem live_concat_removal (log : Log ι) {e : Op ι × Reply ι} {id : CollectorId}
    (he : entered? e = none) (hr : ∀ i, e.1.removes i = decide (id = i)) :
    live (log ++ [e]) = (live log).filter fun c => c.id ≠ id := by
  rw [live_concat, he, Option.toList_none, List.append_nil]
  refine List.filter_congr fun c _ => ?_
  simp [overtakes, he, hr, eq_comm]

/-- An earlier call counts for the latest insert only where no later one does. -/
theorem latest_cons (e : Op ι × Reply ι) (log : Log ι) (id : CollectorId) :
    latest (e :: log) id = (latest log id).or ((entered? e).filter fun d => d.id = id) := by
  rw [latest, List.filterMap_cons]
  cases entered? e with
  | none => simp [latest]
  | some d => simp [latest, List.find?_append, Option.filter]

/-- Calls that do not overtake an id have not entered it. -/
theorem latest_of_not_overtakes {log : Log ι} {id : CollectorId}
    (h : ¬ overtakes id log = true) : latest log id = none := by
  rw [latest, List.find?_eq_none]
  intro d hd
  obtain ⟨e, he, hd⟩ := List.mem_filterMap.1 (List.mem_reverse.1 hd)
  have hnot := List.any_eq_false.1 (Bool.eq_false_iff.2 h) e he
  rw [hd] at hnot
  simpa using (Bool.or_eq_false_iff.1 (Bool.eq_false_iff.2 hnot)).2

/-- A live collector is the one of the latest accepted insert of its id. -/
theorem latest_of_mem_live {log : Log ι} {c : Collector ι} (hc : c ∈ live log) :
    latest log c.id = some c := by
  induction log with
  | nil => cases hc
  | cons e log ih =>
    rw [latest_cons]
    rw [live] at hc
    cases h : entered? e with
    | none =>
      rw [h] at hc
      rw [ih hc]
      rfl
    | some d =>
      rw [h] at hc
      dsimp only at hc
      by_cases ho : overtakes d.id log = true
      · rw [if_pos ho] at hc
        rw [ih hc]
        rfl
      · rw [if_neg ho] at hc
        rcases List.mem_cons.1 hc with rfl | hc
        · -- Nothing later entered this id, so that its own insert is the latest.
          rw [latest_of_not_overtakes ho]
          simp [Option.filter]
        · rw [ih hc]
          rfl

end Log

/-! ### Tables agree with their logs -/

/-- Whether the entries of a table are the live collectors of a log, and the table is closed if
the log tears it down. -/
structure Agrees (t : Table ι) (log : Log ι) : Prop where
  entries : t.entries = log.live
  closed : t.closed = log.drained

namespace Agrees

variable {t : Table ι} {log : Log ι}

theorem ids (h : t.Agrees log) : t.ids = log.liveIds := by
  rw [Table.ids, h.entries]
  rfl

theorem nodup (h : t.Agrees log) : log.liveIds.Nodup := h.ids ▸ t.nodup_ids

/-- A lookup finds the collector of the latest accepted insert, while it is live. -/
theorem get? (h : t.Agrees log) (id : CollectorId) : t.get? id = log.current id := by
  by_cases hid : id ∈ log.liveIds
  · obtain ⟨c, hc, rfl⟩ := List.mem_map.1 hid
    rw [Log.current, if_pos hid, Log.latest_of_mem_live hc, get?_eq_some_iff, h.entries]
    exact ⟨hc, rfl⟩
  · rw [Log.current, if_neg hid, get?_eq_none_iff, h.ids]
    exact hid

/-- A call that changes nothing keeps the agreement. -/
theorem idle {t' : Table ι} (h : t.Agrees log) {e : Op ι × Reply ι}
    (hentries : t'.entries = t.entries) (hclosed : t'.closed = t.closed) (he : entered? e = none)
    (hr : ∀ id, e.1.removes id = false) (hd : e.1.drains = false) : t'.Agrees (log ++ [e]) := by
  constructor
  · rw [hentries, h.entries, Log.live_concat_idle log he hr]
  · rw [hclosed, h.closed, Log.drained_concat, hd, Bool.or_false]

/-- A call that removes one collector keeps the agreement. -/
theorem removal {t' : Table ι} (h : t.Agrees log) {e : Op ι × Reply ι} (id : CollectorId)
    (hentries : t'.entries = t.entries.filter fun c => c.id ≠ id) (hclosed : t'.closed = t.closed)
    (he : entered? e = none) (hr : ∀ i, e.1.removes i = decide (id = i))
    (hd : e.1.drains = false) : t'.Agrees (log ++ [e]) := by
  constructor
  · rw [hentries, h.entries, Log.live_concat_removal log he hr]
  · rw [hclosed, h.closed, Log.drained_concat, hd, Bool.or_false]

/-- An accepted insert keeps the agreement. -/
theorem entry {t' : Table ι} {c : Collector ι} (h : t.Agrees log) (hid : c.id ∉ t.ids)
    (hclosed : t'.closed = t.closed) (hentries : t'.entries = t.entries ++ [c]) :
    t'.Agrees (log ++ [(.insert c, .inserted (.ok ()))]) := by
  rw [h.ids] at hid
  constructor
  · have hkept : ∀ d ∈ log.live,
        (!Log.overtakes d.id [((.insert c, .inserted (.ok ())) : Op ι × Reply ι)]) = true := by
      intro d hd
      have hne : c.id ≠ d.id := fun hcd => hid (hcd ▸ List.mem_map_of_mem hd)
      simp [Log.overtakes, entered?, Op.removes, hne]
    rw [Log.live_concat, List.filter_eq_self.2 hkept, hentries, h.entries]
    rfl
  · rw [hclosed, h.closed, Log.drained_concat]
    exact (Bool.or_false _).symm

/-- A teardown makes any table agree with any log. -/
theorem teardown {t' : Table ι} (log : Log ι) (total : Option Nat) (hentries : t'.entries = [])
    (hclosed : t'.closed = true) : t'.Agrees (log ++ [(.removeAll, .tornDown total)]) := by
  constructor
  · have hgone : ∀ d ∈ log.live,
        ¬ (!Log.overtakes d.id [((.removeAll, .tornDown total) : Op ι × Reply ι)]) = true := by
      intro d _
      simp [Log.overtakes, Op.removes]
    rw [Log.live_concat, List.filter_eq_nil_iff.2 hgone]
    exact hentries
  · rw [Log.drained_concat, hclosed]
    exact (Bool.or_true _).symm

end Agrees

/-- Leaving out an id that is not there changes nothing. -/
theorem filter_entries_absent {t : Table ι} {id : CollectorId} (hid : id ∉ t.ids) :
    t.entries = t.entries.filter fun c => c.id ≠ id := by
  refine (List.filter_eq_self.2 fun c hc => ?_).symm
  simpa using fun hcid => hid (mem_ids.2 ⟨c, hc, hcid⟩)

namespace History

/-- **One more call keeps a table and its log in agreement**, and its reply fits what went
before. -/
theorem perform_agrees {h : History ι ω}
    (ha : h.table.Agrees h.log) (op : Op ι) :
    (h.perform close op).table.Agrees (h.perform close op).log ∧
      h.log.Fits op (h.table.apply close h.world op).1 := by
  cases op with
  | insert c =>
    rcases h.table.insert_cases c with ⟨hclosed, hi⟩ | ⟨hclosed, hid, hi⟩ |
      ⟨hclosed, hid, t, hi, hentries, ht, -⟩
    · rw [perform, apply, hi]
      refine ⟨ha.idle rfl rfl rfl (fun _ => rfl) rfl, ?_⟩
      rw [ha.closed] at hclosed
      rw [Log.Fits, Log.verdict, if_pos hclosed]
    · rw [perform, apply, hi]
      refine ⟨ha.idle rfl rfl rfl (fun _ => rfl) rfl, ?_⟩
      rw [ha.closed] at hclosed
      rw [ha.ids] at hid
      rw [Log.Fits, Log.verdict, if_neg (by simp [hclosed]), if_pos hid]
    · rw [perform, apply, hi]
      refine ⟨ha.entry hid (by rw [ht, hclosed]) hentries, ?_⟩
      rw [ha.closed] at hclosed
      rw [ha.ids] at hid
      rw [Log.Fits, Log.verdict, if_neg (by simp [hclosed]), if_neg hid]
  | take id =>
    have hget : h.log.current id = (h.table.take id).map Prod.fst := by
      rw [← ha.get? id, take, Option.map_map]
      cases h.table.get? id <;> rfl
    rcases h.table.take_cases id with ⟨hid, htake⟩ | ⟨c, hc, -, htake⟩
    · rw [perform, apply, Log.Fits, hget, htake]
      exact ⟨ha.removal id (filter_entries_absent hid) rfl rfl (fun _ => rfl) rfl, rfl⟩
    · rw [perform, apply, Log.Fits, hget, htake]
      exact ⟨ha.removal id rfl rfl rfl (fun _ => rfl) rfl, rfl⟩
  | remove id runClose =>
    rw [perform, apply, Log.Fits, ← ha.ids]
    by_cases hid : id ∈ h.table.ids
    · obtain ⟨⟨result, hreply, hkept⟩, hentries, hclosed⟩ :=
        run_detach_present close hid runClose h.world
      exact ⟨ha.removal id hentries hclosed (by rw [hreply]; rfl) (fun _ => rfl) rfl,
        result, hreply, fun hn => absurd hid hn, fun _ => hkept⟩
    · obtain ⟨hreply, ht⟩ := run_detach_absent close hid runClose h.world
      refine ⟨ha.removal id ?_ (by rw [ht]) (by rw [hreply]; rfl) (fun _ => rfl) rfl,
        _, hreply, fun _ => rfl, fun hp => absurd hp hid⟩
      rw [ht]
      exact filter_entries_absent hid
  | removeAll =>
    obtain ⟨⟨total, hreply, htotal⟩, hentries, hclosed⟩ :=
      run_drain close h.table h.world
    rw [perform, apply, Log.Fits]
    rw [hreply]
    refine ⟨Agrees.teardown h.log total hentries hclosed, total, rfl, fun n hn => ?_⟩
    rw [htotal n hn, ha.entries, Log.liveIds, List.length_map]
  | get id =>
    refine ⟨ha.idle rfl rfl rfl (fun _ => rfl) rfl, ?_⟩
    rw [apply, Log.Fits, ha.get?]
  | contains id =>
    refine ⟨ha.idle rfl rfl rfl (fun _ => rfl) rfl, ?_⟩
    rw [apply, Log.Fits, contains_eq, ha.ids]
  | size =>
    refine ⟨ha.idle rfl rfl rfl (fun _ => rfl) rfl, ?_⟩
    rw [apply, Log.Fits, ← ha.ids, size, Table.ids, List.length_map]
  | isEmpty =>
    refine ⟨ha.idle rfl rfl rfl (fun _ => rfl) rfl, ?_⟩
    rw [apply, Log.Fits, ← ha.ids, isEmpty, Table.ids, List.isEmpty_map]
  | list limit =>
    refine ⟨ha.idle rfl rfl rfl (fun _ => rfl) rfl, ?_⟩
    rw [apply, Log.Fits, list, ha.ids]

/-- The collectors that a call enters or removes decide how the order of the ids changes. -/
theorem ids_perform {h : History ι ω}
    (ha : h.table.Agrees h.log) (op : Op ι) :
    (h.perform close op).table.ids = (h.table.ids.filter fun id => !op.removes id) ++
      (entered? (op, (h.table.apply close h.world op).1)).toList.map Collector.id := by
  obtain ⟨hnext, hfits⟩ := perform_agrees close ha op
  rw [hnext.ids, ha.ids, Log.liveIds, Log.liveIds, List.filter_map, ← List.map_append]
  refine congrArg (List.map Collector.id) ?_
  refine (Log.live_concat h.log (op, (h.table.apply close h.world op).1)).trans ?_
  refine congrArg (· ++ _) (List.filter_congr fun d hd => ?_)
  -- An accepted insert replaces nothing, because its id was free.
  have hfree : ∀ c, entered? (op, (h.table.apply close h.world op).1) = some c → c.id ≠ d.id := by
    intro c hc hcd
    obtain ⟨rfl, hreply⟩ := Prod.mk.inj (entered?_eq_some.1 hc)
    rw [Log.Fits, hreply] at hfits
    exact (Log.verdict_eq_ok.1 (Reply.inserted.inj hfits).symm).2
      (hcd ▸ List.mem_map_of_mem hd)
  cases hc : entered? (op, (h.table.apply close h.world op).1) with
  | none => simp [Log.overtakes, hc]
  | some c => simp [Log.overtakes, hc, hfree c hc]

/-- Whether everything that may be asked of a table is answered as its log says. -/
structure Refines (h : History ι ω) : Prop where
  nodup : h.log.liveIds.Nodup
  list : ∀ n, h.table.list n = h.log.liveIds.take n
  listAll : ∀ n, h.table.size ≤ n → h.table.list n = h.log.liveIds
  get? : ∀ id, h.table.get? id = h.log.current id
  isSome : ∀ id, (h.table.get? id).isSome = true ↔ id ∈ h.log.liveIds
  contains : ∀ id, h.table.contains id = true ↔ id ∈ h.log.liveIds
  size : h.table.size = h.log.liveIds.length
  isEmpty : h.table.isEmpty = true ↔ h.table.size = 0
  insert : ∀ c, (h.table.insert c).map (fun _ => ()) = h.log.verdict c
  /-- How one more call changes the order of the ids. -/
  order : ∀ op, (h.perform close op).table.ids = (h.table.ids.filter fun id => !op.removes id) ++
    (entered? (op, (h.table.apply close h.world op).1)).toList.map Collector.id
  /-- What one more call replies. -/
  reply : ∀ op, h.log.Fits op (h.table.apply close h.world op).1

/-- A table that agrees with its log answers everything as its log says. -/
theorem refines_of_agrees {h : History ι ω}
    (ha : h.table.Agrees h.log) : h.Refines close where
  nodup := ha.nodup
  list n := by rw [Table.list, ha.ids]
  listAll n hn := by
    rw [Table.list, ← ha.ids]
    exact List.take_of_length_le (by rwa [Table.ids, List.length_map])
  get? := ha.get?
  isSome id := by
    rw [← Table.contains, contains_eq, ha.ids, decide_eq_true_iff]
  contains id := by rw [contains_eq, ha.ids, decide_eq_true_iff]
  size := by rw [← ha.ids, Table.size, Table.ids, List.length_map]
  isEmpty := by rw [Table.isEmpty, Table.size, List.isEmpty_iff_length_eq_zero]
  insert c := by
    have hfits := (perform_agrees close ha (.insert c)).2
    rw [Log.Fits, apply] at hfits
    cases hi : h.table.insert c <;> rw [hi] at hfits <;> exact Reply.inserted.inj hfits
  order := ids_perform close ha
  reply op := (perform_agrees close ha op).2

/-- **A table refines its history.** After any calls on a new table, whatever the closes of
instances give, the log has just these calls, and everything that may be asked of the table is
answered as the log says. -/
theorem of_refines (gauge : Option Nat) (w : ω) (ops : List (Op ι)) :
    (of close gauge w ops).log.map Prod.fst = ops ∧ (of close gauge w ops).Refines close := by
  have key : ∀ (ops : List (Op ι)) (h : History ι ω), h.table.Agrees h.log →
      (ops.foldl (perform close) h).log.map Prod.fst = h.log.map Prod.fst ++ ops ∧
        (ops.foldl (perform close) h).table.Agrees (ops.foldl (perform close) h).log := by
    intro ops
    induction ops with
    | nil => intro h ha; exact ⟨(List.append_nil _).symm, ha⟩
    | cons op ops ih =>
      intro h ha
      obtain ⟨hlog, hlast⟩ := ih (h.perform close op) (perform_agrees close ha op).1
      refine ⟨?_, hlast⟩
      rw [List.foldl_cons, hlog]
      simp [perform]
  obtain ⟨hlog, ha⟩ := key ops { table := withGauge gauge, world := w } ⟨rfl, rfl⟩
  exact ⟨hlog, refines_of_agrees close ha⟩

end History

end Table
end Collectors
