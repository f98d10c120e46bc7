import Collectors.Host.Ledger
import Collectors.Proofs.Outcomes
import Collectors.Proofs.Teardown

/-!
# Who comes and who goes

A call brings a collector into a table, or takes some away, at one of its steps, and tells of it at
its end. `Call.Tallies` says of every place where a call may be how many it has brought and taken
by then; `Call.Tallies.step` follows one step with the table around it. At the end it is what the
answer tells, unless a close failed with an error that says that there was nothing to close
(`Behaviour.Candid`).

`Ledger.step_cases` says what is written down of an event: a step of a job, with those who came and
went, or the requests of new jobs.
-/

namespace Collectors

variable {β ι ω : Type}

namespace Ledger

/-- How many collectors an answer tells to have been entered. -/
def entered (x : Request × Except Error Answer) : Nat := if tellsEntered x then 1 else 0

/-- How many collectors an answer tells to have been removed. -/
def removed (x : Request × Except Error Answer) : Nat :=
  (if tellsClosed x then 1 else 0) + (if tellsDestroyed x then 1 else 0) + counted x

end Ledger

/-- Whether no close fails with an error that says that nothing was removed. -/
def Behaviour.Candid (b : Behaviour β ι ω) : Prop :=
  ∀ i w e, (b.close i w).1 = some (.error e) → Ledger.refuses e = false

namespace Call

open Ledger (entered removed refuses)

/-- Whether a call for a request may stand where it is, once it has entered and removed so many
collectors. -/
def Tallies (r : Request) (call : Call β ι) (arrived departed : Nat) : Prop :=
  match call with
  | .start r' => r' = r ∧ arrived = 0 ∧ departed = 0
  | .checkClosed _ _ _ _ | .findBackend _ _ _ _ | .instantiate _ _ _ _ _ | .insert _
  | .closeRefused _ _ =>
    (∃ mode token backend config id, r = .instantiate mode token backend config id) ∧
      arrived = 0 ∧ departed = 0
  | .remove (.detach _ true) => (∃ token id, r = .close token id) ∧ arrived = 0 ∧ departed = 0
  | .remove (.close _) => (∃ token id, r = .close token id) ∧ arrived = 0 ∧ departed = 1
  | .remove (.countFailure e) =>
    (∃ token id, r = .close token id) ∧ refuses e = false ∧ arrived = 0 ∧ departed = 1
  | .remove .drain => r = .shutdown ∧ arrived = 0 ∧ departed = 0
  | .remove (.countDrained detached) => r = .shutdown ∧ arrived = 0 ∧ departed = detached.length
  | .remove (.closeAll _ total) | .remove (.countFailureOfAll _ total) =>
    r = .shutdown ∧ arrived = 0 ∧ departed = total
  | .remove _ => False
  | .detachToDestroy _ => (∃ token id, r = .destroy token id) ∧ arrived = 0 ∧ departed = 0
  | .destroy _ => (∃ token id, r = .destroy token id) ∧ arrived = 0 ∧ departed = 1
  | .list _ | .hello _ | .sum _ _ _ | .invoke _ _ _ =>
    (r ≠ .shutdown ∧ ∀ a, entered (r, a) = 0 ∧ removed (r, a) = 0) ∧ arrived = 0 ∧ departed = 0
  | .finished a =>
    arrived = entered (r, a) ∧ departed = removed (r, a) ∧ (r = .shutdown → ∃ n, a = .ok (.count n))
  | .broken => arrived = 0

theorem tallies_begin (p : Provider β ι) (r : Request) : (begin p r : Call β ι).Tallies r 0 0 := by
  cases r with
  | instantiate mode token backend config id =>
    rcases p.authorize_cases token with h | h <;> simp only [begin, h]
    · exact ⟨⟨mode, token, backend, config, id, rfl⟩, rfl, rfl⟩
    · exact ⟨rfl, rfl, by simp⟩
  | close token id =>
    rcases p.authorize_cases token with h | h <;> simp only [begin, h]
    · exact ⟨⟨token, id, rfl⟩, rfl, rfl⟩
    · exact ⟨rfl, rfl, by simp⟩
  | destroy token id =>
    rcases p.authorize_cases token with h | h <;> simp only [begin, h]
    · exact ⟨⟨token, id, rfl⟩, rfl, rfl⟩
    · exact ⟨rfl, rfl, by simp⟩
  | list token limit =>
    rcases p.authorize_cases token with h | h <;> simp only [begin, h]
    · exact ⟨⟨by simp, fun a => ⟨rfl, rfl⟩⟩, rfl, rfl⟩
    · exact ⟨rfl, rfl, by simp⟩
  | hello id =>
    simp only [begin]
    cases p.table.get? id with
    | none => exact ⟨rfl, rfl, by simp⟩
    | some c => exact ⟨⟨by simp, fun a => ⟨rfl, rfl⟩⟩, rfl, rfl⟩
  | sum id x y =>
    simp only [begin]
    cases p.table.get? id with
    | none => exact ⟨rfl, rfl, by simp⟩
    | some c => exact ⟨⟨by simp, fun a => ⟨rfl, rfl⟩⟩, rfl, rfl⟩
  | invoke id operation args =>
    simp only [begin]
    cases p.table.get? id with
    | none => exact ⟨rfl, rfl, by simp⟩
    | some c => exact ⟨⟨by simp, fun a => ⟨rfl, rfl⟩⟩, rfl, rfl⟩
  | shutdown => exact ⟨rfl, rfl, rfl⟩

theorem tallies_ofOutcome {r : Request}
    (hr : r ≠ .shutdown ∧ ∀ a, entered (r, a) = 0 ∧ removed (r, a) = 0) {α : Type}
    (give : α → Answer) (result : Option (Except Error α)) :
    (ofOutcome give result : Call β ι).Tallies r 0 0 := by
  cases result with
  | none => rfl
  | some a => exact ⟨(hr.2 _).1.symm, (hr.2 _).2.symm, fun h => (hr.1 h).elim⟩

/-- How many collectors a step brings into a table and takes away from it. -/
theorem Tallies.step_remove {b : Behaviour β ι ω} (hb : b.Candid) {r : Request}
    {removal : Removal ι} {n m : Nat} (h : (remove removal : Call β ι).Tallies r n m)
    (p : Provider β ι) (w : ω) :
    let next := (remove removal).step b p w
    next.call.Tallies r
      (n + (Collector.beyond next.provider.table.entries p.table.entries).length)
      (m + (Collector.beyond p.table.entries next.provider.table.entries).length) := by
  have hsame := Collector.beyond_self p.table.entries
  cases removal with
  | detach id runClose =>
    cases runClose with
    | false => exact h.elim
    | true =>
      obtain ⟨⟨token, id', rfl⟩, rfl, rfl⟩ := h
      rcases p.table.take_cases id with ⟨-, htake⟩ | ⟨c, hc, rfl, htake⟩ <;>
        simp only [Call.step, Removal.step, htake]
      · rw [hsame]
        exact ⟨rfl, rfl, by simp⟩
      · rw [Table.entries_without, Collector.beyond_without hc,
          Collector.beyond_eq_nil_of_subset List.filter_sublist.subset]
        exact ⟨⟨token, id', rfl⟩, rfl, rfl⟩
  | close c =>
    obtain ⟨⟨token, id, rfl⟩, rfl, rfl⟩ := h
    have hcandid := hb c.resource w
    simp only [Call.step, Removal.step]
    rcases hclose : b.close c.resource w with ⟨_ | (e | _), w'⟩ <;> dsimp only <;> rw [hsame]
    · rfl
    · exact ⟨⟨token, id, rfl⟩, hcandid e (congrArg Prod.fst hclose), rfl, rfl⟩
    · exact ⟨rfl, rfl, by simp⟩
  | countFailure e =>
    obtain ⟨⟨token, id, rfl⟩, hrefuses, rfl, rfl⟩ := h
    simp only [Call.step, Removal.step, Table.entries_countCloseFailure, hsame]
    refine ⟨rfl, ?_, by simp⟩
    show 1 = (if (!refuses e) = true then 1 else 0) + 0 + 0
    rw [hrefuses]
    rfl
  | drain =>
    obtain ⟨rfl, rfl, rfl⟩ := h
    simp only [Call.step, Removal.step, Table.entries_drain, Collector.beyond_nil_left,
      Collector.beyond_nil_right]
    exact ⟨rfl, rfl, Nat.zero_add _⟩
  | countDrained detached =>
    obtain ⟨rfl, rfl, rfl⟩ := h
    simp only [Call.step, Removal.step, Table.entries_countRemoved, hsame]
    exact ⟨rfl, rfl, rfl⟩
  | closeAll rest total =>
    obtain ⟨rfl, rfl, rfl⟩ := h
    cases rest with
    | nil =>
      simp only [Call.step, Removal.step, hsame]
      exact ⟨rfl, (Nat.zero_add _).symm, fun _ => ⟨_, rfl⟩⟩
    | cons c rest =>
      simp only [Call.step, Removal.step]
      rcases b.close c.resource w with ⟨_ | (e | _), w'⟩ <;> dsimp only <;> rw [hsame]
      · rfl
      · exact ⟨rfl, rfl, rfl⟩
      · exact ⟨rfl, rfl, rfl⟩
  | countFailureOfAll rest total =>
    obtain ⟨rfl, rfl, rfl⟩ := h
    simp only [Call.step, Removal.step, Table.entries_countCloseFailure, hsame]
    exact ⟨rfl, rfl, rfl⟩
  | removed | tornDown | broken => exact h.elim

theorem Tallies.step {b : Behaviour β ι ω} (hb : b.Candid) {r : Request} {call : Call β ι}
    {n m : Nat} (h : call.Tallies r n m) (p : Provider β ι) (w : ω) :
    let next := call.step b p w
    next.call.Tallies r
      (n + (Collector.beyond next.provider.table.entries p.table.entries).length)
      (m + (Collector.beyond p.table.entries next.provider.table.entries).length) := by
  have hsame := Collector.beyond_self p.table.entries
  cases call with
  | start r' =>
    obtain ⟨rfl, rfl, rfl⟩ := h
    simp only [Call.step, hsame]
    exact tallies_begin p r'
  | checkClosed mode backend config id =>
    obtain ⟨⟨_, _, _, _, _, rfl⟩, rfl, rfl⟩ := h
    simp only [Call.step, hsame]
    split
    · exact ⟨rfl, rfl, by simp⟩
    · exact ⟨⟨_, _, _, _, _, rfl⟩, rfl, rfl⟩
  | findBackend mode backend config id =>
    obtain ⟨⟨_, _, _, _, _, rfl⟩, rfl, rfl⟩ := h
    simp only [Call.step, hsame]
    split
    · exact ⟨⟨_, _, _, _, _, rfl⟩, rfl, rfl⟩
    · exact ⟨rfl, rfl, by simp⟩
  | instantiate made mode backend config id =>
    obtain ⟨⟨_, _, _, _, _, rfl⟩, rfl, rfl⟩ := h
    simp only [Call.step]
    rcases b.instantiate made mode config w with ⟨_ | (e | i), w'⟩ <;> dsimp only <;> rw [hsame]
    · rfl
    · exact ⟨rfl, rfl, by simp⟩
    · exact ⟨⟨_, _, _, _, _, rfl⟩, rfl, rfl⟩
  | insert c =>
    obtain ⟨⟨_, _, _, _, _, rfl⟩, rfl, rfl⟩ := h
    rcases p.table.insert_cases c with ⟨-, hinsert⟩ | ⟨-, -, hinsert⟩ |
      ⟨-, hfresh, t, hinsert, hentries, -⟩ <;> simp only [Call.step, hinsert]
    · rw [hsame]
      exact ⟨⟨_, _, _, _, _, rfl⟩, rfl, rfl⟩
    · rw [hsame]
      exact ⟨⟨_, _, _, _, _, rfl⟩, rfl, rfl⟩
    · rw [hentries, Collector.beyond_append hfresh,
        Collector.beyond_eq_nil_of_subset (List.subset_append_left _ _)]
      exact ⟨rfl, rfl, by simp⟩
  | closeRefused c e =>
    obtain ⟨⟨_, _, _, _, _, rfl⟩, rfl, rfl⟩ := h
    simp only [Call.step]
    rcases b.close c.resource w with ⟨_ | (e' | _), w'⟩ <;> dsimp only <;> rw [hsame]
    · rfl
    · exact ⟨rfl, rfl, by simp⟩
    · exact ⟨rfl, rfl, by simp⟩
  | remove removal => exact h.step_remove hb p w
  | detachToDestroy id =>
    obtain ⟨⟨token, id', rfl⟩, rfl, rfl⟩ := h
    rcases p.table.take_cases id with ⟨-, htake⟩ | ⟨c, hc, rfl, htake⟩ <;>
      simp only [Call.step, htake]
    · rw [hsame]
      exact ⟨rfl, rfl, by simp⟩
    · rw [Table.entries_without, Collector.beyond_without hc,
        Collector.beyond_eq_nil_of_subset List.filter_sublist.subset]
      exact ⟨⟨token, id', rfl⟩, rfl, rfl⟩
  | destroy c =>
    obtain ⟨⟨token, id, rfl⟩, rfl, rfl⟩ := h
    simp only [Call.step]
    rcases b.destroy c.resource w with ⟨_ | (e | _), w'⟩ <;> dsimp only <;> rw [hsame]
    · rfl
    · exact ⟨rfl, rfl, by simp⟩
    · exact ⟨rfl, rfl, by simp⟩
  | list limit =>
    obtain ⟨hr, rfl, rfl⟩ := h
    simp only [Call.step, hsame]
    exact ⟨(hr.2 _).1.symm, (hr.2 _).2.symm, fun h => (hr.1 h).elim⟩
  | hello c =>
    obtain ⟨hr, rfl, rfl⟩ := h
    simp only [Call.step, hsame]
    exact tallies_ofOutcome hr _ _
  | sum c x y =>
    obtain ⟨hr, rfl, rfl⟩ := h
    simp only [Call.step, hsame]
    exact tallies_ofOutcome hr _ _
  | invoke c operation args =>
    obtain ⟨hr, rfl, rfl⟩ := h
    simp only [Call.step, hsame]
    exact tallies_ofOutcome hr _ _
  | finished | broken =>
    simp only [Call.step, hsame]
    exact h

/-- Who was there or came is there or has left. -/
theorem perm_step (b : Behaviour β ι ω) (call : Call β ι) (p : Provider β ι) (w : ω) :
    let t := (call.step b p w).provider.table
    (p.table.entries ++ Collector.beyond t.entries p.table.entries).Perm
      (t.entries ++ Collector.beyond p.table.entries t.entries) := by
  intro t
  rcases call.step_table b p w with ⟨h, -⟩ | ⟨-, -, c, h⟩ | ⟨-, id, h⟩ | ⟨-, h⟩
  · rw [show t.entries = _ from h]
  · have hnodup : ((p.table.entries ++ [c]).map Collector.id).Nodup := h ▸ t.nodup_ids
    have hfresh : c.id ∉ p.table.entries.map Collector.id := by
      rw [List.map_append, List.nodup_append] at hnodup
      exact fun hmem => hnodup.2.2 _ hmem _ (List.mem_singleton_self _) rfl
    rw [show t.entries = _ from h, Collector.beyond_append hfresh,
      Collector.beyond_eq_nil_of_subset (List.subset_append_left _ _), List.append_nil]
  · rw [show t.entries = _ from h, Collector.beyond_filter,
      Collector.beyond_eq_nil_of_subset List.filter_sublist.subset, List.append_nil]
    simpa using (List.filter_append_perm (fun c : Collector ι => decide (c.id ≠ id))
      p.table.entries).symm
  · rw [show t.entries = _ from h, Collector.beyond_nil_left, Collector.beyond_nil_right,
      List.append_nil, List.nil_append]

end Call

/-! ### One event -/

namespace Ledger

variable {b : Behaviour β ι ω}

theorem traffic_step (b : Behaviour β ι ω) (l : Ledger β ι ω) (e : Traffic.Event β) :
    (l.step b e).traffic = l.traffic.step b e := by
  cases e with
  | job i =>
    simp only [step]
    split <;> rfl
  | _ => rfl

theorem traffic_run (b : Behaviour β ι ω) (l : Ledger β ι ω) (es : List (Traffic.Event β)) :
    (l.run b es).traffic = Traffic.run b l.traffic es := by
  induction es generalizing l with
  | nil => rfl
  | cons e es ih =>
    rw [Traffic.run_cons, ← traffic_step]
    exact ih (l.step b e)

/-- What every event keeps, a schedule keeps. -/
theorem run_induct {motive : Ledger β ι ω → Prop}
    (step : ∀ l e, motive l → motive (l.step b e)) {l : Ledger β ι ω} (hl : motive l)
    (es : List (Traffic.Event β)) : motive (l.run b es) := by
  induction es generalizing l with
  | nil => exact hl
  | cons e es ih => exact ih (step l e hl)

theorem requests_step (b : Behaviour β ι ω) (l : Ledger β ι ω) (e : Traffic.Event β) :
    (l.step b e).requests = l.requests ++
      ((l.traffic.step b e).jobs.drop l.traffic.jobs.length).filterMap
        fun j => j.call.request? := by
  cases e with
  | job i =>
    simp only [step]
    split <;> rfl
  | _ => rfl

/-- The collectors of some passages at a place. -/
def passing (passages : List (Passage ι)) (place : Nat) : List (Collector ι) :=
  (passages.filter fun x => x.place = place).map Passage.collector

theorem passing_append (xs ys : List (Passage ι)) (place : Nat) :
    passing (xs ++ ys) place = passing xs place ++ passing ys place := by
  rw [passing, List.filter_append, List.map_append]
  rfl

theorem map_collector_passages (i place : Nat) (l m : List (Collector ι)) :
    (passages i place l m).map Passage.collector = Collector.beyond l m := by
  rw [passages, List.map_map]
  exact List.map_id _

theorem passing_passages (i place place' : Nat) (l m : List (Collector ι)) :
    passing (passages i place l m) place' =
      if place = place' then Collector.beyond l m else [] := by
  unfold passing
  split
  · rename_i h
    rw [List.filter_eq_self.2 (by simp [passages, h])]
    exact map_collector_passages i place l m
  · rename_i h
    rw [List.filter_eq_nil_iff.2 (by simp [passages, h])]
    rfl

theorem countP_passages (i place i' : Nat) (l m : List (Collector ι)) :
    (passages i place l m).countP (fun x => x.job = i') =
      if i = i' then (Collector.beyond l m).length else 0 := by
  unfold passages
  split
  · rename_i h
    rw [List.countP_eq_length.2 (by simp [h]), List.length_map]
  · rename_i h
    exact List.countP_eq_zero.2 (by simp [h])

/-- What is written down of an event that is no step of a job: the requests of new jobs. -/
structure Notes (l l' : Ledger β ι ω) (asked : List Request) : Prop where
  jobs : ∃ new : List (Job β ι), l'.traffic.jobs = l.traffic.jobs ++ new ∧
    new.map Job.call = asked.map .start
  requests : l'.requests = l.requests ++ asked
  world : l'.traffic.world = l.traffic.world
  entries : l'.traffic.host.entries = l.traffic.host.entries
  arrivals : l'.arrivals = l.arrivals
  departures : l'.departures = l.departures

/-- What is written down of a step of the job at `i`, which is `j`, on the provider `p`. -/
structure Records (b : Behaviour β ι ω) (l l' : Ledger β ι ω) (i : Nat) (j : Job β ι)
    (p : Provider β ι) : Prop where
  job : l.traffic.jobs[i]? = some j
  jobs : l'.traffic.jobs =
    l.traffic.jobs.set i { j with call := (j.call.step b p l.traffic.world).call }
  requests : l'.requests = l.requests
  world : l'.traffic.world = (j.call.step b p l.traffic.world).world
  here : l.traffic.host.entries j.place = p.table.entries
  entries : ∀ place, l'.traffic.host.entries place =
    if j.place = place then (j.call.step b p l.traffic.world).provider.table.entries
    else l.traffic.host.entries place
  arrivals : l'.arrivals = l.arrivals ++ passages i j.place
    (j.call.step b p l.traffic.world).provider.table.entries p.table.entries
  departures : l'.departures = l.departures ++ passages i j.place p.table.entries
    (j.call.step b p l.traffic.world).provider.table.entries

theorem entries_eq_contents (h : Host β ι) (place : Nat) :
    h.entries place = (h.contents[place]?.map Prod.fst).getD [] := by
  rw [Host.entries, Host.contents, List.getElem?_map, Option.map_map]
  rfl

theorem entries_of_contents {h h' : Host β ι} {new : List (List (Collector ι) × Bool)}
    (hcontents : h'.contents = h.contents ++ new) (hnew : ∀ t ∈ new, t = ([], false)) :
    h'.entries = h.entries := by
  funext place
  rw [entries_eq_contents, entries_eq_contents, hcontents, List.getElem?_append]
  split
  · rfl
  · rename_i hge
    rw [List.getElem?_eq_none (Nat.not_lt.1 hge)]
    cases hget : new[place - h.contents.length]? with
    | none => rfl
    | some t =>
      rw [hnew t (List.mem_of_getElem? hget)]
      rfl

theorem entries_put {h : Host β ι} {place : Nat} {p : Provider β ι}
    (hp : h.provider? place = some p) (q : Provider β ι) (place' : Nat) :
    (h.put place q).entries place' =
      if place = place' then q.table.entries else h.entries place' := by
  have hlt := (List.getElem?_eq_some_iff.1 (Host.contents_of_provider? hp)).1
  rw [entries_eq_contents, entries_eq_contents, Host.contents_put]
  split
  · rename_i hplace
    rw [← hplace, List.getElem?_set_self hlt]
    rfl
  · rename_i hplace
    rw [List.getElem?_set_ne hplace]

/-- New jobs are at their start, and what is asked of them is written down. -/
theorem asked_of_new {new : List (Job β ι)} (h : ∀ j ∈ new, ∃ r, j.call = .start r) :
    new.map Job.call = (new.filterMap fun j => j.call.request?).map .start := by
  induction new with
  | nil => rfl
  | cons j new ih =>
    obtain ⟨r, hr⟩ := h j List.mem_cons_self
    have hrequest : (j :: new).filterMap (fun j => j.call.request?) =
        r :: new.filterMap fun j => j.call.request? :=
      List.filterMap_cons_some (by rw [hr]; rfl)
    rw [hrequest, List.map_cons, List.map_cons, hr, ih fun j hj => h j (List.mem_cons_of_mem _ hj)]

/-- **What is written down of an event**: a step of a job, with those who came and went, or the
requests of new jobs. -/
theorem step_cases (b : Behaviour β ι ω) (l : Ledger β ι ω) (e : Traffic.Event β) :
    (∃ i j p, e = .job i ∧ Records b l (l.step b e) i j p) ∨
      ∃ asked, Notes l (l.step b e) asked := by
  rcases l.traffic.step_quiet b e with ⟨i, j, p, rfl, hj, hp, h⟩ |
    ⟨⟨new, hjobs, hstart⟩, ⟨tables, htables, hempty⟩, hworld⟩
  · have hhere : l.traffic.host.entries j.place = p.table.entries := by
      rw [entries_eq_contents, Host.contents_of_provider? hp]
      rfl
    have hthere := entries_put hp (j.call.step b p l.traffic.world).provider
    refine .inl ⟨i, j, p, rfl, ?_⟩
    constructor
    case job => exact hj
    case jobs => rw [traffic_step, h]
    case requests =>
      rw [requests_step, h, List.drop_eq_nil_of_le (by simp)]
      exact List.append_nil _
    case world => rw [traffic_step, h]
    case here => exact hhere
    case entries =>
      rw [traffic_step, h]
      exact hthere
    case arrivals => simp only [step, hj, h, hhere, hthere, if_true]
    case departures => simp only [step, hj, h, hhere, hthere, if_true]
  · have hentries := entries_of_contents htables hempty
    refine .inr ⟨new.filterMap fun j => j.call.request?, ?_⟩
    constructor
    case jobs => exact ⟨new, by rw [traffic_step, hjobs], asked_of_new hstart⟩
    case requests => rw [requests_step, hjobs, List.drop_left]
    case world => rw [traffic_step, hworld]
    case entries => rw [traffic_step, hentries]
    all_goals
      cases e with
      | job i =>
        simp only [step]
        split
        · dsimp only
          rw [hentries, passages, Collector.beyond_self]
          exact List.append_nil _
        · rfl
      | _ => rfl

/-- A new job is at the start of what is asked of it. -/
theorem Notes.start {l l' : Ledger β ι ω} {asked : List Request} (h : Notes l l' asked)
    (hlength : l.requests.length = l.traffic.jobs.length) {i : Nat}
    (hi : l.traffic.jobs.length ≤ i) {j : Job β ι} (hj : l'.traffic.jobs[i]? = some j) :
    ∃ r, l'.requests[i]? = some r ∧ j.call = .start r := by
  obtain ⟨new, hnew, hstart⟩ := h.jobs
  rw [hnew, List.getElem?_append_right hi] at hj
  have hcall : (asked.map Call.start)[i - l.traffic.jobs.length]? = some j.call := by
    rw [← hstart, List.getElem?_map, hj]
    rfl
  rw [List.getElem?_map, Option.map_eq_some_iff] at hcall
  obtain ⟨r, hr, hrcall⟩ := hcall
  exact ⟨r, by rw [h.requests, List.getElem?_append_right (by omega), hlength, hr], hrcall.symm⟩

end Ledger
end Collectors
