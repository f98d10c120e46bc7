import Collectors.Backend.Dummy
import Collectors.Backend.Traced
import Collectors.Proofs.Lists
import Collectors.Proofs.Table
import Collectors.Proofs.Traffic

/-!
# The custody of instances

An instance that a backend made is at every moment in exactly one place: with the job that is to
enter it or could not, in the table of one provider under one id, with the job that detached it,
or at its end, which one call brought about. `Traffic.custody` lists the places in which an
instance is, and `custody_unique` says that there is exactly one, whatever calls are going on and
however their steps follow one another.

The proof counts. `Collector.share k l` is how often the instance numbered `k` stands among the
collectors `l`. One step of a call (`Call.step_share`) moves a share between the call, the table
and the trace, or makes one for a new instance; the total over all jobs, all tables and the trace
is therefore one for every instance that was made (`Traffic.Balanced`).
-/

namespace Collectors

variable {β ι ω : Type}

/-! ### What calls hold -/

/-- The detached collectors that a removal is still to close. -/
def Removal.detached : Removal ι → List (Collector ι)
  | close c => [c]
  | countDrained detached => detached
  | closeAll rest _ => rest
  | countFailureOfAll rest _ => rest
  | _ => []

namespace Call

/-- The collector that a call is still to enter, or to close because it was refused. -/
def unregistered : Call β ι → List (Collector ι)
  | insert c => [c]
  | closeRefused c _ => [c]
  | _ => []

/-- The detached collectors that a call is still to end. -/
def detached : Call β ι → List (Collector ι)
  | remove r => r.detached
  | destroy c => [c]
  | _ => []

/-- The collectors in the hands of a call. -/
def held (call : Call β ι) : List (Collector ι) := call.unregistered ++ call.detached

end Call

/-- Where an instance is. -/
inductive Custody where
  /-- With a job that has not entered it yet, or whose collector was refused. -/
  | unregistered (job : Nat)
  /-- In the table of the provider at a place. -/
  | registered (place : Nat) (id : CollectorId)
  /-- With a job that detached it. -/
  | detached (job : Nat)
  /-- At its end. -/
  | ended (how : Parting)
  deriving DecidableEq

/-- The call that brought an instance to its end, if it is there. -/
def Custody.ended? : Custody → Option Parting
  | ended how => some how
  | _ => none

namespace Collector

/-- The collectors among `l` whose instance is the one numbered `k`. -/
def numbered (k : Nat) (l : List (Collector (Nat × ι))) : List (Collector (Nat × ι)) :=
  l.filter fun c => c.resource.1 = k

/-- How often the instance numbered `k` stands among the collectors `l`. -/
def share (k : Nat) (l : List (Collector (Nat × ι))) : Nat := (numbered k l).length

@[simp] theorem share_nil (k : Nat) : share k ([] : List (Collector (Nat × ι))) = 0 := rfl

@[simp] theorem share_append (k : Nat) (l m : List (Collector (Nat × ι))) :
    share k (l ++ m) = share k l + share k m := by
  simp [share, numbered]

theorem share_cons (k : Nat) (c : Collector (Nat × ι)) (l : List (Collector (Nat × ι))) :
    share k (c :: l) = share k [c] + share k l := share_append k [c] l

theorem share_singleton (k : Nat) (c : Collector (Nat × ι)) :
    share k [c] = if c.resource.1 = k then 1 else 0 := by
  by_cases h : c.resource.1 = k <;> simp [share, numbered, h]

theorem share_self (c : Collector (Nat × ι)) : share c.resource.1 [c] = 1 := by
  rw [share_singleton, if_pos rfl]

theorem share_perm {k : Nat} {l m : List (Collector (Nat × ι))} (h : l.Perm m) :
    share k l = share k m := (h.filter _).length_eq

end Collector

open Collector (share numbered)

namespace Traffic

/-- Everywhere the instance numbered `k` is. -/
def custody (s : Traffic β (Nat × ι) (Trace × ω)) (k : Nat) : List Custody :=
  (s.jobs.zipIdx.flatMap fun (j, i) =>
    ((numbered k j.call.unregistered).map fun _ => .unregistered i) ++
      (numbered k j.call.detached).map fun _ => .detached i) ++
  (s.host.providers.zipIdx.flatMap fun (p, place) =>
    (numbered k p.table.entries).map fun c => .registered place c.id) ++
  (s.world.1.partings k).map .ended

end Traffic

/-! ### One step of a call -/

namespace Trace

@[simp] theorem partings_make (t : Trace) (k : Nat) : t.make.partings k = t.partings k := rfl

@[simp] theorem made_make (t : Trace) : t.make.made = t.made + 1 := rfl

@[simp] theorem made_part (t : Trace) (k : Nat) (how : Parting) :
    (t.part k how).made = t.made := rfl

theorem partings_part (t : Trace) (j k : Nat) (how : Parting) :
    (t.part j how).partings k = t.partings k ++ if j = k then [how] else [] := by
  by_cases h : j = k <;> simp [partings, part, h]

/-- A parting of the instance of `c` counts as much as `c` itself. -/
theorem length_partings_part (t : Trace) (c : Collector (Nat × ι)) (k : Nat) (how : Parting) :
    ((t.part c.resource.1 how).partings k).length = (t.partings k).length + share k [c] := by
  rw [partings_part, List.length_append, Collector.share_singleton]
  split_ifs <;> rfl

end Trace

/-- Of all that is given, what the instance numbered `k` stands for: nothing before it is made,
and one thing from then on. -/
def Trace.due (t : Trace) (k : Nat) : Nat := if k < t.made then 1 else 0

theorem Trace.due_le (t : Trace) (k : Nat) : t.due k ≤ 1 := by
  unfold due
  split <;> decide

variable {b : Behaviour β ι ω}

/-- Whether a removal closes what it detaches. -/
def Removal.Closing : Removal ι → Prop
  | detach _ runClose => runClose
  | _ => True

/-- Whether a call ends what it detaches. -/
def Call.Ending : Call β ι → Prop
  | remove r => r.Closing
  | _ => True

/-- A step of a removal loses an instance only where a close breaks down, together with those
that were still to be closed. -/
theorem Removal.step_share (b : Behaviour β ι ω) (k : Nat) {r : Removal (Nat × ι)}
    (hr : r.Closing) (t : Table (Nat × ι)) (tr : Trace) (w : ω) :
    let n := r.step b.traced.close t (tr, w)
    n.world.1.made = tr.made ∧ ∃ lost,
      share k n.removal.detached + share k n.table.entries + (n.world.1.partings k).length + lost =
        share k r.detached + share k t.entries + (tr.partings k).length ∧
      (b.Closes ∨ n.removal ≠ .broken → lost = 0) := by
  have hclose : ∀ i, b.traced.close i (tr, w) =
      ((b.close i.2 w).1, (tr.part i.1 .closed, (b.close i.2 w).2)) := fun _ => rfl
  have hparted : ∀ c : Collector (Nat × ι), ((tr.part c.resource.1 .closed).partings k).length =
      (tr.partings k).length + share k [c] := fun c => tr.length_partings_part c k .closed
  cases r with
  | detach id runClose =>
    rcases t.take_cases id with ⟨-, htake⟩ | ⟨c, hc, rfl, htake⟩
    · simp [step, htake, detached]
    · have hperm : share k t.entries = share k [c] + share k (t.without c.id).entries := by
        rw [Collector.share_perm (Table.perm_without hc), Collector.share_cons]
      cases runClose with
      | false => exact absurd hr (by simp [Closing])
      | true =>
        exact ⟨by simp [step, htake], 0, by simp [step, htake, detached, hperm], fun _ => rfl⟩
  | close c =>
    have hp := hparted c
    rw [step, hclose]
    rcases (b.close c.resource.2 w).1 with _ | (e | _) <;>
    · refine ⟨rfl, 0, ?_, fun _ => rfl⟩
      simp only [detached, Collector.share_nil]
      omega
  | closeAll rest total =>
    cases rest with
    | nil => exact ⟨rfl, 0, rfl, fun _ => rfl⟩
    | cons c rest =>
      rw [step, hclose]
      have hp := hparted c
      have hrest := Collector.share_cons k c rest
      rcases hres : (b.close c.resource.2 w).1 with _ | (e | _)
      · -- The close broke down, and nobody closes the rest.
        refine ⟨rfl, share k rest, ?_, ?_⟩
        · simp only [detached, Collector.share_nil]
          omega
        · rintro (hb | hn)
          · exact absurd hres (hb _ _)
          · exact absurd rfl hn
      · refine ⟨rfl, 0, ?_, fun _ => rfl⟩
        simp only [detached]
        omega
      · refine ⟨rfl, 0, ?_, fun _ => rfl⟩
        simp only [detached]
        omega
  | drain => exact ⟨rfl, 0, by simp [step, detached], fun _ => rfl⟩
  | countFailure e | countDrained l | countFailureOfAll rest total | removed r | tornDown n
  | broken =>
    exact ⟨rfl, 0, by simp [step, detached], fun _ => rfl⟩

/-- A removal brings nobody into a table. -/
theorem Removal.entries_step_subset (close : ι → ω → Option (Except Error Unit) × ω)
    (r : Removal ι) (t : Table ι) (w : ω) : (r.step close t w).table.entries ⊆ t.entries := by
  cases r with
  | detach id runClose =>
    rcases t.take_cases id with ⟨-, h⟩ | ⟨c, -, -, h⟩
    · simp only [step, h]
      exact List.Subset.refl _
    · simp only [step, h]
      exact List.filter_sublist.subset
  | drain => exact List.nil_subset _
  | close c => simp only [step]; split <;> exact List.Subset.refl _
  | closeAll rest total =>
    cases rest with
    | nil => exact List.Subset.refl _
    | cons c rest => simp only [step]; split <;> exact List.Subset.refl _
  | _ => exact List.Subset.refl _

theorem Removal.closing_step (close : ι → ω → Option (Except Error Unit) × ω) (r : Removal ι)
    (t : Table ι) (w : ω) : r.Closing → (r.step close t w).removal.Closing := by
  intro hr
  cases r with
  | detach id runClose =>
    simp only [step]
    split
    · trivial
    · split <;> trivial
  | close c => simp only [step]; split <;> trivial
  | closeAll rest total =>
    cases rest with
    | nil => trivial
    | cons c rest => simp only [step]; split <;> trivial
  | drain | countFailure e | countDrained l | countFailureOfAll rest total => trivial
  | removed r | tornDown n | broken => trivial

namespace Call

theorem ending_ofRemoval {r : Removal ι} (hr : r.Closing) : (ofRemoval r : Call β ι).Ending := by
  cases r <;> trivial

theorem ending_ofOutcome {α : Type} (give : α → Answer) (r : Option (Except Error α)) :
    (ofOutcome give r : Call β ι).Ending := by
  cases r <;> trivial

theorem ending_begin (p : Provider β ι) (r : Request) : (begin p r).Ending := by
  cases r with
  | shutdown => trivial
  | instantiate | close | destroy | list | hello | sum | invoke =>
    simp only [begin]; split <;> trivial

theorem ending_step (b : Behaviour β ι ω) {call : Call β ι} (hcall : call.Ending)
    (p : Provider β ι) (w : ω) : (call.step b p w).call.Ending := by
  cases call with
  | start r => exact ending_begin p r
  | remove r => exact ending_ofRemoval (r.closing_step b.close p.table w hcall)
  | checkClosed | findBackend | instantiate | insert | closeRefused | detachToDestroy | destroy =>
    simp only [step]; split <;> trivial
  | hello | sum | invoke => exact ending_ofOutcome _ _
  | list | finished | broken => trivial

/-! ### One step keeps the balance -/

theorem held_ofRemoval (r : Removal ι) : (ofRemoval r : Call β ι).held = r.detached := by
  cases r <;> rfl

theorem held_ofOutcome {α : Type} (give : α → Answer) (r : Option (Except Error α)) :
    (ofOutcome give r : Call β ι).held = [] := by
  cases r <;> rfl

theorem held_begin (p : Provider β ι) (r : Request) : (begin p r).held = [] := by
  cases r with
  | shutdown => rfl
  | instantiate | close | destroy | list | hello | sum | invoke =>
    simp only [begin]; split <;> rfl

/-- **One step of a call neither loses nor doubles an instance.** What the call holds, what the
table holds and what was ended grow together by what is newly due. Only a close that breaks down
may lose instances. -/
theorem step_share (b : Behaviour β ι ω) (k : Nat) {call : Call β (Nat × ι)} (hcall : call.Ending)
    (p : Provider β (Nat × ι)) (w : Trace × ω) :
    let n := call.step b.traced p w
    ∃ lost, share k n.call.held + share k n.provider.table.entries +
        (n.world.1.partings k).length + w.1.due k + lost =
      share k call.held + share k p.table.entries + (w.1.partings k).length + n.world.1.due k ∧
      (b.Closes ∨ n.call ≠ .broken → lost = 0) := by
  obtain ⟨tr, w⟩ := w
  dsimp only
  cases call with
  | start r =>
    refine ⟨0, ?_, fun _ => rfl⟩
    simp only [step, held_begin]
    rfl
  | checkClosed mode backend config id =>
    refine ⟨0, ?_, fun _ => rfl⟩
    simp only [step]
    split <;> simp [held, unregistered, detached]
  | findBackend mode backend config id =>
    refine ⟨0, ?_, fun _ => rfl⟩
    simp only [step]
    split <;> simp [held, unregistered, detached]
  | instantiate made mode backend config id =>
    refine ⟨0, ?_, fun _ => rfl⟩
    rcases h : b.instantiate made mode config w with ⟨r, w'⟩
    rcases r with _ | (e | i)
    · simp [step, Behaviour.traced, h, held, unregistered, detached]
    · simp [step, Behaviour.traced, h, held, unregistered, detached]
    · -- The new instance is due from now on, and the call holds it.
      simp only [step, Behaviour.traced, h, held, unregistered, detached, List.append_nil,
        Collector.share_nil, Collector.share_singleton, Trace.partings_make, Trace.due,
        Trace.made_make]
      split_ifs <;> omega
  | insert c =>
    refine ⟨0, ?_, fun _ => rfl⟩
    rcases p.table.insert_cases c with ⟨-, h⟩ | ⟨-, -, h⟩ | ⟨-, -, t, h, hentries, -⟩
    · simp [step, h, held, unregistered, detached]
    · simp [step, h, held, unregistered, detached]
    · simp only [step, h, hentries, held, unregistered, detached, Collector.share_append,
        Collector.share_nil]
      omega
  | closeRefused c e =>
    have hparted := tr.length_partings_part c k .closed
    refine ⟨0, ?_, fun _ => rfl⟩
    rcases h : b.close c.resource.2 w with ⟨r, w'⟩
    rcases r with _ | (e' | _) <;>
    · simp [step, Behaviour.traced, h, held, unregistered, detached, hparted, Trace.due]
      omega
  | remove r =>
    obtain ⟨hmade, lost, h, hlost⟩ := r.step_share b k hcall p.table tr w
    have hheld : (remove r : Call β (Nat × ι)).held = r.detached := rfl
    refine ⟨lost, ?_, fun hn => hlost (hn.imp_right fun hn hbroken => hn ?_)⟩
    · simp only [step, held_ofRemoval, hheld, Trace.due, hmade]
      omega
    · simp only [step, hbroken, ofRemoval]
  | detachToDestroy id =>
    refine ⟨0, ?_, fun _ => rfl⟩
    rcases p.table.take_cases id with ⟨-, h⟩ | ⟨c, hc, rfl, h⟩
    · simp [step, h, held, unregistered, detached]
    · have hperm := Collector.share_perm (k := k) (Table.perm_without hc)
      rw [Collector.share_cons] at hperm
      simp [step, h, held, unregistered, detached, hperm]
  | destroy c =>
    have hparted := tr.length_partings_part c k .destroyed
    refine ⟨0, ?_, fun _ => rfl⟩
    rcases h : b.destroy c.resource.2 w with ⟨r, w'⟩
    rcases r with _ | (e' | _) <;>
    · simp [step, Behaviour.traced, h, held, unregistered, detached, hparted, Trace.due]
      omega
  | hello | sum | invoke =>
    refine ⟨0, ?_, fun _ => rfl⟩
    simp only [step, held_ofOutcome]
    rfl
  | list | finished | broken =>
    exact ⟨0, by simp [step, held, unregistered, detached], fun _ => rfl⟩

end Call

/-! ### Whole schedules -/

namespace Traffic

/-- How often the instance numbered `k` stands among the collectors that jobs hold. -/
def heldShare (s : Traffic β (Nat × ι) (Trace × ω)) (k : Nat) : Nat :=
  (s.jobs.map fun j => share k j.call.held).sum

/-- How often the instance numbered `k` stands among the collectors in tables. -/
def tableShare (s : Traffic β (Nat × ι) (Trace × ω)) (k : Nat) : Nat :=
  (s.host.contents.map fun t => share k t.1).sum

/-- In how many places the instance numbered `k` is. -/
def places (s : Traffic β (Nat × ι) (Trace × ω)) (k : Nat) : Nat :=
  s.heldShare k + s.tableShare k + (s.world.1.partings k).length

/-- Whether no job broke down. -/
def Unbroken (s : Traffic β ι ω) : Prop := ∀ j ∈ s.jobs, j.call ≠ .broken

/-- A job that broke down stays as it is. -/
theorem unbroken_of_step {s : Traffic β ι ω} {e : Event β} (h : (s.step b e).Unbroken) :
    s.Unbroken := by
  intro j hj hbroken
  rcases step_quiet b s e with ⟨i, j', p, -, hj', -, hstep⟩ | ⟨⟨jobs, hjobs, -⟩, -, -⟩
  · rw [Unbroken, hstep] at h
    obtain ⟨n, hn, hget⟩ := List.mem_iff_getElem.1 hj
    -- The job is the one that takes the step, or it is not touched.
    by_cases hin : i = n
    · subst hin
      obtain rfl : j' = j := by
        rw [← hget]
        exact (Option.some.inj ((List.getElem?_eq_getElem hn).symm.trans hj')).symm
      refine h _ (List.mem_of_getElem? (List.getElem?_set_self hn)) ?_
      rw [hbroken]
      rfl
    · have hsame :
          (s.jobs.set i { j' with call := (j'.call.step b p s.world).call })[n]? = some j := by
        rw [List.getElem?_set_ne hin, List.getElem?_eq_getElem hn, hget]
      exact h j (List.mem_of_getElem? hsame) hbroken
  · rw [Unbroken, hjobs] at h
    exact h j (List.mem_append_left _ hj) hbroken

/-- Whether all calls end what they detach, and every instance that was made is in one place; it
may be in none if a close broke down. -/
structure Balanced (b : Behaviour β ι ω) (s : Traffic β (Nat × ι) (Trace × ω)) : Prop where
  ending : ∀ j ∈ s.jobs, j.call.Ending
  le : ∀ k, s.places k ≤ s.world.1.due k
  eq : b.Closes ∨ s.Unbroken → ∀ k, s.places k = s.world.1.due k

/-- New jobs hold nothing yet and new tables are empty. -/
theorem Quiet.places {s s' : Traffic β (Nat × ι) (Trace × ω)} (h : Quiet s s') (k : Nat) :
    s'.places k = s.places k := by
  obtain ⟨⟨jobs, hjobs, hstart⟩, ⟨tables, htables, hempty⟩, hworld⟩ := h
  have hnewJobs : (jobs.map fun j => Collector.share k j.call.held).sum = 0 := by
    refine List.sum_eq_zero_iff_forall_eq_nat.2 fun n hn => ?_
    obtain ⟨j, hj, rfl⟩ := List.mem_map.1 hn
    obtain ⟨r, hr⟩ := hstart j hj
    rw [hr]; rfl
  have hnewTables : (tables.map fun t => Collector.share k t.1).sum = 0 := by
    refine List.sum_eq_zero_iff_forall_eq_nat.2 fun n hn => ?_
    obtain ⟨t, ht, rfl⟩ := List.mem_map.1 hn
    rw [hempty t ht]; rfl
  rw [Traffic.places, heldShare, tableShare, hjobs, htables, hworld, List.map_append,
    List.sum_append, List.map_append, List.sum_append, hnewJobs, hnewTables]
  rfl

/-- What a step of a job changes in the number of places, and what is lost by it. -/
theorem places_job (b : Behaviour β ι ω) {s s' : Traffic β (Nat × ι) (Trace × ω)} {i : Nat}
    {j : Job β (Nat × ι)} {p : Provider β (Nat × ι)} (hj : s.jobs[i]? = some j)
    (hp : s.host.provider? j.place = some p) (hending : j.call.Ending)
    (h : s' =
      { s with
        host := s.host.put j.place (j.call.step b.traced p s.world).provider
        world := (j.call.step b.traced p s.world).world
        jobs := s.jobs.set i { j with call := (j.call.step b.traced p s.world).call } })
    (k : Nat) :
    ∃ lost, s'.places k + s.world.1.due k + lost = s.places k + s'.world.1.due k ∧
      (b.Closes ∨ s'.Unbroken → lost = 0) := by
  subst h
  obtain ⟨lost, hstep, hlost⟩ := Call.step_share b k hending p s.world
  -- One job and one table are replaced, so both sums change by what the step changes.
  have hjobs := sum_map_set (fun j : Job β (Nat × ι) => Collector.share k j.call.held) hj
    { j with call := (j.call.step b.traced p s.world).call }
  have htables := sum_map_set (fun t => Collector.share k t.1) (Host.contents_of_provider? hp)
    ((j.call.step b.traced p s.world).provider.table.entries,
      (j.call.step b.traced p s.world).provider.table.closed)
  refine ⟨lost, ?_, fun hn => hlost (hn.imp_right fun hn => ?_)⟩
  · simp only [places, heldShare, tableShare, Host.contents_put]
    simp only at hjobs htables hstep
    omega
  · have hlt := (List.getElem?_eq_some_iff.1 hj).1
    exact hn _ (List.mem_of_getElem? (List.getElem?_set_self hlt))

/-- **Every event keeps the balance**, because one step of a call does. -/
theorem Balanced.step {s : Traffic β (Nat × ι) (Trace × ω)} (hs : s.Balanced b) (e : Event β) :
    (s.step b.traced e).Balanced b := by
  have hunbroken : (s.step b.traced e).Unbroken → s.Unbroken := unbroken_of_step
  rcases step_quiet b.traced s e with ⟨i, j, p, -, hj, hp, h⟩ | hquiet
  · have hending : j.call.Ending := hs.ending j (List.mem_of_getElem? hj)
    have hplaces := places_job b hj hp hending h
    constructor
    · rw [h]
      intro j' hj'
      rcases List.mem_or_eq_of_mem_set hj' with hold | rfl
      · exact hs.ending j' hold
      · exact Call.ending_step b.traced hending p s.world
    · intro k
      obtain ⟨lost, heq, -⟩ := hplaces k
      have hold := hs.le k
      omega
    · intro hn k
      obtain ⟨lost, heq, hlost⟩ := hplaces k
      have hold := hs.eq (hn.imp_right hunbroken) k
      have hkept := hlost hn
      omega
  · have hplaces := hquiet.places
    obtain ⟨⟨jobs, hjobs, hstart⟩, -, hworld⟩ := hquiet
    constructor
    · intro j hj
      rw [hjobs] at hj
      rcases List.mem_append.1 hj with hj | hj
      · exact hs.ending j hj
      · obtain ⟨r, hr⟩ := hstart j hj
        rw [hr]; trivial
    · intro k
      rw [hplaces, hworld]
      exact hs.le k
    · intro hn k
      rw [hplaces, hworld]
      exact hs.eq (hn.imp_right hunbroken) k

/-- The balance holds in every state that is reached. -/
theorem Reachable.balanced {w : ω} {s : Traffic β (Nat × ι) (Trace × ω)}
    (hs : Reachable b.traced ({}, w) s) : s.Balanced b := by
  refine hs.induct (Balanced b) ⟨?_, ?_, ?_⟩ fun s e h => h.step e
  · intro j hj; cases hj
  · intro k; exact Nat.le_refl 0
  · intro _ k; rfl

/-- An instance is in as many places as the balance counts. -/
theorem length_custody (s : Traffic β (Nat × ι) (Trace × ω)) (k : Nat) :
    (s.custody k).length = s.places k := by
  rw [custody, List.length_append, List.length_append, List.length_map,
    length_flatMap_zipIdx s.jobs _ fun j => Collector.share k j.call.held,
    length_flatMap_zipIdx s.host.providers _ fun p => Collector.share k p.table.entries]
  · rw [places, heldShare, tableShare, Host.contents, List.map_map]
    rfl
  · intro p place
    rw [List.length_map]
    rfl
  · intro j i
    rw [List.length_append, List.length_map, List.length_map, Call.held, Collector.share_append]
    rfl

/-- A job that is done holds nothing. -/
theorem held_of_isDone {call : Call β ι} (h : call.isDone = true) : call.held = [] := by
  cases call <;> first | rfl | cases h

/-- The calls that ended an instance are the ends among the places where it is. -/
theorem filterMap_custody (s : Traffic β (Nat × ι) (Trace × ω)) (k : Nat) :
    (s.custody k).filterMap Custody.ended? = s.world.1.partings k := by
  have hjobs : ∀ c ∈ (s.jobs.zipIdx.flatMap fun (j, i) =>
      ((numbered k j.call.unregistered).map fun _ => Custody.unregistered i) ++
        (numbered k j.call.detached).map fun _ => Custody.detached i), c.ended? = none := by
    intro c hc
    obtain ⟨⟨j, i⟩, -, hc⟩ := List.mem_flatMap.1 hc
    rcases List.mem_append.1 hc with hc | hc <;> obtain ⟨_, -, rfl⟩ := List.mem_map.1 hc <;> rfl
  have htables : ∀ c ∈ (s.host.providers.zipIdx.flatMap fun (p, place) =>
      (numbered k p.table.entries).map fun c => Custody.registered place c.id),
      c.ended? = none := by
    intro c hc
    obtain ⟨⟨p, place⟩, -, hc⟩ := List.mem_flatMap.1 hc
    obtain ⟨_, -, rfl⟩ := List.mem_map.1 hc
    rfl
  rw [custody, List.filterMap_append, List.filterMap_append,
    List.filterMap_eq_nil_iff.2 hjobs, List.filterMap_eq_nil_iff.2 htables, List.filterMap_map]
  exact List.filterMap_some

/-- Where an instance is that no job holds. -/
theorem mem_custody_of_isDone {s : Traffic β (Nat × ι) (Trace × ω)} {k : Nat} {x : Custody}
    (hdone : ∀ j ∈ s.jobs, j.call.isDone = true) (hx : x ∈ s.custody k) :
    (∃ place id, x = .registered place id) ∨ ∃ how, x = .ended how := by
  rcases List.mem_append.1 hx with hx | hx
  · rcases List.mem_append.1 hx with hx | hx
    · obtain ⟨⟨j, i⟩, hj, hx⟩ := List.mem_flatMap.1 hx
      have hheld : j.call.held = [] := held_of_isDone (hdone j (List.fst_mem_of_mem_zipIdx hj))
      obtain ⟨hfresh, hdetached⟩ := List.append_eq_nil_iff.1 hheld
      simp [hfresh, hdetached, numbered] at hx
    · obtain ⟨⟨p, place⟩, -, hx⟩ := List.mem_flatMap.1 hx
      obtain ⟨c, -, rfl⟩ := List.mem_map.1 hx
      exact .inl ⟨place, c.id, rfl⟩
  · obtain ⟨how, -, rfl⟩ := List.mem_map.1 hx
    exact .inr ⟨how, rfl⟩

/-- **Every instance is in exactly one place.** In every state that any schedule of calls leads
to, an instance that was made is with one job that has not entered it, under one id in one table,
with one job that detached it, or at its end; it got no call that ends it before its end, and one
call that did at its end. Once all jobs are done only the table and the end are left. -/
theorem custody_unique (hb : b.Closes) {w : ω} {s : Traffic β (Nat × ι) (Trace × ω)}
    (hs : Reachable b.traced ({}, w) s) {k : Nat} (hk : k < s.world.1.made) :
    ∃ x, s.custody k = [x] ∧ s.world.1.partings k = x.ended?.toList ∧
      ((∀ j ∈ s.jobs, j.call.isDone = true) →
        (∃ place id, x = .registered place id) ∨ ∃ how, x = .ended how) := by
  have hlength : (s.custody k).length = 1 := by
    rw [length_custody, hs.balanced.eq (.inl hb), Trace.due, if_pos hk]
  obtain ⟨x, hx⟩ := List.length_eq_one_iff.1 hlength
  refine ⟨x, hx, ?_, ?_⟩
  · rw [← filterMap_custody, hx]
    cases x <;> rfl
  · intro hdone
    exact mem_custody_of_isDone hdone (hx ▸ List.mem_singleton_self x)

/-- The id whose bytes are all zero. -/
def nilId : CollectorId := ⟨.replicate 16 0, rfl⟩

/-- A request for a collector that is overtaken by a shutdown once its instance is made. -/
def overtaken : List (Event Unit) :=
  [.make {} (),
    .request 0 (.instantiate .create none Dummy.backendName none nilId),
    .job 0, .job 0, .job 0, .job 0, .request 0 .shutdown, .job 1, .job 1, .job 0]

/-- The refused instance of an overtaken request is with its job, which is to close it. -/
theorem custody_overtaken :
    let s := run Dummy.behaviour.traced { world := ({}, {}) } overtaken
    0 < s.world.1.made ∧ s.custody 0 = [.unregistered 0] ∧
      ∃ x, s.custody 0 = [x] ∧ s.world.1.partings 0 = x.ended?.toList ∧
        ((∀ j ∈ s.jobs, j.call.isDone = true) →
          (∃ place id, x = .registered place id) ∨ ∃ how, x = .ended how) := by
  refine ⟨by decide, by decide, ?_⟩
  exact custody_unique (fun i w => by simp [Dummy.behaviour]) ⟨overtaken, rfl⟩ (by decide)

end Traffic

end Collectors
