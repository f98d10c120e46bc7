import Collectors.Proofs.Orders

/-!
# The answers add up

`Ledger.Sound` ties jobs, passages and tables to each other: a job stands where its arrivals and
departures say, and who came to a table is there or has left it. Every event keeps this, and so at
a place where all jobs have their answers the passages can be counted answer by answer
(`Ledger.Sound.answersAt`). `Ledger.Fresh` says that nobody comes twice.

`answers_addUp` puts it together with what holds of orders.
-/

namespace Collectors

variable {β ι ω : Type} {b : Behaviour β ι ω}

namespace Ledger

/-! ### Jobs and those who come and go -/

/-- Whether a ledger is in order: every job is where its request and its arrivals and departures
say, everyone in it came or went with a job at the place, and who came to a table is there or has
left it. -/
structure Sound (l : Ledger β ι ω) : Prop where
  length : l.requests.length = l.traffic.jobs.length
  tallies : ∀ (i : Nat) (r : Request) (j : Job β ι), l.requests[i]? = some r →
    l.traffic.jobs[i]? = some j →
    j.call.Tallies r (l.arrivals.countP fun x => x.job = i)
      (l.departures.countP fun x => x.job = i)
  placed : ∀ x ∈ l.arrivals ++ l.departures,
    ∃ j, l.traffic.jobs[x.job]? = some j ∧ j.place = x.place
  kept : ∀ place, (passing l.arrivals place).Perm
    (l.traffic.host.entries place ++ passing l.departures place)

/-- A job that there is not yet has not brought anybody. -/
theorem Sound.countP_eq_zero {l : Ledger β ι ω} (hl : l.Sound) {xs : List (Passage ι)}
    (hxs : xs ⊆ l.arrivals ++ l.departures) {i : Nat} (hi : l.traffic.jobs.length ≤ i) :
    xs.countP (fun x => x.job = i) = 0 := by
  refine List.countP_eq_zero.2 fun x hx hjob => ?_
  obtain ⟨j, hj, -⟩ := hl.placed x (hxs hx)
  have hlt := (List.getElem?_eq_some_iff.1 hj).1
  have : x.job = i := by simpa using hjob
  omega

theorem Sound.notes {l l' : Ledger β ι ω} (hl : l.Sound) {asked : List Request}
    (h : Notes l l' asked) : l'.Sound where
  length := by
    obtain ⟨new, hnew, hstart⟩ := h.jobs
    have := congrArg List.length hstart
    simp only [List.length_map] at this
    rw [h.requests, hnew, List.length_append, List.length_append, hl.length, this]
  tallies i r j hr hj := by
    rw [h.arrivals, h.departures]
    by_cases hi : i < l.traffic.jobs.length
    · obtain ⟨new, hnew, -⟩ := h.jobs
      rw [hnew, List.getElem?_append_left hi] at hj
      rw [h.requests, List.getElem?_append_left (hl.length ▸ hi)] at hr
      exact hl.tallies i r j hr hj
    · obtain ⟨r', hr', hcall⟩ := h.start hl.length (Nat.not_lt.1 hi) hj
      obtain rfl := Option.some.inj (hr.symm.trans hr')
      rw [hcall, hl.countP_eq_zero (List.subset_append_left _ _) (Nat.not_lt.1 hi),
        hl.countP_eq_zero (List.subset_append_right _ _) (Nat.not_lt.1 hi)]
      exact ⟨rfl, rfl, rfl⟩
  placed x hx := by
    rw [h.arrivals, h.departures] at hx
    obtain ⟨j, hj, hplace⟩ := hl.placed x hx
    obtain ⟨new, hnew, -⟩ := h.jobs
    refine ⟨j, ?_, hplace⟩
    rw [hnew, List.getElem?_append_left (List.getElem?_eq_some_iff.1 hj).1, hj]
  kept place := by
    rw [h.arrivals, h.departures, h.entries]
    exact hl.kept place

theorem Sound.records (hb : b.Candid) {l l' : Ledger β ι ω} (hl : l.Sound) {i : Nat} {j : Job β ι}
    {p : Provider β ι} (h : Records b l l' i j p) : l'.Sound where
  length := by rw [h.requests, h.jobs, List.length_set, hl.length]
  tallies i' r j' hr hj' := by
    rw [h.requests] at hr
    rw [h.jobs] at hj'
    rw [h.arrivals, h.departures, List.countP_append, List.countP_append, countP_passages,
      countP_passages]
    by_cases hi : i = i'
    · subst hi
      rw [List.getElem?_set_self (List.getElem?_eq_some_iff.1 h.job).1, Option.some.injEq] at hj'
      subst hj'
      rw [if_pos rfl, if_pos rfl]
      exact (hl.tallies i r j hr h.job).step hb p l.traffic.world
    · rw [List.getElem?_set_ne hi] at hj'
      rw [if_neg hi, if_neg hi]
      exact hl.tallies i' r j' hr hj'
  placed x hx := by
    -- Somebody new came or went with the job that took the step.
    have hcases : x ∈ l.arrivals ++ l.departures ∨ x.job = i ∧ x.place = j.place := by
      rw [h.arrivals, h.departures] at hx
      simp only [List.mem_append, passages, List.mem_map] at hx ⊢
      rcases hx with (hx | ⟨c, -, rfl⟩) | hx | ⟨c, -, rfl⟩
      · exact .inl (.inl hx)
      · exact .inr ⟨rfl, rfl⟩
      · exact .inl (.inr hx)
      · exact .inr ⟨rfl, rfl⟩
    have hlt := (List.getElem?_eq_some_iff.1 h.job).1
    rw [h.jobs]
    rcases hcases with hold | ⟨rfl, hplace⟩
    · obtain ⟨j', hj', hplace⟩ := hl.placed x hold
      by_cases hi : i = x.job
      · subst hi
        obtain rfl := Option.some.inj (h.job.symm.trans hj')
        exact ⟨_, List.getElem?_set_self hlt, hplace⟩
      · exact ⟨j', by rw [List.getElem?_set_ne hi, hj'], hplace⟩
    · exact ⟨_, List.getElem?_set_self hlt, hplace.symm⟩
  kept place := by
    have hold := hl.kept place
    rw [h.arrivals, h.departures, h.entries, passing_append, passing_append, passing_passages,
      passing_passages]
    split
    · rename_i hplace
      subst hplace
      rw [h.here] at hold
      exact perm_exchange hold (j.call.perm_step b p l.traffic.world)
    · simpa using hold

theorem Sound.step (hb : b.Candid) {l : Ledger β ι ω} (hl : l.Sound) (e : Traffic.Event β) :
    (l.step b e).Sound := by
  rcases l.step_cases b e with ⟨i, j, p, -, h⟩ | ⟨asked, h⟩
  · exact hl.records hb h
  · exact hl.notes h

theorem sound_start (w : ω) : Sound ({ traffic := { world := w } } : Ledger β ι ω) := by
  refine ⟨rfl, fun i r j hr => ?_, nofun, fun place => .nil⟩
  cases hr

/-! ### Sums over answers -/

/-- Those who came or left with a job came to the place of this job, or left it there. -/
theorem Sound.countP_at {l : Ledger β ι ω} (hl : l.Sound) {xs : List (Passage ι)}
    (hxs : xs ⊆ l.arrivals ++ l.departures) {i : Nat} {j : Job β ι}
    (hj : l.traffic.jobs[i]? = some j) (place : Nat) :
    (xs.filter fun x => x.place = place).countP (fun x => x.job = i) =
      if j.place = place then xs.countP (fun x => x.job = i) else 0 := by
  have hplace : ∀ x ∈ xs, x.job = i → x.place = j.place := by
    rintro x hx rfl
    obtain ⟨j', hget, hplace⟩ := hl.placed x (hxs hx)
    rw [← hplace, Option.some.inj (hj.symm.trans hget)]
  rw [List.countP_filter]
  split
  · rename_i hhere
    refine List.countP_congr fun x hx => ?_
    simpa using fun hjob => (hplace x hx hjob).trans hhere
  · rename_i hhere
    refine List.countP_eq_zero.2 fun x hx hboth => ?_
    simp only [Bool.and_eq_true, decide_eq_true_eq] at hboth
    exact hhere (hplace x hx hboth.1 ▸ hboth.2)

/-- **Those who came, or left, at a place are counted answer by answer**, once all jobs there have
their answers: as many as the answers tell. -/
theorem Sound.answersAt {l : Ledger β ι ω} (hl : l.Sound) {place : Nat}
    (hdone : ∀ j ∈ l.traffic.jobs, j.place = place → ∃ a, j.call = .finished a)
    {xs : List (Passage ι)} (hxs : xs ⊆ l.arrivals ++ l.departures)
    (f : Request × Except Error Answer → Nat)
    (hf : ∀ (i : Nat) (r : Request) (a : Except Error Answer), l.requests[i]? = some r →
      l.traffic.answer? i = some a → xs.countP (fun x => x.job = i) = f (r, a)) :
    (passing xs place).length = ((l.answersAt place).map f).sum := by
  have hlength : (l.requests.zip l.traffic.jobs).length = l.traffic.jobs.length := by
    rw [List.length_zip, hl.length, Nat.min_self]
  have hbound : ∀ x ∈ xs.filter fun x => x.place = place,
      x.job < (l.requests.zip l.traffic.jobs).length := by
    intro x hx
    obtain ⟨j, hj, -⟩ := hl.placed x (hxs (List.mem_filter.1 hx).1)
    exact hlength.symm ▸ (List.getElem?_eq_some_iff.1 hj).1
  -- Job by job: those who passed with it, and what its answer tells.
  rw [passing, List.length_map, ← sum_countP_range Passage.job hbound, Ledger.answersAt,
    sum_map_filterMap]
  refine congrArg List.sum (List.ext_getElem (by simp) fun i hi hi' => ?_)
  have hj : i < l.traffic.jobs.length := by
    rw [List.length_map, List.length_range, hlength] at hi
    exact hi
  rw [List.getElem_map, List.getElem_map, List.getElem_zip, List.getElem_range,
    hl.countP_at hxs (List.getElem?_eq_getElem hj)]
  dsimp only
  split
  · rename_i hhere
    obtain ⟨a, ha⟩ := hdone _ (List.getElem_mem hj) hhere
    have hanswer : l.traffic.answer? i = some a := by
      rw [Traffic.answer?, List.getElem?_eq_getElem hj, Option.bind_some, ha]
      rfl
    rw [ha, hf i _ a (List.getElem?_eq_getElem (hl.length ▸ hj)) hanswer]
    rfl
  · rfl

end Ledger

/-! ### Those who come are new -/

open Collector (share)

theorem Trace.Becomes.due_le {t t' : Trace} (h : t.Becomes t') (k : Nat) : t.due k ≤ t'.due k := by
  have := h.made
  unfold Trace.due
  split_ifs <;> omega

theorem Call.unregistered_of_held {call : Call β ι} (h : call.held = []) : call.unregistered = [] :=
  (List.append_eq_nil_iff.1 h).1

theorem Call.unregistered_ofRemoval (r : Removal ι) :
    (ofRemoval r : Call β ι).unregistered = [] := by
  cases r <;> rfl

theorem Behaviour.Candid.traced (hb : b.Candid) : b.traced.Candid :=
  fun i w e h => hb i.2 w.2 e h

/-- **Who comes into a table was in the hands of the call**, and a call has nobody in its hands but
who was just made. -/
theorem Call.step_fresh (b : Behaviour β ι ω) (k : Nat) (call : Call β (Nat × ι))
    (p : Provider β (Nat × ι)) (w : Trace × ω) :
    let next := call.step b.traced p w
    share k next.call.unregistered +
        share k (Collector.beyond next.provider.table.entries p.table.entries) + w.1.due k ≤
      share k call.unregistered + next.world.1.due k := by
  intro next
  have hdue : w.1.due k ≤ next.world.1.due k := (call.step_becomes b p w).due_le k
  -- Most steps bring nobody, and leave nobody in the hands of the call.
  have hplain : next.call.unregistered = [] → next.provider.table.entries ⊆ p.table.entries →
      share k next.call.unregistered +
          share k (Collector.beyond next.provider.table.entries p.table.entries) + w.1.due k ≤
        share k call.unregistered + next.world.1.due k := by
    intro hcall hentries
    rw [hcall, Collector.beyond_eq_nil_of_subset hentries, Collector.share_nil]
    omega
  cases call with
  | start r => exact hplain (unregistered_of_held (held_begin p r)) (List.Subset.refl _)
  | checkClosed | findBackend =>
    refine hplain ?_ (List.Subset.refl _)
    simp only [next, step]
    split <;> rfl
  | instantiate made mode backend config id =>
    obtain ⟨tr, w⟩ := w
    rcases h : b.instantiate made mode config w with ⟨_ | (e | i), w'⟩
    · exact hplain (by simp [next, step, Behaviour.traced, h]; rfl)
        (by simp [next, step, Behaviour.traced, h])
    · exact hplain (by simp [next, step, Behaviour.traced, h]; rfl)
        (by simp [next, step, Behaviour.traced, h])
    · simp only [next, step, Behaviour.traced, h, Collector.beyond_self, unregistered,
        Collector.share_nil, Collector.share_singleton, Trace.due, Trace.made_make]
      split_ifs <;> omega
  | insert c =>
    rcases p.table.insert_cases c with ⟨-, h⟩ | ⟨-, -, h⟩ | ⟨-, hfresh, t, h, hentries, -⟩
    · simp [next, step, h, Collector.beyond_self, unregistered]
    · simp [next, step, h, Collector.beyond_self, unregistered]
    · simp [next, step, h, hentries, Collector.beyond_append hfresh, unregistered]
  | closeRefused | destroy =>
    refine hplain ?_ ?_ <;>
    · simp only [next, step]
      split <;> first | rfl | exact List.Subset.refl _
  | detachToDestroy id =>
    rcases p.table.take_cases id with ⟨-, h⟩ | ⟨c, -, -, h⟩
    · exact hplain (by simp [next, step, h]; rfl) (by simp [next, step, h])
    · exact hplain (by simp [next, step, h]; rfl)
        (by simp [next, step, h, Table.entries_without])
  | remove r =>
    exact hplain (unregistered_ofRemoval _) (r.entries_step_subset _ _ _)
  | hello | sum | invoke =>
    exact hplain (unregistered_of_held (held_ofOutcome _ _)) (List.Subset.refl _)
  | list | finished | broken => exact hplain rfl (List.Subset.refl _)

namespace Ledger

/-- Whether everyone who came, or is in the hands of a job that is to enter it, was made, and came
only once. -/
def Fresh (l : Ledger β (Nat × ι) (Trace × ω)) : Prop :=
  ∀ k, (l.traffic.jobs.map fun j => share k j.call.unregistered).sum +
    share k (l.arrivals.map Passage.collector) ≤ l.traffic.world.1.due k

theorem Fresh.step {l : Ledger β (Nat × ι) (Trace × ω)} (hl : l.Fresh) (e : Traffic.Event β) :
    (l.step b.traced e).Fresh := by
  intro k
  have hold := hl k
  rcases l.step_cases b.traced e with ⟨i, j, p, -, h⟩ | ⟨asked, h⟩
  · have hjobs := sum_map_set (fun j : Job β (Nat × ι) => share k j.call.unregistered) h.job
      { j with call := (j.call.step b.traced p l.traffic.world).call }
    have hstep := j.call.step_fresh b k p l.traffic.world
    rw [h.jobs, h.arrivals, h.world, List.map_append, map_collector_passages,
      Collector.share_append]
    dsimp only at hjobs hstep
    omega
  · obtain ⟨new, hnew, hstart⟩ := h.jobs
    have hzero : (new.map fun j => share k j.call.unregistered).sum = 0 := by
      have hcalls : (new.map fun j => share k j.call.unregistered) =
          (new.map Job.call).map fun call => share k call.unregistered := by
        rw [List.map_map]
        rfl
      rw [hcalls, hstart, List.map_map]
      exact List.sum_eq_zero_iff_forall_eq_nat.2 fun n hn => by
        obtain ⟨r, -, rfl⟩ := List.mem_map.1 hn
        rfl
    rw [hnew, h.arrivals, h.world, List.map_append, List.sum_append, hzero]
    exact hold

/-- Everyone who came has a number of their own. -/
theorem Fresh.nodup {l : Ledger β (Nat × ι) (Trace × ω)} (hl : l.Fresh) :
    (l.arrivals.map fun x => x.collector.resource.1).Nodup := by
  refine List.nodup_iff_count_le_one.2 fun k => ?_
  have hcount : (l.arrivals.map fun x => x.collector.resource.1).count k =
      share k (l.arrivals.map Passage.collector) := by
    rw [share, Collector.numbered, ← List.countP_eq_length_filter, List.countP_map, List.count,
      List.countP_map]
    exact List.countP_congr fun x _ => by simp
  have := hl k
  have := l.traffic.world.1.due_le k
  omega

/-! ### The answers add up -/

/-- A job that has its answer has come to its end with it. -/
theorem Sound.tallies_of_answer {l : Ledger β ι ω} (hl : l.Sound) {i : Nat} {r : Request}
    (hr : l.requests[i]? = some r) {a : Except Error Answer} (ha : l.traffic.answer? i = some a) :
    (Call.finished a : Call β ι).Tallies r (l.arrivals.countP fun x => x.job = i)
      (l.departures.countP fun x => x.job = i) := by
  obtain ⟨j, hj, hresult⟩ := Option.bind_eq_some_iff.1 ha
  have htallies := hl.tallies i r j hr hj
  cases hcall : j.call with
  | finished a' =>
    rw [hcall] at htallies hresult
    obtain rfl := Option.some.inj hresult
    exact htallies
  | _ => rw [hcall] at hresult; cases hresult

/-- An answer tells how many came and left with the job. -/
theorem Sound.told {l : Ledger β ι ω} (hl : l.Sound) {i : Nat} {r : Request}
    (hr : l.requests[i]? = some r) {a : Except Error Answer} (ha : l.traffic.answer? i = some a) :
    l.arrivals.countP (fun x => x.job = i) = entered (r, a) ∧
      l.departures.countP (fun x => x.job = i) = removed (r, a) :=
  have h := hl.tallies_of_answer hr ha
  ⟨h.1, h.2.1⟩

/-- A job that broke down has brought nobody. -/
theorem Sound.countP_of_broken {l : Ledger β ι ω} (hl : l.Sound) {i : Nat} {j : Job β ι}
    (hj : l.traffic.jobs[i]? = some j) (hbroken : j.call = .broken) :
    l.arrivals.countP (fun x => x.job = i) = 0 := by
  have hlt : i < l.requests.length := hl.length ▸ (List.getElem?_eq_some_iff.1 hj).1
  have htallies := hl.tallies i _ j (List.getElem?_eq_getElem hlt) hj
  rw [hbroken] at htallies
  exact htallies

/-- **The equation**, at a place where all jobs have their answers. -/
theorem Sound.sum {l : Ledger β ι ω} (hl : l.Sound) {place : Nat}
    (hdone : ∀ j ∈ l.traffic.jobs, j.place = place → ∃ a, j.call = .finished a) :
    (l.answersAt place).countP tellsEntered =
      (l.traffic.host.entries place).length + (l.answersAt place).countP tellsClosed +
        (l.answersAt place).countP tellsDestroyed + ((l.answersAt place).map counted).sum := by
  have harrived := hl.answersAt hdone (List.subset_append_left _ _) entered
    fun i r a hr ha => (hl.told hr ha).1
  have hdeparted := hl.answersAt hdone (List.subset_append_right _ _) removed
    fun i r a hr ha => (hl.told hr ha).2
  have hkept := (hl.kept place).length_eq
  have hentered : ((l.answersAt place).map entered).sum =
      (l.answersAt place).countP tellsEntered := sum_map_ite tellsEntered _
  have hremoved : ((l.answersAt place).map removed).sum =
      (l.answersAt place).countP tellsClosed + (l.answersAt place).countP tellsDestroyed +
        ((l.answersAt place).map counted).sum := by
    rw [← sum_map_ite, ← sum_map_ite, ← List.sum_map_add, ← List.sum_map_add]
    rfl
  rw [List.length_append] at hkept
  omega

/-- What the answers tell of those who came and left, as a ledger has them. -/
structure AddsUp (l : Ledger β (Nat × ι) (Trace × ω)) : Prop where
  /-- Nobody comes twice: all who came have numbers of their own. -/
  fresh : (l.arrivals.map fun x => x.collector.resource.1).Nodup
  /-- Who came to a table is there or has left it, and nobody else. -/
  kept : ∀ place, (passing l.arrivals place).Perm
    (l.traffic.host.entries place ++ passing l.departures place)
  /-- Everybody came or left with one job, at its place. -/
  placed : ∀ x ∈ l.arrivals ++ l.departures,
    ∃ j, l.traffic.jobs[x.job]? = some j ∧ j.place = x.place
  /-- The answer of a job tells how many came and left with it. -/
  told : ∀ (i : Nat) (r : Request) (a : Except Error Answer), l.requests[i]? = some r →
    l.traffic.answer? i = some a →
    l.arrivals.countP (fun x => x.job = i) = entered (r, a) ∧
      l.departures.countP (fun x => x.job = i) = removed (r, a)
  /-- A job that broke down, so that it has no answer, came with nobody: all that is to be known of it
  is who left with it. -/
  broken : ∀ (i : Nat) (j : Job β (Nat × ι)), l.traffic.jobs[i]? = some j → j.call = .broken →
    l.arrivals.countP (fun x => x.job = i) = 0
  /-- Once all jobs at a place have their answers, so many were entered there as are there, were
  closed or destroyed one by one, or were counted by a shutdown. -/
  sum : ∀ place : Nat,
    (∀ j ∈ l.traffic.jobs, j.place = place → ∃ a, j.call = .finished a) →
    (l.answersAt place).countP tellsEntered =
      (l.traffic.host.entries place).length + (l.answersAt place).countP tellsClosed +
        (l.answersAt place).countP tellsDestroyed + ((l.answersAt place).map counted).sum
  /-- An order was handed to jobs, which were asked what the order says. -/
  handed : ∀ (k : Nat) (o : Order) (e : Errand), l.orders[k]? = some o →
    l.traffic.errands[k]? = some e → ∀ i ∈ e.jobs, l.requests[i]? = some o.handed
  /-- And it was handed to nobody, or is answered what they answered. -/
  answered : ∀ (k : Nat) (o : Order) (e : Errand), l.orders[k]? = some o →
    l.traffic.errands[k]? = some e → ∀ result, e.stage = .finished result →
    (∀ i ∈ e.jobs, ∃ a, l.traffic.answer? i = some a) →
    l.traffic.Accounts e.jobs result o ∨
      (o ≠ .shutdown ∧ e.jobs = [] ∧ ∃ err, result = some (.error err))
  /-- No two orders were handed to one job. -/
  apart : (l.traffic.errands.flatMap Errand.jobs).Nodup

/-- **The answers add up**, whatever calls are made and however their steps follow one another. -/
theorem answers_addUp (hb : b.Candid) (w : ω) (es : List (Traffic.Event β)) :
    let l := run b.traced { traffic := { world := ({}, w) } } es
    l.traffic = Traffic.run b.traced { world := ({}, w) } es ∧ l.AddsUp := by
  intro l
  have hfresh : l.Fresh := run_induct (fun l e hl => hl.step e) (fun k => Nat.zero_le _) es
  obtain ⟨hsound, hserved⟩ : l.Sound ∧ l.Served :=
    run_induct (motive := fun l => l.Sound ∧ l.Served)
      (fun l e hl => ⟨hl.1.step hb.traced e, hl.2.step b.traced hl.1.length e⟩)
      ⟨sound_start _, served_start _⟩ es
  refine ⟨traffic_run b.traced _ es, ?_⟩
  constructor
  case fresh => exact hfresh.nodup
  case kept => exact hsound.kept
  case placed => exact hsound.placed
  case told => exact fun i r a hr ha => hsound.told hr ha
  case broken => exact fun i j hj hbroken => hsound.countP_of_broken hj hbroken
  case sum => exact fun place hdone => hsound.sum hdone
  case handed => exact hserved.handed
  case apart => exact hserved.apart
  case answered =>
    intro k o e ho he result hstage hanswered
    refine (hserved.follows k o e ho he).accounts hstage fun hshutdown i hi => ?_
    obtain ⟨a, ha⟩ := hanswered i hi
    have hasked := hserved.handed k o e ho he i hi
    obtain ⟨n, rfl⟩ := (hsound.tallies_of_answer hasked ha).2.2 hshutdown
    exact ⟨n, ha⟩

/-- Two collectors are made, one of them is closed, and a deregistration closes the other. -/
def bookings : List (Traffic.Event Unit) :=
  [.make {} (), .attach 0,
    .request 0 (.instantiate .create none Dummy.backendName none Traffic.nilId),
    .request 0 (.instantiate .open none Dummy.backendName none ⟨.replicate 16 1, rfl⟩),
    .job 0, .job 1, .job 0, .job 1, .job 0, .job 1, .job 0, .job 1, .job 0, .job 1,
    .request 0 (.close none Traffic.nilId),
    .order (.deregister ({} : ProviderConfig).providerId), .errand 0, .errand 0,
    .job 2, .job 3, .job 2, .job 3, .job 2, .job 3, .job 3, .job 3, .errand 0]

theorem answers_addUp_bookings :
    Dummy.behaviour.Candid ∧
      let l := run Dummy.behaviour.traced { traffic := { world := ({}, {}) } } bookings
      l.AddsUp ∧ (l.answersAt 0).map entered = [1, 1, 0, 0] ∧
        (l.answersAt 0).map removed = [0, 0, 1, 1] ∧ l.traffic.host.entries 0 = [] := by
  have hb : Dummy.behaviour.Candid := fun i w e h => by simp [Dummy.behaviour] at h
  refine ⟨hb, (answers_addUp hb {} bookings).2, ?_, ?_, ?_⟩ <;> decide

end Ledger
end Collectors
