import Mathlib.Data.List.Basic
import Collectors.Host.Traffic
import Collectors.Proofs.Lists

/-!
# What an event does to a host

`Errand.Move` says everything that a step of an errand can lead to, and `Traffic.Turn` says it of
every event; `Traffic.step_turn` is what other proofs use of `Traffic.step`.

`Host.contents` is what the tables of all providers hold, and whether they are closed. A step of a
job is one `Call.step` on the provider at its place; every other event leaves the contents and the
jobs that there are as they were (`Traffic.step_quiet`): it may add jobs at their start and an
empty table.
-/

namespace Collectors

variable {β ι ω : Type}

namespace Host

/-! ### Looking at a host -/

/-- The live collectors of every provider, and whether its table is closed. -/
def contents (h : Host β ι) : List (List (Collector ι) × Bool) :=
  h.providers.map fun p => (p.table.entries, p.table.closed)

theorem provider?_eq_some {h : Host β ι} {place : Nat} {p : Provider β ι}
    (hp : h.provider? place = some p) :
    ∃ q, h.providers[place]? = some q ∧
      p = { q with table := { q.table with gauge := h.metrics.gauge? q.id } } := by
  rw [provider?, Option.map_eq_some_iff] at hp
  obtain ⟨q, hq, rfl⟩ := hp
  exact ⟨q, hq, rfl⟩

theorem contents_of_provider? {h : Host β ι} {place : Nat} {p : Provider β ι}
    (hp : h.provider? place = some p) :
    h.contents[place]? = some (p.table.entries, p.table.closed) := by
  obtain ⟨q, hq, rfl⟩ := provider?_eq_some hp
  simp [contents, hq]

theorem provider?_isSome {h : Host β ι} {place : Nat} (hplace : place < h.providers.length) :
    ∃ p, h.provider? place = some p := by
  rw [provider?, List.getElem?_eq_getElem hplace]
  exact ⟨_, rfl⟩

@[simp] theorem providers_put (h : Host β ι) (place : Nat) (p : Provider β ι) :
    (h.put place p).providers = h.providers.set place p := rfl

@[simp] theorem attached_put (h : Host β ι) (place : Nat) (p : Provider β ι) :
    (h.put place p).attached = h.attached := rfl

theorem contents_put (h : Host β ι) (place : Nat) (p : Provider β ι) :
    (h.put place p).contents = h.contents.set place (p.table.entries, p.table.closed) := by
  rw [contents, contents, providers_put, List.map_set]

/-- Storing a provider whose table is as it was changes no contents. -/
theorem contents_put_same {h : Host β ι} {place : Nat} {p : Provider β ι} (q : Provider β ι)
    (hp : h.provider? place = some p) (hq : q.table = p.table) :
    (h.put place q).contents = h.contents := by
  have hc := contents_of_provider? hp
  obtain ⟨hlt, hget⟩ := List.getElem?_eq_some_iff.1 hc
  rw [contents_put, hq, ← hget, List.set_getElem_self]

theorem mem_of_lookup {id : ProviderId} {place : Nat} {l : List (ProviderId × Nat)}
    (h : l.lookup id = some place) : (id, place) ∈ l := by
  induction l with
  | nil => cases h
  | cons entry l ih =>
    rw [List.lookup_cons] at h
    by_cases hid : id = entry.1
    · subst hid
      simp only [beq_self_eq_true, Option.some.injEq] at h
      subst h
      exact List.mem_cons_self
    · rw [show (id == entry.1) = false by simpa using hid] at h
      exact List.mem_cons_of_mem _ (ih h)

/-- Detaching a provider: it is attached and leaves, or it is not attached. -/
theorem detach_cases (h : Host β ι) (id : ProviderId) :
    (id ∉ h.ids ∧ h.detach id = .error (.invalidProvider id)) ∨
    ∃ place, (id, place) ∈ h.attached ∧ h.detach id =
      .ok (place, { h with attached := h.attached.filter fun entry => entry.1 ≠ id }) := by
  unfold detach find
  cases hl : h.attached.lookup id with
  | none => exact .inl ⟨lookup_eq_none_iff.1 hl, rfl⟩
  | some place => exact .inr ⟨place, mem_of_lookup hl, rfl⟩

end Host

/-! ### What an event can lead to -/

/-- What a step of an errand `e` can lead to on a host: the errand then, the jobs that it starts,
and the attached providers then. -/
inductive Errand.Move (s : Traffic β ι ω) (e : Errand) :
    Errand → List (Job β ι) → List (ProviderId × Nat) → Prop where
  | request {id place r} (stage : e.stage = .start (.request id r))
      (mem : (id, place) ∈ s.host.attached) :
      Move s e { e with stage := .await, jobs := [s.jobs.length] }
        [{ place, call := .start r }] s.host.attached
  | refuse {o} (err : Error) (stage : e.stage = .start o) (ne : o ≠ .shutdown) :
      Move s e { e with stage := .finished (some (.error err)) } [] s.host.attached
  | deregister {id place} (stage : e.stage = .start (.deregister id))
      (mem : (id, place) ∈ s.host.attached) :
      Move s e { e with stage := .begin, detached := [place] } []
        (s.host.attached.filter fun entry => entry.1 ≠ id)
  | shutdown (stage : e.stage = .start .shutdown) :
      Move s e { e with stage := .detach s.host.ids } [] s.host.attached
  | detach {id place rest} (stage : e.stage = .detach (id :: rest))
      (mem : (id, place) ∈ s.host.attached) :
      Move s e { e with stage := .detach rest, detached := e.detached ++ [place] } []
        (s.host.attached.filter fun entry => entry.1 ≠ id)
  | skip {id rest} (stage : e.stage = .detach (id :: rest)) (notMem : id ∉ s.host.ids) :
      Move s e { e with stage := .detach rest } [] s.host.attached
  | detachedAll (stage : e.stage = .detach []) :
      Move s e { e with stage := .begin } [] s.host.attached
  | begin (stage : e.stage = .begin) :
      Move s e { e with stage := .join, jobs := List.range' s.jobs.length e.detached.length }
        (e.detached.map fun place => { place, call := .start .shutdown }) s.host.attached
  | answer (stage : e.stage = .await) (done : e.jobs.all s.isDone = true) :
      Move s e { e with stage := .finished (e.jobs.head?.bind s.answer?) } [] s.host.attached
  | join (stage : e.stage = .join) (done : e.jobs.all s.isDone = true) :
      Move s e { e with stage := .finished ((s.total e.jobs).map fun n => .ok (.count n)) } []
        s.host.attached

namespace Traffic

theorem stepErrandAs_cases (s : Traffic β ι ω) (i : Nat) (e : Errand) :
    s.stepErrandAs i e = s ∨ ∃ e' jobs attached, Errand.Move s e e' jobs attached ∧
      s.stepErrandAs i e =
        { s with
          host := { s.host with attached }, jobs := s.jobs ++ jobs,
          errands := s.errands.set i e' } := by
  have hnone : ∀ e' attached, Errand.Move s e e' [] attached →
      ∃ e'' jobs attached', Errand.Move s e e'' jobs attached' ∧
        { s with host := { s.host with attached }, errands := s.errands.set i e' } =
          { s with
            host := { s.host with attached := attached' }, jobs := s.jobs ++ jobs,
            errands := s.errands.set i e'' } :=
    fun e' attached h => ⟨e', [], attached, h, by rw [List.append_nil]⟩
  unfold stepErrandAs
  split
  · rename_i id r hstage
    unfold Host.find
    cases hl : s.host.attached.lookup id with
    | none => exact .inr (hnone _ _ (.refuse _ hstage (by simp)))
    | some place => exact .inr ⟨_, _, _, .request hstage (Host.mem_of_lookup hl), rfl⟩
  · rename_i id hstage
    rcases s.host.detach_cases id with ⟨-, hd⟩ | ⟨place, hmem, hd⟩ <;> rw [hd]
    · exact .inr (hnone _ _ (.refuse _ hstage (by simp)))
    · exact .inr (hnone _ _ (.deregister hstage hmem))
  · rename_i hstage
    exact .inr (hnone _ _ (.shutdown hstage))
  · rename_i hstage
    exact .inr (hnone _ _ (.detachedAll hstage))
  · rename_i id rest hstage
    rcases s.host.detach_cases id with ⟨hid, hd⟩ | ⟨place, hmem, hd⟩ <;> rw [hd]
    · exact .inr (hnone _ _ (.skip hstage hid))
    · exact .inr (hnone _ _ (.detach hstage hmem))
  · rename_i hstage
    exact .inr ⟨_, _, _, .begin hstage, rfl⟩
  · rename_i hstage
    split
    · rename_i hdone
      exact .inr (hnone _ _ (.answer hstage hdone))
    · exact .inl rfl
  · rename_i hstage
    split
    · rename_i hdone
      exact .inr (hnone _ _ (.join hstage hdone))
    · exact .inl rfl
  · exact .inl rfl

theorem stepErrand_cases (s : Traffic β ι ω) (i : Nat) :
    s.stepErrand i = s ∨ ∃ e e' jobs attached, s.errands[i]? = some e ∧
      Errand.Move s e e' jobs attached ∧ s.stepErrand i =
        { s with
          host := { s.host with attached }, jobs := s.jobs ++ jobs,
          errands := s.errands.set i e' } := by
  unfold stepErrand
  cases he : s.errands[i]? with
  | none => exact .inl rfl
  | some e =>
    rcases s.stepErrandAs_cases i e with h | ⟨e', jobs, attached, hmove, h⟩
    · exact .inl h
    · exact .inr ⟨e, e', jobs, attached, rfl, hmove, h⟩

/-- What an event can lead to. -/
inductive Turn (b : Behaviour β ι ω) (s : Traffic β ι ω) : Event β → Traffic β ι ω → Prop where
  /-- Nothing happens: somebody waits, or has nothing to do, or is refused. -/
  | idle (e) : Turn b s e s
  | make {config dummy p} (new : Provider.new config dummy = some p) :
      Turn b s (.make config dummy)
        { s with host := { s.host with
            providers := s.host.providers ++ [p], metrics := s.host.metrics.setGauge p.id 0 } }
  | attach {place p} (found : s.host.providers[place]? = some p) (free : p.id ∉ s.host.ids) :
      Turn b s (.attach place)
        { s with host := { s.host with attached := Host.enter p.id place s.host.attached } }
  | addBackend {place name backend p} (registry) (found : s.host.provider? place = some p) :
      Turn b s (.addBackend place name backend)
        { s with host := s.host.put place { p with registry } }
  | tally (rpc status) :
      Turn b s (.tally rpc status)
        { s with host := { s.host with metrics := s.host.metrics.record rpc status } }
  | request {place} (r) (made : place < s.host.providers.length) :
      Turn b s (.request place r) { s with jobs := s.jobs ++ [{ place, call := .start r }] }
  | order (o) : Turn b s (.order o) { s with errands := s.errands ++ [{ stage := .start o }] }
  | job {i j p} (job : s.jobs[i]? = some j) (found : s.host.provider? j.place = some p) :
      Turn b s (.job i)
        { s with
          host := s.host.put j.place (j.call.step b p s.world).provider
          world := (j.call.step b p s.world).world
          jobs := s.jobs.set i { j with call := (j.call.step b p s.world).call } }
  | errand {i e e' jobs attached} (errand : s.errands[i]? = some e)
      (move : Errand.Move s e e' jobs attached) :
      Turn b s (.errand i)
        { s with
          host := { s.host with attached }, jobs := s.jobs ++ jobs,
          errands := s.errands.set i e' }

theorem step_turn (b : Behaviour β ι ω) (s : Traffic β ι ω) (e : Event β) :
    Turn b s e (s.step b e) := by
  cases e with
  | make config dummy =>
    simp only [step, Host.make]
    cases hnew : (Provider.new config dummy : Option (Provider β ι)) with
    | none => exact .idle _
    | some p => exact .make hnew
  | attach place =>
    simp only [step]
    cases hp : s.host.providers[place]? with
    | none => exact .idle _
    | some p =>
      dsimp only
      unfold Host.attach
      cases hl : s.host.attached.lookup p.id with
      | none => exact .attach hp (lookup_eq_none_iff.1 hl)
      | some other => exact .idle _
  | addBackend place name backend =>
    simp only [step]
    cases hp : s.host.provider? place with
    | none => exact .idle _
    | some p =>
      dsimp only
      unfold Provider.registerBackend
      cases p.registry.register name backend with
      | error e => exact .idle _
      | ok registry => exact .addBackend registry hp
  | tally rpc status => exact .tally rpc status
  | request place r =>
    simp only [step]
    by_cases hplace : place < s.host.providers.length
    · rw [if_pos hplace]; exact .request r hplace
    · rw [if_neg hplace]; exact .idle _
  | order o => exact .order o
  | job i =>
    simp only [step, stepJob]
    cases hj : s.jobs[i]? with
    | none => exact .idle _
    | some j =>
      cases hp : s.host.provider? j.place with
      | none =>
        obtain ⟨hlt, hget⟩ := List.getElem?_eq_some_iff.1 hj
        simp only [Host.step, hp]
        rw [← hget, List.set_getElem_self]
        exact .idle _
      | some p =>
        simp only [Host.step, hp]
        exact .job hj hp
  | errand i =>
    rcases s.stepErrand_cases i with h | ⟨_, _, _, _, he, hmove, h⟩
    · rw [step, h]; exact .idle _
    · rw [step, h]; exact .errand he hmove

/-! ### Schedules -/

theorem run_cons (b : Behaviour β ι ω) (s : Traffic β ι ω) (e : Event β) (es : List (Event β)) :
    run b s (e :: es) = run b (s.step b e) es := rfl

theorem run_append (b : Behaviour β ι ω) (s : Traffic β ι ω) (es es' : List (Event β)) :
    run b s (es ++ es') = run b (run b s es) es' := List.foldl_append

theorem Reachable.run {b : Behaviour β ι ω} {w : ω} {s : Traffic β ι ω} (hs : Reachable b w s)
    (es : List (Event β)) : Reachable b w (run b s es) := by
  obtain ⟨es₀, rfl⟩ := hs
  exact ⟨es₀ ++ es, run_append b _ es₀ es⟩

theorem Reachable.step {b : Behaviour β ι ω} {w : ω} {s : Traffic β ι ω} (hs : Reachable b w s)
    (e : Event β) : Reachable b w (s.step b e) := hs.run [e]

/-- What holds at the beginning and is kept by every event holds of every reachable state. -/
theorem Reachable.induct {b : Behaviour β ι ω} {w : ω} (motive : Traffic β ι ω → Prop)
    (start : motive { world := w })
    (step : ∀ s e, motive s → motive (s.step b e)) {s : Traffic β ι ω} (hs : Reachable b w s) :
    motive s := by
  obtain ⟨es, rfl⟩ := hs
  have key : ∀ (es : List (Event β)) s, motive s → motive (Traffic.run b s es) := by
    intro es
    induction es with
    | nil => intro s h; exact h
    | cons e es ih => intro s h; exact ih _ (step s e h)
  exact key es _ start

/-! ### Events that are no step of a job -/

/-- What an event other than a step of a job may do to jobs, tables and backends. -/
structure Quiet (s s' : Traffic β ι ω) : Prop where
  jobs : ∃ new, s'.jobs = s.jobs ++ new ∧ ∀ j ∈ new, ∃ r, j.call = .start r
  contents : ∃ new, s'.host.contents = s.host.contents ++ new ∧ ∀ t ∈ new, t = ([], false)
  world : s'.world = s.world

/-- An errand starts its jobs at their start. -/
theorem start_of_move {s : Traffic β ι ω} {e e' : Errand} {jobs : List (Job β ι)}
    {attached : List (ProviderId × Nat)} (h : Errand.Move s e e' jobs attached) :
    ∀ j ∈ jobs, ∃ r, j.call = .start r := by
  cases h <;> simp

/-- An event is a step of a job, or it leaves tables, backends and the jobs that there are as they
were. -/
theorem step_quiet (b : Behaviour β ι ω) (s : Traffic β ι ω) (e : Event β) :
    (∃ i j p, e = .job i ∧ s.jobs[i]? = some j ∧ s.host.provider? j.place = some p ∧
      s.step b e =
        { s with
          host := s.host.put j.place (j.call.step b p s.world).provider
          world := (j.call.step b p s.world).world
          jobs := s.jobs.set i { j with call := (j.call.step b p s.world).call } }) ∨
    Quiet s (s.step b e) := by
  have hhost : ∀ s' : Traffic β ι ω, s'.jobs = s.jobs → s'.host.contents = s.host.contents →
      s'.world = s.world → Quiet s s' := fun s' hj hh hw =>
    ⟨⟨[], by simpa using hj⟩, ⟨[], by simpa using hh⟩, hw⟩
  have hturn := s.step_turn b e
  generalize s.step b e = s' at hturn ⊢
  cases hturn with
  | idle => exact .inr (hhost _ rfl rfl rfl)
  | make new =>
    rename_i config dummy p
    refine .inr ⟨⟨[], by simp⟩, ⟨[([], false)], ?_, by simp⟩, rfl⟩
    simp only [Host.contents, List.map_append]
    unfold Provider.new at new
    split_ifs at new
    obtain rfl := Option.some.inj new
    rfl
  | attach => exact .inr (hhost _ rfl rfl rfl)
  | addBackend registry found => exact .inr (hhost _ rfl (Host.contents_put_same _ found rfl) rfl)
  | tally => exact .inr (hhost _ rfl rfl rfl)
  | request r => exact .inr ⟨⟨_, rfl, by simp⟩, ⟨[], by simp⟩, rfl⟩
  | order => exact .inr (hhost _ rfl rfl rfl)
  | job job found => exact .inl ⟨_, _, _, rfl, job, found, rfl⟩
  | errand errand move =>
    exact .inr ⟨⟨_, rfl, start_of_move move⟩, ⟨[], by simp [Host.contents]⟩, rfl⟩

end Traffic
end Collectors
