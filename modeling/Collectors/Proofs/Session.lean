import Collectors.Endpoint.Session
import Collectors.Proofs.Attachment
import Collectors.Proofs.Failures
import Collectors.Proofs.Gauges

/-!
# What sessions lead to

`Session.Did` says everything that one deed can lead to, and `Session.step_deeds` that an operation
is its deeds, one after another.

A session is traffic in which nobody acts before the last one has come to the end
(`Session.Passes`). So every state of a session is one that traffic leads to (`Session.Reached`),
and what holds of all traffic holds of sessions.
-/

namespace Collectors

variable {β ι ω : Type}

/-! ### Storing a provider twice -/

namespace Metrics

theorem lookup_assign {κ α : Type} [DecidableEq κ] [BEq κ] [LawfulBEq κ] (key other : κ)
    (value : α) (l : List (κ × α)) :
    (assign key value l).lookup other = if other = key then some value else l.lookup other := by
  induction l with
  | nil =>
    rw [assign, List.lookup_cons, List.lookup_nil]
    by_cases h : other = key
    · simp [h]
    · simp [h, beq_false_of_ne h]
  | cons entry l ih =>
    rw [assign]
    by_cases hkey : entry.1 = key
    · rw [if_pos hkey, List.lookup_cons, List.lookup_cons]
      by_cases h : other = key
      · simp [h]
      · simp [h, hkey, beq_false_of_ne h]
    · rw [if_neg hkey, List.lookup_cons, List.lookup_cons, ih]
      by_cases h : other = entry.1
      · simp [h, hkey]
      · simp [show (other == entry.1) = false from beq_false_of_ne h]

theorem assign_assign {κ α : Type} [DecidableEq κ] (key : κ) (value value' : α)
    (l : List (κ × α)) : assign key value' (assign key value l) = assign key value' l := by
  induction l with
  | nil => simp [assign]
  | cons entry l ih =>
    by_cases hkey : entry.1 = key
    · simp [assign, hkey]
    · simp [assign, hkey, ih]

theorem gauge?_setGauge (m : Metrics) (id other : ProviderId) (n : Nat) :
    (m.setGauge id n).gauge? other = if other = id then some n else m.gauge? other :=
  lookup_assign id other n m.gauges

end Metrics

namespace Host

/-- Whether a provider may be stored at a place: it is a later state of the one there. -/
structure Suits (h : Host β ι) (place : Nat) (p : Provider β ι) : Prop where
  lt : place < h.providers.length
  id : (h.providers.map Provider.id)[place]? = some p.id
  gauge : p.table.gauge.isSome = (h.metrics.gauge? p.id).isSome

variable {h : Host β ι} {place : Nat} {p q : Provider β ι}

theorem suits_of_provider? (hp : h.provider? place = some p) : h.Suits place p := by
  obtain ⟨q, hq, rfl⟩ := provider?_eq_some hp
  exact ⟨(List.getElem?_eq_some_iff.1 hq).1, by rw [List.getElem?_map, hq]; rfl, rfl⟩

/-- A step of a call makes a later state. -/
theorem Suits.step (hp : h.Suits place p) (b : Behaviour β ι ω) (call : Call β ι) (w : ω) :
    h.Suits place (call.step b p w).provider := by
  have hid := call.id_step b p w
  refine ⟨hp.lt, ?_, ?_⟩
  · rw [hid]
    exact hp.id
  · rw [call.isSome_gauge_step b p w, hid]
    exact hp.gauge

theorem gauge?_put (hp : h.Suits place p) (other : ProviderId) :
    (h.put place p).metrics.gauge? other =
      if other = p.id then p.table.gauge else h.metrics.gauge? other := by
  have hgauge := hp.gauge
  cases hshown : p.table.gauge with
  | some n =>
    rw [put, hshown]
    exact Metrics.gauge?_setGauge _ _ _ _
  | none =>
    rw [hshown] at hgauge
    rw [put, hshown]
    by_cases hother : other = p.id
    · rw [if_pos hother, hother]
      exact Option.isNone_iff_eq_none.1 (Option.isSome_eq_false_iff.1 hgauge.symm)
    · exact (if_neg hother).symm

/-- What was stored is loaded. -/
theorem Suits.provider?_put (hp : h.Suits place p) : (h.put place p).provider? place = some p := by
  rw [provider?, providers_put, List.getElem?_set_self hp.lt, Option.map_some, gauge?_put hp,
    if_pos rfl]

/-- What is stored last counts. -/
theorem Suits.put_put (hp : h.Suits place p) (hq : h.Suits place q) :
    (h.put place p).put place q = h.put place q := by
  obtain hid : p.id = q.id := Option.some.inj (hp.id.symm.trans hq.id)
  have hgauge : p.table.gauge.isSome = q.table.gauge.isSome := by
    rw [hp.gauge, hq.gauge, hid]
  unfold put
  cases hshown : p.table.gauge <;> cases hshown' : q.table.gauge <;>
    rw [hshown, hshown'] at hgauge
  · simp
  · cases hgauge
  · cases hgauge
  · simp [Metrics.setGauge, Metrics.assign_assign, hid]

/-- An attached provider is found. -/
theorem Sound.find (hs : h.Sound) {id : ProviderId} (hmem : (id, place) ∈ h.attached) :
    h.find id = .ok place := by
  rw [Host.find]
  cases hlookup : h.attached.lookup id with
  | none => exact absurd (List.mem_map_of_mem hmem) (lookup_eq_none_iff.1 hlookup)
  | some other =>
    have heq : (id, other) = (id, place) :=
      List.inj_on_of_nodup_map hs.nodup (mem_of_lookup hlookup) hmem rfl
    rw [(Prod.mk.inj heq).2]

theorem mem_of_find {id : ProviderId} (hfind : h.find id = .ok place) :
    (id, place) ∈ h.attached := by
  rw [Host.find] at hfind
  split at hfind
  · rename_i other hlookup
    obtain rfl := Except.ok.inj hfind
    exact mem_of_lookup hlookup
  · cases hfind

end Host

/-! ### What a deed leads to -/

namespace Session

/-- What a deed can lead to. -/
inductive Did (b : Behaviour β ι ω) (dummy : β) (s : Host β ι × ω) :
    Deed β → Host β ι × ω → Prop where
  /-- Nothing happens: there is nothing to attach or to detach, or it is refused. -/
  | idle {d} (still : ∀ place r, d = .perform place r → s.1.provider? place = none) :
      Did b dummy s d s
  | make {config p} (new : Provider.new config dummy = some p) :
      Did b dummy s (.make config)
        ({ s.1 with
            providers := s.1.providers ++ [p], metrics := s.1.metrics.setGauge p.id 0 }, s.2)
  | attach {place p} (found : s.1.providers[place]? = some p) (free : p.id ∉ s.1.ids) :
      Did b dummy s (.attach place)
        ({ s.1 with attached := Host.enter p.id place s.1.attached }, s.2)
  | detach {id place} (mem : (id, place) ∈ s.1.attached) :
      Did b dummy s (.detach id)
        ({ s.1 with attached := s.1.attached.filter fun entry => entry.1 ≠ id }, s.2)
  | addBackend {place name backend p registry} (found : s.1.provider? place = some p)
      (registered : p.registry.register name backend = .ok registry) :
      Did b dummy s (.addBackend place name backend) (s.1.put place { p with registry }, s.2)
  | perform {place p} (r) (found : s.1.provider? place = some p) :
      Did b dummy s (.perform place r)
        (s.1.put place (p.perform b r s.2).provider, (p.perform b r s.2).world)
  | tally (rpc status) : Did b dummy s (.tally rpc status) (Endpoint.record s.1 rpc status, s.2)

variable {b : Behaviour β ι ω} {dummy : β} {s s' : Host β ι × ω}

theorem act_did {d : Deed β} (h : act b dummy s d = some s') : Did b dummy s d s' := by
  cases d with
  | make config =>
    simp only [act, Host.make, Option.map_map, Option.map_eq_some_iff] at h
    obtain ⟨p, hp, rfl⟩ := h
    exact .make hp
  | attach place =>
    simp only [act] at h
    cases hp : s.1.providers[place]? with
    | none =>
      rw [hp] at h
      cases h
      exact .idle (by simp)
    | some p =>
      rw [hp] at h
      dsimp only at h
      unfold Host.attach at h
      cases hl : s.1.attached.lookup p.id with
      | none =>
        rw [hl] at h
        cases h
        exact .attach hp (lookup_eq_none_iff.1 hl)
      | some other =>
        rw [hl] at h
        cases h
        exact .idle (by simp)
  | detach id =>
    simp only [act] at h
    rcases s.1.detach_cases id with ⟨-, hd⟩ | ⟨place, hmem, hd⟩ <;> rw [hd] at h <;> cases h
    · exact .idle (by simp)
    · exact .detach hmem
  | addBackend place name backend =>
    simp only [act] at h
    cases hp : s.1.provider? place with
    | none =>
      rw [hp] at h
      cases h
      exact .idle (by simp)
    | some p =>
      rw [hp] at h
      dsimp only at h
      unfold Provider.registerBackend at h
      cases hr : p.registry.register name backend with
      | error e =>
        rw [hr] at h
        cases h
        exact .idle (by simp)
      | ok registry =>
        rw [hr] at h
        cases h
        exact .addBackend hp hr
  | perform place r =>
    simp only [act, Host.perform] at h
    cases hp : s.1.provider? place with
    | none =>
      rw [hp] at h
      cases h
      refine .idle ?_
      rintro place' r' ⟨⟩
      exact hp
    | some p =>
      rw [hp] at h
      cases h
      exact .perform r hp
  | tally rpc status =>
    cases h
    exact .tally rpc status

theorem act_perform {place : Nat} {p : Provider β ι} (hp : s.1.provider? place = some p)
    (r : Request) : act b dummy s (.perform place r) =
      some (s.1.put place (p.perform b r s.2).provider, (p.perform b r s.2).world) := by
  simp only [act, Host.perform, hp]

/-! ### What an operation leads to -/

/-- Does deeds one after another. -/
def acts (b : Behaviour β ι ω) (dummy : β) (s : Host β ι × ω) (ds : List (Deed β)) :
    Option (Host β ι × ω) :=
  ds.foldlM (act b dummy) s

theorem acts_cons (d : Deed β) (ds : List (Deed β)) :
    acts b dummy s (d :: ds) = (act b dummy s d).bind fun s => acts b dummy s ds := rfl

theorem acts_append (ds ds' : List (Deed β)) :
    acts b dummy s (ds ++ ds') = (acts b dummy s ds).bind fun s => acts b dummy s ds' :=
  List.foldlM_append

theorem acts_singleton (d : Deed β) : acts b dummy s [d] = act b dummy s d := by
  exact Option.bind_fun_some _

/-- Detaching all providers, one after another. -/
theorem detachAll_eq (b : Behaviour β ι ω) (dummy : β) {l : List (ProviderId × Nat)}
    (hnodup : (l.map Prod.fst).Nodup) (h : Host β ι) (hl : h.attached = l) :
    h.detachAll (l.map Prod.fst) = (l.map Prod.snd, { h with attached := [] }) ∧
      ∀ w, acts b dummy (h, w) (l.map fun entry => .detach entry.1) =
        some ({ h with attached := [] }, w) := by
  induction l generalizing h with
  | nil =>
    have hsame : { h with attached := [] } = h := by rw [← hl]
    rw [hsame]
    exact ⟨rfl, fun _ => rfl⟩
  | cons entry l ih =>
    rw [List.map_cons, List.nodup_cons] at hnodup
    -- The first one goes, and no other has its id.
    have hothers : ∀ other ∈ l, other.1 ≠ entry.1 := fun other hother heq =>
      hnodup.1 (heq ▸ List.mem_map_of_mem hother)
    have hrest : h.attached.filter (fun other => other.1 ≠ entry.1) = l := by
      rw [hl, List.filter_cons_of_neg (by simp), List.filter_eq_self.2 (by simpa using hothers)]
    have hdetach : h.detach entry.1 = .ok (entry.2, { h with attached := l }) := by
      have hfind : h.find entry.1 = .ok entry.2 := by
        rw [Host.find, hl, List.lookup_cons, beq_self_eq_true]
      rw [Host.detach, hfind, ← hrest]
      rfl
    obtain ⟨hall, hacts⟩ := ih hnodup.2 { h with attached := l } rfl
    constructor
    · rw [List.map_cons, Host.detachAll, hdetach]
      dsimp only
      rw [hall]
      rfl
    · intro w
      rw [List.map_cons, acts_cons, act, hdetach]
      exact hacts w

/-- Shutting down providers, one after another. -/
theorem shutdownEach_eq (dummy : β) (h : Host β ι) (w : ω) (total : Nat) (places : List Nat)
    (hresult : (h.shutdownEach b w total places).result.isSome = true) :
    acts b dummy (h, w) (places.map fun place => .perform place .shutdown) =
      some ((h.shutdownEach b w total places).host, (h.shutdownEach b w total places).world) := by
  induction places generalizing h w total with
  | nil => rfl
  | cons place places ih =>
    rw [Host.shutdownEach] at hresult ⊢
    dsimp only at hresult ⊢
    rw [List.map_cons, acts_cons]
    split at hresult
    · exact ih _ _ _ hresult
    · cases hresult

/-- **An operation is its deeds**, one after another. -/
theorem step_deeds (hs : s.1.Sound) {op : Operation β} (h : step b dummy s op = some s') :
    acts b dummy s (deeds b s op) = some s' := by
  cases op with
  | make config => rwa [deeds, acts_singleton]
  | attach place => rwa [deeds, acts_singleton]
  | addBackend place name backend => rwa [deeds, acts_singleton]
  | perform place r => rwa [deeds, acts_singleton]
  | register config =>
    simp only [step, Host.register, Host.make, Option.map_map, Option.map_eq_some_iff] at h
    obtain ⟨p, hp, rfl⟩ := h
    have hid : p.id = config.providerId := by
      unfold Provider.new at hp
      split at hp
      · cases hp; rfl
      · cases hp
    have hmade : (s.1.providers ++ [p])[s.1.providers.length]? = some p :=
      List.getElem?_concat_length
    simp only [deeds, acts_cons, act, Host.make, hp, Option.map_some, Option.bind_some, hmade, hid,
      Function.comp]
    cases Host.attach { s.1 with
        providers := s.1.providers ++ [p]
        metrics := s.1.metrics.setGauge config.providerId 0 } config.providerId
      s.1.providers.length <;> rfl
  | deregister id =>
    simp only [step, Host.deregister] at h
    rw [deeds]
    cases hfind : s.1.find id with
    | error e =>
      have hdetach : s.1.detach id = .error e := by rw [Host.detach, hfind]; rfl
      rw [hdetach] at h
      exact h
    | ok place =>
      have hdetach : s.1.detach id = .ok (place,
          { s.1 with attached := s.1.attached.filter fun entry => entry.1 ≠ id }) := by
        rw [Host.detach, hfind]
        rfl
      rw [hdetach] at h
      simp only [acts_cons, act, hdetach, Option.bind_some]
      exact h
  | shutdown =>
    obtain ⟨hall, hacts⟩ := detachAll_eq b dummy hs.nodup s.1 rfl
    simp only [step, Host.shutdownAll, Host.ids, hall, Option.map_eq_some_iff] at h
    obtain ⟨result, hresult, rfl⟩ := h
    have heach := shutdownEach_eq dummy _ s.2 0 _ (Option.isSome_of_eq_some hresult)
    rw [deeds, acts_append, hacts s.2, Option.bind_some]
    rw [List.map_map] at heach
    exact heach
  | answer limit mint r =>
    simp only [step, Endpoint.handle] at h
    rw [deeds]
    cases hplan : Endpoint.plan limit mint r s.1 with
    | respond response => rw [hplan] at h; exact h
    | metrics withBody => rw [hplan] at h; exact h
    | refuse rpc e => rw [hplan] at h; exact h
    | perform rpc place request => rw [hplan] at h; exact h

/-! ### Sessions as traffic -/

/-- Whether traffic, in whatever state, may lead a host and its backends from one state to
another. -/
def Passes (b : Behaviour β ι ω) (s s' : Host β ι × ω) : Prop :=
  ∀ t : Traffic β ι ω, t.host = s.1 → t.world = s.2 →
    ∃ es, (Traffic.run b t es).host = s'.1 ∧ (Traffic.run b t es).world = s'.2

theorem Passes.refl (s : Host β ι × ω) : Passes b s s := fun _ hhost hworld => ⟨[], hhost, hworld⟩

theorem Passes.trans {s'' : Host β ι × ω} (h : Passes b s s') (h' : Passes b s' s'') :
    Passes b s s'' := by
  intro t hhost hworld
  obtain ⟨es, hhost, hworld⟩ := h t hhost hworld
  obtain ⟨es', hhost, hworld⟩ := h' _ hhost hworld
  exact ⟨es ++ es', by rw [Traffic.run_append]; exact ⟨hhost, hworld⟩⟩

/-- A deed that is one event. -/
theorem passes_of_step {s s' : Host β ι × ω} (e : Traffic.Event β)
    (h : ∀ t : Traffic β ι ω, t.host = s.1 → t.world = s.2 →
      (t.step b e).host = s'.1 ∧ (t.step b e).world = s'.2) : Passes b s s' :=
  fun t hhost hworld => ⟨[e], h t hhost hworld⟩

/-- A job takes all its steps, while nobody else acts on its provider. -/
theorem exists_run_job {h : Host β ι} {place i : Nat} {call : Call β ι} {p : Provider β ι} {w : ω}
    (hp : h.Suits place p) {t : Traffic β ι ω} (hj : t.jobs[i]? = some { place, call })
    (hhost : t.host = h.put place p) (hworld : t.world = w) :
    ∃ es, (Traffic.run b t es).host = h.put place (call.run b p w).provider ∧
      (Traffic.run b t es).world = (call.run b p w).world := by
  fun_induction call.run b p w generalizing t with
  | case1 call p w hdone => exact ⟨[], hhost, hworld⟩
  | case2 call p w hdone next last =>
    rename_i ih
    have hloaded : t.host.provider? place = some p := by rw [hhost, hp.provider?_put]
    have hstep : t.step b (.job i) =
        { t with
          host := t.host.put place next.provider, world := next.world
          jobs := t.jobs.set i { place, call := next.call } } := by
      simp only [Traffic.step, Traffic.stepJob, hj, Host.step, hloaded, hworld]
      rfl
    have hnext : h.Suits place next.provider := hp.step b call w
    have hjob : (t.step b (.job i)).jobs[i]? = some { place, call := next.call } := by
      rw [hstep]
      exact List.getElem?_set_self (List.getElem?_eq_some_iff.1 hj).1
    have hstored : (t.step b (.job i)).host = h.put place next.provider := by
      rw [hstep]
      dsimp only
      rw [hhost, hp.put_put hnext]
    obtain ⟨es, hrun⟩ := ih hnext hjob hstored (by rw [hstep])
    exact ⟨.job i :: es, hrun⟩

/-- A request to a provider is a job that takes all its steps. -/
theorem passes_perform {h : Host β ι} {place : Nat} {p : Provider β ι}
    (hp : h.provider? place = some p) (r : Request) (w : ω) :
    Passes b (h, w) (h.put place (p.perform b r w).provider, (p.perform b r w).world) := by
  rintro t rfl rfl
  have hsuits := Host.suits_of_provider? hp
  let job : Job β ι := { place, call := .start r }
  let begun := (t.step b (.request place r)).step b (.job t.jobs.length)
  -- The first step stores the provider, and the others find it there.
  have hstart : t.step b (.request place r) = { t with jobs := t.jobs ++ [job] } :=
    if_pos hsuits.lt
  have hlast : (t.jobs ++ [job])[t.jobs.length]? = some job := List.getElem?_concat_length
  have hbegun : begun =
      { t with
        host := t.host.put place p
        jobs := (t.jobs ++ [job]).set t.jobs.length { place, call := Call.begin p r } } := by
    dsimp only [begun]
    rw [hstart]
    simp only [Traffic.step, Traffic.stepJob, hlast, Host.step, job, hp, Call.step]
  have hjob : begun.jobs[t.jobs.length]? = some { place, call := Call.begin p r } := by
    rw [hbegun]
    exact List.getElem?_set_self (by simp)
  obtain ⟨es, hes⟩ := exists_run_job (b := b) hsuits hjob (by rw [hbegun]) rfl
  have hworld : begun.world = t.world := by rw [hbegun]
  refine ⟨.request place r :: .job t.jobs.length :: es, ?_⟩
  rw [Provider.perform, Call.run_of_not_isDone rfl]
  rw [hworld] at hes
  exact hes

/-- **A deed is traffic** in which nobody else acts. -/
theorem act_passes {d : Deed β} (h : act b dummy s d = some s') : Passes b s s' := by
  obtain ⟨host, w⟩ := s
  cases act_did h with
  | idle => exact .refl _
  | @make config p new =>
    refine passes_of_step (.make config dummy) ?_
    rintro t rfl rfl
    simp only [Traffic.step, Host.make, new, Option.map_some]
    exact ⟨trivial, trivial⟩
  | @attach place p found free =>
    refine passes_of_step (.attach place) ?_
    rintro t rfl rfl
    simp only [Traffic.step, found, Host.attach, lookup_eq_none_iff.2 free]
    exact ⟨rfl, rfl⟩
  | @detach id place mem =>
    rintro t rfl rfl
    refine ⟨[.order (.deregister id), .errand t.errands.length], ?_⟩
    have hlast : (t.errands ++ [({ stage := .start (.deregister id) } : Errand)])[
        t.errands.length]? = some { stage := .start (.deregister id) } :=
      List.getElem?_concat_length
    rcases t.host.detach_cases id with ⟨habsent, -⟩ | ⟨place', -, hdetach⟩
    · exact absurd (List.mem_map_of_mem mem) habsent
    · simp only [Traffic.run, List.foldl_cons, List.foldl_nil, Traffic.step, Traffic.stepErrand,
        hlast, Traffic.stepErrandAs, hdetach]
      exact ⟨rfl, rfl⟩
  | @addBackend place name backend p registry found registered =>
    refine passes_of_step (.addBackend place name backend) ?_
    rintro t rfl rfl
    simp only [Traffic.step, found, Provider.registerBackend, registered]
    exact ⟨rfl, rfl⟩
  | perform r found => exact passes_perform found r w
  | tally rpc status =>
    refine passes_of_step (.tally rpc status) ?_
    rintro t rfl rfl
    exact ⟨rfl, rfl⟩

/-- Whether traffic that begins without providers may lead to a state. -/
def Reached (b : Behaviour β ι ω) (w : ω) (s : Host β ι × ω) : Prop :=
  ∃ t, Traffic.Reachable b w t ∧ t.host = s.1 ∧ t.world = s.2

variable {w : ω}

theorem reached_start : Reached b w ({}, w) := ⟨_, ⟨[], rfl⟩, rfl, rfl⟩

theorem Reached.passes (hs : Reached b w s) (h : Passes b s s') : Reached b w s' := by
  obtain ⟨t, ht, hhost, hworld⟩ := hs
  obtain ⟨es, hes⟩ := h t hhost hworld
  exact ⟨_, ht.run es, hes⟩

theorem Reached.sound (hs : Reached b w s) : s.1.Sound := by
  obtain ⟨t, ht, hhost, -⟩ := hs
  exact hhost ▸ ht.placed.sound

theorem acts_passes {ds : List (Deed β)} (h : acts b dummy s ds = some s') : Passes b s s' := by
  induction ds generalizing s with
  | nil =>
    cases h
    exact .refl _
  | cons d ds ih =>
    rw [acts_cons, Option.bind_eq_some_iff] at h
    obtain ⟨s₁, hd, hds⟩ := h
    exact (act_passes hd).trans (ih hds)

theorem run_cons {op : Operation β} {ops : List (Operation β)} :
    run b dummy s (op :: ops) = (step b dummy s op).bind fun s => run b dummy s ops := rfl

theorem run_append (ops ops' : List (Operation β)) :
    run b dummy s (ops ++ ops') = (run b dummy s ops).bind fun s => run b dummy s ops' :=
  List.foldlM_append

/-- **Sessions are traffic** in which nobody acts before the last one has come to the end. -/
theorem run_passes (hs : Reached b w s) {ops : List (Operation β)}
    (h : run b dummy s ops = some s') : Passes b s s' := by
  induction ops generalizing s with
  | nil =>
    cases h
    exact .refl _
  | cons op ops ih =>
    rw [run_cons, Option.bind_eq_some_iff] at h
    obtain ⟨s₁, hop, hops⟩ := h
    have hpasses : Passes b s s₁ := acts_passes (step_deeds hs.sound hop)
    exact hpasses.trans (ih (hs.passes hpasses) hops)

theorem reached_run {ops : List (Operation β)} (h : run b dummy ({}, w) ops = some s) :
    Reached b w s := reached_start.passes (run_passes reached_start h)

/-- Making and attaching providers for configurations is the session that registers them. -/
theorem registerAll_run {h h' : Host β ι} {configs : List ProviderConfig}
    (hall : h.registerAll dummy configs = some (.ok (), h')) (w : ω) :
    run b dummy (h, w) (configs.map .register) = some (h', w) := by
  induction configs generalizing h with
  | nil =>
    cases hall
    rfl
  | cons config configs ih =>
    rw [Host.registerAll] at hall
    rw [List.map_cons, run_cons, step]
    split at hall
    · cases hall
    · rename_i h₁ hregister
      rw [hregister]
      exact ih hall
    · cases hall

/-- A host that is made from configurations is one that a session leads to. -/
theorem ofConfigs_run {h : Host β ι} {configs : List ProviderConfig}
    (hall : Host.ofConfigs configs dummy = some (.ok h)) (w : ω) :
    run b dummy ({}, w) (configs.map .register) = some (h, w) := by
  rw [Host.ofConfigs, Option.map_eq_some_iff] at hall
  obtain ⟨⟨_ | _, h'⟩, hregister, hresult⟩ := hall <;> cases hresult
  exact registerAll_run hregister w

end Session
end Collectors
