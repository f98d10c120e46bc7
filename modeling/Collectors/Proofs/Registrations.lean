import Collectors.Backend.Scripted
import Collectors.Host.Registrations
import Collectors.Proofs.Keeping

/-!
# Backends and the names of collectors

What a provider has under a name is the backend that was to be registered under it first: one
equation says it of every event (`Traffic.backend?_step`), and so of every schedule
(`Traffic.backend?_run`). So a backend that a call looked up is still the one that has the name when
the call enters what it made, and for ever after (`Traffic.Vouched.step`).

The name of a collector therefore tells who made it, and an error that names the backend of a
collector names its maker. `registered_for_ever` says all of it.
-/

namespace Collectors

variable {β ι ω : Type}

/-! ### What a provider has under a name -/

namespace Host

theorem backend?_eq_find? {h : Host β ι} {place : Nat} {p : Provider β ι}
    (hp : h.provider? place = some p) (name : String) :
    h.backend? place name = p.registry.find? name := by
  obtain ⟨q, hq, rfl⟩ := provider?_eq_some hp
  simp only [backend?, hq, Option.bind_some]

theorem backend?_put (h : Host β ι) {place : Nat} (hplace : place < h.providers.length)
    (p : Provider β ι) (other : Nat) (name : String) :
    (h.put place p).backend? other name =
      if place = other then p.registry.find? name else h.backend? other name := by
  rw [backend?, providers_put, List.getElem?_set, if_pos hplace]
  split <;> rfl

theorem lt_of_provider? {h : Host β ι} {place : Nat} {p : Provider β ι}
    (hp : h.provider? place = some p) : place < h.providers.length := by
  obtain ⟨q, hq, -⟩ := provider?_eq_some hp
  exact (List.getElem?_eq_some_iff.1 hq).1

/-- A call keeps every backend. -/
theorem backend?_step {h : Host β ι} {place : Nat} {p : Provider β ι}
    (hp : h.provider? place = some p) (b : Behaviour β ι ω) (call : Call β ι) (w : ω)
    (other : Nat) (name : String) :
    (h.put place (call.step b p w).provider).backend? other name = h.backend? other name := by
  rw [backend?_put h (lt_of_provider? hp), call.registry_step]
  split
  · rename_i hother
    rw [← hother, backend?_eq_find? hp]
  · rfl

end Host

namespace Traffic

/-- Only what makes a provider or registers a backend changes what has a name. -/
theorem backend?_step_other (b : Behaviour β ι ω) {s : Traffic β ι ω} {e : Event β}
    (hmake : ∀ config dummy, e ≠ .make config dummy)
    (hadd : ∀ place name backend, e ≠ .addBackend place name backend) (place : Nat)
    (name : String) : (s.step b e).host.backend? place name = s.host.backend? place name := by
  have hturn := s.step_turn b e
  generalize s.step b e = s' at hturn ⊢
  cases hturn with
  | make => exact absurd rfl (hmake _ _)
  | addBackend => exact absurd rfl (hadd _ _ _)
  | job job found => exact Host.backend?_step found b _ _ _ _
  | _ => rfl

/-- **A name stands for the backend that was to be registered under it first.** What an event is to
register comes in where there was nothing before. -/
theorem backend?_step (b : Behaviour β ι ω) (s : Traffic β ι ω) (e : Event β) (place : Nat)
    (name : String) :
    (s.step b e).host.backend? place name =
      (s.host.backend? place name).or ((s.registration? place e).toList.lookup name) := by
  cases e with
  | make config dummy =>
    simp only [step, registration?]
    cases hmake : s.host.make config dummy with
    | none => simp
    | some made =>
      obtain ⟨p, hnew, rfl⟩ := Option.map_eq_some_iff.1 hmake
      have hentries : p.registry.entries = [(Dummy.backendName, dummy)] := by
        unfold Provider.new at hnew
        split at hnew <;> cases hnew
        rfl
      simp only [Host.backend?, Option.isSome_some, true_and]
      rcases Nat.lt_trichotomy place s.host.providers.length with hlt | rfl | hgt
      · rw [List.getElem?_append_left hlt, if_neg (Nat.ne_of_lt hlt)]
        simp
      · simp [Registry.find?, hentries]
      · have hbefore : s.host.providers[place]? = none :=
          List.getElem?_eq_none (Nat.le_of_lt hgt)
        have hbehind : (s.host.providers ++ [p])[place]? = none := by
          refine List.getElem?_eq_none ?_
          rw [List.length_append, List.length_singleton]
          exact Nat.succ_le_of_lt hgt
        simp [hbefore, hbehind, Nat.ne_of_gt hgt]
  | addBackend place' name' backend =>
    simp only [step, registration?]
    cases hp : s.host.provider? place' with
    | none =>
      have hmissing : s.host.providers.length ≤ place' := by
        simpa [Host.provider?] using hp
      simp only
      rw [if_neg (by omega)]
      exact Option.or_none.symm
    | some p =>
      have hplace := Host.lt_of_provider? hp
      have hhere := Host.backend?_eq_find? hp name
      by_cases hother : place' = place
      · subst hother
        rw [if_pos ⟨rfl, hplace⟩, Option.toList_some, hhere]
        rcases p.registry.register_cases name' backend with
          ⟨-, r, hregister, hfind⟩ | ⟨-, hregister, hfind⟩
        · simp only [Provider.registerBackend, hregister, Except.map]
          rw [Host.backend?_put _ hplace, if_pos rfl, hfind]
        · simp only [Provider.registerBackend, hregister, Except.map]
          rw [hhere, ← hfind]
      · rw [if_neg fun h => hother h.1]
        simp only [Option.toList_none, List.lookup_nil, Option.or_none]
        split
        · rw [Host.backend?_put _ hplace, if_neg hother]
        · rfl
  | attach | tally | request | order | job | errand =>
    exact (backend?_step_other b (by simp) (by simp) place name).trans Option.or_none.symm

/-- So it is of a whole schedule. -/
theorem backend?_run (b : Behaviour β ι ω) (s : Traffic β ι ω) (es : List (Event β)) (place : Nat)
    (name : String) :
    (run b s es).host.backend? place name =
      (s.host.backend? place name).or ((registrations b place s es).lookup name) := by
  induction es generalizing s with
  | nil => exact Option.or_none.symm
  | cons e es ih =>
    rw [run_cons, ih, backend?_step, registrations, List.lookup_append, Option.or_assoc]

/-- A backend keeps its name. -/
theorem backend?_step_some (b : Behaviour β ι ω) {s : Traffic β ι ω} (e : Event β) {place : Nat}
    {name : String} {k : β} (h : s.host.backend? place name = some k) :
    (s.step b e).host.backend? place name = some k := by
  rw [backend?_step, h, Option.some_or]

end Traffic

/-! ### The maker of a collector -/

/-- Whether a collector was made by the backend that has its name. -/
def Collector.MadeBy (find : String → Option β) (c : Collector (β × ι)) : Prop :=
  find c.backend = some c.resource.1

/-- Whether a call works with the backend of the name that it was given, or with what this backend
made. -/
def Call.Signed (find : String → Option β) : Call β (β × ι) → Prop
  | instantiate made _ backend _ _ => find backend = some made
  | insert c | invoke c _ _ => c.MadeBy find
  | _ => True

namespace Call

variable {find find' : String → Option β} {call : Call β (β × ι)}

theorem Signed.mono (h : call.Signed find) (hfind : ∀ n k, find n = some k → find' n = some k) :
    call.Signed find' := by
  cases call with
  | instantiate | insert | invoke => exact hfind _ _ h
  | _ => trivial

theorem signed_ofRemoval (r : Removal (β × ι)) : (ofRemoval r : Call β (β × ι)).Signed find := by
  cases r <;> trivial

theorem signed_ofOutcome {α : Type} (give : α → Answer) (r : Option (Except Error α)) :
    (ofOutcome give r : Call β (β × ι)).Signed find := by
  cases r <;> trivial

theorem signed_begin {p : Provider β (β × ι)} (hp : ∀ c ∈ p.table.entries, c.MadeBy find)
    (r : Request) : (begin p r).Signed find := by
  cases r with
  | invoke id operation args =>
    simp only [begin]
    split
    · rename_i c hc
      exact hp c (Table.get?_eq_some_iff.1 hc).1
    · trivial
  | shutdown => trivial
  | instantiate | close | destroy | list | hello | sum => simp only [begin]; split <;> trivial

/-- **A step of a call keeps the names right**: what comes into the table was made by the backend
that the call looked up. -/
theorem Signed.step {p : Provider β (β × ι)} (hcall : call.Signed p.registry.find?)
    (hp : ∀ c ∈ p.table.entries, c.MadeBy p.registry.find?) (b : Behaviour β ι ω) (w : ω) :
    (call.step b.signed p w).call.Signed p.registry.find? ∧
      ∀ c ∈ (call.step b.signed p w).provider.table.entries, c.MadeBy p.registry.find? := by
  cases call with
  | start r => exact ⟨signed_begin hp r, hp⟩
  | checkClosed =>
    simp only [Call.step]
    split <;> exact ⟨trivial, hp⟩
  | findBackend mode backend config id =>
    simp only [Call.step]
    cases hfind : p.registry.find? backend with
    | none => exact ⟨trivial, hp⟩
    | some made => exact ⟨hfind, hp⟩
  | instantiate made mode backend config id =>
    rcases h : b.instantiate made mode config w with ⟨_ | (e | i), w'⟩ <;>
      simp only [Call.step, Behaviour.signed, h]
    · exact ⟨trivial, hp⟩
    · exact ⟨trivial, hp⟩
    · exact ⟨hcall, hp⟩
  | insert c =>
    rcases p.table.insert_cases c with ⟨-, h⟩ | ⟨-, -, h⟩ | ⟨-, -, t, h, hentries, -⟩ <;>
      simp only [Call.step, h]
    · exact ⟨trivial, hp⟩
    · exact ⟨trivial, hp⟩
    · refine ⟨trivial, fun d hd => ?_⟩
      rw [hentries] at hd
      rcases List.mem_append.1 hd with hd | hd
      · exact hp d hd
      · rw [List.mem_singleton.1 hd]
        exact hcall
  | closeRefused | destroy =>
    simp only [Call.step]
    split <;> exact ⟨trivial, hp⟩
  | remove r =>
    exact ⟨signed_ofRemoval _, fun c hc => hp c (r.entries_step_subset b.signed.close _ w hc)⟩
  | detachToDestroy id =>
    rcases p.table.take_cases id with ⟨-, h⟩ | ⟨c, -, -, h⟩ <;> simp only [Call.step, h]
    · exact ⟨trivial, hp⟩
    · exact ⟨trivial, fun d hd => hp d (List.mem_filter.1 hd).1⟩
  | hello | sum | invoke => exact ⟨signed_ofOutcome _ _, hp⟩
  | list | finished | broken => exact ⟨trivial, hp⟩

end Call

namespace Traffic

/-- Whether whoever made a collector is known by its name, at every place. -/
structure Vouched (s : Traffic β (β × ι) ω) : Prop where
  tables : ∀ (place : Nat) (t : List (Collector (β × ι)) × Bool),
    s.host.contents[place]? = some t → ∀ c ∈ t.1, c.MadeBy (s.host.backend? place)
  jobs : ∀ j ∈ s.jobs, j.call.Signed (s.host.backend? j.place)

theorem vouched_start (w : ω) : ({ world := w } : Traffic β (β × ι) ω).Vouched where
  tables _ _ ht := nomatch ht
  jobs _ hj := nomatch hj

/-- **Every event keeps the names right.** -/
theorem Vouched.step {s : Traffic β (β × ι) ω} (hs : s.Vouched) (b : Behaviour β ι ω)
    (e : Event β) : (s.step b.signed e).Vouched := by
  have hgrows (place : Nat) (n : String) (k : β) (h : s.host.backend? place n = some k) :
      (s.step b.signed e).host.backend? place n = some k := backend?_step_some b.signed e h
  rcases step_quiet b.signed s e with ⟨i, j, p, -, hj, hp, hstep⟩ |
    ⟨⟨jobs, hjobs, hstart⟩, ⟨tables, htables, hempty⟩, -⟩
  · have hfind : s.host.backend? j.place = p.registry.find? :=
      funext fun n => Host.backend?_eq_find? hp n
    have hentries := hs.tables _ _ (Host.contents_of_provider? hp)
    have hcall := hs.jobs j (List.mem_of_getElem? hj)
    rw [hfind] at hentries hcall
    obtain ⟨hnext, hleft⟩ := hcall.step hentries b s.world
    rw [← hfind] at hnext hleft
    refine ⟨fun place t ht c hc => hgrows _ _ _ ?_, fun j' hj' => ?_⟩
    · rw [hstep, Host.contents_put] at ht
      by_cases hplace : j.place = place
      · obtain ⟨hlt, ht⟩ := List.getElem?_eq_some_iff.1 ht
        subst hplace
        rw [List.getElem_set_self] at ht
        subst ht
        exact hleft c hc
      · rw [List.getElem?_set_ne hplace] at ht
        exact hs.tables place t ht c hc
    · rw [hstep] at hj'
      rcases List.mem_or_eq_of_mem_set hj' with hj' | rfl
      · exact (hs.jobs j' hj').mono (hgrows _)
      · exact hnext.mono (hgrows _)
  · refine ⟨fun place t ht c hc => hgrows _ _ _ ?_, fun j hj => ?_⟩
    · rw [htables] at ht
      by_cases hplace : place < s.host.contents.length
      · rw [List.getElem?_append_left hplace] at ht
        exact hs.tables place t ht c hc
      · rw [List.getElem?_append_right (Nat.not_lt.1 hplace)] at ht
        rw [hempty t (List.mem_of_getElem? ht)] at hc
        cases hc
    · rw [hjobs] at hj
      rcases List.mem_append.1 hj with hj | hj
      · exact (hs.jobs j hj).mono (hgrows _)
      · obtain ⟨r, hr⟩ := hstart j hj
        rw [hr]
        trivial

theorem vouched_run (b : Behaviour β ι ω) (w : ω) (es : List (Event β)) :
    (run b.signed ({ world := w } : Traffic β (β × ι) ω) es).Vouched :=
  Reachable.induct Vouched (vouched_start w) (fun _ e hs => hs.step b e) ⟨es, rfl⟩

end Traffic

/-! ### What the caller of an operation is told -/

theorem relayed_ofOutcome (backend : String) (r : Option (Except Error Json)) :
    Relayed backend r ((Call.ofOutcome .value
      (r.map fun r => r.mapError (Call.renameUnsupported backend)) : Call β ι).result?) := by
  rcases r with _ | (e | v)
  · exact .broken
  · cases e with
    | opUnsupported other operation => exact .unsupported other operation
    | _ => exact .error nofun
  · exact .value v

theorem Provider.relayed_perform (b : Behaviour β ι ω) {p : Provider β ι} {c : Collector ι}
    (hc : c ∈ p.table.entries) (operation : String) (args : Json) (w : ω) :
    Relayed c.backend (b.invoke c.resource operation args w).1
      (p.perform b (.invoke c.id operation args) w).call.result? := by
  have hget : p.table.get? c.id = some c := Table.get?_eq_some_iff.2 ⟨hc, rfl⟩
  rw [perform, Call.call_run rfl]
  simp only [Call.step, Call.begin, hget]
  rw [Call.call_run rfl]
  simp only [Call.step]
  have hdone (r : Option (Except Error Json)) :
      (Call.ofOutcome .value r : Call β ι).isDone = true := by cases r <;> rfl
  rw [Call.call_run_done (hdone _)]
  exact relayed_ofOutcome c.backend _

/-! ### Names for ever -/

/-- What holds of the names at the provider `p` that is at a place of `s`, when `log` is what was to
be registered there. -/
structure Traffic.Registered (b : Behaviour β ι ω) (s : Traffic β (β × ι) ω) (place : Nat)
    (p : Provider β (β × ι)) (log : List (String × β)) : Prop where
  sorted : p.registry.names.Pairwise (· < ·)
  /-- The names are those that were to be registered. -/
  names : ∀ n, n ∈ p.registry.names ↔ n ∈ log.map Prod.fst
  /-- A name stands for the first backend that was to be registered under it. -/
  first : ∀ n, p.registry.find? n = log.lookup n
  /-- It does so whatever happens later. -/
  forEver : ∀ n k, p.registry.find? n = some k → ∀ later, ∃ p',
    (s.run b.signed later).host.provider? place = some p' ∧ p'.registry.find? n = some k
  /-- A backend with a new name is accepted. -/
  accepted : ∀ n k, n ∉ p.registry.names → ∃ p', p.registerBackend n k = .ok p' ∧
    s.step b.signed (.addBackend place n k) = { s with host := s.host.put place p' }
  /-- Another backend with the same name is refused, and nothing changes. -/
  refused : ∀ n k, n ∈ p.registry.names →
    p.registerBackend n k = .error (.backendAlreadyRegistered n) ∧
      s.step b.signed (.addBackend place n k) = s
  /-- Every collector was made by the backend that has its name. -/
  made : ∀ c ∈ p.table.entries, p.registry.find? c.backend = some c.resource.1
  /-- What comes of an operation of a collector is told under the name of its backend. -/
  invoke : ∀ c ∈ p.table.entries, ∀ (operation : String) (args : Json) (w : ω),
    Relayed c.backend (b.invoke c.resource.2 operation args w).1
      (p.perform b.signed (.invoke c.id operation args) w).call.result?
  /-- So it is when others act meanwhile, be it that the collector has left the table. -/
  underWay : ∀ (i : Nat) (c : Collector (β × ι)) (operation : String) (args : Json),
    s.jobs[i]? = some { place, call := .invoke c operation args } →
    p.registry.find? c.backend = some c.resource.1 ∧
      Relayed c.backend (b.invoke c.resource.2 operation args s.world).1
        ((s.step b.signed (.job i)).answer? i)

/-- **A collector belongs to the backend that it names**, for ever: a name stands for the backend
that it was first registered for, whatever goes on at a host. -/
theorem Traffic.registered_for_ever (b : Behaviour β ι ω) (w : ω) (schedule : List (Event β))
    {place : Nat} {p : Provider β (β × ι)}
    (hp : (run b.signed { world := w } schedule).host.provider? place = some p) :
    (run b.signed { world := w } schedule).Registered b place p
      (registrations b.signed place ({ world := w } : Traffic β (β × ι) ω) schedule) := by
  have hlog (n : String) : p.registry.find? n = _ :=
    (Host.backend?_eq_find? hp n).symm.trans (backend?_run b.signed _ schedule place n)
  have hvouched := vouched_run b w schedule
  generalize run b.signed { world := w } schedule = s at hp hvouched ⊢
  generalize registrations b.signed place _ schedule = log at hlog ⊢
  have hfind : s.host.backend? place = p.registry.find? :=
    funext fun n => Host.backend?_eq_find? hp n
  refine ⟨p.registry.sorted, fun n => ?_, hlog, fun n k hk later => ?_, fun n k hn => ?_,
    fun n k hn => ?_, fun c hc => ?_, fun c hc operation args w => ?_,
    fun i c operation args hi => ?_⟩
  · have hnone : p.registry.find? n = none ↔ n ∉ log.map Prod.fst := by
      rw [hlog]
      exact lookup_eq_none_iff
    rw [Registry.mem_names_iff, ← Decidable.not_iff_not, ← hnone, Bool.not_eq_true,
      Option.isSome_eq_false_iff, Option.isNone_iff_eq_none]
  · have hlater : (s.run b.signed later).host.backend? place n = some k := by
      rw [backend?_run, hfind, hk, Option.some_or]
    obtain ⟨q, hq, hqk⟩ := Option.bind_eq_some_iff.1 hlater
    have hlt := (List.getElem?_eq_some_iff.1 hq).1
    obtain ⟨p', hp'⟩ := Host.provider?_isSome hlt
    exact ⟨p', hp', (Host.backend?_eq_find? hp' n).symm.trans hlater⟩
  · rcases p.registry.register_cases n k with ⟨-, r, hregister, -⟩ | ⟨htaken, -⟩
    · have hnew : p.registerBackend n k = .ok { p with registry := r } := by
        rw [Provider.registerBackend, hregister]
        rfl
      exact ⟨_, hnew, by simp only [step, hp, hnew]⟩
    · exact absurd htaken hn
  · rcases p.registry.register_cases n k with ⟨hfree, -⟩ | ⟨-, hregister, -⟩
    · exact absurd hn hfree
    · have hrefused : p.registerBackend n k = .error (.backendAlreadyRegistered n) := by
        rw [Provider.registerBackend, hregister]
        rfl
      exact ⟨hrefused, by simp only [step, hp, hrefused]⟩
  · rw [← hfind]
    exact hvouched.tables _ _ (Host.contents_of_provider? hp) c hc
  · exact Provider.relayed_perform b.signed hc operation args w
  · have hmade := hvouched.jobs _ (List.mem_of_getElem? hi)
    rw [← hfind]
    refine ⟨hmade, ?_⟩
    have hlt := (List.getElem?_eq_some_iff.1 hi).1
    simp only [answer?, step, stepJob, hi, Host.step, hp, List.getElem?_set_self hlt,
      Option.bind_some]
    exact relayed_ofOutcome c.backend _

/-! ### Two backends that want one name -/

namespace Traffic

/-- A second backend gets the name `twin` and a third one does not. Then a collector is made. -/
def twins : List (Event Scripted.Script) :=
  [.make { providerId := 7, poolSize := 1 } { counter := "first" },
    .addBackend 0 "twin" { counter := "second" },
    .addBackend 0 "twin" { counter := "third", hasVerbs := true },
    .request 0 (.instantiate .create none "twin" none nilId),
    .job 0, .job 0, .job 0, .job 0, .job 0]

/-- The second backend made the collector, which does not know the operation `echo`; that is said
of the name of its backend, and not of the one by which the instance calls itself. -/
theorem registered_for_ever_twins :
    ∃ p c, (run Scripted.behaviour.signed { world := {} } twins).host.provider? 0 = some p ∧
      c ∈ p.table.entries ∧ c.backend = "twin" ∧
      p.registry.find? "twin" = some { counter := "second" } ∧
      c.resource.1 = { counter := "second" } ∧
      p.registerBackend "twin" { counter := "third", hasVerbs := true } =
        .error (.backendAlreadyRegistered "twin") ∧
      ∀ args w, (p.perform Scripted.behaviour.signed (.invoke c.id "echo" args) w).call.result? =
        some (.error (.opUnsupported "twin" "echo")) := by
  let c : Collector (Scripted.Script × Scripted.Script) :=
    { id := nilId, backend := "twin"
      resource := ({ counter := "second" }, { counter := "second" }) }
  obtain ⟨p, hp, hentries⟩ : ∃ p,
      (run Scripted.behaviour.signed { world := {} } twins).host.provider? 0 = some p ∧
        p.table.entries = [c] := ⟨_, rfl, rfl⟩
  have hregistered := registered_for_ever Scripted.behaviour {} twins hp
  have hc : c ∈ p.table.entries := hentries ▸ List.mem_cons_self
  have hmade : p.registry.find? "twin" = some { counter := "second" } := hregistered.made c hc
  have htaken : "twin" ∈ p.registry.names := Registry.mem_names_iff.2 (by rw [hmade]; rfl)
  refine ⟨p, c, hp, hc, rfl, hmade, rfl, (hregistered.refused _ _ htaken).1, fun args w => ?_⟩
  have htold : Relayed "twin" (some (.error (.opUnsupported "unknown" "echo"))) _ :=
    hregistered.invoke c hc "echo" args w
  generalize (p.perform Scripted.behaviour.signed (.invoke c.id "echo" args) w).call.result? = told
    at htold ⊢
  cases htold with
  | unsupported => rfl
  | error other => exact absurd rfl (other _ _)

end Traffic
end Collectors
