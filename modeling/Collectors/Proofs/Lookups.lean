import Collectors.Backend.Traced
import Collectors.Proofs.Configurations
import Collectors.Proofs.Teardown

/-!
# Lookups that are overtaken

A request to a collector looks the collector up and then asks its instance, and others may detach
the collector and end its instance in between. `Traffic.getConfig_between` says what comes of it
where the instance is one of the dummy backend and is asked for its configuration: the answer is
the configuration that the collector was made with, unless that one was released in between, and
nothing else.
-/

namespace Collectors

variable {β ι ω β' ι' ω' : Type}

namespace Traffic

open Dummy (Houses Store)

variable {b : Behaviour β ι ω}

/-- A job stays as it is while it takes no step. -/
theorem jobs_run_other {s : Traffic β ι ω} {i : Nat} {j : Job β ι} (hj : s.jobs[i]? = some j)
    {es : List (Event β)} (hes : turns i es = 0) : (run b s es).jobs[i]? = some j := by
  induction es generalizing s with
  | nil => exact hj
  | cons e es ih =>
    rw [turns_cons] at hes
    have he : e.isJob i = false := by
      by_contra h
      rw [if_pos (Bool.not_eq_false _ ▸ h)] at hes
      omega
    exact ih (jobs_step_other b he hj) (by omega)

/-- A job takes a step by its own event, on the provider that it has hold of. -/
theorem Placed.step_own {s : Traffic β ι ω} (hs : s.Placed) {i place : Nat} {call : Call β ι}
    (hj : s.jobs[i]? = some { place, call }) :
    ∃ p, s.host.provider? place = some p ∧ (s.step b (.job i)).jobs[i]? =
      some { place, call := (call.step b p s.world).call } := by
  obtain ⟨p, hp⟩ := Host.provider?_isSome (hs.jobs _ (List.mem_of_getElem? hj))
  exact ⟨p, hp, (Traffic.step_own b hj hp).1⟩

/-- The answer of a job whose call is finished. -/
theorem answer?_of_finished {s : Traffic β ι ω} {i place : Nat} {r : Except Error Answer}
    (hj : s.jobs[i]? = some { place, call := .finished r }) : s.answer? i = some r := by
  rw [answer?, hj]
  rfl

/-- A lookup that finds nothing is answered so, whatever happens later. -/
theorem answer?_of_missing {w : ω} {s : Traffic β ι ω} (hs : Reachable b w s) {i place : Nat}
    {id : CollectorId} {operation : String} {args : Json} {p : Provider β ι}
    (hj : s.jobs[i]? = some { place, call := .start (.invoke id operation args) })
    (hp : s.host.provider? place = some p) (hid : id ∉ p.table.ids) {es : List (Event β)}
    (hes : turns i es = 0) :
    ((run b (s.step b (.job i)) es).step b (.job i)).answer? i =
      some (.error (.collectorNotFound id.text)) := by
  have hlookup : ((Call.start (.invoke id operation args)).step b p s.world).call =
      .finished (.error (.collectorNotFound id.text)) := by
    simp only [Call.step, Call.begin, Table.get?_eq_none_iff.2 hid]
  have hfirst := (Traffic.step_own b hj hp).1
  rw [hlookup] at hfirst
  obtain ⟨p', -, hlast⟩ := ((hs.step _).run es).placed.step_own (jobs_run_other hfirst hes)
  exact answer?_of_finished hlast

/-- A lookup that finds a dummy instance is answered what the store has of its configuration when
the instance is asked. -/
theorem answer?_getConfig {index : ι → Option Nat} {store : ω → Store}
    {made : ι → Option String → Prop} (hb : Houses b index store made) {w : ω}
    {s : Traffic β ι ω} (hs : Reachable b w s) {i place : Nat} {id : CollectorId} {args : Json}
    {p : Provider β ι}
    (hj : s.jobs[i]? = some { place, call := .start (.invoke id "get_config" args) })
    (hp : s.host.provider? place = some p) {c : Collector ι} (hc : p.table.get? id = some c)
    {k : Nat} (hk : index c.resource = some k) {es : List (Event β)} (hes : turns i es = 0) :
    ((run b (s.step b (.job i)) es).step b (.job i)).answer? i =
      some (.ok (.value
        (((store (run b (s.step b (.job i)) es).world).config? k).getD .null))) := by
  have hlookup : ((Call.start (.invoke id "get_config" args)).step b p s.world).call =
      .invoke c "get_config" args := by
    simp only [Call.step, Call.begin, hc]
  have hfirst := (Traffic.step_own b hj hp).1
  rw [hlookup] at hfirst
  obtain ⟨p', -, hlast⟩ := ((hs.step _).run es).placed.step_own (jobs_run_other hfirst hes)
  have hdone : ((Call.invoke c "get_config" args).step b p'
      (run b (s.step b (.job i)) es).world).call = .finished (.ok (.value
        (((store (run b (s.step b (.job i)) es).world).config? k).getD .null))) := by
    simp only [Call.step, hb.answer hk]
    rfl
  rw [hdone] at hlast
  exact answer?_of_finished hlast

/-- **A lookup of a configuration sees the configuration or its end.** A job asks a provider for
the configuration of a collector: it looks the collector up, others take any steps, and then it
asks the instance. Where there is no such collector, the answer says so. Where there is one of
the dummy backend, the answer is the value of the configuration that the collector was made with;
only if the collector has left its table in between, and its configuration has been released, the
answer is the null that a released instance gives. -/
theorem getConfig_between (b' : Behaviour β' ι' ω') {w : Store × ω'}
    {s : Traffic (Unit ⊕ β') (Option String × (Nat ⊕ ι')) (Store × ω')}
    (hs : Reachable (Dummy.behaviour.beside b').labelled w s) {i place : Nat} {id : CollectorId}
    {args : Json}
    (hj : s.jobs[i]? = some { place, call := .start (.invoke id "get_config" args) })
    {es : List (Event (Unit ⊕ β'))} (hes : turns i es = 0) :
    let b := (Dummy.behaviour.beside b').labelled
    let asked := run b (s.step b (.job i)) es
    let answer := (asked.step b (.job i)).answer? i
    ∃ p, s.host.provider? place = some p ∧
      (id ∉ p.table.ids → answer = some (.error (.collectorNotFound id.text))) ∧
      ∀ c k, p.table.get? id = some c → c.resource.2 = .inl k →
        ∃ v, Dummy.parseConfig c.resource.1 = .ok v ∧
          (es = [] → answer = some (.ok (.value v))) ∧
          (answer = some (.ok (.value v)) ∨
            answer = some (.ok (.value .null)) ∧ asked.world.1.config? k = none ∧
              ∀ t ∈ asked.host.contents, c ∉ t.1) := by
  intro b asked answer
  have hb := (Dummy.houses_beside b').labelled
  obtain ⟨p, hp⟩ := Host.provider?_isSome (hs.placed.jobs _ (List.mem_of_getElem? hj))
  refine ⟨p, hp, fun hid => answer?_of_missing hs hj hp hid hes, fun c k hc hk => ?_⟩
  have hindex : c.resource.2.getLeft? = some k := by rw [hk]; rfl
  have hanswer : answer = some (.ok (.value ((asked.world.1.config? k).getD .null))) :=
    answer?_getConfig hb hs hj hp hc hindex hes
  obtain ⟨v, config, hv, hconfig, rfl⟩ := hs.config?_of_contents hb
    (Host.contents_of_provider? hp) (Table.get?_eq_some_iff.1 hc).1 hindex
  have hlookup : (s.step b (.job i)).world = s.world := (Traffic.step_own b hj hp).2
  refine ⟨v, hconfig, ?_, ?_⟩
  · rintro rfl
    have hsame : asked.world = s.world := hlookup
    rw [hanswer, hsame, hv]
    rfl
  · have hbecomes : s.world.1.Becomes asked.world.1 := by
      rw [← hlookup]
      exact becomes_run hb (s.step b (.job i)) es
    rcases hbecomes.eq_or_none hv with hkept | hlost
    · rw [hanswer, hkept]
      exact .inl rfl
    · rw [hanswer, hlost]
      refine .inr ⟨rfl, rfl, fun t ht hmem => ?_⟩
      -- A collector that is in a table has its configuration.
      obtain ⟨place', ht⟩ := List.getElem?_of_mem ht
      obtain ⟨v', -, hv', -⟩ :=
        ((hs.step (.job i)).run es).config?_of_contents hb ht hmem hindex
      cases hlost.symm.trans hv'

/-- A collector without a configuration is made, and its configuration is asked for. -/
def configuring {β : Type} (dummy : β) : List (Event β) :=
  [.make {} dummy, .request 0 (.instantiate .create none Dummy.backendName none nilId),
    .job 0, .job 0, .job 0, .job 0, .job 0,
    .request 0 (.invoke nilId "get_config" .null)]

/-- The collector is closed. -/
def closing {β : Type} : List (Event β) :=
  [.request 0 (.close none nilId), .job 2, .job 2, .job 2]

/-- The lookup of a configuration may be overtaken by a close: the answer is then neither the
empty object that the collector was configured with nor that there is no such collector. -/
theorem getConfig_overtaken :
    let s := run Dummy.behaviour { world := {} } (configuring ())
    let last := run Dummy.behaviour s (.job 1 :: closing ++ [.job 1])
    (∃ j, s.jobs[1]? = some j ∧ j.call = .start (.invoke nilId "get_config" .null)) ∧
      Dummy.parseConfig none = .ok (.object []) ∧
      ∃ r, last.answer? 1 = some r ∧ r ≠ .ok (.value (.object [])) ∧
        r ≠ .error (.collectorNotFound nilId.text) := by
  refine ⟨⟨_, rfl, rfl⟩, rfl, .ok (.value .null), rfl, ?_, ?_⟩
  · intro h
    cases h
  · intro h
    cases h

/-- A collector has been made where another backend stands by, and its configuration is asked
for. -/
def besieged : Traffic (Unit ⊕ Unit) (Option String × (Nat ⊕ Nat)) (Store × Store) :=
  run (Dummy.behaviour.beside Dummy.behaviour).labelled { world := ({}, {}) }
    (configuring (.inl ()))

/-- The collector with its label. -/
def labelledFirst : Collector (Option String × (Nat ⊕ Nat)) :=
  { id := nilId, backend := Dummy.backendName, resource := (none, .inl 0) }

theorem found_besieged : ∃ p, besieged.host.provider? 0 = some p ∧
    p.table.get? nilId = some labelledFirst := ⟨_, rfl, rfl⟩

/-- Its lookup is overtaken by a close all the same, and sees the end of the configuration. -/
theorem getConfig_between_close :
    let b := (Dummy.behaviour.beside Dummy.behaviour).labelled
    let asked := run b (besieged.step b (.job 1)) closing
    (asked.step b (.job 1)).answer? 1 = some (.ok (.value .null)) ∧
      asked.world.1.config? 0 = none := by
  obtain ⟨p, hp, hfirst⟩ := found_besieged
  have hreachable : Reachable (Dummy.behaviour.beside Dummy.behaviour).labelled ({}, {}) besieged :=
    ⟨_, rfl⟩
  have hasks : besieged.jobs[1]? =
      some { place := 0, call := .start (.invoke nilId "get_config" .null) } := rfl
  have hturns : turns 1 (closing : List (Event (Unit ⊕ Unit))) = 0 := rfl
  obtain ⟨p', hp', -, hanswer⟩ := getConfig_between Dummy.behaviour hreachable hasks hturns
  obtain rfl : p' = p := Option.some.inj (hp'.symm.trans hp)
  obtain ⟨v, hv, -, h | ⟨h, hlost, -⟩⟩ := hanswer labelledFirst 0 hfirst rfl
  · -- The configuration that it was made with is no null.
    obtain rfl : Json.object [] = v := Except.ok.inj hv
    cases h
  · exact ⟨h, hlost⟩

end Traffic
end Collectors
