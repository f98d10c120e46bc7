import Collectors.Proofs.Authority
import Collectors.Proofs.Session

/-!
# Collectors that stay

`Request.Ends` says which requests end a collector. Every other one leaves it in its table
(`Provider.stays_perform`), and a session that spares a collector keeps it in the table of its
attached provider (`Session.Kept.run`). The backend that a provider is made with stays registered
(`Session.Furnished.run`).
-/

namespace Collectors

variable {β ι ω : Type}

/-! ### Registries -/

namespace Registry

theorem lookup_place (name : String) (backend : β) {n : String} (hn : n ≠ name)
    (l : List (String × β)) : (place name backend l).lookup n = l.lookup n := by
  induction l with
  | nil => rw [place, List.lookup_cons, beq_false_of_ne hn]
  | cons entry l ih =>
    rw [place]
    split
    · rw [List.lookup_cons, beq_false_of_ne hn]
    · rw [List.lookup_cons, List.lookup_cons, ih]

theorem lookup_place_self (name : String) (backend : β) {l : List (String × β)}
    (hname : name ∉ l.map Prod.fst) : (place name backend l).lookup name = some backend := by
  induction l with
  | nil => rw [place, List.lookup_cons, beq_self_eq_true]
  | cons entry l ih =>
    rw [List.map_cons, List.mem_cons, not_or] at hname
    rw [place]
    split
    · rw [List.lookup_cons, beq_self_eq_true]
    · rw [List.lookup_cons, beq_false_of_ne hname.1]
      exact ih hname.2

theorem mem_names_iff {r : Registry β} {n : String} : n ∈ r.names ↔ (r.find? n).isSome = true := by
  rw [Option.isSome_iff_ne_none, Ne, find?, lookup_eq_none_iff, Decidable.not_not]
  rfl

/-- Registering a backend: its name is free and it comes in, or the name is taken and the
registration is refused. -/
theorem register_cases (r : Registry β) (name : String) (backend : β) :
    (name ∉ r.names ∧ ∃ r', r.register name backend = .ok r' ∧
      ∀ n, r'.find? n = (r.find? n).or ([(name, backend)].lookup n)) ∨
    (name ∈ r.names ∧ r.register name backend = .error (.backendAlreadyRegistered name) ∧
      ∀ n, r.find? n = (r.find? n).or ([(name, backend)].lookup n)) := by
  have hlookup (n : String) :
      [(name, backend)].lookup n = if n = name then some backend else none := by
    by_cases hn : n = name
    · simp [hn]
    · simp [hn]
  unfold register
  by_cases hname : r.contains name = true
  · rw [dif_pos hname]
    have htaken : name ∈ r.names := by simpa [contains] using hname
    refine .inr ⟨htaken, rfl, fun n => ?_⟩
    rw [hlookup]
    split
    · rename_i hn
      obtain ⟨other, hother⟩ := Option.isSome_iff_exists.1 (mem_names_iff.1 htaken)
      rw [hn, hother, Option.some_or]
    · exact Option.or_none.symm
  · rw [dif_neg hname]
    have hfree : name ∉ r.names := by simpa [contains] using hname
    refine .inl ⟨hfree, _, rfl, fun n => ?_⟩
    rw [hlookup]
    split
    · rename_i hn
      have habsent : r.find? name = none := lookup_eq_none_iff.2 hfree
      rw [hn, habsent, Option.none_or]
      exact lookup_place_self name backend hfree
    · rename_i hn
      rw [Option.or_none]
      exact lookup_place name backend hn r.entries

/-- A backend that is registered stays so. -/
theorem find?_register {r r' : Registry β} {name n : String} {backend other : β}
    (h : r.register name backend = .ok r') (hfound : r.find? n = some other) :
    r'.find? n = some other := by
  rcases r.register_cases name backend with ⟨-, r'', hregister, hfind⟩ | ⟨-, hregister, -⟩
  · cases hregister.symm.trans h
    rw [hfind, hfound, Option.some_or]
  · cases hregister.symm.trans h

end Registry

namespace Call

theorem registry_step (b : Behaviour β ι ω) (call : Call β ι) (p : Provider β ι) (w : ω) :
    (call.step b p w).provider.registry = p.registry := by
  cases call with
  | instantiate | insert | closeRefused | detachToDestroy | destroy =>
    simp only [step]; split <;> rfl
  | _ => rfl

theorem registry_run (b : Behaviour β ι ω) (call : Call β ι) (p : Provider β ι) (w : ω) :
    (call.run b p w).provider.registry = p.registry := by
  fun_induction call.run b p w with
  | case1 call p w hdone => rfl
  | case2 call p w hdone next last ih => exact ih.trans (call.registry_step b p w)

end Call

namespace Session

/-- Whether every provider has a backend under a name. -/
def Furnished (h : Host β ι) (name : String) (backend : β) : Prop :=
  ∀ p ∈ h.providers, p.registry.find? name = some backend

variable {b : Behaviour β ι ω} {dummy : β} {s s' : Host β ι × ω}

theorem Furnished.provider? {h : Host β ι} {name : String} {backend : β}
    (hs : Furnished h name backend) {place : Nat} {p : Provider β ι}
    (hp : h.provider? place = some p) : p.registry.find? name = some backend := by
  obtain ⟨q, hq, rfl⟩ := Host.provider?_eq_some hp
  exact hs q (List.mem_of_getElem? hq)

theorem Furnished.put {h : Host β ι} {name : String} {backend : β} (hs : Furnished h name backend)
    {place : Nat} {p : Provider β ι} (hp : p.registry.find? name = some backend) :
    Furnished (h.put place p) name backend := by
  intro q hq
  rcases List.mem_or_eq_of_mem_set hq with hq | rfl
  · exact hs q hq
  · exact hp

/-- Every provider has the built-in backend, at every time of a session. -/
theorem Furnished.act (hs : Furnished s.1 Dummy.backendName dummy) {d : Deed β}
    (h : act b dummy s d = some s') : Furnished s'.1 Dummy.backendName dummy := by
  cases act_did h with
  | idle | attach | detach | tally => exact hs
  | @make config p new =>
    intro q hq
    rcases List.mem_append.1 hq with hq | hq
    · exact hs q hq
    · obtain rfl := List.mem_singleton.1 hq
      unfold Provider.new at new
      split at new
      · cases new; rfl
      · cases new
  | addBackend found registered =>
    exact hs.put (Registry.find?_register registered (hs.provider? found))
  | perform r found =>
    refine hs.put ?_
    rw [show (Provider.perform b r _ s.2).provider.registry = _ from Call.registry_run b _ _ s.2]
    exact hs.provider? found

theorem Furnished.acts (hs : Furnished s.1 Dummy.backendName dummy) {ds : List (Deed β)}
    (h : acts b dummy s ds = some s') : Furnished s'.1 Dummy.backendName dummy := by
  induction ds generalizing s with
  | nil =>
    cases h
    exact hs
  | cons d ds ih =>
    rw [acts_cons, Option.bind_eq_some_iff] at h
    obtain ⟨s₁, hd, hds⟩ := h
    exact ih (hs.act hd) hds

theorem Furnished.run {w : ω} (hreached : Reached b w s)
    (hs : Furnished s.1 Dummy.backendName dummy) {ops : List (Operation β)}
    (h : run b dummy s ops = some s') :
    Furnished s'.1 Dummy.backendName dummy := by
  induction ops generalizing s with
  | nil =>
    cases h
    exact hs
  | cons op ops ih =>
    rw [run_cons, Option.bind_eq_some_iff] at h
    obtain ⟨s₁, hop, hops⟩ := h
    have hdeeds := step_deeds hreached.sound hop
    exact ih (hreached.passes (acts_passes hdeeds)) (hs.acts hdeeds) hops

end Session

/-! ### Collectors that stay -/

/-- Whether a request to a provider ends the collector with an id: a close or a destroy with the
right token, or a shutdown. -/
def Request.Ends (p : Provider β ι) (id : CollectorId) : Request → Prop
  | .close token id' | .destroy token id' => id' = id ∧ p.token.check token = true
  | .shutdown => True
  | _ => False

namespace Call

/-- Whether the next step of a call may take the collector with an id from its table. -/
def Takes (id : CollectorId) : Call β ι → Prop
  | start _ | remove .drain => True
  | remove (.detach id' _) | detachToDestroy id' => id' = id
  | _ => False

theorem not_takes_begin {p : Provider β ι} {id : CollectorId} {r : Request} (h : ¬ r.Ends p id) :
    ¬ (begin p r).Takes id := by
  have hcheck : ∀ token, r.token? = some token → ¬ (begin p r).Takes id ∨
      p.authorize token = .ok () ∧ p.token.check token = true := by
    intro token htoken
    rcases begin_authorize p htoken with ⟨-, hbegin⟩ | ⟨hright, hallowed⟩
    · rw [hbegin]
      exact .inl not_false
    · exact .inr ⟨hallowed, hright⟩
  cases r with
  | shutdown => exact absurd trivial h
  | close token id' =>
    rcases hcheck token rfl with hdone | ⟨hallowed, hright⟩
    · exact hdone
    · simp only [begin, hallowed]
      exact fun heq => h ⟨heq, hright⟩
  | destroy token id' =>
    rcases hcheck token rfl with hdone | ⟨hallowed, hright⟩
    · exact hdone
    · simp only [begin, hallowed]
      exact fun heq => h ⟨heq, hright⟩
  | instantiate | list | hello | sum | invoke =>
    simp only [begin]; split <;> exact not_false

theorem not_takes_ofOutcome {α : Type} (id : CollectorId) (give : α → Answer)
    (r : Option (Except Error α)) : ¬ (ofOutcome give r : Call β ι).Takes id := by
  cases r <;> exact not_false

/-- A call that does not take a collector leaves it where it is, and does not come to take it. -/
theorem stays_step (b : Behaviour β ι ω) {c : Collector ι} {call : Call β ι}
    (h : ¬ call.Takes c.id) {p : Provider β ι} (hc : c ∈ p.table.entries) (w : ω) :
    ¬ (call.step b p w).call.Takes c.id ∧ c ∈ (call.step b p w).provider.table.entries := by
  cases call with
  | start r => exact absurd trivial h
  | insert d =>
    rcases p.table.insert_cases d with ⟨-, hi⟩ | ⟨-, -, hi⟩ | ⟨-, -, t, hi, hentries, -⟩ <;>
      simp only [step, hi]
    · exact ⟨not_false, hc⟩
    · exact ⟨not_false, hc⟩
    · exact ⟨not_false, hentries ▸ List.mem_append_left _ hc⟩
  | detachToDestroy id =>
    rcases p.table.take_cases id with ⟨-, ht⟩ | ⟨d, -, -, ht⟩ <;> simp only [step, ht]
    · exact ⟨not_false, hc⟩
    · exact ⟨not_false, List.mem_filter.2 ⟨hc, by simpa using Ne.symm h⟩⟩
  | remove r =>
    cases r with
    | detach id runClose =>
      rcases p.table.take_cases id with ⟨-, ht⟩ | ⟨d, -, -, ht⟩ <;>
        simp only [step, Removal.step, ht]
      · exact ⟨not_false, hc⟩
      · refine ⟨?_, List.mem_filter.2 ⟨hc, by simpa using Ne.symm h⟩⟩
        cases runClose <;> exact not_false
    | drain => exact absurd trivial h
    | close d => simp only [step, Removal.step]; split <;> exact ⟨not_false, hc⟩
    | closeAll rest total =>
      cases rest with
      | nil => exact ⟨not_false, hc⟩
      | cons d rest => simp only [step, Removal.step]; split <;> exact ⟨not_false, hc⟩
    | _ => exact ⟨not_false, hc⟩
  | checkClosed | findBackend | instantiate | closeRefused | destroy =>
    simp only [step]; split <;> exact ⟨not_false, hc⟩
  | hello | sum | invoke => exact ⟨not_takes_ofOutcome _ _ _, hc⟩
  | list | finished | broken => exact ⟨not_false, hc⟩

theorem stays_run (b : Behaviour β ι ω) {c : Collector ι} {call : Call β ι}
    (h : ¬ call.Takes c.id) {p : Provider β ι} (hc : c ∈ p.table.entries) (w : ω) :
    c ∈ (call.run b p w).provider.table.entries := by
  fun_induction call.run b p w with
  | case1 call p w hdone => exact hc
  | case2 call p w hdone next last ih =>
    obtain ⟨hnext, hstays⟩ := stays_step b h hc w
    exact ih hnext hstays

end Call

/-- A request that does not end a collector leaves it in its table. -/
theorem Provider.stays_perform (b : Behaviour β ι ω) {p : Provider β ι} {c : Collector ι}
    (hc : c ∈ p.table.entries) {r : Request} (h : ¬ r.Ends p c.id) (w : ω) :
    c ∈ (p.perform b r w).provider.table.entries := by
  rw [perform, Call.run_of_not_isDone rfl]
  exact Call.stays_run b (Call.not_takes_begin h) hc w

namespace Session

/-- Whether a request to the provider at a place ends the collector with an id of the attached
provider `pid`. -/
def EndsAt (h : Host β ι) (pid : ProviderId) (id : CollectorId) (place : Nat) (r : Request) :
    Prop :=
  h.find pid = .ok place ∧ ∃ p, h.provider? place = some p ∧ r.Ends p id

/-- Whether a deed ends the collector with an id of the attached provider `pid`, or detaches the
provider. -/
def Deed.Ends (h : Host β ι) (pid : ProviderId) (id : CollectorId) : Deed β → Prop
  | .detach id' => id' = pid
  | .perform place r => EndsAt h pid id place r
  | _ => False

/-- Whether an operation ends the collector with an id of the attached provider `pid`: by a
request, or by shutting down the provider. -/
def Ends (h : Host β ι) (pid : ProviderId) (id : CollectorId) : Operation β → Prop
  | .perform place r => EndsAt h pid id place r
  | .deregister id' => id' = pid
  | .shutdown => True
  | .answer limit mint r => ∃ rpc place request,
      Endpoint.plan limit mint r h = .perform rpc place request ∧ EndsAt h pid id place request
  | _ => False

/-- Whether none of some operations ends the collector with an id of the attached provider `pid`,
where each is done behind those in front of it. -/
def Spared (b : Behaviour β ι ω) (dummy : β) (s : Host β ι × ω) (pid : ProviderId)
    (id : CollectorId) : List (Operation β) → Prop
  | [] => True
  | op :: ops => ¬ Ends s.1 pid id op ∧
      ∀ s', step b dummy s op = some s' → Spared b dummy s' pid id ops

/-- Whether a collector is in the table of an attached provider. -/
structure Kept (h : Host β ι) (pid : ProviderId) (place : Nat) (c : Collector ι) : Prop where
  mem : (pid, place) ∈ h.attached
  table : ∃ t, h.contents[place]? = some t ∧ c ∈ t.1

variable {b : Behaviour β ι ω} {dummy : β} {s s' : Host β ι × ω} {w : ω} {pid : ProviderId}
  {place : Nat} {c : Collector ι}

/-- What a request leaves in its table is kept. -/
theorem Kept.perform (hs : Kept s.1 pid place c) (hsound : s.1.Sound) {q : Nat} {p : Provider β ι}
    (hp : s.1.provider? q = some p) {r : Request} (hr : ¬ EndsAt s.1 pid c.id q r) :
    Kept (s.1.put q (p.perform b r s.2).provider) pid place c := by
  obtain ⟨t, ht, hc⟩ := hs.table
  refine ⟨hs.mem, ?_⟩
  rw [Host.contents_put]
  by_cases hq : q = place
  · subst hq
    obtain rfl := Option.some.inj ((Host.contents_of_provider? hp).symm.trans ht)
    have hspares : ¬ r.Ends p c.id := fun hends => hr ⟨hsound.find hs.mem, p, hp, hends⟩
    rw [List.getElem?_set_self (List.getElem?_eq_some_iff.1 ht).1]
    exact ⟨_, rfl, p.stays_perform b hc hspares s.2⟩
  · rw [List.getElem?_set_ne hq]
    exact ⟨t, ht, hc⟩

/-- A deed that does not end a collector keeps it. -/
theorem Kept.act (hs : Kept s.1 pid place c) (hsound : s.1.Sound) {d : Deed β}
    (h : act b dummy s d = some s') (hd : ¬ d.Ends s.1 pid c.id) : Kept s'.1 pid place c := by
  obtain ⟨t, ht, hc⟩ := hs.table
  cases act_did h with
  | idle => exact hs
  | tally => exact ⟨hs.mem, hs.table⟩
  | make new =>
    refine ⟨hs.mem, t, ?_, hc⟩
    rw [Host.contents, List.map_append]
    exact (List.getElem?_append_left (List.getElem?_eq_some_iff.1 ht).1).trans ht
  | attach found free =>
    exact ⟨(Host.enter_perm _ _ _).mem_iff.2 (List.mem_cons_of_mem _ hs.mem), t, ht, hc⟩
  | @detach id q mem =>
    refine ⟨List.mem_filter.2 ⟨hs.mem, ?_⟩, t, ht, hc⟩
    simpa using fun heq : pid = id => hd heq.symm
  | @addBackend q name backend p registry found registered =>
    refine ⟨hs.mem, t, ?_, hc⟩
    rw [Host.contents_put_same { p with registry } found rfl, ht]
  | perform r found => exact hs.perform hsound found hd

/-- The place of a provider that is detached is not the place of another one. -/
theorem not_endsAt_of_detach {h : Host β ι} (hsound : h.Sound) {id : ProviderId} {q : Nat}
    (hfind : h.find id = .ok q) (hid : id ≠ pid) (hmem : (pid, place) ∈ h.attached)
    {h' : Host β ι} (hmem' : (pid, place) ∈ h'.attached) (hsound' : h'.Sound) (r : Request) :
    ¬ EndsAt h' pid c.id q r := by
  rintro ⟨hfind', -⟩
  rw [hsound'.find hmem', Except.ok.injEq] at hfind'
  subst hfind'
  have hown := hsound.own _ (Host.mem_of_find hfind)
  have hown' := hsound.own _ hmem
  exact hid (Option.some.inj (hown.symm.trans hown'))

/-- **An operation that does not end a collector keeps it.** -/
theorem Kept.step (hs : Kept s.1 pid place c) (hreached : Reached b w s) {op : Operation β}
    (hop : ¬ Ends s.1 pid c.id op) (h : step b dummy s op = some s') : Kept s'.1 pid place c := by
  have hsound := hreached.sound
  have hdeeds := step_deeds hsound h
  cases op with
  | make | attach | addBackend | perform =>
    rw [deeds, acts_singleton] at hdeeds
    exact hs.act hsound hdeeds hop
  | register config =>
    rw [deeds, acts_cons, Option.bind_eq_some_iff] at hdeeds
    obtain ⟨s₁, hmake, hattach⟩ := hdeeds
    rw [acts_singleton] at hattach
    have hsound₁ : s₁.1.Sound := (hreached.passes (act_passes hmake)).sound
    exact (hs.act hsound hmake not_false).act hsound₁ hattach not_false
  | deregister id =>
    rw [deeds] at hdeeds
    cases hfind : s.1.find id with
    | error e =>
      rw [hfind] at hdeeds
      cases hdeeds
      exact hs
    | ok q =>
      rw [hfind, acts_cons, Option.bind_eq_some_iff] at hdeeds
      obtain ⟨s₁, hdetach, hshutdown⟩ := hdeeds
      rw [acts_singleton] at hshutdown
      have hsound₁ : s₁.1.Sound := (hreached.passes (act_passes hdetach)).sound
      have hs₁ : Kept s₁.1 pid place c := hs.act hsound hdetach hop
      exact hs₁.act hsound₁ hshutdown
        (not_endsAt_of_detach hsound hfind hop hs.mem hs₁.mem hsound₁ .shutdown)
  | shutdown => exact absurd trivial hop
  | answer limit mint r =>
    rw [deeds] at hdeeds
    cases hplan : Endpoint.plan limit mint r s.1 with
    | respond | metrics =>
      rw [hplan] at hdeeds
      cases hdeeds
      exact hs
    | refuse rpc e =>
      rw [hplan, acts_singleton] at hdeeds
      exact hs.act hsound hdeeds not_false
    | perform rpc q request =>
      rw [hplan, acts_cons, Option.bind_eq_some_iff] at hdeeds
      obtain ⟨s₁, hperform, htally⟩ := hdeeds
      rw [acts_singleton] at htally
      have hsound₁ : s₁.1.Sound := (hreached.passes (act_passes hperform)).sound
      have hspares : ¬ EndsAt s.1 pid c.id q request :=
        fun hends => hop ⟨rpc, q, request, hplan, hends⟩
      exact (hs.act hsound hperform hspares).act hsound₁ htally not_false

/-- A collector that is spared is kept. -/
theorem Kept.run (hs : Kept s.1 pid place c) (hreached : Reached b w s) {ops : List (Operation β)}
    (hspared : Spared b dummy s pid c.id ops) (h : run b dummy s ops = some s') :
    Kept s'.1 pid place c := by
  induction ops generalizing s with
  | nil =>
    cases h
    exact hs
  | cons op ops ih =>
    rw [run_cons, Option.bind_eq_some_iff] at h
    obtain ⟨s₁, hop, hops⟩ := h
    have hpasses : Passes b s s₁ := acts_passes (step_deeds hreached.sound hop)
    exact ih (hs.step hreached hspared.1 hop) (hreached.passes hpasses) (hspared.2 s₁ hop) hops

end Session

end Collectors
