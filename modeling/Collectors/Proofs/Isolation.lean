import Collectors.Proofs.Attachment
import Collectors.Proofs.Desks
import Collectors.Proofs.Visits

/-!
# Providers keep apart

Two providers of one endpoint share the set in which they are looked up, the metrics, and the ids of
collectors. What is sent to one of them still has nothing to do with the other.

Both halves of this come from one relation: `Floor.Agree` says of two endpoints that they have the
same provider under an id, with the same desk and the same states of its backends, whatever else
there is in them. A message to this provider is answered in the same way by both, and leads to two
that agree again (`Agree.step`); and it changes nothing in an endpoint that `Floor.Elsewhere` could
see (`Agree.elsewhere`). What it takes for that to begin, `Floor.Kept`, holds of whatever an
endpoint comes to.
-/

namespace Collectors

variable {β ι ω : Type}

/-! ### Requests addressed to a provider -/

/-- What is to be done for a request that is addressed to a provider depends on nothing but where
this provider is. -/
theorem Endpoint.plan_of_addresses {r : Http.Request} {id : ProviderId} (hr : r.Addresses id)
    (limit : Nat) (mint : CollectorId) :
    (∃ response, ∀ h : Host β ι, plan limit mint r h = .respond response) ∨
    ∃ rpc, (∀ (h : Host β ι) e, h.find id = .error e → plan limit mint r h = .refuse rpc e) ∧
      ((∃ e, ∀ (h : Host β ι) place, h.find id = .ok place →
          plan limit mint r h = .refuse rpc e) ∨
        ∃ request, ∀ (h : Host β ι) place, h.find id = .ok place →
          plan limit mint r h = .perform rpc place request) := by
  obtain ⟨segment, name, hpath, hid⟩ := hr
  have hroute : Http.Route.ofTarget? r.target =
      (Rpc.ofName? name).map fun rpc => .rpc rpc segment.toList := by
    simp [Http.Route.ofTarget?, hpath]
  cases hname : Rpc.ofName? name with
  | none => exact .inl ⟨{ status := 404 }, fun h => by simp [plan, hroute, hname]⟩
  | some rpc =>
    by_cases hmethod : r.method = "POST"
    · refine .inr ⟨rpc, fun h e he => ?_, ?_⟩
      · simp [plan, hroute, hname, hmethod, Http.Route.allowed, provider, hid, he]
      · cases hbody : body limit rpc mint r with
        | error e =>
          refine .inl ⟨e, fun h place hplace => ?_⟩
          simp [plan, hroute, hname, hmethod, Http.Route.allowed, provider, hid, hplace, hbody]
        | ok request =>
          refine .inr ⟨request, fun h place hplace => ?_⟩
          simp [plan, hroute, hname, hmethod, Http.Route.allowed, provider, hid, hplace, hbody]
    · refine .inl ⟨{ status := 405, allow := some "POST" }, fun h => ?_⟩
      simp only [plan, hroute, hname, Option.map_some]
      rw [if_pos (by simpa [Http.Route.allowed] using hmethod)]
      rfl

/-! ### At one provider of an endpoint -/

namespace Floor

/-- The backend that a provider gets by a message. -/
def Message.backend? : Message β → Option β
  | desk e => e.backend?
  | _ => none

/-- Whether the provider with an id that is at a place, attached or not, is `p` and its desk `d`. -/
structure Seated (s : Floor β ι ω) (id : ProviderId) (place : Nat) (p : Provider β ι)
    (d : Desk β ι) : Prop where
  provider : s.host.provider? place = some p
  desk : s.desks[place]? = some d
  named : p.id = id
  found : s.host.find id = .ok place ∨ s.host.find id = .error (.invalidProvider id)

theorem provider?_tally (h : Host β ι) (count : Option (Rpc × Status)) (place : Nat) :
    (tally h count).provider? place = h.provider? place := by
  cases count <;> rfl

theorem find_tally (h : Host β ι) (count : Option (Rpc × Status)) (id : ProviderId) :
    (tally h count).find id = h.find id := by
  cases count <;> rfl

variable {s : Floor β ι ω} {id : ProviderId} {place : Nat} {p : Provider β ι} {d : Desk β ι}

/-- A call that is counted changes nothing at a provider. -/
theorem Seated.record (h : s.Seated id place p d) (rpc : Rpc) (status : Status) :
    Seated { s with host := Endpoint.record s.host rpc status } id place p d :=
  ⟨h.provider, h.desk, h.named, h.found⟩

/-- A provider that is detached is found no more, and all others are found as before. -/
theorem Seated.step_detach (h : s.Seated id place p d) (b : Behaviour β ι ω) :
    (s.host.find id = .error (.invalidProvider id) ∧
      s.step b (.detach id) = (s, some (.result (.error (.invalidProvider id))))) ∨
    (s.host.find id = .ok place ∧ ∃ attached,
      s.step b (.detach id) = ({ s with host := { s.host with attached } }, none) ∧
      (∀ other, Host.find { s.host with attached } other =
        if other = id then .error (.invalidProvider id) else s.host.find other) ∧
      Seated { s with host := { s.host with attached } } id place p d) := by
  rcases h.found with hfound | hmissing
  · have hfind : ∀ other, Host.find
        { s.host with attached := s.host.attached.filter fun entry => entry.1 ≠ id } other =
        if other = id then .error (.invalidProvider id) else s.host.find other := by
      intro other
      by_cases hother : other = id
      · rw [Host.find, lookup_filter_ne, if_pos hother, if_pos hother, hother]
      · rw [Host.find, lookup_filter_ne, if_neg hother, if_neg hother]
        rfl
    refine .inr ⟨hfound, _, ?_, hfind, h.provider, h.desk, h.named, .inr ?_⟩
    · simp only [step, Host.detach, hfound, Except.map]
    · rw [hfind, if_pos rfl]
  · exact .inl ⟨hmissing, by simp only [step, Host.detach, hmissing, Except.map]⟩

theorem Seated.step_desk (h : s.Seated id place p d) (b : Behaviour β ι ω) (e : Desk.Event β) :
    (s.step b (.desk place e)).2 = (d.step b p s.world e).reply ∧
    (s.step b (.desk place e)).1.world = (d.step b p s.world e).world ∧
    (∀ id', (s.step b (.desk place e)).1.host.find id' = s.host.find id') ∧
    Seated (s.step b (.desk place e)).1 id place (d.step b p s.world e).provider
      (d.step b p s.world e).desk := by
  have hsuits := Host.suits_of_provider? h.provider
  have hnext := Desk.suits_step hsuits b d s.world e
  have hid : (d.step b p s.world e).provider.id = p.id :=
    Option.some.inj (hnext.id.symm.trans hsuits.id)
  have hlt := (List.getElem?_eq_some_iff.1 h.desk).1
  simp only [step, h.provider, h.desk, find_tally]
  refine ⟨trivial, trivial, fun _ => rfl, ?_, List.getElem?_set_self hlt, hid.trans h.named, ?_⟩
  · exact (provider?_tally _ _ _).trans hnext.provider?_put
  · exact (find_tally _ _ _).symm ▸ h.found

theorem Seated.accept (h : s.Seated id place p d) (rpc : Rpc) (request : Request) :
    (s.accept rpc place request).2 =
      (if rpc = .hello then some (.http (Endpoint.answer rpc (.ok .done))) else none) ∧
    (s.accept rpc place request).1.world = s.world ∧
    (s.accept rpc place request).1.host.find = s.host.find ∧
    Seated (s.accept rpc place request).1 id place p (d.spawn (.rpc rpc (.start request))) := by
  have hdesk : (s.desks.modify place fun d => d.spawn (.rpc rpc (.start request)))[place]? =
      some (d.spawn (.rpc rpc (.start request))) := by
    rw [List.getElem?_modify_eq, h.desk]
    rfl
  unfold Floor.accept
  split
  · exact ⟨rfl, rfl, rfl, h.provider, hdesk, h.named, h.found⟩
  · exact ⟨rfl, rfl, rfl, h.provider, hdesk, h.named, h.found⟩

end Floor

/-! ### Two endpoints that agree on a provider -/

namespace Floor

variable [DecidableEq β] {b : β → Behaviour Unit ι ω} {own : List β}

/-- Whether two endpoints agree on the provider with an id, which is at some place in each of them,
and on the states of its backends. -/
structure Agree (own : List β) (id : ProviderId) (s : Floor β (β × ι) (β → ω)) (place : Nat)
    (s' : Floor β (β × ι) (β → ω)) (place' : Nat) (p : Provider β (β × ι)) (d : Desk β (β × ι)) :
    Prop where
  here : s.Seated id place p d
  there : s'.Seated id place' p d
  attached : s.host.find id = .ok place ↔ s'.host.find id = .ok place'
  world : ∀ k ∈ own, s.world k = s'.world k
  provider : p.Within own
  desk : d.Within own

variable {id : ProviderId} {s s' : Floor β (β × ι) (β → ω)} {place place' : Nat}
  {p : Provider β (β × ι)} {d : Desk β (β × ι)}

omit [DecidableEq β] in
/-- Both are attached, or none is. -/
theorem Agree.found (h : Agree own id s place s' place' p d) :
    (s.host.find id = .ok place ∧ s'.host.find id = .ok place') ∨
    (s.host.find id = .error (.invalidProvider id) ∧
      s'.host.find id = .error (.invalidProvider id)) := by
  rcases h.here.found with hhere | hhere
  · exact .inl ⟨hhere, h.attached.1 hhere⟩
  · rcases h.there.found with hthere | hthere
    · cases hhere.symm.trans (h.attached.2 hthere)
    · exact .inr ⟨hhere, hthere⟩

theorem Agree.step_desk (h : Agree own id s place s' place' p d) {e : Desk.Event β}
    (he : ∀ k ∈ e.backend?, k ∈ own) :
    (s.step (Behaviour.each b) (.desk place e)).2 =
      (s'.step (Behaviour.each b) (.desk place' e)).2 ∧
    ∃ p' d', Agree own id (s.step (Behaviour.each b) (.desk place e)).1 place
      (s'.step (Behaviour.each b) (.desk place' e)).1 place' p' d' := by
  obtain ⟨hreply, hworld, hfind, hseated⟩ := h.here.step_desk (Behaviour.each b) e
  obtain ⟨hreply', hworld', hfind', hseated'⟩ := h.there.step_desk (Behaviour.each b) e
  -- The other endpoint has these states of the backends, and states of others.
  have hgraft := Desk.step_graft (b := b) h.desk p s.world s'.world e
  rw [graft_of_agree h.world] at hgraft
  rw [hgraft] at hreply' hworld' hseated'
  obtain ⟨hdesk, hprovider⟩ := h.desk.step (b := b) h.provider s.world e
  refine ⟨hreply.trans hreply'.symm, _, _, hseated, hseated', ?_, fun k hk => ?_, hprovider he,
    hdesk⟩
  · rw [hfind, hfind']
    exact h.attached
  · rw [hworld, hworld']
    exact (graft_of_mem hk _ _).symm

omit [DecidableEq β] in
/-- Counting a call makes no difference to a provider. -/
theorem Agree.record (h : Agree own id s place s' place' p d) (rpc : Rpc) (status : Status) :
    Agree own id { s with host := Endpoint.record s.host rpc status } place
      { s' with host := Endpoint.record s'.host rpc status } place' p d :=
  ⟨h.here.record _ _, h.there.record _ _, h.attached, h.world, h.provider, h.desk⟩

omit [DecidableEq β] in
/-- A request that a worker is to do is handed over in the same way. -/
theorem Agree.accept (h : Agree own id s place s' place' p d) (rpc : Rpc) (request : Request) :
    (s.accept rpc place request).2 = (s'.accept rpc place' request).2 ∧
    ∃ p' d', Agree own id (s.accept rpc place request).1 place
      (s'.accept rpc place' request).1 place' p' d' := by
  obtain ⟨hreply, hworld, hfind, hseated⟩ := h.here.accept rpc request
  obtain ⟨hreply', hworld', hfind', hseated'⟩ := h.there.accept rpc request
  refine ⟨hreply.trans hreply'.symm, p, _, hseated, hseated', ?_, ?_, h.provider,
    Desk.within_spawn h.desk _ ?_⟩
  · rw [hfind, hfind']
    exact h.attached
  · rw [hworld, hworld']
    exact h.world
  · rintro _ _ ⟨⟩
    trivial

theorem Agree.step_http (h : Agree own id s place s' place' p d) {r : Http.Request}
    (hr : r.Addresses id) (limit : Nat) (mint : CollectorId) :
    (s.step (Behaviour.each b) (.http limit mint r)).2 =
      (s'.step (Behaviour.each b) (.http limit mint r)).2 ∧
    ∃ p' d', Agree own id (s.step (Behaviour.each b) (.http limit mint r)).1 place
      (s'.step (Behaviour.each b) (.http limit mint r)).1 place' p' d' := by
  rcases Endpoint.plan_of_addresses (β := β) (ι := β × ι) hr limit mint with
    ⟨response, hplan⟩ | ⟨rpc, hmissing, ⟨e, hrefuse⟩ | ⟨request, hperform⟩⟩
  · simp only [step, hplan]
    exact ⟨trivial, p, d, h⟩
  all_goals rcases h.found with ⟨hhere, hthere⟩ | ⟨hhere, hthere⟩
  · simp only [step, hrefuse _ _ hhere, hrefuse _ _ hthere]
    exact ⟨trivial, p, d, h.record _ _⟩
  · simp only [step, hmissing _ _ hhere, hmissing _ _ hthere]
    exact ⟨trivial, p, d, h.record _ _⟩
  · simp only [step, hperform _ _ hhere, hperform _ _ hthere]
    exact h.accept rpc request
  · simp only [step, hmissing _ _ hhere, hmissing _ _ hthere]
    exact ⟨trivial, p, d, h.record _ _⟩

theorem Agree.step_detach (h : Agree own id s place s' place' p d) :
    (s.step (Behaviour.each b) (.detach id)).2 = (s'.step (Behaviour.each b) (.detach id)).2 ∧
    ∃ p' d', Agree own id (s.step (Behaviour.each b) (.detach id)).1 place
      (s'.step (Behaviour.each b) (.detach id)).1 place' p' d' := by
  rcases h.here.step_detach (Behaviour.each b) with
      ⟨hhere, hstep⟩ | ⟨hhere, attached, hstep, hfind, hseated⟩ <;>
    rcases h.there.step_detach (Behaviour.each b) with
      ⟨hthere, hstep'⟩ | ⟨hthere, attached', hstep', hfind', hseated'⟩
  · rw [hstep, hstep']
    exact ⟨rfl, p, d, h⟩
  · cases hhere.symm.trans (h.attached.2 hthere)
  · cases hthere.symm.trans (h.attached.1 hhere)
  · rw [hstep, hstep']
    refine ⟨rfl, p, d, hseated, hseated', ?_, h.world, h.provider, h.desk⟩
    dsimp only
    rw [hfind, hfind', if_pos rfl, if_pos rfl]
    exact iff_of_false (fun h => (by cases h)) fun h => (by cases h)

/-- **A message does the same at two endpoints that agree on the provider that it is for.** -/
theorem Agree.step (h : Agree own id s place s' place' p d) {m : Message β} (hm : m.Addresses id)
    (hk : ∀ k ∈ m.backend?, k ∈ own) :
    (s.step (Behaviour.each b) (m.event id place)).2 =
      (s'.step (Behaviour.each b) (m.event id place')).2 ∧
    ∃ p' d', Agree own id (s.step (Behaviour.each b) (m.event id place)).1 place
      (s'.step (Behaviour.each b) (m.event id place')).1 place' p' d' := by
  cases m with
  | http limit mint r => exact h.step_http hm limit mint
  | detach => exact h.step_detach
  | desk e => exact h.step_desk hk

theorem Agree.run (h : Agree own id s place s' place' p d) {ms : List (Message β)}
    (hms : ∀ m ∈ ms, m.Addresses id) (hk : ∀ m ∈ ms, ∀ k ∈ m.backend?, k ∈ own) :
    (s.run (Behaviour.each b) (ms.map (Message.event id place))).2 =
      (s'.run (Behaviour.each b) (ms.map (Message.event id place'))).2 ∧
    ∃ p' d', Agree own id (s.run (Behaviour.each b) (ms.map (Message.event id place))).1 place
      (s'.run (Behaviour.each b) (ms.map (Message.event id place'))).1 place' p' d' := by
  induction ms generalizing s s' p d with
  | nil => exact ⟨rfl, p, d, h⟩
  | cons m ms ih =>
    obtain ⟨hreply, p', d', hnext⟩ :=
      h.step (b := b) (hms m List.mem_cons_self) (hk m List.mem_cons_self)
    obtain ⟨hreplies, hlast⟩ := ih hnext (fun m hm => hms m (List.mem_cons_of_mem _ hm))
      fun m hm => hk m (List.mem_cons_of_mem _ hm)
    simp only [List.map_cons, Floor.run]
    exact ⟨by rw [hreply, hreplies], hlast⟩

/-! ### Everything else -/

/-- Whether nothing has changed from `s` to `t` but at the provider with an id, which is at a place,
and in the states of its backends. -/
structure Elsewhere (own : List β) (id : ProviderId) (place : Nat) (s t : Floor β ι (β → ω)) :
    Prop where
  find : ∀ other, other ≠ id → t.host.find other = s.host.find other
  provider : ∀ place' q, s.host.provider? place' = some q → q.id ≠ id →
    t.host.provider? place' = some q
  desk : ∀ place', place' ≠ place → t.desks[place']? = s.desks[place']?
  world : ∀ k, k ∉ own → t.world k = s.world k

omit [DecidableEq β] in
theorem Elsewhere.refl (own : List β) (id : ProviderId) (place : Nat) (s : Floor β ι (β → ω)) :
    Elsewhere own id place s s :=
  ⟨fun _ _ => rfl, fun _ _ hq _ => hq, fun _ _ => rfl, fun _ _ => rfl⟩

omit [DecidableEq β] in
theorem Elsewhere.trans {s t u : Floor β ι (β → ω)} (h : Elsewhere own id place s t)
    (h' : Elsewhere own id place t u) : Elsewhere own id place s u where
  find other hother := (h'.find other hother).trans (h.find other hother)
  provider place' q hq hid := h'.provider place' q (h.provider place' q hq hid) hid
  desk place' hplace := (h'.desk place' hplace).trans (h.desk place' hplace)
  world k hk := (h'.world k hk).trans (h.world k hk)

omit [DecidableEq β] in
/-- Storing a provider changes no provider with another id. -/
theorem provider?_put_of_ne {h : Host β ι} {place place' : Nat} {p q : Provider β ι}
    (hp : h.Suits place p) (hq : h.provider? place' = some q) (hid : q.id ≠ p.id) :
    (h.put place p).provider? place' = some q := by
  obtain ⟨q', hq', rfl⟩ := Host.provider?_eq_some hq
  have hplace : place ≠ place' := by
    rintro rfl
    have hsame := hp.id
    rw [List.getElem?_map, hq'] at hsame
    exact hid (Option.some.inj hsame)
  rw [Host.provider?, Host.providers_put, List.getElem?_set_ne hplace, hq', Option.map_some,
    Host.gauge?_put hp, if_neg hid]

theorem Agree.elsewhere_desk (h : Agree own id s place s place p d) (e : Desk.Event β) :
    Elsewhere own id place s (s.step (Behaviour.each b) (.desk place e)).1 := by
  obtain ⟨-, hworld, hfind, -⟩ := h.here.step_desk (Behaviour.each b) e
  have hsuits := Host.suits_of_provider? h.here.provider
  have hnext := Desk.suits_step hsuits (Behaviour.each b) d s.world e
  have hid : (d.step (Behaviour.each b) p s.world e).provider.id = id :=
    (Option.some.inj (hnext.id.symm.trans hsuits.id)).trans h.here.named
  refine ⟨fun other _ => hfind other, fun place' q hq hne => ?_, fun place' hplace => ?_,
    fun k hk => ?_⟩
  · simp only [Floor.step, h.here.provider, h.here.desk]
    exact (provider?_tally _ _ _).trans (provider?_put_of_ne hnext hq (hid.symm ▸ hne))
  · simp only [Floor.step, h.here.provider, h.here.desk]
    rw [List.getElem?_set_ne hplace.symm]
  · have hgraft := Desk.step_graft (b := b) h.desk p s.world s.world e
    rw [graft_self] at hgraft
    rw [hworld, hgraft]
    exact graft_of_notMem hk _ _

omit [DecidableEq β] in
theorem Elsewhere.record (own : List β) (id : ProviderId) (place : Nat) (s : Floor β ι (β → ω))
    (rpc : Rpc) (status : Status) :
    Elsewhere own id place s { s with host := Endpoint.record s.host rpc status } :=
  ⟨fun _ _ => rfl, fun _ _ hq _ => hq, fun _ _ => rfl, fun _ _ => rfl⟩

omit [DecidableEq β] in
theorem Elsewhere.accept (own : List β) (id : ProviderId) (place : Nat) (s : Floor β ι (β → ω))
    (rpc : Rpc) (request : Request) :
    Elsewhere own id place s (s.accept rpc place request).1 := by
  have hdesks : ∀ place', place' ≠ place →
      (s.desks.modify place fun d => d.spawn (.rpc rpc (.start request)))[place']? =
        s.desks[place']? := fun place' hplace => List.getElem?_modify_ne _ _ hplace.symm
  unfold Floor.accept
  split
  · exact ⟨fun _ _ => rfl, fun _ _ hq _ => hq, hdesks, fun _ _ => rfl⟩
  · exact ⟨fun _ _ => rfl, fun _ _ hq _ => hq, hdesks, fun _ _ => rfl⟩

theorem Agree.elsewhere_http (h : Agree own id s place s place p d) {r : Http.Request}
    (hr : r.Addresses id) (limit : Nat) (mint : CollectorId) :
    Elsewhere own id place s (s.step (Behaviour.each b) (.http limit mint r)).1 := by
  rcases Endpoint.plan_of_addresses (β := β) (ι := β × ι) hr limit mint with
    ⟨response, hplan⟩ | ⟨rpc, hmissing, ⟨e, hrefuse⟩ | ⟨request, hperform⟩⟩
  · simp only [Floor.step, hplan]
    exact .refl _ _ _ _
  all_goals rcases h.here.found with hhere | hhere
  · simp only [Floor.step, hrefuse _ _ hhere]
    exact .record _ _ _ _ _ _
  · simp only [Floor.step, hmissing _ _ hhere]
    exact .record _ _ _ _ _ _
  · simp only [Floor.step, hperform _ _ hhere]
    exact .accept _ _ _ _ _ _
  · simp only [Floor.step, hmissing _ _ hhere]
    exact .record _ _ _ _ _ _

/-- **A message changes nothing but the provider that it is for.** -/
theorem Agree.elsewhere (h : Agree own id s place s place p d) {m : Message β}
    (hm : m.Addresses id) :
    Elsewhere own id place s (s.step (Behaviour.each b) (m.event id place)).1 := by
  cases m with
  | http limit mint r => exact h.elsewhere_http hm limit mint
  | detach =>
    rcases h.here.step_detach (Behaviour.each b) with
      ⟨-, hstep⟩ | ⟨-, attached, hstep, hfind, -⟩
    · rw [Message.event, hstep]
      exact .refl _ _ _ _
    · rw [Message.event, hstep]
      exact ⟨fun other hother => (hfind other).trans (if_neg hother), fun _ _ hq _ => hq,
        fun _ _ => rfl, fun _ _ => rfl⟩
  | desk e => exact h.elsewhere_desk e

theorem Agree.elsewhere_run (h : Agree own id s place s place p d) {ms : List (Message β)}
    (hms : ∀ m ∈ ms, m.Addresses id) (hk : ∀ m ∈ ms, ∀ k ∈ m.backend?, k ∈ own) :
    Elsewhere own id place s
      (s.run (Behaviour.each b) (ms.map (Message.event id place))).1 := by
  induction ms generalizing s p d with
  | nil => exact .refl _ _ _ _
  | cons m ms ih =>
    obtain ⟨-, p', d', hnext⟩ :=
      h.step (b := b) (hms m List.mem_cons_self) (hk m List.mem_cons_self)
    exact (h.elsewhere (hms m List.mem_cons_self)).trans
      (ih hnext (fun m hm => hms m (List.mem_cons_of_mem _ hm))
        fun m hm => hk m (List.mem_cons_of_mem _ hm))

/-! ### Endpoints that have come about -/

/-- Whether every provider has a desk, and all that is in the hands of a provider and of the calls
at its desk belongs to its backends. -/
structure Kept (s : Floor β (β × ι) ω) : Prop where
  sound : s.host.Sound
  length : s.desks.length = s.host.providers.length
  within : ∀ (place : Nat) (p : Provider β (β × ι)) (d : Desk β (β × ι)),
    s.host.providers[place]? = some p → s.desks[place]? = some d →
    p.Within p.backends ∧ d.Within p.backends

omit [DecidableEq β] in
/-- What is at a place of a list of desks of which one has changed. -/
theorem Kept.set {s : Floor β (β × ι) ω} (hs : s.Kept) {place : Nat} {p : Provider β (β × ι)}
    {p' : Provider β (β × ι)} {d' : Desk β (β × ι)} (hp : s.host.provider? place = some p)
    (hsuits : s.host.Suits place p') (hp' : p'.Within p'.backends) (hd' : d'.Within p'.backends)
    (count : Option (Rpc × Status)) (w : ω) :
    Kept { host := tally (s.host.put place p') count
           world := w
           desks := s.desks.set place d' } := by
  have hid : p'.id = p.id :=
    Option.some.inj (hsuits.id.symm.trans (Host.suits_of_provider? hp).id)
  have hproviders : (tally (s.host.put place p') count).providers =
      s.host.providers.set place p' := by cases count <;> rfl
  have hattached : (tally (s.host.put place p') count).attached = s.host.attached := by
    cases count <;> rfl
  refine ⟨hs.sound.append hattached ⟨[], ?_⟩, ?_, fun place' q d hq hd => ?_⟩
  · rw [hproviders, List.append_nil]
    exact Traffic.map_id_put p' hp hid
  · rw [hproviders, List.length_set, List.length_set, hs.length]
  · rw [hproviders] at hq
    by_cases hplace : place = place'
    · subst hplace
      rw [List.getElem?_set_self hsuits.lt] at hq
      rw [List.getElem?_set_self (hs.length.symm ▸ hsuits.lt)] at hd
      cases hq
      cases hd
      exact ⟨hp', hd'⟩
    · rw [List.getElem?_set_ne hplace] at hq hd
      exact hs.within place' q d hq hd

omit [DecidableEq β] in
theorem Kept.provider? {s : Floor β (β × ι) ω} (hs : s.Kept) {place : Nat}
    {p : Provider β (β × ι)} {d : Desk β (β × ι)} (hp : s.host.provider? place = some p)
    (hd : s.desks[place]? = some d) : p.Within p.backends ∧ d.Within p.backends := by
  obtain ⟨q, hq, rfl⟩ := Host.provider?_eq_some hp
  obtain ⟨hwithin, hdesk⟩ := hs.within place q d hq hd
  exact ⟨⟨hwithin.backends, hwithin.collectors⟩, hdesk⟩

omit [DecidableEq β] in
/-- A new provider has no collectors. -/
theorem within_new {config : ProviderConfig} {dummy : β} {p : Provider β (β × ι)}
    (h : Provider.new config dummy = some p) : p.Within p.backends := by
  unfold Provider.new at h
  split at h
  · cases h
    exact ⟨List.Subset.refl _, Collector.within_nil⟩
  · cases h

omit [DecidableEq β] in
theorem Kept.accept {s : Floor β (β × ι) ω} (hs : s.Kept) (rpc : Rpc) (place : Nat)
    (request : Request) : (s.accept rpc place request).1.Kept := by
  have hwithin : ∀ (place' : Nat) (p : Provider β (β × ι)) (d : Desk β (β × ι)),
      s.host.providers[place']? = some p →
      (s.desks.modify place fun d => d.spawn (.rpc rpc (.start request)))[place']? = some d →
      p.Within p.backends ∧ d.Within p.backends := by
    intro place' p d hp hd
    by_cases hplace : place = place'
    · subst hplace
      rw [List.getElem?_modify_eq] at hd
      obtain ⟨d', hd', rfl⟩ := Option.map_eq_some_iff.1 hd
      obtain ⟨hp', hdesk⟩ := hs.within place p d' hp hd'
      refine ⟨hp', Desk.within_spawn hdesk _ ?_⟩
      rintro _ _ ⟨⟩
      trivial
    · rw [List.getElem?_modify_ne _ _ hplace] at hd
      exact hs.within place' p d hp hd
  have hlength : (s.desks.modify place fun d => d.spawn (.rpc rpc (.start request))).length =
      s.host.providers.length := (List.length_modify _ _ _).trans hs.length
  unfold Floor.accept
  split
  · exact ⟨⟨hs.sound.nodup, hs.sound.own⟩, hlength, hwithin⟩
  · exact ⟨hs.sound, hlength, hwithin⟩

omit [DecidableEq β] in
theorem Kept.make {s : Floor β (β × ι) ω} (hs : s.Kept) {config : ProviderConfig} {dummy : β}
    {place : Nat} {host : Host β (β × ι)} (hmake : s.host.make config dummy = some (place, host))
    (pool : WorkerPool Nat Answer) : Kept { s with host, desks := s.desks ++ [{ pool }] } := by
  obtain ⟨p, hnew, heq⟩ := Option.map_eq_some_iff.1 hmake
  obtain rfl := (Prod.mk.inj heq).2
  refine ⟨hs.sound.append rfl ⟨[p.id], List.map_append⟩, ?_, fun place' q d hq hd => ?_⟩
  · simp [hs.length]
  · by_cases hplace : place' < s.host.providers.length
    · rw [List.getElem?_append_left hplace] at hq
      rw [List.getElem?_append_left (hs.length.symm ▸ hplace)] at hd
      exact hs.within place' q d hq hd
    · rw [List.getElem?_append_right (Nat.not_lt.1 hplace)] at hq
      rw [List.getElem?_append_right (hs.length.symm ▸ Nat.not_lt.1 hplace)] at hd
      obtain rfl := List.mem_singleton.1 (List.mem_of_getElem? hq)
      obtain rfl := List.mem_singleton.1 (List.mem_of_getElem? hd)
      exact ⟨within_new hnew, fun _ _ h => absurd h List.not_mem_nil,
        fun _ h => absurd h List.not_mem_nil⟩

theorem Kept.step {s : Floor β (β × ι) (β → ω)} (hs : s.Kept) (e : Event β) :
    (s.step (Behaviour.each b) e).1.Kept := by
  cases e with
  | make config dummy =>
    simp only [Floor.step]
    split
    · rename_i hmake _
      exact hs.make hmake _
    · exact hs
  | attach place =>
    simp only [Floor.step]
    cases hp : s.host.providers[place]? with
    | none => exact hs
    | some p =>
      simp only [Host.attach]
      cases hfree : s.host.attached.lookup p.id with
      | some other => exact hs
      | none =>
        exact ⟨hs.sound.enter hp (lookup_eq_none_iff.1 hfree), hs.length, hs.within⟩
  | detach id =>
    simp only [Floor.step]
    rcases s.host.detach_cases id with ⟨-, hd⟩ | ⟨place, -, hd⟩ <;> rw [hd]
    · exact hs
    · exact ⟨hs.sound.filter _, hs.length, hs.within⟩
  | http limit mint r =>
    simp only [Floor.step]
    split
    · exact hs
    · exact hs
    · exact ⟨⟨hs.sound.nodup, hs.sound.own⟩, hs.length, hs.within⟩
    · exact hs.accept _ _ _
  | desk place e =>
    simp only [Floor.step]
    split
    · rename_i p d hp hd
      obtain ⟨hwithin, hdesk⟩ := hs.provider? hp hd
      obtain ⟨hp', hd'⟩ := Desk.within_backends_step (b := b) hwithin hdesk s.world e
      exact hs.set hp (Desk.suits_step (Host.suits_of_provider? hp) _ d s.world e) hp' hd' _ _
    · exact hs

theorem Reachable.kept {w : β → ω} {s : Floor β (β × ι) (β → ω)}
    (hs : Reachable (Behaviour.each b) w s) : s.Kept := by
  obtain ⟨es, rfl⟩ := hs
  have key : ∀ (es : List (Event β)) (s : Floor β (β × ι) (β → ω)), s.Kept →
      (s.run (Behaviour.each b) es).1.Kept := by
    intro es
    induction es with
    | nil => intro s hs; exact hs
    | cons e es ih => intro s hs; exact ih _ (hs.step e)
  exact key es _ ⟨⟨List.nodup_nil, nofun⟩, rfl, fun place p d hp => by cases hp⟩

/-! ### Isolation -/

/-- The backends that a provider has when it has got some messages. -/
def backendsAfter (p : Provider β ι) (ms : List (Message β)) : List β :=
  p.backends ++ ms.filterMap Message.backend?

omit [DecidableEq β] in
theorem Kept.seated {s : Floor β (β × ι) ω} (hs : s.Kept) {id : ProviderId} {place : Nat}
    (hid : s.host.find id = .ok place) {p : Provider β (β × ι)}
    (hp : s.host.provider? place = some p) : ∃ d, s.Seated id place p d := by
  have hown := hs.sound.own _ (Host.mem_of_find hid)
  have hsuits := Host.suits_of_provider? hp
  have hlt : place < s.desks.length := hs.length.symm ▸ hsuits.lt
  exact ⟨s.desks[place], hp, List.getElem?_eq_getElem hlt,
    Option.some.inj (hsuits.id.symm.trans hown), .inl hid⟩

/-- What messages to the provider `p` with an id, which is at a place, have to do with others. -/
structure Isolated (b : β → Behaviour Unit ι ω) (s : Floor β (β × ι) (β → ω)) (id : ProviderId)
    (place : Nat) (p : Provider β (β × ι)) (ms : List (Message β)) : Prop where
  /-- What a provider and its calls have in their hands was made by backends of this provider. -/
  owned : ∀ (place : Nat) (q : Provider β (β × ι)) (d : Desk β (β × ι)),
    s.host.provider? place = some q → s.desks[place]? = some d →
    q.Within q.backends ∧ d.Within q.backends
  /-- Any other provider stays attached and as it is, and so do its workers and its calls, and the
  states of its backends unless they are backends of `p`, too. -/
  others : ∀ (other : ProviderId) (place' : Nat) (q : Provider β (β × ι)) (d : Desk β (β × ι)),
    other ≠ id → s.host.find other = .ok place' → s.host.provider? place' = some q →
    s.desks[place']? = some d →
    let t := (s.run (Behaviour.each b) (ms.map (Message.event id place))).1
    t.host.find other = .ok place' ∧ t.host.provider? place' = some q ∧
      t.desks[place']? = some d ∧
      ∀ k ∈ q.backends, k ∉ backendsAfter p ms → t.world k = s.world k
  /-- Where `p`, its workers, its calls and its backends are the same, the messages are answered in
  the same way, and all these are the same afterwards. -/
  twin : ∀ (w' : β → ω) (s' : Floor β (β × ι) (β → ω)) (place' : Nat),
    Reachable (Behaviour.each b) w' s' → s'.host.find id = .ok place' →
    s'.host.provider? place' = some p → s'.desks[place']? = s.desks[place]? →
    (∀ k ∈ backendsAfter p ms, s'.world k = s.world k) →
    let t := s.run (Behaviour.each b) (ms.map (Message.event id place))
    let t' := s'.run (Behaviour.each b) (ms.map (Message.event id place'))
    t'.2 = t.2 ∧ t'.1.host.provider? place' = t.1.host.provider? place ∧
      t'.1.desks[place']? = t.1.desks[place]? ∧
      (t'.1.host.find id = .ok place' ↔ t.1.host.find id = .ok place) ∧
      ∀ k ∈ backendsAfter p ms, t'.1.world k = t.1.world k
  /-- A collector that `p` does not have is none for it, whoever else has it. Greeting it leads to
  nothing, for a greeting is never refused. -/
  foreign : ∀ (r : Request) (cid : CollectorId), r.collector? = some cid → cid ∉ p.table.ids →
    (∀ token ∈ r.token?, p.authorize token = .ok ()) →
    ∃ a, p.outcome (Behaviour.each b) r s.world =
        { answer := some a, provider := p, world := s.world } ∧
      (r = .hello cid ∨ ∃ e, a = .error e ∧ e.status = .invalidCollector)

omit [DecidableEq β] in
/-- A request to a collector that there is not leaves everything as it is. -/
theorem foreign_of_notMem (b : Behaviour β ι ω) {p : Provider β ι} {r : Request}
    {cid : CollectorId} (hr : r.collector? = some cid) (hcid : cid ∉ p.table.ids)
    (htoken : ∀ token ∈ r.token?, p.authorize token = .ok ()) (w : ω) :
    ∃ a, p.outcome b r w = { answer := some a, provider := p, world := w } ∧
      (r = .hello cid ∨ ∃ e, a = .error e ∧ e.status = .invalidCollector) := by
  have hreach : r.reach p cid = .error (r.missing cid) := by
    cases h : r.reach p cid with
    | ok c =>
      have hget := (Request.reach_eq_ok h).2
      rw [Table.get?_eq_none_iff.2 hcid] at hget
      cases hget
    | error a =>
      rcases Request.reach_eq_error h with ⟨token, hmem, e, hdenied, -⟩ | ⟨-, -, rfl⟩
      · rw [htoken token hmem] at hdenied
        cases hdenied
      · rfl
  refine ⟨r.missing cid, Provider.outcome_missed hr hreach w, ?_⟩
  cases r with
  | hello i =>
    cases hr
    exact .inl rfl
  | _ => exact .inr ⟨.collectorNotFound cid.text, rfl, rfl⟩

/-- **Providers on one endpoint are isolated.** -/
theorem isolated {w : β → ω} {s : Floor β (β × ι) (β → ω)}
    (hs : Reachable (Behaviour.each b) w s) {id : ProviderId} {place : Nat}
    (hid : s.host.find id = .ok place) {p : Provider β (β × ι)}
    (hp : s.host.provider? place = some p) {ms : List (Message β)}
    (hms : ∀ m ∈ ms, m.Addresses id) : s.Isolated b id place p ms := by
  have hkept := hs.kept
  obtain ⟨d, hseated⟩ := hkept.seated hid hp
  obtain ⟨hwithin, hdesk⟩ := hkept.provider? hp hseated.desk
  have hown : p.backends ⊆ backendsAfter p ms := List.subset_append_left _ _
  have hms' : ∀ m ∈ ms, ∀ k ∈ m.backend?, k ∈ backendsAfter p ms := fun m hm k hk =>
    List.mem_append_right _ (List.mem_filterMap.2 ⟨m, hm, hk⟩)
  have hagree : Agree (backendsAfter p ms) id s place s place p d :=
    ⟨hseated, hseated, .rfl, fun _ _ => rfl, hwithin.mono hown, hdesk.mono hown⟩
  constructor
  case owned => exact fun place q d hq hd => hkept.provider? hq hd
  case others =>
    intro other place' q d' hne hother hq hd' t
    obtain ⟨d'', hseated'⟩ := hkept.seated hother hq
    have helsewhere := hagree.elsewhere_run (b := b) hms hms'
    have hplace : place' ≠ place := by
      rintro rfl
      exact hne (hseated'.named.symm.trans
        ((congrArg Provider.id (Option.some.inj (hq.symm.trans hp))).trans hseated.named))
    refine ⟨(helsewhere.find other hne).trans hother, ?_, (helsewhere.desk place' hplace).trans hd',
      fun k _ hk => helsewhere.world k hk⟩
    exact helsewhere.provider place' q hq (hseated'.named.symm ▸ hne)
  case twin =>
    intro w' s' place' hs' hid' hp' hd' hworld t t'
    obtain ⟨d', hseated'⟩ := hs'.kept.seated hid' hp'
    obtain rfl : d' = d :=
      Option.some.inj (hseated'.desk.symm.trans (hd'.trans hseated.desk))
    have htwin : Agree (backendsAfter p ms) id s place s' place' p d' :=
      ⟨hseated, hseated', iff_of_true hid hid', fun k hk => (hworld k hk).symm, hagree.provider,
        hagree.desk⟩
    obtain ⟨hreplies, p'', d'', hlast⟩ := htwin.run (b := b) hms hms'
    exact ⟨hreplies.symm, hlast.there.provider.trans hlast.here.provider.symm,
      hlast.there.desk.trans hlast.here.desk.symm, hlast.attached.symm,
      fun k hk => (hlast.world k hk).symm⟩
  case foreign => exact fun r cid hr hcid htoken => foreign_of_notMem _ hr hcid htoken s.world

/-- Two providers are registered, and the second one gets a collector. -/
def neighbours : List (Event Bool) :=
  [.make {} false, .attach 0, .make { providerId := 7 } true, .attach 1,
    .desk 1 (.call (.instantiate .create none Dummy.backendName none Traffic.nilId)),
    .desk 1 (.step 0), .desk 1 (.step 0), .desk 1 (.step 0), .desk 1 (.step 0),
    .desk 1 (.step 0)]

/-- The first provider is asked over the network for a collector, which gets the id of the
collector of its neighbour, and it is deregistered. -/
def visits : List (Message Bool) :=
  [.http defaultBodyLimit Traffic.nilId
      (Endpoint.posted "/v1/providers/0/create_collector" "\x7b\"type\":\"dummy\"\x7d"),
    .desk (.work 0), .desk (.work 0), .desk (.work 0), .desk (.work 0), .desk (.work 0), .detach,
    .desk (.call .shutdown), .desk (.step 0), .desk (.step 0), .desk (.step 0), .desk (.step 0),
    .desk (.step 0)]

theorem addresses_visits : ∀ m ∈ visits, m.Addresses 0 := by
  refine List.forall_mem_cons.2 ⟨⟨"0", "create_collector", ?_, ?_⟩, fun m hm => ?_⟩
  · decide +kernel
  · decide +kernel
  · simp only [List.mem_cons, List.not_mem_nil, or_false] at hm
    rcases hm with rfl | rfl | rfl | rfl | rfl | rfl | rfl | rfl | rfl | rfl | rfl | rfl <;> trivial

theorem isolated_neighbours :
    let s := (run (Behaviour.each fun _ : Bool => Dummy.behaviour) { world := fun _ => {} }
      neighbours).1
    s.host.find 0 = .ok 0 ∧ ∃ p, s.host.provider? 0 = some p ∧
      (∀ m ∈ visits, m.Addresses 0) ∧ s.Isolated (fun _ => Dummy.behaviour) 0 0 p visits := by
  intro s
  have hs : Reachable (Behaviour.each fun _ : Bool => Dummy.behaviour) (fun _ => {}) s :=
    ⟨neighbours, rfl⟩
  have hid : s.host.find 0 = .ok 0 := by decide +kernel
  have hlt : 0 < s.host.providers.length := by decide +kernel
  obtain ⟨p, hp⟩ := Host.provider?_isSome hlt
  exact ⟨hid, p, hp, addresses_visits, isolated hs hid hp addresses_visits⟩

end Floor

end Collectors
