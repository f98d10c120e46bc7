import Collectors.Proofs.Lists
import Collectors.Proofs.Traffic

/-!
# Attached providers

`Traffic.Placed` is what holds of a host and its traffic all the time (`Reachable.placed`): no id
is attached twice, every provider is attached under its own id, and whoever has hold of a provider
has hold of one that was made.

The set of attached providers changes by events of two kinds: a provider is attached, or an errand
detaches one. A provider that is detached goes from the set into the hands of one errand
(`Traffic.detachments_run`).
-/

namespace Collectors

variable {β ι ω : Type}

/-! ### The set of attached providers -/

namespace Host

/-- Whether attached providers are providers that were made, under their own ids, and no id is
attached twice. -/
structure Sound (h : Host β ι) : Prop where
  nodup : h.ids.Nodup
  own : ∀ entry ∈ h.attached, (h.providers.map Provider.id)[entry.2]? = some entry.1

theorem enter_perm (id : ProviderId) (place : Nat) (l : List (ProviderId × Nat)) :
    (enter id place l).Perm ((id, place) :: l) := by
  induction l with
  | nil => exact .refl _
  | cons entry l ih =>
    unfold enter
    split
    · exact .refl _
    · exact (ih.cons _).trans (.swap _ _ _)

/-- Providers that were made besides do no harm. -/
theorem Sound.append {h h' : Host β ι} (hs : h.Sound) (hattached : h'.attached = h.attached)
    (hids : ∃ new, h'.providers.map Provider.id = h.providers.map Provider.id ++ new) :
    h'.Sound := by
  obtain ⟨new, hids⟩ := hids
  constructor
  · rw [ids, hattached]; exact hs.nodup
  · intro entry hentry
    rw [hattached] at hentry
    have hold := hs.own entry hentry
    rw [hids, List.getElem?_append_left (List.getElem?_eq_some_iff.1 hold).1, hold]

theorem Sound.enter {h : Host β ι} (hs : h.Sound) {place : Nat} {p : Provider β ι}
    (hp : h.providers[place]? = some p) (hfree : p.id ∉ h.ids) :
    Sound { h with attached := Host.enter p.id place h.attached } := by
  have hperm := enter_perm p.id place h.attached
  constructor
  · rw [ids, (hperm.map Prod.fst).nodup_iff]
    exact List.nodup_cons.2 ⟨hfree, hs.nodup⟩
  · intro entry hentry
    rcases List.mem_cons.1 (hperm.mem_iff.1 hentry) with rfl | hentry
    · simp [hp]
    · exact hs.own entry hentry

theorem Sound.filter {h : Host β ι} (hs : h.Sound) (keep : ProviderId × Nat → Bool) :
    Sound { h with attached := h.attached.filter keep } := by
  constructor
  · exact hs.nodup.sublist (List.filter_sublist.map _)
  · intro entry hentry
    exact hs.own entry (List.mem_filter.1 hentry).1

/-- The places of the attached providers. -/
def places (h : Host β ι) : List Nat := h.attached.map Prod.snd

/-- No provider is attached twice. -/
theorem Sound.nodup_places {h : Host β ι} (hs : h.Sound) : h.places.Nodup := by
  have hown : h.attached.map (fun entry => some entry.1) =
      h.places.map fun place => (h.providers.map Provider.id)[place]? := by
    rw [places, List.map_map]
    exact List.map_congr_left fun entry hentry => (hs.own entry hentry).symm
  have hnodup : (h.attached.map fun entry => some entry.1).Nodup := by
    rw [show (fun entry : ProviderId × Nat => some entry.1) = some ∘ Prod.fst from rfl,
      ← List.map_map]
    exact hs.nodup.map fun a b hab => Option.some.inj hab
  rw [hown] at hnodup
  exact hnodup.of_map _

theorem Sound.lt_of_mem {h : Host β ι} (hs : h.Sound) {entry : ProviderId × Nat}
    (hentry : entry ∈ h.attached) : entry.2 < h.providers.length := by
  have := (List.getElem?_eq_some_iff.1 (hs.own entry hentry)).1
  rwa [List.length_map] at this

/-- An attached provider and those with other ids are all attached providers. -/
theorem Sound.perm_detach {h : Host β ι} (hs : h.Sound) {id : ProviderId} {place : Nat}
    (hmem : (id, place) ∈ h.attached) :
    h.attached.Perm ((id, place) :: h.attached.filter fun entry => entry.1 ≠ id) :=
  perm_cons_filter_key Prod.fst hs.nodup hmem

end Host

/-! ### What holds all the time -/

/-- Whether an errand has not detached anything: it is at its start, or waits for a request. -/
def Errand.Stage.holdsNothing : Errand.Stage → Bool
  | .start _ => true
  | .await => true
  | _ => false

namespace Call

theorem id_step (b : Behaviour β ι ω) (call : Call β ι) (p : Provider β ι) (w : ω) :
    (call.step b p w).provider.id = p.id := by
  cases call with
  | instantiate | insert | closeRefused | detachToDestroy | destroy =>
    simp only [step]; split <;> rfl
  | _ => rfl

end Call

namespace Traffic

/-- Storing a provider keeps the ids of all providers. -/
theorem map_id_put {h : Host β ι} {place : Nat} {p : Provider β ι} (q : Provider β ι)
    (hp : h.provider? place = some p) (hq : q.id = p.id) :
    (h.put place q).providers.map Provider.id = h.providers.map Provider.id := by
  obtain ⟨p', hp', rfl⟩ := Host.provider?_eq_some hp
  obtain ⟨hlt, hget⟩ := List.getElem?_eq_some_iff.1 hp'
  have hlt' : place < (h.providers.map Provider.id).length := by
    rwa [List.length_map]
  have hsame : (h.providers.map Provider.id)[place] = q.id := by
    rw [List.getElem_map, hget, hq]
  rw [Host.providers_put, List.map_set, ← hsame, List.set_getElem_self]

/-- An event keeps all providers with their ids, and makes at most one more. -/
theorem ids_step (b : Behaviour β ι ω) (s : Traffic β ι ω) (e : Event β) :
    ∃ new, (s.step b e).host.providers.map Provider.id =
      s.host.providers.map Provider.id ++ new := by
  have hturn := s.step_turn b e
  generalize s.step b e = s' at hturn ⊢
  cases hturn with
  | make => exact ⟨_, List.map_append⟩
  | @addBackend _ _ _ p registry found =>
    exact ⟨[], (map_id_put { p with registry } found rfl).trans (List.append_nil _).symm⟩
  | job job found =>
    exact ⟨[], (map_id_put _ found (Call.id_step b _ _ _)).trans (List.append_nil _).symm⟩
  | _ => exact ⟨[], (List.append_nil _).symm⟩

theorem length_providers_step (b : Behaviour β ι ω) (s : Traffic β ι ω) (e : Event β) :
    s.host.providers.length ≤ (s.step b e).host.providers.length := by
  obtain ⟨new, hnew⟩ := ids_step b s e
  have := congrArg List.length hnew
  simp only [List.length_append, List.length_map] at this
  omega

/-- Whether a host is sound, and everybody who has hold of a provider has hold of one that was
made. -/
structure Placed (s : Traffic β ι ω) : Prop where
  sound : s.host.Sound
  jobs : ∀ j ∈ s.jobs, j.place < s.host.providers.length
  errands : ∀ e ∈ s.errands, ∀ place ∈ e.detached, place < s.host.providers.length
  idle : ∀ e ∈ s.errands, e.stage.holdsNothing = true → e.detached = []

/-- What an errand detaches, or starts jobs for, was made. -/
theorem Placed.move {s : Traffic β ι ω} (hs : s.Placed) {e e' : Errand} {jobs : List (Job β ι)}
    {attached : List (ProviderId × Nat)} (he : e ∈ s.errands)
    (h : Errand.Move s e e' jobs attached) :
    Host.Sound { s.host with attached } ∧ (∀ j ∈ jobs, j.place < s.host.providers.length) ∧
      (∀ place ∈ e'.detached, place < s.host.providers.length) ∧
      (e'.stage.holdsNothing = true → e'.detached = []) := by
  have hold := hs.errands e he
  have hidle := hs.idle e he
  have hnone : ∀ j ∈ ([] : List (Job β ι)), j.place < s.host.providers.length :=
    fun j hj => absurd hj List.not_mem_nil
  cases h with
  | request stage mem =>
    refine ⟨hs.sound, fun j hj => ?_, hold, fun _ => hidle (by rw [stage]; rfl)⟩
    rw [List.mem_singleton.1 hj]
    exact hs.sound.lt_of_mem mem
  | deregister stage mem =>
    refine ⟨hs.sound.filter _, hnone, fun place hplace => ?_, Bool.noConfusion⟩
    rw [List.mem_singleton.1 hplace]
    exact hs.sound.lt_of_mem mem
  | detach stage mem =>
    refine ⟨hs.sound.filter _, hnone, fun place hplace => ?_, Bool.noConfusion⟩
    rcases List.mem_append.1 hplace with hplace | hplace
    · exact hold place hplace
    · rw [List.mem_singleton.1 hplace]
      exact hs.sound.lt_of_mem mem
  | begin stage =>
    refine ⟨hs.sound, fun j hj => ?_, hold, Bool.noConfusion⟩
    obtain ⟨place, hplace, rfl⟩ := List.mem_map.1 hj
    exact hold place hplace
  | _ => exact ⟨hs.sound, hnone, hold, Bool.noConfusion⟩

theorem Placed.step (b : Behaviour β ι ω) {s : Traffic β ι ω} (hs : s.Placed) (e : Event β) :
    (s.step b e).Placed := by
  -- No event takes a provider away, so whoever has hold of one keeps hold of it.
  have hids := ids_step b s e
  have hlength := length_providers_step b s e
  have hturn := s.step_turn b e
  generalize s.step b e = s' at hturn hids hlength ⊢
  have hjobs : ∀ j ∈ s.jobs, j.place < s'.host.providers.length :=
    fun j hj => Nat.lt_of_lt_of_le (hs.jobs j hj) hlength
  have herrands : ∀ e ∈ s.errands, ∀ place ∈ e.detached, place < s'.host.providers.length :=
    fun e he place hplace => Nat.lt_of_lt_of_le (hs.errands e he place hplace) hlength
  cases hturn with
  | attach found free => exact ⟨hs.sound.enter found free, hjobs, herrands, hs.idle⟩
  | request r made =>
    refine ⟨hs.sound, fun j hj => ?_, herrands, hs.idle⟩
    rcases List.mem_append.1 hj with hj | hj
    · exact hjobs j hj
    · rw [List.mem_singleton.1 hj]
      exact made
  | order o =>
    refine ⟨hs.sound, hjobs, fun e he => ?_, fun e he => ?_⟩
    · rcases List.mem_append.1 he with he | he
      · exact herrands e he
      · rw [List.mem_singleton.1 he]
        exact nofun
    · rcases List.mem_append.1 he with he | he
      · exact hs.idle e he
      · rw [List.mem_singleton.1 he]
        exact fun _ => rfl
  | job job found =>
    have hplace := hjobs _ (List.mem_of_getElem? job)
    refine ⟨hs.sound.append rfl hids, fun j hj => ?_, herrands, hs.idle⟩
    rcases List.mem_or_eq_of_mem_set hj with hj | rfl
    · exact hjobs j hj
    · exact hplace
  | errand errand move =>
    obtain ⟨hsound, hnew, hdetached, hidle⟩ := hs.move (List.mem_of_getElem? errand) move
    refine ⟨hsound, fun j hj => ?_, fun e he => ?_, fun e he => ?_⟩
    · rcases List.mem_append.1 hj with hj | hj
      · exact hjobs j hj
      · exact hnew j hj
    · rcases List.mem_or_eq_of_mem_set he with he | rfl
      · exact herrands e he
      · exact hdetached
    · rcases List.mem_or_eq_of_mem_set he with he | rfl
      · exact hs.idle e he
      · exact hidle
  | _ => exact ⟨hs.sound.append rfl hids, hjobs, herrands, hs.idle⟩

theorem Reachable.placed {b : Behaviour β ι ω} {w : ω} {s : Traffic β ι ω}
    (hs : Reachable b w s) : s.Placed :=
  hs.induct Placed ⟨⟨List.nodup_nil, nofun⟩, nofun, nofun, nofun⟩ fun _ e h => h.step b e

/-! ### Detaching -/

/-- Whether an event attaches a provider. -/
def Event.attaches : Event β → Bool
  | .attach _ => true
  | _ => false

/-- How often the provider at a place was detached by an errand. -/
def detachments (s : Traffic β ι ω) (place : Nat) : Nat :=
  (s.errands.map fun e => e.detached.count place).sum

/-- A step of an errand takes as many providers into its hands as it detaches. -/
theorem count_move {s : Traffic β ι ω} (hs : s.Placed) {e e' : Errand} {jobs : List (Job β ι)}
    {attached : List (ProviderId × Nat)} (he : e ∈ s.errands)
    (h : Errand.Move s e e' jobs attached) (place : Nat) :
    e'.detached.count place + (attached.map Prod.snd).count place =
      e.detached.count place + s.host.places.count place := by
  cases h with
  | @deregister id place' stage mem =>
    have hperm := ((hs.sound.perm_detach mem).map Prod.snd).count_eq place
    simp only [List.map_cons, List.count_cons] at hperm
    rw [hs.idle e he (by rw [stage]; rfl), Host.places, hperm, List.count_cons, List.count_nil]
    omega
  | @detach id place' rest stage mem =>
    have hperm := ((hs.sound.perm_detach mem).map Prod.snd).count_eq place
    simp only [List.map_cons, List.count_cons] at hperm
    rw [Host.places, hperm, List.count_append, List.count_cons, List.count_nil]
    omega
  | _ => rfl

/-- Unless providers are attached, the set loses what errands take into their hands. -/
theorem detachments_step {b : Behaviour β ι ω} {s : Traffic β ι ω} (hs : s.Placed) {e : Event β}
    (he : e.attaches = false) (place : Nat) :
    (s.step b e).detachments place + (s.step b e).host.places.count place =
      s.detachments place + s.host.places.count place := by
  have hturn := s.step_turn b e
  generalize s.step b e = s' at hturn ⊢
  cases hturn with
  | attach => cases he
  | order o => simp [detachments, Host.places]
  | @errand _ _ e' _ _ errand move =>
    have hcount := count_move hs (List.mem_of_getElem? errand) move place
    have hsum := sum_map_set (fun e : Errand => e.detached.count place) errand e'
    simp only [detachments, Host.places] at hcount hsum ⊢
    omega
  | _ => rfl

/-- **A provider is detached once for every time that it was attached.** While no provider is
attached, the errands detach a provider at most once, and then it was attached. -/
theorem detachments_run {b : Behaviour β ι ω} {w : ω} {s : Traffic β ι ω} (hs : Reachable b w s)
    {es : List (Event β)} (hes : ∀ e ∈ es, e.attaches = false) (place : Nat) :
    (run b s es).detachments place + (run b s es).host.places.count place =
      s.detachments place + s.host.places.count place := by
  induction es generalizing s with
  | nil => rfl
  | cons e es ih =>
    rw [run_cons, ih (hs.step e) fun e he => hes e (List.mem_cons_of_mem _ he)]
    exact detachments_step hs.placed (hes e List.mem_cons_self) place

/-! ### Shutting down the set -/

/-- How far an errand is that detaches all providers: those that are still attached are on its
list, or there are none. -/
def Clears (s : Traffic β ι ω) (e : Errand) : Prop :=
  match e.stage with
  | .start o => o = .shutdown
  | .detach rest => ∀ id ∈ s.host.ids, id ∈ rest
  | .await => False
  | _ => s.host.attached = []

/-- Unless providers are attached, none comes to the set. -/
theorem attached_step_subset {b : Behaviour β ι ω} {s : Traffic β ι ω} {e : Event β}
    (he : e.attaches = false) : (s.step b e).host.attached ⊆ s.host.attached := by
  have hturn := s.step_turn b e
  generalize s.step b e = s' at hturn ⊢
  cases hturn with
  | attach => cases he
  | errand errand move =>
    cases move with
    | deregister => exact fun entry hentry => (List.mem_filter.1 hentry).1
    | detach => exact fun entry hentry => (List.mem_filter.1 hentry).1
    | _ => exact List.Subset.refl _
  | _ => exact List.Subset.refl _

/-- An errand that takes no step itself keeps its list, while the set only becomes smaller. -/
theorem Clears.mono {s s' : Traffic β ι ω} {e : Errand}
    (hsubset : s'.host.attached ⊆ s.host.attached) (h : s.Clears e) : s'.Clears e := by
  have hids : ∀ id ∈ s'.host.ids, id ∈ s.host.ids := by
    intro id hid
    obtain ⟨entry, hentry, rfl⟩ := List.mem_map.1 hid
    exact List.mem_map_of_mem (hsubset hentry)
  unfold Clears at h ⊢
  cases hstage : e.stage <;> rw [hstage] at h <;> dsimp only at h ⊢
  · exact h
  · exact fun id hid => h id (hids id hid)
  all_goals exact List.eq_nil_of_subset_nil (h ▸ hsubset)

/-- A step of an errand strikes from its list only what it detaches, or what is not attached. -/
theorem Clears.move {s s' : Traffic β ι ω} {e e' : Errand} {jobs : List (Job β ι)}
    (h : Errand.Move s e e' jobs s'.host.attached) (hclears : s.Clears e) : s'.Clears e' := by
  unfold Clears at hclears ⊢
  generalize hattached : s'.host.attached = attached at h ⊢
  rw [Host.ids, hattached]
  cases h with
  | request stage => rw [stage] at hclears; cases hclears
  | refuse err stage ne => rw [stage] at hclears; exact absurd hclears ne
  | deregister stage => rw [stage] at hclears; cases hclears
  | shutdown stage => exact fun id hid => hid
  | @detach id place rest stage mem =>
    rw [stage] at hclears
    intro id' hid'
    obtain ⟨entry, hentry, rfl⟩ := List.mem_map.1 hid'
    obtain ⟨hold, hne⟩ := List.mem_filter.1 hentry
    rcases List.mem_cons.1 (hclears entry.1 (List.mem_map_of_mem hold)) with h | h
    · simp [h] at hne
    · exact h
  | skip stage notMem =>
    rw [stage] at hclears
    intro id' hid'
    rcases List.mem_cons.1 (hclears id' hid') with rfl | h
    · exact absurd hid' notMem
    · exact h
  | detachedAll stage =>
    -- The list is used up, so nothing can be attached any longer.
    rw [stage] at hclears
    have hids : s.host.attached.map Prod.fst = [] :=
      List.eq_nil_iff_forall_not_mem.2 fun id hid => by cases hclears id hid
    exact List.map_eq_nil_iff.1 hids
  | begin stage => rw [stage] at hclears; exact hclears
  | answer stage => rw [stage] at hclears; cases hclears
  | join stage => rw [stage] at hclears; exact hclears

/-- Every event that attaches nothing brings an errand that clears the set further. -/
theorem Clears.step {b : Behaviour β ι ω} {s : Traffic β ι ω} {e : Event β}
    (he : e.attaches = false) {i : Nat} {errand : Errand} (hi : s.errands[i]? = some errand)
    (hclears : s.Clears errand) :
    ∃ errand', (s.step b e).errands[i]? = some errand' ∧ (s.step b e).Clears errand' := by
  have hkept := hclears.mono (attached_step_subset (b := b) he)
  have hturn := s.step_turn b e
  generalize s.step b e = s' at hturn hkept ⊢
  cases hturn with
  | attach => cases he
  | order o =>
    refine ⟨errand, ?_, hkept⟩
    exact (List.getElem?_append_left (List.getElem?_eq_some_iff.1 hi).1).trans hi
  | @errand j f f' jobs attached hj move =>
    by_cases hij : j = i
    · subst hij
      obtain rfl : f = errand := Option.some.inj (hj.symm.trans hi)
      exact ⟨f', by simp [(List.getElem?_eq_some_iff.1 hi).1], hclears.move move⟩
    · exact ⟨errand, by simp [List.getElem?_set_ne hij, hi], hkept⟩
  | _ => exact ⟨errand, hi, hkept⟩

/-- An errand to detach all providers leaves none attached, unless some are attached besides. -/
theorem clears_run {b : Behaviour β ι ω} {s : Traffic β ι ω} {es : List (Event β)}
    (hes : ∀ e ∈ es, e.attaches = false) {i : Nat} {errand : Errand}
    (hi : s.errands[i]? = some errand) (hclears : s.Clears errand) :
    ∃ errand', (run b s es).errands[i]? = some errand' ∧ (run b s es).Clears errand' := by
  induction es generalizing s errand with
  | nil => exact ⟨errand, hi, hclears⟩
  | cons e es ih =>
    obtain ⟨errand', hi', hclears'⟩ := hclears.step (b := b) (hes e List.mem_cons_self) hi
    exact ih (fun e he => hes e (List.mem_cons_of_mem _ he)) hi' hclears'

end Traffic
end Collectors
