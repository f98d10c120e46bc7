import Collectors.Proofs.Session
import Collectors.Proofs.Teardown

/-!
# What gauges show

The gauge of a provider id belongs to all providers with this id. `Session.Explained` says what it
shows: the size of the table of the one that published last. That is kept by every deed
(`Explained.act`) and so by every session, where `Session.word` knows who published last.

`Session.published` is what follows for attached and for deregistered providers. The gauge of an id
is right as long as the provider with the last word is the one that is meant; a second provider
with the same id takes the word by being made, even if it is then refused
(`Session.published_refused`).
-/

namespace Collectors

variable {β ι ω : Type}

namespace Host

/-- The ids of all providers and the sizes of their tables. -/
def sizes (h : Host β ι) : List (ProviderId × Nat) := h.providers.map fun p => (p.id, p.table.size)

theorem sizes_of_provider? {h : Host β ι} {place : Nat} {p : Provider β ι}
    (hp : h.provider? place = some p) : h.sizes[place]? = some (p.id, p.table.size) := by
  obtain ⟨q, hq, rfl⟩ := provider?_eq_some hp
  rw [sizes, List.getElem?_map, hq]
  rfl

theorem sizes_put (h : Host β ι) (place : Nat) (p : Provider β ι) :
    (h.put place p).sizes = h.sizes.set place (p.id, p.table.size) := by
  rw [sizes, sizes, providers_put, List.map_set]

/-- Storing a provider whose table has the size that it had changes no size. -/
theorem sizes_put_same {h : Host β ι} {place : Nat} {p q : Provider β ι}
    (hp : h.provider? place = some p) (hid : q.id = p.id)
    (hsize : q.table.size = p.table.size) : (h.put place q).sizes = h.sizes := by
  obtain ⟨hlt, hget⟩ := List.getElem?_eq_some_iff.1 (sizes_of_provider? hp)
  rw [sizes_put, hid, hsize, ← hget, List.set_getElem_self]

end Host

namespace Session

variable {b : Behaviour β ι ω} {dummy : β} {s s' : Host β ι × ω}

/-! ### The last word -/

/-- Whether what the gauges of a host show is explained by who published last under each id: the
gauge shows the size of the table of that provider, and an id without a word has no provider and
no gauge. -/
structure Explained (h : Host β ι) (last : ProviderId → Option Nat) : Prop where
  shown : ∀ id place, last id = some place →
    ∃ n, h.sizes[place]? = some (id, n) ∧ h.metrics.gauge? id = some n
  unheard : ∀ id, last id = none →
    h.metrics.gauge? id = none ∧ ∀ entry ∈ h.sizes, entry.1 ≠ id

variable {h h' : Host β ι} {last : ProviderId → Option Nat}

/-- What changes no size and no gauge needs no other explanation. -/
theorem Explained.same (hl : Explained h last) (hsizes : h'.sizes = h.sizes)
    (hgauge : ∀ id, h'.metrics.gauge? id = h.metrics.gauge? id) : Explained h' last := by
  constructor
  · intro id place hlast
    rw [hsizes, hgauge]
    exact hl.shown id place hlast
  · intro id hlast
    rw [hsizes, hgauge]
    exact hl.unheard id hlast

/-- A provider that publishes has the word. -/
theorem Explained.spoken (hl : Explained h last) {place n : Nat} {id : ProviderId}
    (hsize : h'.sizes[place]? = some (id, n))
    (hothers : ∀ other, other ≠ place → h'.sizes[other]? = h.sizes[other]?)
    (hold : ∀ entry, h.sizes[place]? = some entry → entry.1 = id)
    (hgauge : ∀ other, h'.metrics.gauge? other =
      if other = id then some n else h.metrics.gauge? other) :
    Explained h' fun other => if some id = some other then some place else last other := by
  constructor
  · intro other q hlast
    rw [hgauge]
    by_cases hid : id = other
    · subst hid
      rw [if_pos rfl] at hlast
      obtain rfl := Option.some.inj hlast
      exact ⟨n, hsize, if_pos rfl⟩
    · rw [if_neg fun h => hid (Option.some.inj h)] at hlast
      obtain ⟨m, hm, hshown⟩ := hl.shown other q hlast
      have hne : q ≠ place := by
        rintro rfl
        exact hid (hold _ hm).symm
      refine ⟨m, (hothers q hne).trans hm, ?_⟩
      rw [if_neg (Ne.symm hid), hshown]
  · intro other hlast
    by_cases hid : id = other
    · subst hid
      rw [if_pos rfl] at hlast
      cases hlast
    · rw [if_neg fun h => hid (Option.some.inj h)] at hlast
      obtain ⟨hnone, habsent⟩ := hl.unheard other hlast
      refine ⟨by rw [hgauge, if_neg (Ne.symm hid), hnone], fun entry hentry => ?_⟩
      obtain ⟨q, hq⟩ := List.getElem?_of_mem hentry
      by_cases hplace : q = place
      · rw [hplace, hsize] at hq
        obtain rfl := Option.some.inj hq
        exact hid
      · rw [hothers q hplace] at hq
        exact habsent entry (List.mem_of_getElem? hq)

/-- By a deed of which no provider speaks nobody gets the word. -/
theorem heard_of_silent {d : Deed β}
    (hnobody : ∀ place, speaker h h' d = some place → h'.providers[place]? = none) :
    heard h h' d last = last := by
  rw [heard]
  cases hspeaker : speaker h h' d with
  | none => rfl
  | some place =>
    funext id
    simp [hnobody place hspeaker]

theorem heard_of_speaker {d : Deed β} {place : Nat} {p : ProviderId × Nat}
    (hspeaker : speaker h h' d = some place) (hp : h'.sizes[place]? = some p) :
    heard h h' d last =
      fun other => if some p.1 = some other then some place else last other := by
  rw [Host.sizes, List.getElem?_map, Option.map_eq_some_iff] at hp
  obtain ⟨q, hq, rfl⟩ := hp
  rw [heard, hspeaker]
  simp only [hq, Option.map_some]

/-- Storing the provider that publishes gives it the word. -/
theorem Explained.put (hl : Explained s.1 last) {place : Nat} {p q : Provider β ι}
    (hp : s.1.provider? place = some p) (hid : q.id = p.id) (hspoken : p.table.Spoken q.table) :
    Explained (s.1.put place q) fun other =>
      if some q.id = some other then some place else last other := by
  have hold := Host.sizes_of_provider? hp
  have hlt := (List.getElem?_eq_some_iff.1 hold).1
  have hsuits : s.1.Suits place q := by
    have hthere := Host.suits_of_provider? hp
    exact ⟨hthere.lt, hid ▸ hthere.id, by rw [hspoken.isSome, hid]; exact hthere.gauge⟩
  -- The id has a gauge, for it has a provider.
  have hgauge : ∃ n, p.table.gauge = some n := by
    obtain ⟨p', hp', rfl⟩ := Host.provider?_eq_some hp
    cases hlast : last p'.id with
    | none => exact absurd rfl ((hl.unheard _ hlast).2 _ (List.mem_of_getElem? hold))
    | some other =>
      obtain ⟨n, -, hn⟩ := hl.shown _ other hlast
      exact ⟨n, hn⟩
  obtain ⟨n, hn⟩ := hgauge
  have hshown : q.table.gauge = some q.table.size := by
    rw [hspoken, hn]
    rfl
  refine hl.spoken (n := q.table.size) ?_ (fun other hother => ?_) (fun entry hentry => ?_)
    fun other => ?_
  · rw [Host.sizes_put, List.getElem?_set_self hlt]
  · rw [Host.sizes_put, List.getElem?_set_ne hother.symm]
  · rw [hold] at hentry
    rw [← Option.some.inj hentry, hid]
  · rw [Host.gauge?_put hsuits, hshown]

/-- Storing a provider that shows what it showed leaves everything explained. -/
theorem Explained.put_silent (hl : Explained s.1 last) {place : Nat} {p q : Provider β ι}
    (hp : s.1.provider? place = some p) (hid : q.id = p.id) (hsize : q.table.size = p.table.size)
    (hgauge : q.table.gauge = p.table.gauge) : Explained (s.1.put place q) last := by
  refine hl.same (Host.sizes_put_same hp hid hsize) fun other => ?_
  have hthere := Host.suits_of_provider? hp
  have hsuits : s.1.Suits place q :=
    ⟨hthere.lt, hid ▸ hthere.id, by rw [hgauge, hid]; exact hthere.gauge⟩
  obtain ⟨p', -, rfl⟩ := Host.provider?_eq_some hp
  rw [Host.gauge?_put hsuits]
  split
  · rename_i hother
    rw [hgauge, hother, hid]
  · rfl

theorem speaker_perform (h h' : Host β ι) (place : Nat) {r : Request} (hr : r ≠ .shutdown) :
    speaker h h' (.perform place r : Deed β) =
      if moves h' place = moves h place then none else some place := by
  cases r with
  | shutdown => exact absurd rfl hr
  | _ => rfl

theorem moves_of_provider? {h : Host β ι} {place : Nat} {p : Provider β ι}
    (hp : h.provider? place = some p) :
    moves h place = some (p.table.inserted, p.table.removed) := by
  obtain ⟨q, hq, rfl⟩ := Host.provider?_eq_some hp
  rw [moves, hq]
  rfl

theorem moves_put {h : Host β ι} {place : Nat} (p : Provider β ι)
    (hlt : place < h.providers.length) :
    moves (h.put place p) place = some (p.table.inserted, p.table.removed) := by
  rw [moves, Host.providers_put, List.getElem?_set_self hlt]
  rfl

/-- A request publishes if, and only if, its provider is heard. -/
theorem Explained.perform (hl : Explained s.1 last) {place : Nat} {p : Provider β ι}
    (hp : s.1.provider? place = some p) (r : Request) :
    Explained (s.1.put place (p.perform b r s.2).provider)
      (heard s.1 (s.1.put place (p.perform b r s.2).provider) (.perform place r : Deed β)
        last) := by
  have hid : (p.perform b r s.2).provider.id = p.id := Call.id_run b _ p s.2
  have hlt : place < s.1.providers.length := (Host.suits_of_provider? hp).lt
  have hsize : (s.1.put place (p.perform b r s.2).provider).sizes[place]? =
      some ((p.perform b r s.2).provider.id, (p.perform b r s.2).provider.table.size) := by
    rw [Host.sizes_put, List.getElem?_set_self (by rwa [Host.sizes, List.length_map])]
  generalize hq : (p.perform b r s.2).provider = q at hid hsize ⊢
  by_cases hr : r = .shutdown
  · subst hr
    obtain ⟨-, -, hspoken⟩ := p.perform_shutdown b s.2
    rw [hq] at hspoken
    rw [heard_of_speaker rfl hsize]
    exact hl.put hp hid hspoken
  · have hspeaker := speaker_perform (β := β) s.1 (s.1.put place q) place hr
    rw [moves_put q hlt, moves_of_provider? hp] at hspeaker
    rcases p.perform_shown b hr s.2 with hsilent | ⟨hspoken, hmoves⟩
    · rw [hq] at hsilent
      rw [hsilent.inserted, hsilent.removed, if_pos rfl] at hspeaker
      rw [heard_of_silent (by rw [hspeaker]; exact nofun)]
      exact hl.put_silent hp hid (by rw [Table.size, Table.size, hsilent.entries]) hsilent.gauge
    · rw [hq] at hspoken hmoves
      rw [if_neg] at hspeaker
      · rw [heard_of_speaker hspeaker hsize]
        exact hl.put hp hid hspoken
      · intro hsame
        simp only [Option.some.injEq, Prod.mk.injEq] at hsame
        rw [Table.moves, Table.moves, hsame.1, hsame.2] at hmoves
        exact Nat.lt_irrefl _ hmoves

theorem Explained.make (hl : Explained s.1 last) {config : ProviderConfig} {p : Provider β ι}
    (hp : Provider.new config dummy = some p) :
    let h := { s.1 with
      providers := s.1.providers ++ [p], metrics := s.1.metrics.setGauge p.id 0 }
    Explained h (heard s.1 h (.make config : Deed β) last) := by
  intro h
  have hempty : p.table.size = 0 := by
    unfold Provider.new at hp
    split at hp
    · cases hp; rfl
    · cases hp
  have hsizes : h.sizes = s.1.sizes ++ [(p.id, 0)] := by
    simp only [h, Host.sizes, List.map_append, List.map_cons, List.map_nil, hempty]
  have hlength : s.1.sizes.length = s.1.providers.length := List.length_map _
  have hlast : h.sizes[s.1.providers.length]? = some (p.id, 0) := by
    rw [hsizes, ← hlength, List.getElem?_concat_length]
  rw [heard_of_speaker rfl hlast]
  refine hl.spoken hlast (fun other hother => ?_) (fun entry hentry => ?_)
    fun other => Metrics.gauge?_setGauge _ _ _ _
  · rw [hsizes, List.getElem?_append]
    split
    · rfl
    · rename_i hlt
      rw [List.getElem?_eq_none (by simp; omega), List.getElem?_eq_none (by omega)]
  · rw [← hlength, List.getElem?_length] at hentry
    cases hentry

/-- **Every deed keeps the gauges explained** by who published last. -/
theorem Explained.act (hl : Explained s.1 last) {d : Deed β} (h : act b dummy s d = some s') :
    Explained s'.1 (heard s.1 s'.1 d last) := by
  cases act_did h with
  | idle still =>
    rw [heard_of_silent]
    · exact hl
    · intro place hspeaker
      cases d with
      | make config =>
        cases hspeaker
        exact List.getElem?_length _
      | perform q r =>
        have hnone := still q r rfl
        have hq : q = place := by
          by_cases hr : r = .shutdown
          · subst hr
            exact Option.some.inj hspeaker
          · rw [speaker_perform _ _ _ hr, if_pos rfl] at hspeaker
            cases hspeaker
        rw [Host.provider?, Option.map_eq_none_iff, hq] at hnone
        exact hnone
      | _ => cases hspeaker
  | make new => exact hl.make new
  | perform r found => exact hl.perform found r
  | addBackend found registered => exact hl.put_silent found rfl rfl rfl
  | attach | detach | tally => exact hl.same rfl fun _ => rfl

theorem Explained.acts (hl : Explained s.1 last) {ds : List (Deed β)}
    (h : acts b dummy s ds = some s') : Explained s'.1 (wordOfDeeds b dummy s last ds) := by
  induction ds generalizing s last with
  | nil =>
    cases h
    exact hl
  | cons d ds ih =>
    rw [acts_cons, Option.bind_eq_some_iff] at h
    obtain ⟨s₁, hd, hds⟩ := h
    rw [wordOfDeeds, hd]
    exact ih (hl.act hd) hds

/-- The gauges are explained by who published last at every time of a session. -/
theorem Explained.run {w : ω} (hs : Reached b w s) (hl : Explained s.1 last)
    {ops : List (Operation β)} (h : run b dummy s ops = some s') :
    Explained s'.1 (word b dummy s last ops) := by
  induction ops generalizing s last with
  | nil =>
    cases h
    exact hl
  | cons op ops ih =>
    rw [run_cons, Option.bind_eq_some_iff] at h
    obtain ⟨s₁, hop, hops⟩ := h
    have hdeeds := step_deeds hs.sound hop
    rw [word, hop]
    exact ih (hs.passes (acts_passes hdeeds)) (hl.acts hdeeds) hops

theorem explained_start : Explained ({} : Host β ι) fun _ => none :=
  ⟨nofun, fun _ _ => ⟨rfl, nofun⟩⟩

/-! ### Providers that were shut down -/

/-- No provider is taken away. -/
theorem Passes.length_le (h : Passes b s s') : s.1.providers.length ≤ s'.1.providers.length := by
  have hrun : ∀ (es : List (Traffic.Event β)) (t : Traffic β ι ω),
      t.host.providers.length ≤ (Traffic.run b t es).host.providers.length := by
    intro es
    induction es with
    | nil => exact fun t => Nat.le_refl _
    | cons e es ih => exact fun t => Nat.le_trans (Traffic.length_providers_step b t e) (ih _)
  obtain ⟨es, hhost, -⟩ := h { host := s.1, world := s.2 } rfl rfl
  rw [← hhost]
  exact hrun es { host := s.1, world := s.2 }

/-- What was drained stays so. -/
theorem Passes.drained (h : Passes b s s') {place : Nat}
    (hs : s.1.contents[place]? = some ([], true)) : s'.1.contents[place]? = some ([], true) := by
  obtain ⟨es, hhost, -⟩ := h { host := s.1, world := s.2 } rfl rfl
  have hdrained : Traffic.Drained ({ host := s.1, world := s.2 } : Traffic β ι ω) place := hs
  rw [← hhost]
  exact hdrained.run b es

/-- A provider that is shut down by one of some deeds is drained behind them. -/
theorem drained_of_acts {ds : List (Deed β)} (h : acts b dummy s ds = some s') {place : Nat}
    (hlt : place < s.1.providers.length) (hmem : .perform place .shutdown ∈ ds) :
    s'.1.contents[place]? = some ([], true) := by
  obtain ⟨before, after, rfl⟩ := List.append_of_mem hmem
  rw [acts_append, Option.bind_eq_some_iff] at h
  obtain ⟨s₁, hbefore, h⟩ := h
  rw [acts_cons, Option.bind_eq_some_iff] at h
  obtain ⟨s₂, hshutdown, hafter⟩ := h
  refine (acts_passes hafter).drained ?_
  obtain ⟨p, hp⟩ := Host.provider?_isSome (Nat.lt_of_lt_of_le hlt (acts_passes hbefore).length_le)
  have hplace := (List.getElem?_eq_some_iff.1 (Host.contents_of_provider? hp)).1
  obtain ⟨hentries, hclosed, -⟩ := p.perform_shutdown b s₁.2
  rw [act_perform hp, Option.some.injEq] at hshutdown
  rw [← hshutdown]
  dsimp only
  rw [Host.contents_put, List.getElem?_set_self hplace, hentries, hclosed]

/-- Deregistering a provider, or all of them, shuts it down. -/
theorem shutdown_mem_deeds (hs : s.1.Sound) {id : ProviderId} {place : Nat}
    (hmem : (id, place) ∈ s.1.attached) {op : Operation β}
    (hop : op = .deregister id ∨ op = .shutdown) :
    .perform place .shutdown ∈ deeds b s op := by
  rcases hop with rfl | rfl
  · rw [deeds, hs.find hmem]
    exact List.mem_cons_of_mem _ (List.mem_singleton.2 rfl)
  · rw [deeds]
    exact List.mem_append_right _ (List.mem_map_of_mem hmem)

/-! ### What is published -/

variable {w : ω} {ops : List (Operation β)}

/-- What the gauges show of a host `h` that a session leads to, where `last` tells which provider
published last under an id. -/
structure Published (b : Behaviour β ι ω) (dummy : β) (w : ω) (ops : List (Operation β))
    (h : Host β ι) (last : ProviderId → Option Nat) : Prop where
  /-- A gauge shows the size of the table of the provider that published last. -/
  shown : ∀ id, h.metrics.gauge? id =
    (last id).bind fun place => (h.provider? place).map fun p => p.table.size
  /-- It is right for the attached provider, if that one published last. -/
  attached : ∀ id place, (id, place) ∈ h.attached → last id = some place →
    ∃ p, h.provider? place = some p ∧ p.id = id ∧ h.metrics.gauge? id = some p.table.size
  /-- It shows nothing behind the end of a provider, if that one published last. -/
  ended : ∀ before op after id place s, ops = before ++ op :: after →
    (op = .deregister id ∨ op = .shutdown) → run b dummy ({}, w) before = some s →
    (id, place) ∈ s.1.attached → last id = some place → h.metrics.gauge? id = some 0
  /-- Where an id has one provider only, that one published last. -/
  alone : ∀ place p, h.providers[place]? = some p →
    (∀ q p', h.providers[q]? = some p' → p'.id = p.id → q = place) → last p.id = some place

/-- **A gauge shows the table of the provider that published last**, at every time of every
session. -/
theorem published (h : run b dummy ({}, w) ops = some s) :
    Published b dummy w ops s.1 (word b dummy ({}, w) (fun _ => none) ops) := by
  have hl : Explained s.1 (word b dummy ({}, w) (fun _ => none) ops) :=
    explained_start.run reached_start h
  have hreached : Reached b w s := reached_run h
  have hshown : ∀ id place, word b dummy ({}, w) (fun _ => none) ops id = some place →
      ∃ p, s.1.provider? place = some p ∧ p.id = id ∧
        s.1.metrics.gauge? id = some p.table.size := by
    intro id place hlast
    obtain ⟨n, hn, hgauge⟩ := hl.shown id place hlast
    have hlt : place < s.1.providers.length := by
      have := (List.getElem?_eq_some_iff.1 hn).1
      rwa [Host.sizes, List.length_map] at this
    obtain ⟨p, hp⟩ := Host.provider?_isSome hlt
    rw [Host.sizes_of_provider? hp, Option.some.injEq, Prod.mk.injEq] at hn
    exact ⟨p, hp, hn.1, by rw [hgauge, hn.2]⟩
  refine ⟨fun id => ?_, fun id place _ => hshown id place, ?_, ?_⟩
  · cases hlast : word b dummy ({}, w) (fun _ => none) ops id with
    | none => exact (hl.unheard id hlast).1
    | some place =>
      obtain ⟨p, hp, -, hgauge⟩ := hshown id place hlast
      rw [hgauge, Option.bind_some, hp]
      rfl
  · rintro before op after id place s₁ rfl hop hbefore hmem hlast
    rw [run_append, hbefore, Option.bind_some, run_cons, Option.bind_eq_some_iff] at h
    obtain ⟨s₂, hstep, hafter⟩ := h
    have hs₁ : Reached b w s₁ := reached_run hbefore
    have hdeeds := step_deeds hs₁.sound hstep
    -- The operation drains the provider, and then it stays so.
    have hdrained : s.1.contents[place]? = some ([], true) := by
      refine (run_passes (hs₁.passes (acts_passes hdeeds)) hafter).drained ?_
      exact drained_of_acts hdeeds (hs₁.sound.lt_of_mem hmem)
        (shutdown_mem_deeds hs₁.sound hmem hop)
    obtain ⟨p, hp, -, hgauge⟩ := hshown id place hlast
    rw [Host.contents_of_provider? hp, Option.some.injEq, Prod.mk.injEq] at hdrained
    rw [hgauge, Table.size, hdrained.1]
    rfl
  · intro place p hp halone
    cases hlast : word b dummy ({}, w) (fun _ => none) ops p.id with
    | none =>
      have hmem : (p.id, p.table.size) ∈ s.1.sizes :=
        List.mem_map.2 ⟨p, List.mem_of_getElem? hp, rfl⟩
      exact absurd rfl ((hl.unheard _ hlast).2 _ hmem)
    | some q =>
      obtain ⟨p', hp', hid, -⟩ := hshown _ q hlast
      obtain ⟨p'', hp'', rfl⟩ := Host.provider?_eq_some hp'
      rw [halone q p'' hp'' hid]

/-! ### A provider that is refused -/

/-- A provider with the id 42. -/
def keeper (t : Table Nat) : Provider Unit Nat :=
  { id := 42, token := AdminToken.new none
    registry := { entries := [(Dummy.backendName, ())], sorted := Registry.sorted_singleton _ _ }
    table := t, poolSize := 16 }

/-- A table with one collector. -/
def manned : Table Nat where
  entries := [{ id := Traffic.nilId, backend := Dummy.backendName, resource := 0 }]
  gauge := some 1
  inserted := 1

/-- A request for this collector. -/
def hire : Request := .instantiate .create none Dummy.backendName none Traffic.nilId

/-- A provider is registered and gets a collector, and another one with its id is refused. -/
def refused : List (Operation Unit) :=
  [.register { providerId := 42 }, .perform 0 hire, .register { providerId := 42 }]

/-- A host with one provider. -/
def keeping (t : Table Nat) : Host Unit Nat :=
  { providers := [keeper t], attached := [(42, 0)], metrics := { gauges := [(42, t.size)] } }

/-- The dummy backend with one instance. -/
def hired : Dummy.Store := { configs := #[some (.object [])] }

/-- The host behind the refusal. -/
def disputed : Host Unit Nat :=
  { keeping manned with
    providers := [keeper manned, keeper (.withGauge (some 0))]
    metrics := { gauges := [(42, 0)] } }

theorem act_hire :
    act Dummy.behaviour () (keeping (.withGauge (some 0)), {}) (.perform 0 hire) =
      some (keeping manned, hired) := by
  have hfound : (keeping (.withGauge (some 0))).provider? 0 =
      some (keeper (.withGauge (some 0))) := rfl
  have hinsert : (Table.withGauge (some 0)).insert
      { id := Traffic.nilId, backend := Dummy.backendName, resource := 0 } = .ok manned := rfl
  have hmade : Dummy.behaviour.instantiate () .create none {} = (some (.ok 0), hired) := rfl
  have hcheck : (keeper (.withGauge (some 0))).token.check none = true := rfl
  have hbackend : (keeper (.withGauge (some 0))).registry.find? Dummy.backendName = some () := rfl
  obtain ⟨-, hprovider, hworld⟩ := Provider.perform_entered hcheck rfl hbackend hmade hinsert
  rw [act_perform hfound, hire, hprovider, hworld]
  rfl

theorem run_registered :
    run Dummy.behaviour () ({}, {}) [.register { providerId := 42 }, .perform 0 hire] =
      some (keeping manned, hired) := by
  have hfirst : step Dummy.behaviour () ({}, {}) (.register { providerId := 42 }) =
      some (keeping (.withGauge (some 0)), {}) := rfl
  have hsecond : step Dummy.behaviour () (keeping (.withGauge (some 0)), {}) (.perform 0 hire) =
      some (keeping manned, hired) := act_hire
  rw [run_cons, hfirst, Option.bind_some, run_cons, hsecond]
  rfl

theorem run_refused : run Dummy.behaviour () ({}, {}) refused = some (disputed, hired) := by
  rw [show refused = [.register { providerId := 42 }, .perform 0 hire] ++
    [.register { providerId := 42 }] from rfl, run_append, run_registered]
  rfl

/-- A provider that is alone with its id is shown with its collector. Once another one with its id
has been refused, the same collector is still there and the gauge shows none: the other provider
has the word. -/
theorem published_refused :
    (keeping manned).metrics.gauge? 42 = some 1 ∧
      disputed.metrics.gauge? 42 = some 0 ∧ (42, 0) ∈ disputed.attached ∧
        (∃ p, disputed.provider? 0 = some p ∧ p.table.size = 1) ∧
          word Dummy.behaviour () ({}, {}) (fun _ => none) refused 42 ≠ some 0 := by
  have hregistered := published run_registered
  have hattached : (42, 0) ∈ (keeping manned).attached := List.mem_singleton.2 rfl
  have hword := hregistered.alone 0 (keeper manned) rfl fun q p' hq _ => by
    cases q with
    | zero => rfl
    | succ q => cases hq
  obtain ⟨p, hp, -, hgauge⟩ := hregistered.attached 42 0 hattached hword
  obtain rfl : keeper manned = p := Option.some.inj hp
  refine ⟨hgauge, rfl, hattached, ⟨keeper { manned with gauge := some 0 }, rfl, rfl⟩,
    fun hword => ?_⟩
  obtain ⟨p', hp', -, hgauge'⟩ := (published run_refused).attached 42 0 hattached hword
  cases hp'
  cases hgauge'

end Session
end Collectors
