import Collectors.Proofs.Effects
import Collectors.Proofs.Visits

/-!
# Batches of independent requests

What a request to a collector comes to depends on that collector only, and what a request for a new
one comes to depends on none (`Provider.exists_visit`, `Provider.exists_entry`). Two requests that
are about different collectors can therefore be made in either order (`Provider.commute_visits`,
`Provider.commute_entry`), and a whole batch of them in any order (`Traffic.performAll_perm`).

Instances must keep to themselves, and no two entries may share one. The second holds in every
reachable state (`Traffic.Reachable.apart`).
-/

namespace Collectors

variable {β σ τ ι ω : Type}

/-! ### Entries with instances of their own -/

/-- Whether collectors have different instances, and all of these have been made. -/
structure Cells.Apart (w : Cells σ τ) (l : List (Collector Nat)) : Prop where
  nodup : (l.map Collector.resource).Nodup
  made : ∀ c ∈ l, c.resource < w.states.length

namespace Cells

variable {w w' : Cells σ τ} {l l' : List (Collector Nat)}

theorem length_act {α : Type} (w : Cells σ τ) (i : Nat) (f : σ → Option α × σ) :
    (w.act i f).2.states.length = w.states.length := by
  unfold act
  split
  · exact List.length_set
  · rfl

theorem Apart.mono (h : w.Apart l) (hl : l'.Subperm l)
    (hw : w.states.length ≤ w'.states.length) : w'.Apart l' := by
  obtain ⟨k, hperm, hsub⟩ := hl
  refine ⟨?_, fun c hc => ?_⟩
  · exact ((hperm.map _).nodup_iff).1 (h.nodup.sublist (hsub.map _))
  · exact Nat.lt_of_lt_of_le (h.made c (hsub.subset (hperm.mem_iff.2 hc))) hw

/-- A new instance is not among those that there are. -/
theorem Apart.cons (h : w.Apart l) {c : Collector Nat} (hc : c.resource = w.states.length)
    (hw : w'.states.length = w.states.length + 1) : w'.Apart (c :: l) := by
  refine ⟨?_, fun d hd => ?_⟩
  · rw [List.map_cons, List.nodup_cons]
    refine ⟨fun hmem => ?_, h.nodup⟩
    obtain ⟨d, hd, hdc⟩ := List.mem_map.1 hmem
    have hlt := h.made d hd
    omega
  · rcases List.mem_cons.1 hd with rfl | hd
    · omega
    · have hlt := h.made d hd
      omega

/-- **Every step keeps the instances of collectors apart.** -/
theorem Apart.effect {m : Methods β σ τ} (h : w.Apart l) (he : Effect m.behaviour l w l' w') :
    w'.Apart l' := by
  cases he with
  | keep left => exact h.mono left (Nat.le_refl _)
  | refuse made mode config left failed =>
    refine h.mono left ?_
    rcases hnew : m.instantiate made mode config w.backends with ⟨_ | (e | s), backends⟩ <;>
      simp [Methods.behaviour, hnew]
  | @make made mode config c w' new left =>
    rcases hnew : m.instantiate made mode config w.backends with ⟨_ | (e | s), backends⟩ <;>
      simp only [Methods.behaviour, hnew, Prod.mk.injEq, Option.some.injEq, Except.ok.injEq,
        reduceCtorEq, false_and] at new
    obtain ⟨hc, rfl⟩ := new
    exact (h.cons hc.symm (List.length_append)).mono left (Nat.le_refl _)
  | close left =>
    exact h.mono ((List.sublist_cons_self _ _).subperm.trans left)
      (Nat.le_of_eq (length_act ..).symm)
  | destroy left =>
    exact h.mono ((List.sublist_cons_self _ _).subperm.trans left)
      (Nat.le_of_eq (length_act ..).symm)
  | hello i left => exact h.mono left (Nat.le_of_eq (length_act ..).symm)
  | sum i x y left => exact h.mono left (Nat.le_of_eq (length_act ..).symm)
  | invoke i operation args left => exact h.mono left (Nat.le_of_eq (length_act ..).symm)

end Cells

/-- Collectors that are around have instances of their own at every time. -/
theorem Traffic.Reachable.apart {m : Methods β σ τ} {w : Cells σ τ}
    {s : Traffic β Nat (Cells σ τ)} (hs : Reachable m.behaviour w s) : s.world.Apart s.around :=
  hs.induct (fun s => s.world.Apart s.around) ⟨List.nodup_nil, nofun⟩
    fun s e h => h.effect (s.effect_step m.behaviour e)

theorem Call.apart_run {m : Methods β σ τ} {call : Call β Nat} {p : Provider β Nat}
    {w : Cells σ τ} (h : w.Apart (call.around p)) :
    (call.run m.behaviour p w).world.Apart
      ((call.run m.behaviour p w).call.around (call.run m.behaviour p w).provider) := by
  fun_induction call.run m.behaviour p w with
  | case1 call p w hdone => exact h
  | case2 call p w hdone next last ih => exact ih (h.effect (call.effect_step m.behaviour p w))

/-! ### What a request depends on -/

/-- Stores the state of one instance, if there is one to store. -/
def Cells.put (w : Cells σ τ) : Option (Nat × σ) → Cells σ τ
  | some (i, s) => { w with states := w.states.set i s }
  | none => w

namespace Provider

variable {m : Methods β σ τ} {p p' : Provider β Nat} {w w' : Cells σ τ} {id id' : CollectorId}

/-- Whether two states look the same to a request to the collector with an id. -/
structure Alike (id : CollectorId) (p : Provider β Nat) (w : Cells σ τ) (p' : Provider β Nat)
    (w' : Cells σ τ) : Prop where
  token : p'.token = p.token
  entry : p'.table.get? id = p.table.get? id
  state : ∀ c ∈ p.table.get? id, w'.states[c.resource]? = w.states[c.resource]?

/-- **What a request to a collector comes to depends on that collector only**, and so does what it
changes. -/
theorem exists_visit (hw : w.Apart p.table.entries) {r : Request} (hr : r.collector? = some id) :
    ∃ answer fate cell, (∀ x ∈ cell, ∃ c, p.table.get? id = some c ∧ c.resource = x.1) ∧
      ∀ {p' w'}, Alike id p w p' w' → p'.outcome m.behaviour r w' =
        { answer, provider := { p' with table := p'.table.settle id fate },
          world := w'.put cell } := by
  have hreach : ∀ {p' : Provider β Nat} {w' : Cells σ τ}, Alike id p w p' w' →
      r.reach p' id = r.reach p id := by
    intro p' w' h
    have hauthorize : p'.authorize = p.authorize := funext fun token => by
      rw [authorize, authorize, h.token]
    rw [Request.reach, Request.reach, hauthorize, h.entry]
  cases h : r.reach p id with
  | error a =>
    refine ⟨some a, .stays, none, nofun, fun halike => ?_⟩
    exact outcome_missed hr ((hreach halike).trans h) _
  | ok c =>
    obtain ⟨-, hget⟩ := Request.reach_eq_ok h
    have hlt := hw.made c (Table.get?_eq_some_iff.1 hget).1
    have hs : w.states[c.resource]? = some w.states[c.resource] := List.getElem?_eq_getElem hlt
    let visit := r.visit m c w.states[c.resource]
    refine ⟨visit.answer, visit.fate, some (c.resource, visit.state), ?_, fun halike => ?_⟩
    · intro x hx
      cases hx
      exact ⟨c, hget, rfl⟩
    · exact outcome_visit hr ((hreach halike).trans h) ((halike.state c hget).trans hs)

/-- Whether two states look the same to a request for a new collector. -/
structure Ready (p : Provider β Nat) (w : Cells σ τ) (p' : Provider β Nat) (w' : Cells σ τ) :
    Prop where
  token : p'.token = p.token
  registry : p'.registry = p.registry
  closed : p'.table.closed = p.table.closed
  backends : w'.backends = w.backends
  length : w'.states.length = w.states.length

/-- **What a request for a collector comes to depends on none of the collectors** that there
are. -/
theorem exists_entry (m : Methods β σ τ) (p : Provider β Nat) (w : Cells σ τ) (mode : Mode)
    (token : Option String) (backend : String) (config : Option String) (id : CollectorId) :
    (∃ answer backends, ∀ {p' w'}, Ready p w p' w' →
      p'.outcome m.behaviour (.instantiate mode token backend config id) w' =
        { answer, provider := p', world := { w' with backends } }) ∨
    (p.table.closed = false ∧ ∃ c s backends, c.id = id ∧
      ∀ {p' w' t}, Ready p w p' w' → p'.table.insert c = .ok t →
        p'.outcome m.behaviour (.instantiate mode token backend config id) w' =
          { answer := some (.ok (.id id)), provider := { p' with table := t },
            world := { states := w'.states ++ [s], backends } }) := by
  have horder : ∀ {p' : Provider β Nat} {w' : Cells σ τ}, Ready p w p' w' →
      p'.order token backend = p.order token backend := by
    intro p' w' h
    rw [order, order, authorize, authorize, h.token, h.closed, h.registry]
  cases h : p.order token backend with
  | error a =>
    refine .inl ⟨some a, w.backends, fun {p' w'} hready => ?_⟩
    rw [← hready.backends]
    exact outcome_declined ((horder hready).trans h) mode config w'
  | ok made =>
    rcases hmade : m.instantiate made mode config w.backends with ⟨_ | (e | s), backends⟩
    · refine .inl ⟨none, backends, fun {p' w'} hready => ?_⟩
      rw [← hready.backends] at hmade
      exact outcome_unmade ((horder hready).trans h) none hmade
    · refine .inl ⟨some (.error e), backends, fun {p' w'} hready => ?_⟩
      rw [← hready.backends] at hmade
      exact outcome_unmade ((horder hready).trans h) (some e) hmade
    · refine .inr ⟨(order_eq_ok h).2.1, { id, backend, resource := w.states.length }, s, backends,
        rfl, fun {p' w' t} hready hinsert => ?_⟩
      rw [← hready.backends] at hmade
      rw [← hready.length] at hinsert
      exact outcome_enter ((horder hready).trans h) hmade hinsert

/-! ### Two requests in either order -/

/-- Whether it does not matter in which order two requests are made. -/
structure Commute (b : Behaviour β ι ω) (p : Provider β ι) (w : ω) (r r' : Request) : Prop where
  provider : ((p.outcome b r w).provider.outcome b r' (p.outcome b r w).world).provider =
    ((p.outcome b r' w).provider.outcome b r (p.outcome b r' w).world).provider
  world : ((p.outcome b r w).provider.outcome b r' (p.outcome b r w).world).world =
    ((p.outcome b r' w).provider.outcome b r (p.outcome b r' w).world).world
  first : (p.outcome b r w).answer =
    ((p.outcome b r' w).provider.outcome b r (p.outcome b r' w).world).answer
  second : ((p.outcome b r w).provider.outcome b r' (p.outcome b r w).world).answer =
    (p.outcome b r' w).answer

theorem Commute.symm {b : Behaviour β ι ω} {p : Provider β ι} {w : ω} {r r' : Request}
    (h : Commute b p w r r') : Commute b p w r' r :=
  ⟨h.provider.symm, h.world.symm, h.second.symm, h.first.symm⟩

theorem Alike.refl (id : CollectorId) (p : Provider β Nat) (w : Cells σ τ) : Alike id p w p w :=
  ⟨rfl, rfl, fun _ _ => rfl⟩

theorem Ready.refl (p : Provider β Nat) (w : Cells σ τ) : Ready p w p w :=
  ⟨rfl, rfl, rfl, rfl, rfl⟩

/-- The entries of two ids have different instances. -/
theorem resource_ne (hw : w.Apart p.table.entries) (hne : id ≠ id') {c d : Collector Nat}
    (hc : p.table.get? id = some c) (hd : p.table.get? id' = some d) :
    c.resource ≠ d.resource := by
  obtain ⟨hcmem, hcid⟩ := Table.get?_eq_some_iff.1 hc
  obtain ⟨hdmem, hdid⟩ := Table.get?_eq_some_iff.1 hd
  intro heq
  have hsame : c = d := List.inj_on_of_nodup_map hw.nodup hcmem hdmem heq
  exact hne (hcid.symm.trans (hsame ▸ hdid))

/-- What a request to one collector changes is not seen by a request to another. -/
theorem alike_settle (hw : w.Apart p.table.entries) (hne : id ≠ id') (fate : Fate)
    {cell : Option (Nat × σ)}
    (hcell : ∀ x ∈ cell, ∃ c, p.table.get? id = some c ∧ c.resource = x.1) :
    Alike id' p w { p with table := p.table.settle id fate } (w.put cell) where
  token := rfl
  entry := Table.get?_settle _ (Ne.symm hne) fate
  state d hd := by
    cases cell with
    | none => rfl
    | some x =>
      obtain ⟨c, hc, hx⟩ := hcell x rfl
      have hx' : x.1 ≠ d.resource := hx ▸ resource_ne hw hne hc hd
      exact List.getElem?_set_ne hx'

theorem put_comm (w : Cells σ τ) {x y : Option (Nat × σ)}
    (h : ∀ a ∈ x, ∀ b ∈ y, a.1 ≠ b.1) : (w.put x).put y = (w.put y).put x := by
  cases x with
  | none => rfl
  | some a =>
    cases y with
    | none => rfl
    | some b =>
      simp only [Cells.put]
      rw [List.set_comm _ _ (h a rfl b rfl)]

/-- **Requests to two collectors commute.** -/
theorem commute_visits (hw : w.Apart p.table.entries) {r r' : Request}
    (hr : r.collector? = some id) (hr' : r'.collector? = some id') (hne : id ≠ id') :
    Commute m.behaviour p w r r' := by
  obtain ⟨answer, fate, cell, hcell, hvisit⟩ := exists_visit (m := m) hw hr
  obtain ⟨answer', fate', cell', hcell', hvisit'⟩ := exists_visit (m := m) hw hr'
  have hcells : ∀ x ∈ cell, ∀ y ∈ cell', x.1 ≠ y.1 := by
    intro x hx y hy
    obtain ⟨c, hc, hcx⟩ := hcell x hx
    obtain ⟨d, hd, hdy⟩ := hcell' y hy
    rw [← hcx, ← hdy]
    exact resource_ne hw hne hc hd
  have hfirst := hvisit (.refl id p w)
  have hsecond := hvisit' (.refl id' p w)
  have hthen := hvisit' (alike_settle hw hne fate hcell)
  have hthen' := hvisit (alike_settle hw (Ne.symm hne) fate' hcell')
  constructor
  · rw [hfirst, hsecond, hthen, hthen', Table.settle_comm]
  · rw [hfirst, hsecond, hthen, hthen', put_comm w hcells]
  · rw [hfirst, hsecond, hthen']
  · rw [hfirst, hsecond, hthen]

/-- **A request to a collector commutes with the making of another one.** -/
theorem commute_entry (hw : w.Apart p.table.entries) {r : Request} (hr : r.collector? = some id)
    {mode : Mode} {token config : Option String} {backend : String} (hne : id ≠ id')
    (hfresh : id' ∉ p.table.ids) :
    Commute m.behaviour p w r (.instantiate mode token backend config id') := by
  obtain ⟨answer, fate, cell, hcell, hvisit⟩ := exists_visit (m := m) hw hr
  have hfirst := hvisit (.refl id p w)
  have hready : Ready p w { p with table := p.table.settle id fate } (w.put cell) := by
    refine ⟨rfl, rfl, Table.closed_settle _ id fate, ?_, ?_⟩ <;> cases cell
    · rfl
    · rfl
    · rfl
    · exact List.length_set
  rcases exists_entry m p w mode token backend config id' with
    ⟨answer', backends, hentry⟩ | ⟨hopen, c, s, backends, rfl, hentry⟩
  · have hsecond := hentry (.refl p w)
    have hthen := hentry hready
    have halike : Alike id p w p { w with backends } := ⟨rfl, rfl, fun _ _ => rfl⟩
    have hthen' := hvisit halike
    constructor
    · rw [hfirst, hsecond, hthen, hthen']
    · rw [hfirst, hsecond, hthen, hthen']
      cases cell <;> rfl
    · rw [hfirst, hsecond, hthen']
    · rw [hfirst, hsecond, hthen]
  · obtain ⟨t, ht⟩ := Table.exists_insert hopen hfresh
    have hsecond := hentry (.refl p w) ht
    have hthen := hentry hready (Table.insert_settle ht hne fate)
    have halike : Alike id p w { p with table := t }
        { states := w.states ++ [s], backends } := by
      refine ⟨rfl, Table.get?_insert ht hne, fun d hd => ?_⟩
      exact List.getElem?_append_left (hw.made d (Table.get?_eq_some_iff.1 hd).1)
    have hthen' := hvisit halike
    constructor
    · rw [hfirst, hsecond, hthen, hthen']
    · rw [hfirst, hsecond, hthen, hthen']
      cases cell with
      | none => rfl
      | some x =>
        obtain ⟨d, hd, hx⟩ := hcell x rfl
        have hlt : x.1 < w.states.length := hx ▸ hw.made d (Table.get?_eq_some_iff.1 hd).1
        simp only [Cells.put]
        rw [List.set_append_left _ _ hlt]
    · rw [hfirst, hsecond, hthen']
    · rw [hfirst, hsecond, hthen]

/-! ### Batches -/

/-- What requests come to that are made one after another: the answer of each, and the provider and
the state of the backends behind the last. -/
structure Proceedings (β ι ω : Type) where
  answers : List (Request × Option (Except Error Answer))
  provider : Provider β ι
  world : ω

/-- Handles some requests one after another, with nobody else acting on the provider. -/
def performAll (b : Behaviour β ι ω) : List Request → Provider β ι → ω → Proceedings β ι ω
  | [], p, w => { answers := [], provider := p, world := w }
  | r :: rest, p, w =>
    let next := p.perform b r w
    let last := performAll b rest next.provider next.world
    { last with answers := (r, next.call.result?) :: last.answers }

/-- Whether the requests of a batch have nothing to do with each other: each is about a collector of
its own, and at most one of them asks for a new collector, with an id that is free. -/
structure Independent (p : Provider β ι) (batch : List Request) : Prop where
  aimed : ∀ r ∈ batch, r.subject?.isSome = true
  distinct : (batch.map Request.subject?).Nodup
  single : batch.countP Request.makes ≤ 1
  fresh : ∀ r ∈ batch, r.makes = true → ∀ id ∈ r.subject?, id ∉ p.table.ids

theorem Independent.perm {p : Provider β ι} {batch batch' : List Request}
    (h : p.Independent batch) (hperm : batch.Perm batch') : p.Independent batch' where
  aimed r hr := h.aimed r (hperm.mem_iff.2 hr)
  distinct := ((hperm.map _).nodup_iff).1 h.distinct
  single := hperm.countP_eq _ ▸ h.single
  fresh r hr := h.fresh r (hperm.mem_iff.2 hr)

/-- A request to a collector, or for a new one with an id that is free. -/
theorem Independent.cases {p : Provider β ι} {batch : List Request} (h : p.Independent batch)
    {r : Request} (hr : r ∈ batch) :
    (r.makes = false ∧ ∃ id, r.subject? = some id ∧ r.collector? = some id) ∨
    (r.makes = true ∧ ∃ mode token backend config id,
      r = .instantiate mode token backend config id ∧ id ∉ p.table.ids) := by
  obtain ⟨id, hid⟩ := Option.isSome_iff_exists.1 (h.aimed r hr)
  cases r with
  | instantiate mode token backend config id =>
    exact .inr ⟨rfl, mode, token, backend, config, id, rfl, h.fresh _ hr rfl id rfl⟩
  | list | shutdown => cases hid
  | close | destroy | hello | sum | invoke => exact .inl ⟨rfl, id, hid, hid⟩

/-- Nobody comes into a table but the collector that is asked for. -/
theorem mem_ids_outcome (hw : w.Apart p.table.entries) {batch : List Request}
    (h : p.Independent batch) {r : Request} (hr : r ∈ batch)
    (hid : id ∈ (p.outcome m.behaviour r w).provider.table.ids) :
    id ∈ p.table.ids ∨ r.subject? = some id := by
  rcases h.cases hr with
    ⟨-, i, hsubject, hcollector⟩ | ⟨-, mode, token, backend, config, i, rfl, hfresh⟩
  · obtain ⟨answer, fate, cell, -, hvisit⟩ := exists_visit (m := m) hw hcollector
    rw [hvisit (.refl i p w)] at hid
    exact .inl (Table.mem_ids_settle hid)
  · rcases exists_entry m p w mode token backend config i with
      ⟨answer, backends, hentry⟩ | ⟨hopen, c, s, backends, rfl, hentry⟩
    · rw [hentry (.refl p w)] at hid
      exact .inl hid
    · obtain ⟨t, ht⟩ := Table.exists_insert hopen hfresh
      rw [hentry (.refl p w) ht] at hid
      obtain ⟨d, hd, rfl⟩ := Table.mem_ids.1 hid
      rw [(Table.entered_of_insert ht).entries, List.mem_append, List.mem_singleton] at hd
      rcases hd with hd | rfl
      · exact .inl (Table.mem_ids.2 ⟨d, hd, rfl⟩)
      · exact .inr rfl

/-- What is left of a batch behind its first request is independent, too. -/
theorem Independent.tail (hw : w.Apart p.table.entries) {r : Request} {rest : List Request}
    (h : p.Independent (r :: rest)) :
    (p.outcome m.behaviour r w).provider.Independent rest where
  aimed r' hr' := h.aimed r' (List.mem_cons_of_mem r hr')
  distinct := (List.nodup_cons.1 h.distinct).2
  single := Nat.le_trans (List.sublist_cons_self r rest).countP_le h.single
  fresh r' hr' hmakes id hid hmem := by
    rcases mem_ids_outcome hw h List.mem_cons_self hmem with hmem | hsubject
    · exact h.fresh r' (List.mem_cons_of_mem r hr') hmakes id hid hmem
    · refine (List.nodup_cons.1 h.distinct).1 (List.mem_map.2 ⟨r', hr', ?_⟩)
      rw [hsubject]
      exact hid

theorem apart_outcome {r : Request} (hw : w.Apart p.table.entries) :
    (p.outcome m.behaviour r w).world.Apart
      (p.outcome m.behaviour r w).provider.table.entries := by
  have hstart : w.Apart ((Call.start r : Call β Nat).around p) := hw
  exact (Call.apart_run (m := m) hstart).mono (List.sublist_append_right _ _).subperm
    (Nat.le_refl _)

/-- Two requests of a batch commute. -/
theorem Independent.commute (hw : w.Apart p.table.entries) {r r' : Request} {rest : List Request}
    (h : p.Independent (r :: r' :: rest)) : Commute m.behaviour p w r r' := by
  have hne : r.subject? ≠ r'.subject? := fun heq =>
    (List.nodup_cons.1 h.distinct).1 (heq ▸ List.mem_cons_self)
  have hmem : r' ∈ r :: r' :: rest := List.mem_cons_of_mem r List.mem_cons_self
  rcases h.cases List.mem_cons_self with
    ⟨-, i, hsubject, hcollector⟩ | ⟨hmakes, mode, token, backend, config, i, rfl, hfresh⟩
  · rcases h.cases hmem with
      ⟨-, j, hsubject', hcollector'⟩ | ⟨-, mode, token, backend, config, j, rfl, hfresh⟩
    · exact commute_visits hw hcollector hcollector' fun heq =>
        hne (hsubject.trans (heq ▸ hsubject'.symm))
    · exact commute_entry hw hcollector (fun heq => hne (hsubject.trans (congrArg some heq))) hfresh
  · rcases h.cases hmem with
      ⟨-, j, hsubject', hcollector'⟩ | ⟨hmakes', -⟩
    · exact (commute_entry hw hcollector'
        (fun heq => hne (hsubject'.trans (congrArg some heq)).symm) hfresh).symm
    · -- There are not two requests for a new collector.
      have hsingle := h.single
      rw [List.countP_cons_of_pos hmakes, List.countP_cons_of_pos hmakes'] at hsingle
      omega

theorem performAll_cons (b : Behaviour β ι ω) (r : Request) (rest : List Request)
    (p : Provider β ι) (w : ω) :
    p.performAll b (r :: rest) w =
      let first := p.outcome b r w
      let last := first.provider.performAll b rest first.world
      { last with answers := (r, first.answer) :: last.answers } := rfl

/-- **A batch of independent requests may be made in any order**, where no two collectors share an
instance. -/
theorem performAll_perm_of_apart {batch batch' : List Request} (hperm : batch.Perm batch')
    (hw : w.Apart p.table.entries) (h : p.Independent batch) :
    (p.performAll m.behaviour batch w).answers.Perm (p.performAll m.behaviour batch' w).answers ∧
    (p.performAll m.behaviour batch w).provider = (p.performAll m.behaviour batch' w).provider ∧
    (p.performAll m.behaviour batch w).world = (p.performAll m.behaviour batch' w).world := by
  induction hperm generalizing p w with
  | nil => exact ⟨.refl _, rfl, rfl⟩
  | @cons r rest rest' hperm ih =>
    obtain ⟨hanswers, hprovider, hworld⟩ :=
      ih (apart_outcome (m := m) (r := r) hw) (h.tail (m := m) hw)
    rw [performAll_cons, performAll_cons]
    exact ⟨hanswers.cons _, hprovider, hworld⟩
  | swap r r' rest =>
    obtain ⟨hprovider, hworld, hfirst, hsecond⟩ := h.commute (m := m) hw
    simp only [performAll_cons]
    rw [hprovider, hworld, hfirst, hsecond]
    exact ⟨.swap _ _ _, rfl, rfl⟩
  | trans hperm hperm' ih ih' =>
    obtain ⟨hanswers, hprovider, hworld⟩ := ih hw h
    obtain ⟨hanswers', hprovider', hworld'⟩ := ih' hw (h.perm hperm)
    exact ⟨hanswers.trans hanswers', hprovider.trans hprovider', hworld.trans hworld'⟩

end Provider

/-- **Independent requests commute.** Whatever is going on at a host, a batch of requests to a
provider that are about different collectors, at most one of them for a new one, comes to the same
in every order: each request has the same answer, and the provider, the instances and the backends
end in the same state. -/
theorem Traffic.performAll_perm {m : Methods β σ τ} {w : Cells σ τ}
    {s : Traffic β Nat (Cells σ τ)} (hs : Reachable m.behaviour w s) {place : Nat}
    {p : Provider β Nat} (hp : s.host.provider? place = some p) {batch batch' : List Request}
    (hbatch : p.Independent batch) (hperm : batch.Perm batch') :
    let one := p.performAll m.behaviour batch s.world
    let other := p.performAll m.behaviour batch' s.world
    one.answers.Perm other.answers ∧ one.provider = other.provider ∧ one.world = other.world := by
  obtain ⟨tables, htables, -⟩ := perm_flatMap_set
    (fun t : List (Collector Nat) × Bool => t.1) (Host.contents_of_provider? hp)
  have hentries : p.table.entries.Subperm s.around :=
    ((List.sublist_append_left _ tables).subperm.trans htables.symm.subperm).trans
      (List.sublist_append_right _ _).subperm
  exact Provider.performAll_perm_of_apart hperm (hs.apart.mono hentries (Nat.le_refl _)) hbatch

/-! ### A batch in both orders -/

namespace Provider

/-- Instances that count what they were asked. -/
def counting : Methods Unit Nat Unit where
  instantiate _ _ _ t := (some (.ok 0), t)
  close n := (some (.error .invalidToken), n + 1)
  destroy n := (some (.ok ()), n + 1)
  hello n := (some (), n + 1)
  sum x y n := (some (.ok (x + y)), n + 1)
  invoke _ _ n := (some (.ok (.int n)), n + 1)

/-- An id that ends with a byte. -/
def tailed (n : UInt8) : CollectorId := ⟨.replicate 15 0 ++ [n], rfl⟩

/-- A request for a collector. -/
def enlist (n : UInt8) : Request := .instantiate .create none Dummy.backendName none (tailed n)

/-- A provider with two collectors. -/
def staffed : List (Traffic.Event Unit) :=
  [.make {} (), .request 0 (enlist 1), .request 0 (enlist 2)] ++ .replicate 5 (.job 0) ++
    .replicate 5 (.job 1)

/-- One collector is closed, one adds, one is not there, and one is made. -/
def assorted : List Request :=
  [.close none (tailed 1), .sum (tailed 2) 3 4, .hello (tailed 3), enlist 4]

theorem performAll_perm_assorted :
    let s := Traffic.run counting.behaviour { world := { backends := () } } staffed
    ∃ p, s.host.provider? 0 = some p ∧ p.Independent assorted ∧
      (p.performAll counting.behaviour assorted s.world).provider =
        (p.performAll counting.behaviour assorted.reverse s.world).provider ∧
      (p.performAll counting.behaviour assorted s.world).world =
        (p.performAll counting.behaviour assorted.reverse s.world).world := by
  intro s
  obtain ⟨p, hp⟩ : ∃ p, s.host.provider? 0 = some p := ⟨_, rfl⟩
  have hids : p.table.ids = [tailed 1, tailed 2] := by
    cases hp
    rfl
  have hbatch : p.Independent assorted := by
    refine ⟨by decide, by decide, by decide, fun r hr hmakes id hid => ?_⟩
    rw [hids]
    simp only [assorted, List.mem_cons, List.not_mem_nil, or_false] at hr
    rcases hr with rfl | rfl | rfl | rfl
    · cases hmakes
    · cases hmakes
    · cases hmakes
    · cases hid
      decide
  obtain ⟨-, hprovider, hworld⟩ :=
    Traffic.performAll_perm ⟨staffed, rfl⟩ hp hbatch (List.reverse_perm assorted).symm
  exact ⟨p, hp, hbatch, hprovider, hworld⟩

end Provider
end Collectors
