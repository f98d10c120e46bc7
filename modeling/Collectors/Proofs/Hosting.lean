import Collectors.Config.File
import Collectors.Proofs.Formats
import Collectors.Proofs.Session

/-!
# Hosting a configuration

Two loops look for the first provider id that is given twice: the validation of a configuration
keeps the ids that it has seen, and the registration of its providers keeps a host. They stop at the
same entry, because after every step the ids that were seen are those of the host
(`Host.Filled.registerAll_of_none`, `Host.Filled.registerAll_of_some`); a host that was filled
without a repeat has the providers of the configuration and no others
(`Host.ofConfigs_agrees_validate`).

Registration breaks down on a provider with too many workers, which validation does not look at:
a configuration that is taken from a file is hosted exactly if no provider in it has too many
(`Host.serves_of_ofFile`).
-/

namespace Collectors

variable {β ι : Type}

/-! ### The first repeat of a list -/

namespace ServerConfig

variable {α : Type} [DecidableEq α]

theorem firstRepeat_eq_none_iff {seen l : List α} :
    firstRepeat seen l = none ↔ l.Nodup ∧ ∀ a ∈ l, a ∉ seen := by
  induction l generalizing seen with
  | nil => simp [firstRepeat]
  | cons a l ih =>
    rw [firstRepeat, List.nodup_cons, List.forall_mem_cons]
    split
    · rename_i hseen
      exact iff_of_false (by simp) fun h => h.2.1 hseen
    · rename_i hseen
      rw [ih]
      simp only [List.mem_cons, not_or]
      constructor
      · rintro ⟨hnodup, hfree⟩
        exact ⟨⟨fun hmem => (hfree a hmem).1 rfl, hnodup⟩, hseen, fun b hb => (hfree b hb).2⟩
      · rintro ⟨⟨hnotMem, hnodup⟩, -, hfree⟩
        exact ⟨hnodup, fun b hb => ⟨fun heq => hnotMem (heq ▸ hb), hfree b hb⟩⟩

/-- The repeat that is found is in front of all others. -/
theorem firstRepeat_eq_some {seen l : List α} {a : α} (h : firstRepeat seen l = some a) :
    ∃ front back, l = front ++ a :: back ∧ front.Nodup ∧ (∀ b ∈ front, b ∉ seen) ∧
      (a ∈ seen ∨ a ∈ front) := by
  induction l generalizing seen with
  | nil => cases h
  | cons b l ih =>
    rw [firstRepeat] at h
    split at h
    · rename_i hseen
      cases h
      exact ⟨[], l, rfl, List.nodup_nil, by simp, .inl hseen⟩
    · rename_i hseen
      obtain ⟨front, back, rfl, hnodup, hfree, ha⟩ := ih h
      simp only [List.mem_cons, not_or] at hfree ha
      refine ⟨b :: front, back, rfl,
        List.nodup_cons.2 ⟨fun hmem => (hfree b hmem).1 rfl, hnodup⟩, ?_, ?_⟩
      · rw [List.forall_mem_cons]
        exact ⟨hseen, fun c hc => (hfree c hc).2⟩
      · rw [List.mem_cons]
        rcases ha with (rfl | ha) | ha
        · exact .inr (.inl rfl)
        · exact .inl ha
        · exact .inr (.inr ha)

theorem validate_eq_ok_iff {c : ServerConfig} :
    c.validate = .ok () ↔ (c.providers.map (·.providerId)).Nodup := by
  have hnone := @firstRepeat_eq_none_iff _ _ [] (c.providers.map (·.providerId))
  simp only [List.not_mem_nil, not_false_eq_true, implies_true, and_true] at hnone
  rw [← hnone, validate]
  cases firstRepeat [] (c.providers.map (·.providerId)) <;> simp

end ServerConfig

namespace Host

/-! ### Making and attaching -/

theorem sizeFor_le_iff {size : UInt64} :
    WorkerPool.sizeFor size ≤ maxWorkers ↔ size.toNat ≤ maxWorkers := by
  unfold WorkerPool.sizeFor
  split
  · rename_i h
    subst h
    exact iff_of_true (by decide) (by decide)
  · rfl

/-- What is made for a configuration, if there can be so many workers. -/
theorem new_eq_some_iff {c : ProviderConfig} {dummy : β} {p : Provider β ι} :
    Provider.new c dummy = some p ↔ c.poolSize.toNat ≤ maxWorkers ∧
      p = { id := c.providerId
            token := AdminToken.new c.token
            registry := { entries := [(Dummy.backendName, dummy)] }
            table := Table.withGauge (some 0)
            poolSize := WorkerPool.sizeFor c.poolSize } := by
  rw [← sizeFor_le_iff, Provider.new]
  split
  · rename_i h
    simp [h, eq_comm]
  · rename_i h
    simp [h]

theorem id_of_new {c : ProviderConfig} {dummy : β} {p : Provider β ι}
    (h : Provider.new c dummy = some p) : p.id = c.providerId := by
  rw [(new_eq_some_iff.1 h).2]

theorem new_eq_none_iff {c : ProviderConfig} {dummy : β} :
    (Provider.new c dummy : Option (Provider β ι)) = none ↔ maxWorkers < c.poolSize.toNat := by
  rw [Provider.new, ite_eq_right_iff, ← Nat.not_le, ← sizeFor_le_iff]
  simp

theorem lookup_enter {id : ProviderId} {l : List (ProviderId × Nat)}
    (hfree : id ∉ l.map Prod.fst) (place : Nat) (x : ProviderId) :
    (enter id place l).lookup x = if x = id then some place else l.lookup x := by
  have hfront : ∀ l' : List (ProviderId × Nat), ((id, place) :: l').lookup x =
      if x = id then some place else l'.lookup x := by
    intro l'
    rw [List.lookup_cons]
    by_cases hx : x = id
    · simp [hx]
    · simp [hx, beq_false_of_ne hx]
  induction l with
  | nil => exact hfront []
  | cons entry l ih =>
    rw [List.map_cons, List.mem_cons, not_or] at hfree
    rw [enter]
    split
    · exact hfront _
    · rw [List.lookup_cons, List.lookup_cons, ih hfree.2]
      by_cases hx : x = entry.1
      · have hne : entry.1 ≠ id := fun heq => hfree.1 heq.symm
        simp [hx, hne]
      · simp [beq_false_of_ne hx]

theorem pairwise_enter {id : ProviderId} {place : Nat} {l : List (ProviderId × Nat)}
    (hfree : id ∉ l.map Prod.fst) (h : (l.map Prod.fst).Pairwise (· < ·)) :
    ((enter id place l).map Prod.fst).Pairwise (· < ·) := by
  induction l with
  | nil => exact List.pairwise_singleton _ _
  | cons entry l ih =>
    rw [List.map_cons, List.mem_cons, not_or] at hfree
    rw [List.map_cons, List.pairwise_cons] at h
    rw [enter]
    split
    · rename_i hlt
      refine List.pairwise_cons.2 ⟨fun i hi => ?_, List.pairwise_cons.2 h⟩
      rcases List.mem_cons.1 hi with rfl | hi
      · exact hlt
      · exact UInt16.lt_trans hlt (h.1 i hi)
    · rename_i hle
      have hlt : entry.1 < id :=
        UInt16.lt_of_le_of_ne (UInt16.not_lt.1 hle) fun heq => hfree.1 heq.symm
      refine List.pairwise_cons.2 ⟨fun i hi => ?_, ih hfree.2 h.2⟩
      rcases List.mem_cons.1 (((enter_perm id place l).map Prod.fst).mem_iff.1 hi) with rfl | hi
      · exact hlt
      · exact h.1 i hi

/-- What making a provider leaves of the others, if they have other ids. -/
theorem provider?_make {h : Host β ι} {place : Nat} {p q : Provider β ι}
    (hp : h.provider? place = some p) (hid : p.id ≠ q.id)
    (attached : List (ProviderId × Nat)) :
    provider? { providers := h.providers ++ [q], attached, metrics := h.metrics.setGauge q.id 0 }
      place = some p := by
  obtain ⟨p', hp', rfl⟩ := Option.map_eq_some_iff.1 hp
  have hget : (h.providers ++ [q])[place]? = some p' := by
    rw [List.getElem?_append_left (List.getElem?_eq_some_iff.1 hp').1, hp']
  have hid : p'.id ≠ q.id := hid
  rw [provider?, hget, Option.map_some, Metrics.gauge?_setGauge, if_neg hid]

theorem provider?_made (h : Host β ι) {config : ProviderConfig} {dummy : β} {p : Provider β ι}
    (hp : Provider.new config dummy = some p) (attached : List (ProviderId × Nat)) :
    provider? { providers := h.providers ++ [p], attached, metrics := h.metrics.setGauge p.id 0 }
      h.providers.length = some p := by
  have hgauge : p.table.gauge = some 0 := by
    obtain ⟨-, rfl⟩ := new_eq_some_iff.1 hp
    rfl
  rw [provider?, List.getElem?_concat_length, Option.map_some, Metrics.gauge?_setGauge,
    if_pos rfl, ← hgauge]

/-! ### Hosts that were filled -/

/-- Whether a host has one attached provider for each of some configurations, as it was made, and
no other provider. -/
structure Filled (h : Host β ι) (dummy : β) (configs : List ProviderConfig) : Prop where
  sorted : h.ids.Pairwise (· < ·)
  perm : h.ids.Perm (configs.map (·.providerId))
  length : h.providers.length = configs.length
  entry : ∀ c ∈ configs, ∃ place p, h.attached.lookup c.providerId = some place ∧
    h.provider? place = some p ∧ Provider.new c dummy = some p

theorem filled_empty (dummy : β) : Filled ({} : Host β ι) dummy [] where
  sorted := List.Pairwise.nil
  perm := .refl _
  length := rfl
  entry := by simp

variable {h : Host β ι} {dummy : β} {configs : List ProviderConfig}

theorem Filled.mem_ids (hf : h.Filled dummy configs) {id : ProviderId} :
    id ∈ h.ids ↔ id ∈ configs.map (·.providerId) :=
  hf.perm.mem_iff

/-- A provider that is made and attached is one more. -/
theorem Filled.concat (hf : h.Filled dummy configs) {c : ProviderConfig} {p : Provider β ι}
    (hp : Provider.new c dummy = some p) (hfree : c.providerId ∉ configs.map (·.providerId)) :
    Filled
      { providers := h.providers ++ [p]
        attached := enter c.providerId h.providers.length h.attached
        metrics := h.metrics.setGauge p.id 0 } dummy (configs ++ [c]) where
  sorted := pairwise_enter (fun hmem => hfree (hf.mem_ids.1 hmem)) hf.sorted
  perm := by
    have hperm := (enter_perm c.providerId h.providers.length h.attached).map Prod.fst
    rw [List.map_append, List.map_singleton]
    exact (hperm.trans (hf.perm.cons _)).trans (List.perm_append_singleton _ _).symm
  length := by simp [hf.length]
  entry := by
    have hfree' : c.providerId ∉ h.ids := fun hmem => hfree (hf.mem_ids.1 hmem)
    intro d hd
    rcases List.mem_append.1 hd with hd | hd
    · obtain ⟨place, q, hlookup, hq, hnew⟩ := hf.entry d hd
      have hne : d.providerId ≠ c.providerId := fun heq => hfree (heq ▸ List.mem_map_of_mem hd)
      refine ⟨place, q, ?_, provider?_make hq ?_ _, hnew⟩
      · rw [lookup_enter hfree', if_neg hne, hlookup]
      · rw [id_of_new hnew, id_of_new hp]
        exact hne
    · rw [List.mem_singleton.1 hd]
      exact ⟨_, p, by rw [lookup_enter hfree', if_pos rfl], provider?_made h hp _, hp⟩

/-- A host registers what has a free id and not too many workers, breaks down on too many workers,
and refuses an id that it has. -/
theorem Filled.register_cases (hf : h.Filled dummy configs) (c : ProviderConfig) :
    (maxWorkers < c.poolSize.toNat ∧ h.register c dummy = none) ∨
    (c.poolSize.toNat ≤ maxWorkers ∧ c.providerId ∈ configs.map (·.providerId) ∧
      ∃ h', h.register c dummy = some (.error (.providerAlreadyRegistered c.providerId), h')) ∨
    (c.poolSize.toNat ≤ maxWorkers ∧ c.providerId ∉ configs.map (·.providerId) ∧
      ∃ h', h.register c dummy = some (.ok (), h') ∧ h'.Filled dummy (configs ++ [c])) := by
  cases hnew : (Provider.new c dummy : Option (Provider β ι)) with
  | none => exact .inl ⟨new_eq_none_iff.1 hnew, by rw [register, make, hnew]; rfl⟩
  | some p =>
    have hsize := (new_eq_some_iff.1 hnew).1
    simp only [register, make, hnew, Option.map_some, attach]
    by_cases hfree : c.providerId ∈ configs.map (·.providerId)
    · refine .inr (.inl ⟨hsize, hfree, ?_⟩)
      have hfound : (h.attached.lookup c.providerId).isSome = true := by
        rw [Option.isSome_iff_ne_none, Ne, lookup_eq_none_iff, not_not]
        exact hf.mem_ids.2 hfree
      rw [if_pos hfound]
      exact ⟨_, rfl⟩
    · refine .inr (.inr ⟨hsize, hfree, ?_⟩)
      have hnone : ¬(h.attached.lookup c.providerId).isSome = true := by
        rw [Option.isSome_iff_ne_none, not_not, lookup_eq_none_iff]
        exact fun hmem => hfree (hf.mem_ids.1 hmem)
      rw [if_neg hnone]
      exact ⟨_, rfl, hf.concat hnew hfree⟩

theorem seen_concat {seen : List ProviderId}
    (h : ∀ id, id ∈ seen ↔ id ∈ configs.map (·.providerId)) (c : ProviderConfig) (id : ProviderId) :
    id ∈ c.providerId :: seen ↔ id ∈ (configs ++ [c]).map (·.providerId) := by
  simp only [List.mem_cons, h, List.map_append, List.mem_append, List.map_cons, List.map_nil,
    List.not_mem_nil, or_false]
  exact Or.comm

/-- Configurations without a repeat are registered one after another, unless one of them has too
many workers. -/
theorem Filled.registerAll_of_none {rest : List ProviderConfig} {seen : List ProviderId}
    (hf : h.Filled dummy configs) (hseen : ∀ id, id ∈ seen ↔ id ∈ configs.map (·.providerId))
    (hrepeat : ServerConfig.firstRepeat seen (rest.map (·.providerId)) = none) :
    ((∃ c ∈ rest, maxWorkers < c.poolSize.toNat) ∧ h.registerAll dummy rest = none) ∨
    ((∀ c ∈ rest, c.poolSize.toNat ≤ maxWorkers) ∧
      ∃ h', h.registerAll dummy rest = some (.ok (), h') ∧ h'.Filled dummy (configs ++ rest)) := by
  -- The ids that were seen are those of the host after every step.
  induction rest generalizing h configs seen with
  | nil => exact .inr ⟨by simp, h, rfl, by rwa [List.append_nil]⟩
  | cons c rest ih =>
    rw [List.map_cons, ServerConfig.firstRepeat] at hrepeat
    split at hrepeat
    · cases hrepeat
    · rename_i hfree
      rw [hseen] at hfree
      simp only [List.exists_mem_cons_iff, List.forall_mem_cons, registerAll]
      rcases hf.register_cases c with ⟨hlarge, hnone⟩ | ⟨-, hmem, -⟩ | ⟨hsize, -, h', hok, hf'⟩
      · exact .inl ⟨.inl hlarge, by rw [hnone]⟩
      · exact absurd hmem hfree
      · rw [hok]
        rw [List.append_cons]
        exact (ih hf' (seen_concat hseen c) hrepeat).imp (fun h => ⟨.inr h.1, h.2⟩)
          fun h => ⟨⟨hsize, h.1⟩, h.2⟩

/-- The first repeat is refused. -/
theorem Filled.registerAll_of_some {rest : List ProviderConfig} {seen : List ProviderId}
    {id : ProviderId} (hf : h.Filled dummy configs)
    (hseen : ∀ id, id ∈ seen ↔ id ∈ configs.map (·.providerId))
    (hrepeat : ServerConfig.firstRepeat seen (rest.map (·.providerId)) = some id)
    (hsize : ∀ c ∈ rest, c.poolSize.toNat ≤ maxWorkers) :
    ∃ h', h.registerAll dummy rest = some (.error (.providerAlreadyRegistered id), h') := by
  induction rest generalizing h configs seen with
  | nil => cases hrepeat
  | cons c rest ih =>
    rw [List.forall_mem_cons] at hsize
    rw [List.map_cons, ServerConfig.firstRepeat] at hrepeat
    simp only [registerAll]
    rcases hf.register_cases c with ⟨hlarge, -⟩ | ⟨-, hmem, h', herror⟩ | ⟨-, hfree, h', hok, hf'⟩
    · exact absurd hsize.1 (Nat.not_le.2 hlarge)
    · rw [if_pos ((hseen _).2 hmem)] at hrepeat
      cases hrepeat
      exact ⟨h', by rw [herror]⟩
    · rw [if_neg fun hmem => hfree ((hseen _).1 hmem)] at hrepeat
      rw [hok]
      exact ih hf' (seen_concat hseen c) hrepeat hsize.2

/-! ### Hosts of configurations -/

/-- Whether the providers of a host are those of some configurations, each under its id. -/
structure Serves (h : Host β ι) (configs : List ProviderConfig) : Prop where
  ids : h.ids = (configs.map (·.providerId)).mergeSort
  found : ∀ c ∈ configs, ∃ place p, h.find c.providerId = .ok place ∧ h.provider? place = some p ∧
    p.id = c.providerId ∧ p.token = AdminToken.new c.token ∧
    p.poolSize = if c.poolSize = 0 then 16 else c.poolSize.toNat
  missing : ∀ id, id ∉ configs.map (·.providerId) → h.find id = .error (.invalidProvider id)
  number : h.providers.length = configs.length

theorem Filled.serves (hf : h.Filled dummy configs) : h.Serves configs where
  ids := by
    refine (hf.perm.trans (List.mergeSort_perm _ _).symm).eq_of_pairwise
      (fun a b _ _ hab hba => UInt16.le_antisymm hab hba)
      (hf.sorted.imp fun hlt => UInt16.le_of_lt hlt) ?_
    refine (List.pairwise_mergeSort ?_ ?_ _).imp of_decide_eq_true
    · intro a b c hab hbc
      exact decide_eq_true (UInt16.le_trans (of_decide_eq_true hab) (of_decide_eq_true hbc))
    · intro a b
      simpa using UInt16.le_total a b
  found c hc := by
    obtain ⟨place, p, hlookup, hp, hnew⟩ := hf.entry c hc
    refine ⟨place, p, by rw [find, hlookup], hp, ?_⟩
    rw [(new_eq_some_iff.1 hnew).2]
    exact ⟨rfl, rfl, rfl⟩
  missing id hid := by
    have hnone : h.attached.lookup id = none :=
      lookup_eq_none_iff.2 fun hmem => hid (hf.mem_ids.1 hmem)
    rw [find, hnone]
  number := hf.length

/-- Configurations without a repeat are hosted, unless one of them has too many workers. -/
theorem ofConfigs_of_nodup (dummy : β) (hnodup : (configs.map (·.providerId)).Nodup) :
    ((∃ c ∈ configs, maxWorkers < c.poolSize.toNat) ∧
      (ofConfigs configs dummy : Option (Except Error (Host β ι))) = none) ∨
    ((∀ c ∈ configs, c.poolSize.toNat ≤ maxWorkers) ∧
      ∃ h : Host β ι, ofConfigs configs dummy = some (.ok h) ∧ h.Serves configs) := by
  have hrepeat : ServerConfig.firstRepeat [] (configs.map (·.providerId)) = none :=
    ServerConfig.firstRepeat_eq_none_iff.2 ⟨hnodup, by simp⟩
  have hall := (filled_empty (ι := ι) dummy).registerAll_of_none (by simp) hrepeat
  refine hall.imp (fun ⟨hlarge, hnone⟩ => ⟨hlarge, ?_⟩) fun ⟨hsize, h', hok, hf⟩ =>
    ⟨hsize, h', ?_, hf.serves⟩
  · rw [ofConfigs, hnone, Option.map_none]
  · rw [ofConfigs, hok]
    rfl

/-- The first repeat is what the host names. -/
theorem ofConfigs_of_some (dummy : β) {id : ProviderId}
    (hrepeat : ServerConfig.firstRepeat [] (configs.map (·.providerId)) = some id)
    (hsize : ∀ c ∈ configs, c.poolSize.toNat ≤ maxWorkers) :
    (ofConfigs configs dummy : Option (Except Error (Host β ι))) =
      some (.error (.providerAlreadyRegistered id)) := by
  obtain ⟨h', herror⟩ :=
    (filled_empty (ι := ι) dummy).registerAll_of_some (by simp) hrepeat hsize
  rw [ofConfigs, herror]
  rfl

/-- **Validation and registration refuse the same configurations**, and with the same id: that of
the first entry whose id was given before. -/
theorem ofConfigs_agrees_validate (dummy : β)
    (hsize : ∀ c ∈ configs, c.poolSize.toNat ≤ maxWorkers) :
    (ServerConfig.validate { providers := configs } = .ok () ↔
      (configs.map (·.providerId)).Nodup) ∧
    ((∃ h : Host β ι, ofConfigs configs dummy = some (.ok h)) ↔
      (configs.map (·.providerId)).Nodup) ∧
    (∀ h : Host β ι, ofConfigs configs dummy = some (.ok h) → h.Serves configs) ∧
    (¬(configs.map (·.providerId)).Nodup → ∃ front id back,
      configs.map (·.providerId) = front ++ id :: back ∧ front.Nodup ∧ id ∈ front ∧
      ServerConfig.validate { providers := configs } =
        .error (.configuration ("provider id " ++ toString id ++ " listed twice")) ∧
      (ofConfigs configs dummy : Option (Except Error (Host β ι))) =
        some (.error (.providerAlreadyRegistered id))) := by
  rw [ServerConfig.validate_eq_ok_iff]
  cases hrepeat : ServerConfig.firstRepeat [] (configs.map (·.providerId)) with
  | none =>
    have hnodup := (ServerConfig.firstRepeat_eq_none_iff.1 hrepeat).1
    obtain ⟨⟨c, hc, hlarge⟩, -⟩ | ⟨-, h, hok, hserves⟩ := ofConfigs_of_nodup (ι := ι) dummy hnodup
    · exact absurd (hsize c hc) (Nat.not_le.2 hlarge)
    · refine ⟨.rfl, iff_of_true ⟨h, hok⟩ hnodup, fun h' hok' => ?_, fun hnot => absurd hnodup hnot⟩
      cases hok.symm.trans hok'
      exact hserves
  | some id =>
    have hnodup : ¬(configs.map (·.providerId)).Nodup := fun h => by
      rw [ServerConfig.firstRepeat_eq_none_iff.2 ⟨h, by simp⟩] at hrepeat
      cases hrepeat
    have herror := ofConfigs_of_some (ι := ι) dummy hrepeat hsize
    obtain ⟨front, back, hids, hfront, -, hid⟩ := ServerConfig.firstRepeat_eq_some hrepeat
    refine ⟨.rfl, iff_of_false ?_ hnodup, ?_,
      fun _ => ⟨front, id, back, hids, hfront, ?_, ?_, herror⟩⟩
    · rintro ⟨h, hok⟩
      cases herror.symm.trans hok
    · intro h hok
      cases herror.symm.trans hok
    · exact hid.resolve_left List.not_mem_nil
    · rw [ServerConfig.validate, hrepeat]

/-- Three providers, of which the third has the id of the first. -/
theorem ofConfigs_agrees_validate_twice :
    let configs : List ProviderConfig :=
      [{ providerId := 1 }, { providerId := 2 }, { providerId := 1, token := some "t" }]
    (∀ c ∈ configs, c.poolSize.toNat ≤ maxWorkers) ∧
    ServerConfig.validate { providers := configs } =
      .error (.configuration "provider id 1 listed twice") ∧
    (ofConfigs configs () : Option (Except Error (Host Unit Unit))) =
      some (.error (.providerAlreadyRegistered 1)) := by
  intro configs
  have hsize : ∀ c ∈ configs, c.poolSize.toNat ≤ maxWorkers := by decide
  obtain ⟨front, id, back, hids, hfront, hid, hvalid, herror⟩ :=
    (ofConfigs_agrees_validate (ι := Unit) () hsize).2.2.2 (by decide)
  have hone : id = 1 := by
    change [1, 2, 1] = front ++ id :: back at hids
    rcases front with _ | ⟨a, _ | ⟨b, _ | ⟨c, front⟩⟩⟩
    · cases hid
    · cases hids
      exact absurd hid (by decide)
    · cases hids
      rfl
    · simp at hids
  rw [hone] at hvalid herror
  exact ⟨hsize, hvalid, herror⟩

/-! ### Hosts of configuration files -/

/-- Only valid configurations are taken from files. -/
theorem validate_of_ofFile {path : String} {content : Except FileFailure ByteArray}
    {config : ServerConfig} (h : ServerConfig.ofFile path content = .ok config) :
    config.validate = .ok () := by
  unfold ServerConfig.ofFile at h
  simp only [bind, Except.bind] at h
  split at h
  · cases h
  · split at h
    · split at h
      · split at h
        · cases h
        · split at h
          · cases h
          · rename_i hvalid
            cases h
            exact hvalid
      · cases h
    · cases h

/-- What is written of a valid configuration is taken from a file. -/
theorem ofFile_write {path : String} (hpath : ConfigFormat.ofPath? path = some .json)
    {config : ServerConfig} (hvalid : config.validate = .ok ()) :
    ServerConfig.ofFile path (.ok (ServerConfig.codec.write config).toUTF8) = .ok config := by
  have hread : ServerConfig.codec.read (ServerConfig.codec.write config) = .ok config :=
    (ServerConfig.reads_codec config).read
  simp only [ServerConfig.ofFile, Except.mapError, bind, Except.bind, fromUTF8?_toUTF8, hpath,
    ServerConfig.ofText, hread, hvalid, pure, Except.pure]

/-- **A configuration file is hosted, or a provider in it has too many workers**, and then hosting
it breaks down. -/
theorem serves_of_ofFile {path : String} {content : Except FileFailure ByteArray}
    {config : ServerConfig} (h : ServerConfig.ofFile path content = .ok config) (dummy : β) :
    ((∃ c ∈ config.providers, maxWorkers < c.poolSize.toNat) ∧
      (ofConfigs config.providers dummy : Option (Except Error (Host β ι))) = none) ∨
    ((∀ c ∈ config.providers, c.poolSize.toNat ≤ maxWorkers) ∧
      ∃ h : Host β ι, ofConfigs config.providers dummy = some (.ok h) ∧
        h.Serves config.providers) :=
  ofConfigs_of_nodup dummy (ServerConfig.validate_eq_ok_iff.1 (validate_of_ofFile h))

/-- Two providers without repeats are hosted, one of them with the workers that stand in for none;
one provider with 2305843009213693952 workers is not. -/
theorem serves_of_ofFile_two :
    let two : ServerConfig :=
      { providers := [{ providerId := 7, poolSize := 0 }, { providerId := 3, token := some "t" }] }
    let large : ServerConfig :=
      { providers := [{ providerId := 42, poolSize := 0x2000000000000000 }] }
    ServerConfig.ofFile "two.json" (.ok (ServerConfig.codec.write two).toUTF8) = .ok two ∧
    ServerConfig.ofFile "large.json" (.ok (ServerConfig.codec.write large).toUTF8) = .ok large ∧
    (∃ h : Host Unit Unit, ofConfigs two.providers () = some (.ok h) ∧ h.Serves two.providers) ∧
    (ofConfigs large.providers () : Option (Except Error (Host Unit Unit))) = none := by
  intro two large
  have htwo : ServerConfig.ofFile "two.json" (.ok (ServerConfig.codec.write two).toUTF8) =
      .ok two := ofFile_write (by decide +kernel) rfl
  have hlarge : ServerConfig.ofFile "large.json" (.ok (ServerConfig.codec.write large).toUTF8) =
      .ok large := ofFile_write (by decide +kernel) rfl
  refine ⟨htwo, hlarge, ?_, ?_⟩
  · exact ((serves_of_ofFile htwo ()).resolve_left fun h => absurd h.1 (by decide)).2
  · exact ((serves_of_ofFile hlarge ()).resolve_right fun h => absurd h.1 (by decide)).2

end Host
end Collectors
