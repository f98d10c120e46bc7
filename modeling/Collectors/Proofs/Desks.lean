import Collectors.Endpoint.Floor
import Collectors.Proofs.Keeping
import Collectors.Proofs.Separation

/-!
# What goes on at one provider

A desk, too, touches only the backends of what is in the hands of its calls. `Desk.step_graft` takes
this from single calls to whatever may happen at a provider, and `Desk.Within.step` keeps up that
all those hands stay with the backends of the provider, as long as it gets no others. A provider
that gets a backend has one more, and everything else stays as it is.
-/

namespace Collectors

variable {β ι ω : Type}

/-! ### More backends -/

theorem Registry.place_perm (name : String) (backend : β) (l : List (String × β)) :
    (place name backend l).Perm ((name, backend) :: l) := by
  induction l with
  | nil => exact .refl _
  | cons entry l ih =>
    unfold place
    split
    · exact .refl _
    · exact (ih.cons _).trans (.swap _ _ _)

namespace Provider

/-- A provider that gets a backend is the same otherwise. -/
theorem registerBackend_eq_ok {p p' : Provider β ι} {name : String} {backend : β}
    (h : p.registerBackend name backend = .ok p') :
    ∃ registry, p' = { p with registry } ∧ p'.backends.Perm (backend :: p.backends) := by
  unfold registerBackend at h
  cases hregister : p.registry.register name backend with
  | error e =>
    rw [hregister] at h
    cases h
  | ok registry =>
    rw [hregister] at h
    cases h
    refine ⟨registry, rfl, ?_⟩
    unfold Registry.register at hregister
    split at hregister
    · cases hregister
    · cases hregister
      exact (Registry.place_perm name backend p.registry.entries).map Prod.snd

theorem Within.registerBackend {own : List β} {p p' : Provider β (β × ι)} (hp : p.Within own)
    {name : String} {backend : β} (hbackend : backend ∈ own)
    (h : p.registerBackend name backend = .ok p') : p'.Within own := by
  obtain ⟨registry, rfl, hperm⟩ := registerBackend_eq_ok h
  refine ⟨fun k hk => ?_, hp.collectors⟩
  rcases List.mem_cons.1 (hperm.mem_iff.1 hk) with rfl | hk
  · exact hbackend
  · exact hp.backends hk

end Provider

/-! ### At one desk -/

namespace Desk

/-- The backend that a provider gets by an event. -/
def Event.backend? : Event β → Option β
  | addBackend _ backend => some backend
  | _ => none

/-- Whether what is in the hands of calls belongs to some backends. -/
structure Within (own : List β) (d : Desk β (β × ι)) : Prop where
  tasks : ∀ rpc call, .rpc rpc call ∈ d.tasks → call.Within own
  calls : ∀ call ∈ d.calls, call.Within own

theorem within_spawn {own : List β} {d : Desk β (β × ι)} (hd : d.Within own) (t : Task β (β × ι))
    (ht : ∀ rpc call, t = .rpc rpc call → call.Within own) : (d.spawn t).Within own where
  tasks rpc call hmem := by
    rcases List.mem_append.1 hmem with hmem | hmem
    · exact hd.tasks rpc call hmem
    · exact ht rpc call (List.mem_singleton.1 hmem).symm
  calls := hd.calls

theorem within_set_calls {own : List β} {d : Desk β (β × ι)} (hd : d.Within own) (i : Nat)
    {call : Call β (β × ι)} (hcall : call.Within own) :
    Within own { d with calls := d.calls.set i call } where
  tasks := hd.tasks
  calls call' hmem := by
    rcases List.mem_or_eq_of_mem_set hmem with hmem | rfl
    · exact hd.calls call' hmem
    · exact hcall

theorem within_set_tasks {own : List β} {d : Desk β (β × ι)} (hd : d.Within own) (t : Nat)
    (rpc : Rpc) {call : Call β (β × ι)} (hcall : call.Within own) :
    Within own { d with tasks := d.tasks.set t (.rpc rpc call) } where
  tasks rpc' call' hmem := by
    rcases List.mem_or_eq_of_mem_set hmem with hmem | heq
    · exact hd.tasks rpc' call' hmem
    · cases heq
      exact hcall
  calls := hd.calls

theorem Within.mono {own own' : List β} {d : Desk β (β × ι)} (h : d.Within own)
    (hown : own ⊆ own') : d.Within own' :=
  ⟨fun rpc call hcall => (h.tasks rpc call hcall).mono hown,
    fun call hcall => (h.calls call hcall).mono hown⟩

/-- What happens to a provider: nothing, or a step of a call, or it gets a backend. -/
theorem provider_step (b : Behaviour β ι ω) (p : Provider β ι) (d : Desk β ι) (w : ω)
    (e : Event β) :
    (d.step b p w e).provider = p ∨
    (e.backend? = none ∧
      ∃ call : Call β ι, (d.step b p w e).provider = (call.step b p w).provider) ∨
    ∃ name backend, e = .addBackend name backend ∧
      p.registerBackend name backend = .ok (d.step b p w e).provider := by
  cases e with
  | call | spawn => exact .inl rfl
  | step i =>
    simp only [step]
    split
    · exact .inr (.inl ⟨rfl, _, rfl⟩)
    · exact .inl rfl
  | finish t e =>
    simp only [step]
    split <;> exact .inl rfl
  | work t =>
    simp only [step]
    split
    · split
      · split
        · unfold conclude
          split <;> exact .inr (.inl ⟨rfl, _, rfl⟩)
        · exact .inr (.inl ⟨rfl, _, rfl⟩)
      · exact .inl rfl
    · exact .inl rfl
  | addBackend name backend =>
    cases h : p.registerBackend name backend with
    | error e =>
      simp only [step, h]
      exact .inl trivial
    | ok p' => exact .inr (.inr ⟨name, backend, rfl, by simp only [step, h]⟩)

/-- What happens at a provider leaves it its id, and its gauge. -/
theorem suits_step {h : Host β ι} {place : Nat} {p : Provider β ι} (hp : h.Suits place p)
    (b : Behaviour β ι ω) (d : Desk β ι) (w : ω) (e : Event β) :
    h.Suits place (d.step b p w e).provider := by
  rcases provider_step b p d w e with heq | ⟨-, call, heq⟩ | ⟨name, backend, -, hregister⟩
  · rw [heq]
    exact hp
  · rw [heq]
    exact hp.step b call w
  · obtain ⟨registry, heq, -⟩ := Provider.registerBackend_eq_ok hregister
    rw [heq]
    exact ⟨hp.lt, hp.id, hp.gauge⟩

variable [DecidableEq β] {b : β → Behaviour Unit ι ω} {own : List β} {d : Desk β (β × ι)}

/-- What happens at a provider has nothing to do with backends other than its own. -/
theorem step_graft (hd : d.Within own) (p : Provider β (β × ι)) (w v : β → ω) (e : Event β) :
    d.step (Behaviour.each b) p (graft own w v) e =
      { d.step (Behaviour.each b) p w e with
        world := graft own (d.step (Behaviour.each b) p w e).world v } := by
  cases e with
  | call | spawn => rfl
  | step i =>
    cases hcall : d.calls[i]? with
    | none => simp only [step, hcall]
    | some call =>
      simp only [step, hcall, Call.step_graft (hd.calls call (List.mem_of_getElem? hcall))]
  | finish t e =>
    simp only [step]
    split <;> rfl
  | work t =>
    simp only [step]
    split
    · rename_i rpc call htask
      rw [Call.step_graft (hd.tasks rpc call (List.mem_of_getElem? htask))]
      split
      · split
        · unfold conclude
          split <;> rfl
        · rfl
      · rfl
    · rfl
  | addBackend name backend =>
    simp only [step]
    split <;> rfl

/-- What happens at a provider keeps to its backends. -/
theorem Within.step (hd : d.Within own) {p : Provider β (β × ι)} (hp : p.Within own) (w : β → ω)
    (e : Event β) :
    (d.step (Behaviour.each b) p w e).desk.Within own ∧
      ((∀ k ∈ e.backend?, k ∈ own) →
        (d.step (Behaviour.each b) p w e).provider.Within own) := by
  cases e with
  | call r =>
    refine ⟨⟨hd.tasks, fun call hcall => ?_⟩, fun _ => hp⟩
    rcases List.mem_append.1 hcall with hcall | hcall
    · exact hd.calls call hcall
    · rw [List.mem_singleton.1 hcall]
      trivial
  | step i =>
    simp only [Desk.step]
    split
    · rename_i call hcall
      obtain ⟨hnext, hp'⟩ := (hd.calls call (List.mem_of_getElem? hcall)).step (b := b) hp w
      exact ⟨within_set_calls hd i hnext, fun _ => hp'⟩
    · exact ⟨hd, fun _ => hp⟩
  | spawn =>
    refine ⟨within_spawn hd .own fun _ _ h => ?_, fun _ => hp⟩
    cases h
  | finish t e =>
    simp only [Desk.step]
    split
    · exact ⟨⟨hd.tasks, hd.calls⟩, fun _ => hp⟩
    · exact ⟨hd, fun _ => hp⟩
  | work t =>
    simp only [Desk.step]
    split
    · rename_i rpc call htask
      obtain ⟨hnext, hp'⟩ :=
        (hd.tasks rpc call (List.mem_of_getElem? htask)).step (b := b) hp w
      have hd' := within_set_tasks hd t rpc hnext
      split
      · split
        · unfold conclude
          split <;> exact ⟨⟨hd'.tasks, hd'.calls⟩, fun _ => hp'⟩
        · exact ⟨hd', fun _ => hp'⟩
      · exact ⟨hd, fun _ => hp⟩
    · exact ⟨hd, fun _ => hp⟩
  | addBackend name backend =>
    simp only [Desk.step]
    cases h : p.registerBackend name backend with
    | error e => exact ⟨hd, fun _ => hp⟩
    | ok p' => exact ⟨hd, fun he => hp.registerBackend (he backend rfl) h⟩

/-- What goes on at a provider leaves it the backends that it has, and stays with them. -/
theorem within_backends_step {p : Provider β (β × ι)} {d : Desk β (β × ι)}
    (hp : p.Within p.backends) (hd : d.Within p.backends) (w : β → ω) (e : Event β) :
    let n := d.step (Behaviour.each b) p w e
    n.provider.Within n.provider.backends ∧ n.desk.Within n.provider.backends := by
  intro n
  rcases provider_step (Behaviour.each b) p d w e with heq | ⟨hnone, call, heq⟩ |
    ⟨name, backend, rfl, hregister⟩
  · rw [show n.provider = p from heq]
    exact ⟨hp, (hd.step hp w e).1⟩
  · have hbackends : n.provider.backends = p.backends := by
      rw [show n.provider = _ from heq, Provider.backends, call.registry_step]
      rfl
    obtain ⟨hdesk, hprovider⟩ := hd.step (b := b) hp w e
    rw [hbackends]
    exact ⟨hprovider (by simp [hnone]), hdesk⟩
  · obtain ⟨registry, -, hperm⟩ := Provider.registerBackend_eq_ok hregister
    have hown : p.backends ⊆ n.provider.backends := fun k hk =>
      hperm.mem_iff.2 (List.mem_cons_of_mem _ hk)
    have hbackend : backend ∈ n.provider.backends := hperm.mem_iff.2 List.mem_cons_self
    obtain ⟨hdesk, hprovider⟩ :=
      (hd.mono hown).step (b := b) (hp.mono hown) w (.addBackend name backend)
    exact ⟨hprovider fun k hk => by cases hk; exact hbackend, hdesk⟩

end Desk

end Collectors
