import Collectors.Backend.Separate
import Collectors.Proofs.Custody
import Collectors.Proofs.Outcomes

/-!
# Calls and the backends that they touch

Where every backend has a state of its own, a call touches the states of those backends only whose
names or collectors it has in its hands. It comes by both from its provider, so they are backends of
the provider and of its collectors (`Call.Within.step`).

That a step touches no others is stated with `graft`, which puts a state together from those of some
backends and those of all others: the step does the same to the ones whatever the others are, and
leaves these in place (`Call.step_graft`). One equation is both what a step changes and what it
depends on.
-/

namespace Collectors

variable {β ι ω : Type} [DecidableEq β] {b : β → Behaviour Unit ι ω} {own : List β}

/-! ### States of backends put together -/

/-- The states `w` of some backends, and the states `v` of all others. -/
def graft (own : List β) (w v : β → ω) : β → ω := fun k => if k ∈ own then w k else v k

theorem graft_of_mem {k : β} (hk : k ∈ own) (w v : β → ω) : graft own w v k = w k := if_pos hk

theorem graft_of_notMem {k : β} (hk : k ∉ own) (w v : β → ω) : graft own w v k = v k := if_neg hk

theorem graft_self (own : List β) (w : β → ω) : graft own w w = w := by
  funext k
  exact ite_self _

/-- What agrees on some backends may as well be put there. -/
theorem graft_of_agree {w v : β → ω} (h : ∀ k ∈ own, w k = v k) : graft own w v = v := by
  funext k
  unfold graft
  split
  · exact h k ‹_›
  · rfl

theorem update_graft {k : β} (hk : k ∈ own) (w v : β → ω) (x : ω) :
    Function.update (graft own w v) k x = graft own (Function.update w k x) v := by
  funext j
  by_cases hj : j = k
  · subst hj
    rw [Function.update_self, graft_of_mem hk, Function.update_self]
  · unfold graft
    rw [Function.update_of_ne hj, Function.update_of_ne hj]

/-- What acts on the state of one of the backends leaves all others alone. -/
theorem actAt_graft {α : Type} {k : β} (hk : k ∈ own) (act : ω → α × ω) (w v : β → ω) :
    actAt k act (graft own w v) = ((actAt k act w).1, graft own (actAt k act w).2 v) := by
  rw [actAt, graft_of_mem hk, update_graft hk]
  rfl

/-! ### Calls that have to do with some backends only -/

section

omit [DecidableEq β]

/-- The backends that a provider knows. -/
def Provider.backends (p : Provider β ι) : List β := p.registry.entries.map Prod.snd

/-- Whether collectors belong to some backends. -/
def Collector.Within (own : List β) (l : List (Collector (β × ι))) : Prop :=
  ∀ c ∈ l, c.resource.1 ∈ own

theorem Collector.within_nil : Collector.Within own ([] : List (Collector (β × ι))) :=
  List.forall_mem_nil _

/-- Whether a provider and its collectors belong to some backends. -/
structure Provider.Within (own : List β) (p : Provider β (β × ι)) : Prop where
  backends : p.backends ⊆ own
  collectors : Collector.Within own p.table.entries

theorem Provider.mem_backends {p : Provider β ι} {name : String} {k : β}
    (h : p.registry.find? name = some k) : k ∈ p.backends := by
  obtain ⟨l₁, l₂, hentries, -⟩ := List.lookup_eq_some_iff.1 h
  refine List.mem_map.2 ⟨(name, k), ?_, rfl⟩
  rw [hentries]
  exact List.mem_append_right _ List.mem_cons_self

theorem Provider.Within.mem_of_get? {p : Provider β (β × ι)} (hp : p.Within own) {id : CollectorId}
    {c : Collector (β × ι)} (h : p.table.get? id = some c) : c.resource.1 ∈ own :=
  hp.collectors c (List.mem_of_find?_eq_some h)

/-- Whether what a removal has in its hands belongs to some backends. -/
def Removal.Within (own : List β) (r : Removal (β × ι)) : Prop := Collector.Within own r.detached

/-- Whether what a call has in its hands belongs to some backends. -/
def Call.Within (own : List β) : Call β (β × ι) → Prop
  | instantiate made _ _ _ _ => made ∈ own
  | insert c | closeRefused c _ | destroy c | hello c | sum c _ _ | invoke c _ _ =>
    c.resource.1 ∈ own
  | remove r => r.Within own
  | _ => True

theorem Provider.Within.mono {own own' : List β} {p : Provider β (β × ι)} (h : p.Within own)
    (hown : own ⊆ own') : p.Within own' :=
  ⟨fun _ hk => hown (h.backends hk), fun c hc => hown (h.collectors c hc)⟩

theorem Call.Within.mono {own own' : List β} {call : Call β (β × ι)} (h : call.Within own)
    (hown : own ⊆ own') : call.Within own' := by
  cases call with
  | remove r => exact fun c hc => hown (h c hc)
  | instantiate | insert | closeRefused | destroy | hello | sum | invoke => exact hown h
  | _ => trivial

theorem Call.within_ofRemoval {r : Removal (β × ι)} (h : r.Within own) :
    (ofRemoval r : Call β (β × ι)).Within own := by
  cases r <;> first | exact h | trivial

theorem Call.within_ofOutcome {α : Type} (give : α → Answer) (r : Option (Except Error α)) :
    (ofOutcome give r : Call β (β × ι)).Within own := by
  cases r <;> trivial

theorem Call.within_begin {p : Provider β (β × ι)} (hp : p.Within own) (r : Request) :
    (begin p r).Within own := by
  cases r with
  | hello id | sum id x y | invoke id operation args =>
    simp only [begin]
    cases h : p.table.get? id with
    | none => trivial
    | some c => exact hp.mem_of_get? h
  | close token id =>
    rcases p.authorize_cases token with h | h <;> simp only [begin, h]
    · exact Collector.within_nil
    · trivial
  | instantiate mode token backend config id =>
    rcases p.authorize_cases token with h | h <;> simp only [begin, h] <;> trivial
  | destroy token id | list token limit =>
    rcases p.authorize_cases token with h | h <;> simp only [begin, h] <;> trivial
  | shutdown => exact Collector.within_nil

/-- A removal gets into its hands only collectors of the table. -/
theorem Removal.Within.step {r : Removal (β × ι)} (hr : r.Within own) {t : Table (β × ι)}
    (ht : Collector.Within own t.entries)
    (close : β × ι → ω → Option (Except Error Unit) × ω) (w : ω) :
    (r.step close t w).removal.Within own ∧
      Collector.Within own (r.step close t w).table.entries := by
  cases r with
  | detach id runClose =>
    rcases t.take_cases id with ⟨-, h⟩ | ⟨c, hc, -, h⟩ <;> simp only [Removal.step, h]
    · exact ⟨Collector.within_nil, ht⟩
    · refine ⟨?_, fun d hd => ht d (List.mem_filter.1 hd).1⟩
      cases runClose
      · exact Collector.within_nil
      · intro d hd
        rw [List.mem_singleton.1 hd]
        exact ht c hc
  | close c =>
    simp only [Removal.step]
    split <;> exact ⟨Collector.within_nil, ht⟩
  | drain => exact ⟨ht, Collector.within_nil⟩
  | closeAll rest total =>
    cases rest with
    | nil => exact ⟨Collector.within_nil, ht⟩
    | cons c rest =>
      simp only [Removal.step]
      split
      · exact ⟨Collector.within_nil, ht⟩
      · exact ⟨fun d hd => hr d (List.mem_cons_of_mem _ hd), ht⟩
      · exact ⟨fun d hd => hr d (List.mem_cons_of_mem _ hd), ht⟩
  | countDrained | countFailureOfAll => exact ⟨hr, ht⟩
  | countFailure | removed | tornDown | broken => exact ⟨Collector.within_nil, ht⟩

end

/-! ### One step -/

/-- A removal keeps its hands off all backends but those of its collectors. -/
theorem Removal.step_graft {r : Removal (β × ι)} (hr : r.Within own) (t : Table (β × ι))
    (w v : β → ω) :
    r.step (Behaviour.each b).close t (graft own w v) =
      { r.step (Behaviour.each b).close t w with
        world := graft own (r.step (Behaviour.each b).close t w).world v } := by
  have hclose : ∀ c : Collector (β × ι), c.resource.1 ∈ own →
      (Behaviour.each b).close c.resource (graft own w v) =
        (((Behaviour.each b).close c.resource w).1,
          graft own ((Behaviour.each b).close c.resource w).2 v) :=
    fun c hc => actAt_graft hc _ w v
  cases r with
  | detach id runClose =>
    rcases t.take_cases id with ⟨-, h⟩ | ⟨c, -, -, h⟩ <;> simp only [step, h]
  | close c =>
    simp only [step, hclose c (hr c (List.mem_singleton_self c))]
    rcases (Behaviour.each b).close c.resource w with ⟨_ | (e | _), w'⟩ <;> rfl
  | closeAll rest total =>
    cases rest with
    | nil => rfl
    | cons c rest =>
      simp only [step, hclose c (hr c List.mem_cons_self)]
      rcases (Behaviour.each b).close c.resource w with ⟨_ | (e | _), w'⟩ <;> rfl
  | _ => rfl

/-- **A step of a call keeps its hands off all backends but its own**: it does the same whatever
their states are, and leaves these as they are. -/
theorem Call.step_graft {call : Call β (β × ι)} (hcall : call.Within own)
    (p : Provider β (β × ι)) (w v : β → ω) :
    call.step (Behaviour.each b) p (graft own w v) =
      { call.step (Behaviour.each b) p w with
        world := graft own (call.step (Behaviour.each b) p w).world v } := by
  cases call with
  | start | checkClosed | findBackend | list | finished | broken => rfl
  | instantiate made mode backend config id =>
    simp only [step, Behaviour.each, actAt_graft hcall]
    rcases (actAt made ((b made).instantiate () mode config) w) with ⟨_ | (e | i), w'⟩ <;> rfl
  | insert c =>
    rcases p.table.insert_cases c with ⟨-, h⟩ | ⟨-, -, h⟩ | ⟨-, -, t, h, -⟩ <;> simp only [step, h]
  | closeRefused c e =>
    simp only [step, Behaviour.each, actAt_graft hcall]
    rcases (actAt c.resource.1 ((b c.resource.1).close c.resource.2) w) with
      ⟨_ | (e' | _), w'⟩ <;> rfl
  | remove r =>
    simp only [step, Removal.step_graft hcall]
  | detachToDestroy id =>
    rcases p.table.take_cases id with ⟨-, h⟩ | ⟨c, -, -, h⟩ <;> simp only [step, h]
  | destroy c =>
    simp only [step, Behaviour.each, actAt_graft hcall]
    rcases (actAt c.resource.1 ((b c.resource.1).destroy c.resource.2) w) with
      ⟨_ | (e' | _), w'⟩ <;> rfl
  | hello c | sum c x y | invoke c operation args =>
    simp only [step, Behaviour.each, actAt_graft hcall]

/-- **A step of a call stays with its backends**: what it gets into its hands and what it enters
belongs to the provider, too. -/
theorem Call.Within.step {call : Call β (β × ι)} (hcall : call.Within own)
    {p : Provider β (β × ι)} (hp : p.Within own) (w : β → ω) :
    (call.step (Behaviour.each b) p w).call.Within own ∧
      (call.step (Behaviour.each b) p w).provider.Within own := by
  cases call with
  | start r => exact ⟨within_begin hp r, hp⟩
  | checkClosed =>
    simp only [Call.step]
    split <;> exact ⟨trivial, hp⟩
  | findBackend mode backend config id =>
    simp only [Call.step]
    cases h : p.registry.find? backend with
    | none => exact ⟨trivial, hp⟩
    | some made => exact ⟨hp.backends (Provider.mem_backends h), hp⟩
  | instantiate made mode backend config id =>
    simp only [Call.step, Behaviour.each]
    rcases actAt made ((b made).instantiate () mode config) w with ⟨_ | (e | i), w'⟩
    · exact ⟨trivial, hp⟩
    · exact ⟨trivial, hp⟩
    · exact ⟨hcall, hp⟩
  | insert c =>
    rcases p.table.insert_cases c with ⟨-, h⟩ | ⟨-, -, h⟩ | ⟨-, -, t, h, hentries, -⟩ <;>
      simp only [Call.step, h]
    · exact ⟨hcall, hp⟩
    · exact ⟨hcall, hp⟩
    · refine ⟨trivial, hp.backends, fun d hd => ?_⟩
      rw [hentries] at hd
      rcases List.mem_append.1 hd with hd | hd
      · exact hp.collectors d hd
      · rw [List.mem_singleton.1 hd]
        exact hcall
  | closeRefused | destroy =>
    simp only [Call.step]
    split <;> exact ⟨trivial, hp⟩
  | remove r =>
    obtain ⟨hr, ht⟩ := Removal.Within.step hcall hp.collectors (Behaviour.each b).close w
    exact ⟨within_ofRemoval hr, hp.backends, ht⟩
  | detachToDestroy id =>
    rcases p.table.take_cases id with ⟨-, h⟩ | ⟨c, hc, -, h⟩ <;> simp only [Call.step, h]
    · exact ⟨trivial, hp⟩
    · exact ⟨hp.collectors c hc, hp.backends, fun d hd => hp.collectors d (List.mem_filter.1 hd).1⟩
  | hello | sum | invoke => exact ⟨within_ofOutcome _ _, hp⟩
  | list | finished | broken => exact ⟨trivial, hp⟩

end Collectors
