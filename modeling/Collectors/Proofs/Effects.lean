import Mathlib.Data.List.Perm.Subperm
import Collectors.Proofs.Custody

/-!
# What a step does to collectors and backends

The collectors *around* are those in the table of a provider and those in the hands of its calls.
`Effect` says everything that one step may do to them and to the state of the backends: a backend
is asked for a new one, one of them is closed or destroyed and is gone, one of them is asked for
something, or no backend is called. Collectors may be let go besides, but none comes out of
nothing.

`Call.effect_step` says it of a step of a call, where others may stand by (`Effect.frame`), and
`Traffic.effect_step` of every event at a host.
-/

namespace Collectors

variable {β ι ω : Type}

/-- What may happen to the collectors `l` around, while the state of the backends is `w`: the
collectors that are left or have come, and the state then. -/
inductive Effect (b : Behaviour β ι ω) (l : List (Collector ι)) (w : ω) :
    List (Collector ι) → ω → Prop where
  /-- No backend is called. -/
  | keep {l'} (left : l'.Subperm l) : Effect b l w l' w
  /-- A backend makes no instance. -/
  | refuse {l'} (made mode config) (left : l'.Subperm l)
      (failed : ∀ i, (b.instantiate made mode config w).1 ≠ some (.ok i)) :
      Effect b l w l' (b.instantiate made mode config w).2
  | make {l' made mode config c w'}
      (new : b.instantiate made mode config w = (some (.ok c.resource), w'))
      (left : l'.Subperm (c :: l)) : Effect b l w l' w'
  | close {l' c} (left : (c :: l').Subperm l) : Effect b l w l' (b.close c.resource w).2
  | destroy {l' c} (left : (c :: l').Subperm l) : Effect b l w l' (b.destroy c.resource w).2
  | hello {l'} (i) (left : l'.Subperm l) : Effect b l w l' (b.hello i w).2
  | sum {l'} (i x y) (left : l'.Subperm l) : Effect b l w l' (b.sum i x y w).2
  | invoke {l'} (i operation args) (left : l'.Subperm l) :
      Effect b l w l' (b.invoke i operation args w).2

namespace Effect

variable {b : Behaviour β ι ω} {l l' : List (Collector ι)} {w w' : ω}

/-- Collectors that stand by are left as they are. -/
theorem frame (h : Effect b l w l' w') (m : List (Collector ι)) :
    Effect b (l ++ m) w (l' ++ m) w' := by
  have happend : ∀ {k k' : List (Collector ι)}, k.Subperm k' → (k ++ m).Subperm (k' ++ m) :=
    fun hk => hk.append (.refl m)
  cases h with
  | keep left => exact .keep (happend left)
  | refuse made mode config left failed => exact .refuse made mode config (happend left) failed
  | make new left => exact .make new (happend left)
  | close left => exact .close (happend left)
  | destroy left => exact .destroy (happend left)
  | hello i left => exact .hello i (happend left)
  | sum i x y left => exact .sum i x y (happend left)
  | invoke i operation args left => exact .invoke i operation args (happend left)

/-- It does not matter in which order the collectors are listed. -/
theorem perm (h : Effect b l w l' w') {m m' : List (Collector ι)} (hl : l.Perm m)
    (hl' : l'.Perm m') : Effect b m w m' w' := by
  have hsub : ∀ {k k' : List (Collector ι)}, k.Perm k' → k.Subperm l → k'.Subperm m :=
    fun hk hkl => (hk.symm.subperm.trans hkl).trans hl.subperm
  cases h with
  | keep left => exact .keep (hsub hl' left)
  | refuse made mode config left failed => exact .refuse made mode config (hsub hl' left) failed
  | make new left =>
    exact .make new ((hl'.symm.subperm.trans left).trans (hl.cons _).subperm)
  | close left => exact .close (hsub (hl'.cons _) left)
  | destroy left => exact .destroy (hsub (hl'.cons _) left)
  | hello i left => exact .hello i (hsub hl' left)
  | sum i x y left => exact .sum i x y (hsub hl' left)
  | invoke i operation args left => exact .invoke i operation args (hsub hl' left)

end Effect

/-! ### One step of a call -/

/-- The collectors around while a call on a provider is made. -/
def Call.around (call : Call β ι) (p : Provider β ι) : List (Collector ι) :=
  call.held ++ p.table.entries

theorem Removal.effect_step (b : Behaviour β ι ω) (r : Removal ι) (t : Table ι) (w : ω) :
    Effect b (r.detached ++ t.entries) w
      ((r.step b.close t w).removal.detached ++ (r.step b.close t w).table.entries)
      (r.step b.close t w).world := by
  cases r with
  | detach id runClose =>
    rcases t.take_cases id with ⟨-, htake⟩ | ⟨c, hc, rfl, htake⟩
    · simp only [step, htake]
      exact .keep (.refl _)
    · have hperm := (Table.perm_without hc).symm.subperm
      simp only [step, htake]
      cases runClose with
      | true => exact .keep hperm
      | false => exact .keep (List.Subperm.trans (List.sublist_cons_self _ _).subperm hperm)
  | close c =>
    have hclosed : ∀ r : Removal ι, r.detached = [] →
        Effect b (c :: t.entries) w (r.detached ++ t.entries) (b.close c.resource w).2 :=
      fun r hr => .close (by rw [hr]; exact .refl _)
    rcases h : b.close c.resource w with ⟨_ | (e | _), w'⟩ <;>
    · rw [h] at hclosed
      simp only [step, h]
      exact hclosed _ rfl
  | closeAll rest total =>
    cases rest with
    | nil => exact .keep (.refl _)
    | cons c rest =>
      have hclosed : ∀ r : Removal ι, (r.detached = [] ∨ r.detached = rest) →
          Effect b (c :: rest ++ t.entries) w (r.detached ++ t.entries)
            (b.close c.resource w).2 := by
        rintro r (hr | hr) <;> rw [hr]
        · exact .close ((List.sublist_append_right _ _).cons_cons c).subperm
        · exact .close (.refl _)
      rcases h : b.close c.resource w with ⟨_ | (e | _), w'⟩ <;> rw [h] at hclosed <;>
        simp only [step, h]
      · exact hclosed _ (.inl rfl)
      · exact hclosed _ (.inr rfl)
      · exact hclosed _ (.inr rfl)
  | drain => exact .keep (by simpa [step, detached] using .refl _)
  | countFailure e | countDrained l | countFailureOfAll rest total | removed r | tornDown n
  | broken => exact .keep (.refl _)

/-- **What one step of a call does** to the collectors around and to the backends. -/
theorem Call.effect_step (b : Behaviour β ι ω) (call : Call β ι) (p : Provider β ι) (w : ω) :
    Effect b (call.around p) w ((call.step b p w).call.around (call.step b p w).provider)
      (call.step b p w).world := by
  have hkeep : ∀ next : Call β ι, next.held = [] → Effect b p.table.entries w (next.around p) w :=
    fun next hnext => .keep (by rw [around, hnext]; exact .refl _)
  cases call with
  | start r => exact hkeep _ (held_begin p r)
  | checkClosed mode backend config id =>
    simp only [step]
    split <;> exact hkeep _ rfl
  | findBackend mode backend config id =>
    simp only [step]
    split <;> exact hkeep _ rfl
  | instantiate made mode backend config id =>
    rcases h : b.instantiate made mode config w with ⟨_ | (e | i), w'⟩
    · have hrefuse : Effect b p.table.entries w p.table.entries _ :=
        .refuse made mode config (.refl _) (by simp [h])
      rw [h] at hrefuse
      simp only [step, h]
      exact hrefuse
    · have hrefuse : Effect b p.table.entries w p.table.entries _ :=
        .refuse made mode config (.refl _) (by simp [h])
      rw [h] at hrefuse
      simp only [step, h]
      exact hrefuse
    · simp only [step, h]
      exact .make (c := { id, backend, resource := i }) h (.refl _)
  | insert c =>
    rcases p.table.insert_cases c with ⟨-, h⟩ | ⟨-, -, h⟩ | ⟨-, -, t, h, hentries, -⟩ <;>
      simp only [step, h]
    · exact .keep (.refl _)
    · exact .keep (.refl _)
    · refine .keep ?_
      simp only [around, held, unregistered, detached, hentries, List.append_nil, List.nil_append]
      exact List.perm_append_comm.subperm
  | closeRefused c e =>
    have hclosed : Effect b (c :: p.table.entries) w p.table.entries _ := .close (.refl _)
    rcases h : b.close c.resource w with ⟨_ | (e' | _), w'⟩ <;>
    · rw [h] at hclosed
      simp only [step, h]
      exact hclosed
  | remove r =>
    have heffect := r.effect_step b p.table w
    simp only [step, around, held_ofRemoval]
    exact heffect
  | detachToDestroy id =>
    rcases p.table.take_cases id with ⟨-, h⟩ | ⟨c, hc, rfl, h⟩ <;> simp only [step, h]
    · exact .keep (.refl _)
    · exact .keep (Table.perm_without hc).symm.subperm
  | destroy c =>
    have hdestroyed : Effect b (c :: p.table.entries) w p.table.entries _ := .destroy (.refl _)
    rcases h : b.destroy c.resource w with ⟨_ | (e' | _), w'⟩ <;>
    · rw [h] at hdestroyed
      simp only [step, h]
      exact hdestroyed
  | hello c =>
    simp only [step, around, held_ofOutcome]
    exact .hello _ (.refl _)
  | sum c x y =>
    simp only [step, around, held_ofOutcome]
    exact .sum _ _ _ (.refl _)
  | invoke c operation args =>
    simp only [step, around, held_ofOutcome]
    exact .invoke _ _ _ (.refl _)
  | list | finished | broken => exact hkeep _ rfl

/-! ### Events at a host -/

namespace Traffic

/-- The collectors around at a host: in the hands of jobs and in tables. -/
def around (s : Traffic β ι ω) : List (Collector ι) :=
  s.jobs.flatMap (fun j => j.call.held) ++ s.host.contents.flatMap Prod.fst

/-- What a table holds is around. -/
theorem mem_around_of_contents {s : Traffic β ι ω} {place : Nat} {t : List (Collector ι) × Bool}
    (ht : s.host.contents[place]? = some t) {c : Collector ι} (hc : c ∈ t.1) : c ∈ s.around :=
  List.mem_append_right _ (List.mem_flatMap.2 ⟨t, List.mem_of_getElem? ht, hc⟩)

/-- **What an event does** to the collectors around and to the backends. -/
theorem effect_step (b : Behaviour β ι ω) (s : Traffic β ι ω) (e : Event β) :
    Effect b s.around s.world (s.step b e).around (s.step b e).world := by
  rcases step_quiet b s e with ⟨i, j, p, -, hj, hp, h⟩ |
    ⟨⟨jobs, hjobs, hstart⟩, ⟨tables, htables, hempty⟩, hworld⟩
  · -- The other jobs and the other tables stand by.
    obtain ⟨jobs, hold, hnew⟩ := perm_flatMap_set (fun j : Job β ι => j.call.held) hj
    obtain ⟨tables, hold', hnew'⟩ := perm_flatMap_set
      (fun t : List (Collector ι) × Bool => t.1) (Host.contents_of_provider? hp)
    have hframe := (Call.effect_step b j.call p s.world).frame (jobs ++ tables)
    rw [h]
    refine hframe.perm ((perm_append_shuffle _ _ _ _).trans (hold.append hold').symm) ?_
    rw [around, Host.contents_put]
    exact (perm_append_shuffle _ _ _ _).trans
      ((hnew { j with call := _ }).append (hnew' (_, _))).symm
  · have hheld : jobs.flatMap (fun j => j.call.held) = [] := by
      refine List.flatMap_eq_nil_iff.2 fun j hj => ?_
      obtain ⟨r, hr⟩ := hstart j hj
      rw [hr]
      rfl
    have hentries : tables.flatMap Prod.fst = [] :=
      List.flatMap_eq_nil_iff.2 fun t ht => by rw [hempty t ht]
    have haround : (s.step b e).around = s.around := by
      rw [around, around, hjobs, htables, List.flatMap_append, List.flatMap_append, hheld,
        hentries, List.append_nil, List.append_nil]
    rw [haround, hworld]
    exact .keep (.refl _)

end Traffic
end Collectors
