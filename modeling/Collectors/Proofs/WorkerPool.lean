import Collectors.Proofs.Lists
import Collectors.WorkerPool

/-!
# Tasks and workers

`WorkerPool.Follows` says how a pool stands to the tasks that were spawned and to what they were
let finish with; it is written so that it also holds while a worker is handed on. Spawning a task,
letting one finish and handing a worker on keep to it (`Follows.spawn`, `Follows.finish`,
`Follows.handOn`).
-/

namespace Collectors

variable {α : Type}

namespace WorkerPool

/-- How a pool has come to where it is: `n` tasks were spawned, `told?` says which of them were
let finish and how, the tasks `waiting` have no worker yet, and `spare` workers are in nobody's
hands because they are being handed on. -/
structure Follows (p : WorkerPool Nat α) (spare : Nat) (waiting : List Nat) (n : Nat)
    (told? : Nat → Option (TaskEnd α)) : Prop where
  order : p.served ++ waiting = List.range n
  workers : p.available + p.running.length + spare = p.size
  busy : waiting ≠ [] → p.available = 0
  running : p.running = p.served.filter fun t => (told? t).isNone
  ended : ∀ t e, p.ended.lookup t = some e ↔ t ∈ p.served ∧ told? t = some e
  ready : ∀ t, t ∉ p.served → p.ready.lookup t = told? t

/-- Which tasks were let finish and how, once the task `t` was let finish with `e`: what a task was
told first counts. -/
def telling (told? : Nat → Option (TaskEnd α)) (t : Nat) (e : TaskEnd α) (x : Nat) :
    Option (TaskEnd α) :=
  (told? x).or (if x = t then some e else none)

section Telling

variable {told? : Nat → Option (TaskEnd α)} {t x : Nat} {e : TaskEnd α}

theorem telling_of_ne (h : x ≠ t) : telling told? t e x = told? x := by
  rw [telling, if_neg h, Option.or_none]

theorem telling_self (h : told? t = none) : telling told? t e t = some e := by
  rw [telling, h, if_pos rfl, Option.none_or]

theorem telling_of_told (h : told? t ≠ none) : telling told? t e = told? := by
  funext x
  by_cases hx : x = t
  · obtain ⟨e', he'⟩ := Option.ne_none_iff_exists'.1 h
    rw [hx, telling, he', Option.some_or]
  · exact telling_of_ne hx

end Telling

namespace Follows

variable {p : WorkerPool Nat α} {spare n : Nat} {waiting : List Nat}
  {told? : Nat → Option (TaskEnd α)}

theorem nodup (h : p.Follows spare waiting n told?) : (p.served ++ waiting).Nodup :=
  h.order ▸ List.nodup_range

theorem not_mem_served (h : p.Follows spare waiting n told?) {t : Nat} (ht : t ∈ waiting) :
    t ∉ p.served :=
  fun hserved => (List.nodup_append.1 h.nodup).2.2 t hserved t ht rfl

theorem mem_running (h : p.Follows spare waiting n told?) {t : Nat} :
    t ∈ p.running ↔ t ∈ p.served ∧ told? t = none := by
  rw [h.running, List.mem_filter, Option.isNone_iff_eq_none]

theorem nodup_running (h : p.Follows spare waiting n told?) : p.running.Nodup :=
  h.running ▸ (List.nodup_append.1 h.nodup).1.filter _

/-- A task that got no worker has not ended. -/
theorem lookup_ended (h : p.Follows spare waiting n told?) {t : Nat} (ht : t ∉ p.served) :
    p.ended.lookup t = none := by
  cases hl : p.ended.lookup t with
  | none => rfl
  | some e => exact absurd ((h.ended t e).1 hl).1 ht

/-- One more task has got a worker and ended. -/
theorem ended_concat (h : p.Follows spare waiting n told?) {t : Nat} {e : TaskEnd α}
    {served : List Nat} {told?' : Nat → Option (TaskEnd α)} (hnot : p.ended.lookup t = none)
    (ht : t ∈ served) (htold : told?' t = some e)
    (hother : ∀ x, x ≠ t → (x ∈ served ↔ x ∈ p.served) ∧ told?' x = told? x) (x : Nat)
    (e' : TaskEnd α) :
    (p.ended ++ [(t, e)]).lookup x = some e' ↔ x ∈ served ∧ told?' x = some e' := by
  rw [lookup_concat]
  by_cases hx : x = t
  · subst hx
    simp [hnot, ht, htold]
  · simp [hx, h.ended, (hother x hx).1, (hother x hx).2]

/-- One more task has got a worker and goes on, because it was not let finish. -/
theorem ended_served (h : p.Follows spare waiting n told?) {t : Nat} (ht : t ∉ p.served)
    (htold : told? t = none) (x : Nat) (e : TaskEnd α) :
    p.ended.lookup x = some e ↔ x ∈ p.served ++ [t] ∧ told? x = some e := by
  by_cases hx : x = t
  · subst hx
    simp [h.lookup_ended ht, htold]
  · simp [h.ended, hx]

/-- The tasks without a worker stay ready when another one gets a worker. -/
theorem ready_served (h : p.Follows spare waiting n told?) (t : Nat) {x : Nat}
    (hx : x ∉ p.served ++ [t]) : p.ready.lookup x = told? x :=
  h.ready x fun hserved => hx (List.mem_append_left _ hserved)

/-- Handing a worker on comes to an end: with a task that runs, or with an idle worker. -/
theorem handOn (h : p.Follows 1 waiting n told?) :
    (p.handOn waiting).Follows 0 (p.handOn waiting).waiting n told? := by
  fun_induction WorkerPool.handOn p waiting with
  | case1 p =>
    exact ⟨h.order, by have := h.workers; dsimp only; omega, fun hne => absurd rfl hne, h.running,
      h.ended, h.ready⟩
  | case2 p t rest e hready ih =>
    -- The first task was let finish before: it ends, and the next one is looked at.
    have ht : t ∉ p.served := h.not_mem_served List.mem_cons_self
    have htold : told? t = some e := (h.ready t ht).symm.trans hready
    refine ih ⟨?_, h.workers, fun _ => h.busy (List.cons_ne_nil _ _), ?_, ?_, ?_⟩
    · rw [List.append_assoc]
      exact h.order
    · simp [h.running, htold]
    · refine h.ended_concat (h.lookup_ended ht) (by simp) htold fun x hx => ⟨?_, rfl⟩
      simp [hx]
    · exact fun x hx => h.ready_served t hx
  | case3 p t rest hready =>
    have ht : t ∉ p.served := h.not_mem_served List.mem_cons_self
    have htold : told? t = none := (h.ready t ht).symm.trans hready
    refine ⟨?_, ?_, fun _ => h.busy (List.cons_ne_nil _ _), ?_, h.ended_served ht htold,
      fun x hx => h.ready_served t hx⟩
    · rw [List.append_assoc]
      exact h.order
    · have := h.workers
      simp only [List.length_append, List.length_singleton]
      omega
    · simp [h.running, htold]

/-- A new task gets an idle worker, or it waits because there is none. -/
theorem spawn (h : p.Follows 0 p.waiting n told?) (hn : told? n = none) :
    (p.spawn n).Follows 0 (p.spawn n).waiting (n + 1) told? := by
  have hserved : n ∉ p.served := fun hmem =>
    Nat.lt_irrefl n (List.mem_range.1 (h.order ▸ List.mem_append_left _ hmem))
  unfold WorkerPool.spawn
  split
  · rename_i hidle
    have hwaiting : p.waiting = [] := by
      by_contra hne
      exact absurd (h.busy hne) (Nat.ne_of_gt hidle)
    refine ⟨?_, ?_, fun hne => absurd hwaiting hne, ?_, h.ended_served hserved hn,
      fun x hx => h.ready_served n hx⟩
    · have horder := h.order
      rw [hwaiting, List.append_nil] at horder
      simp [hwaiting, horder, List.range_succ]
    · have := h.workers
      simp only [List.length_append, List.length_singleton]
      omega
    · simp [h.running, hn]
  · rename_i hbusy
    refine ⟨?_, h.workers, fun _ => Nat.eq_zero_of_not_pos hbusy, h.running, h.ended, h.ready⟩
    rw [← List.append_assoc, h.order, List.range_succ]

/-- A task that runs ends when it is let finish, and its worker is to be handed on. -/
theorem retire (h : p.Follows 0 p.waiting n told?) {t : Nat} (ht : t ∈ p.running)
    (e : TaskEnd α) :
    { p with running := p.running.erase t, ended := p.ended ++ [(t, e)] }.Follows 1 p.waiting n
      (telling told? t e) := by
  obtain ⟨hserved, htold⟩ := h.mem_running.1 ht
  have hnot : p.ended.lookup t = none := by
    rw [Option.eq_none_iff_forall_ne_some]
    intro e' hended
    have := ((h.ended t e').1 hended).2
    rw [htold] at this
    cases this
  refine ⟨h.order, ?_, h.busy, ?_, ?_, ?_⟩
  · have hlength := List.length_erase_of_mem ht
    have hpos := List.length_pos_of_mem ht
    have := h.workers
    dsimp only
    omega
  · dsimp only
    rw [h.nodup_running.erase_eq_filter, h.running, List.filter_filter]
    refine List.filter_congr fun x _ => ?_
    by_cases hx : x = t
    · subst hx
      simp [telling_self htold]
    · simp [telling_of_ne hx, hx]
  · exact h.ended_concat hnot hserved (telling_self htold) fun x hx =>
      ⟨Iff.rfl, telling_of_ne hx⟩
  · intro x hx
    have hne : x ≠ t := fun hxt => hx (hxt ▸ hserved)
    rw [telling_of_ne hne]
    exact h.ready x hx

/-- A task that waits is ready to end when it is let finish. -/
theorem prepare (h : p.Follows 0 p.waiting n told?) {t : Nat} (ht : t ∈ p.waiting)
    (e : TaskEnd α) :
    { p with ready := p.ready ++ [(t, e)] }.Follows 0 p.waiting n (telling told? t e) := by
  have hne : ∀ x ∈ p.served, x ≠ t := fun x hx hxt => h.not_mem_served ht (hxt ▸ hx)
  refine ⟨h.order, h.workers, h.busy, ?_, fun x e' => ?_, fun x hx => ?_⟩
  · rw [h.running]
    refine List.filter_congr fun x hx => ?_
    rw [telling_of_ne (hne x hx)]
  · rw [h.ended]
    refine and_congr_right fun hx => ?_
    rw [telling_of_ne (hne x hx)]
  · dsimp only
    rw [lookup_concat, h.ready x hx]
    rfl

/-- A task that is let finish ends at once, or as soon as it gets a worker; if it has ended, it
stays so. -/
theorem finish (h : p.Follows 0 p.waiting n told?) {t : Nat} (ht : t < n) (e : TaskEnd α) :
    (p.finish t e).Follows 0 (p.finish t e).waiting n (telling told? t e) := by
  unfold WorkerPool.finish
  split
  · rename_i hrunning
    exact (h.retire hrunning e).handOn
  · rename_i hrunning
    split
    · rename_i hwaiting
      exact h.prepare hwaiting e
    · rename_i hwaiting
      -- The task has ended, and what it is told now comes too late.
      have hserved : t ∈ p.served := by
        have hmem : t ∈ p.served ++ p.waiting := h.order ▸ List.mem_range.2 ht
        exact (List.mem_append.1 hmem).resolve_right hwaiting
      have htold : told? t ≠ none := fun htold => hrunning (h.mem_running.2 ⟨hserved, htold⟩)
      rw [telling_of_told htold]
      exact h

end Follows

/-! ### What stays as it is -/

theorem size_handOn (p : WorkerPool Nat α) (waiting : List Nat) :
    (p.handOn waiting).size = p.size := by
  fun_induction handOn p waiting with
  | case1 | case3 => rfl
  | case2 p t rest e hready ih => exact ih

theorem ended_handOn (p : WorkerPool Nat α) (waiting : List Nat) :
    p.ended <+: (p.handOn waiting).ended := by
  fun_induction handOn p waiting with
  | case1 | case3 => exact List.prefix_rfl
  | case2 p t rest e hready ih => exact (List.prefix_append _ _).trans ih

theorem size_spawn (p : WorkerPool Nat α) (t : Nat) : (p.spawn t).size = p.size := by
  unfold spawn
  split <;> rfl

theorem ended_spawn (p : WorkerPool Nat α) (t : Nat) : (p.spawn t).ended = p.ended := by
  unfold spawn
  split <;> rfl

theorem size_finish (p : WorkerPool Nat α) (t : Nat) (e : TaskEnd α) :
    (p.finish t e).size = p.size := by
  unfold finish
  split
  · exact size_handOn _ _
  · split <;> rfl

/-- A task that has ended has ended for ever. -/
theorem ended_finish (p : WorkerPool Nat α) (t : Nat) (e : TaskEnd α) :
    p.ended <+: (p.finish t e).ended := by
  unfold finish
  split
  · have hlast := ended_handOn
      { p with running := p.running.erase t, ended := p.ended ++ [(t, e)] } p.waiting
    exact (List.prefix_append p.ended [(t, e)]).trans hlast
  · split <;> exact List.prefix_rfl

end WorkerPool

end Collectors
