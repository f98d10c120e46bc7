import Collectors.Proofs.WorkerPool
import Collectors.WorkerPool.Workload

/-!
# What a pool promises

A state of a workload is sound if its pool stands as its tasks demand (`WorkerPool.Follows`), its
clones agree on the size, and nobody was told anything wrong (`Workload.Sound`). Every step keeps it
so, and a whole schedule does (`Workload.Sound.run`). Everything that a pool promises
(`Workload.Orderly`) is read off from it in `Workload.run_orderly`.
-/

namespace Collectors

variable {α : Type}

/-! ### Handles -/

namespace JoinHandle

variable {h : JoinHandle α} {e : TaskEnd α} {ended : Option (TaskEnd α)}

theorem poll_eq_joined (hjoined : h.poll ended = joined e) :
    h = joined e ∨ h = awaited ∧ ended = some e := by
  unfold poll at hjoined
  split at hjoined
  · cases hjoined
    exact .inr ⟨rfl, rfl⟩
  · exact .inl hjoined

theorem poll_eq_awaited (hawaited : h.poll ended = awaited) : ended = none := by
  unfold poll at hawaited
  split at hawaited
  · cases hawaited
  · rename_i hnot
    subst hawaited
    cases ended with
    | none => rfl
    | some e => exact absurd rfl (hnot e rfl)

theorem drop_eq_joined (hjoined : h.drop = joined e) : h = joined e := by
  cases h with
  | joined e' => exact hjoined
  | _ => cases hjoined

theorem await_eq_joined (hjoined : h.await = joined e) : h = joined e := by
  cases h with
  | held => cases hjoined
  | _ => exact hjoined

end JoinHandle

/-! ### Schedules -/

namespace Workload

/-- The state of a workload on `size` workers: the pool stands as its tasks demand, every clone has
the same size, and whoever was told the end of a task was told the right one. -/
structure Sound (size : Nat) (s : Workload α) : Prop where
  workers : s.pool.size = size
  views : ∀ n ∈ s.views, n = size
  follows : s.pool.Follows 0 s.pool.waiting s.handles.length s.told?
  told : ∀ t, s.handles.length ≤ t → s.told? t = none
  joined : ∀ t e, s.handles[t]? = some (.joined e) → s.pool.endOf t = some e

variable {size : Nat} {s : Workload α}

theorem told?_concat (s : Workload α) (t : Nat) (e : TaskEnd α) :
    (fun x => (s.told ++ [(t, e)]).lookup x) = WorkerPool.telling s.told? t e :=
  funext fun x => lookup_concat s.told t x e

theorem Sound.spawn (hs : s.Sound size) (view : Nat) {h : JoinHandle α}
    (hh : ∀ e, h ≠ .joined e) : (s.spawn view h).Sound size := by
  unfold Workload.spawn
  split
  · have hnew : s.told? s.handles.length = none := hs.told _ (Nat.le_refl _)
    refine ⟨(s.pool.size_spawn _).trans hs.workers, hs.views, ?_, fun t ht => ?_, fun t e ht => ?_⟩
    · rw [List.length_append, List.length_singleton]
      exact hs.follows.spawn hnew
    · rw [List.length_append] at ht
      exact hs.told t (Nat.le_of_add_right_le ht)
    · have hended : (s.pool.spawn s.handles.length).endOf t = s.pool.endOf t := by
        rw [WorkerPool.endOf, WorkerPool.ended_spawn]
        rfl
      rw [hended]
      by_cases hlt : t < s.handles.length
      · rw [List.getElem?_append_left hlt] at ht
        exact hs.joined t e ht
      · rw [List.getElem?_append_right (Nat.not_lt.1 hlt)] at ht
        exact absurd (List.mem_singleton.1 (List.mem_of_getElem? ht)).symm (hh e)
  · exact hs

/-- What is done to a handle makes nobody believe that a task ended. -/
theorem Sound.modify (hs : s.Sound size) (t : Nat) {f : JoinHandle α → JoinHandle α}
    (hf : ∀ h e, f h = .joined e → h = .joined e) :
    { s with handles := s.handles.modify t f }.Sound size := by
  refine ⟨hs.workers, hs.views, ?_, fun x hx => ?_, fun x e hx => ?_⟩
  · rw [List.length_modify]
    exact hs.follows
  · rw [List.length_modify] at hx
    exact hs.told x hx
  · simp only [List.getElem?_modify, Option.map_eq_map, Option.map_eq_some_iff] at hx
    obtain ⟨h, hh, hx⟩ := hx
    refine hs.joined x e ?_
    rw [hh]
    split at hx
    · rw [hf h e hx]
    · exact congrArg some hx

theorem Sound.act (hs : s.Sound size) (e : Event α) : (s.act e).Sound size := by
  cases e with
  | spawn view => exact hs.spawn view nofun
  | run view => exact hs.spawn view nofun
  | finish t e =>
    simp only [Workload.act]
    split
    · rename_i ht
      refine ⟨(s.pool.size_finish t e).trans hs.workers, hs.views, ?_, fun x hx => ?_,
        fun x e' hx => ?_⟩
      · have := hs.follows.finish ht e
        rwa [← told?_concat] at this
      · show (s.told ++ [(t, e)]).lookup x = none
        have hne : x ≠ t := Nat.ne_of_gt (Nat.lt_of_lt_of_le ht hx)
        rw [lookup_concat, if_neg hne, Option.or_none]
        exact hs.told x hx
      · exact (s.pool.ended_finish t e).lookup_eq_some (hs.joined x e' hx)
    · exact hs
  | drop t => exact hs.modify t fun _ _ => JoinHandle.drop_eq_joined
  | await t => exact hs.modify t fun _ _ => JoinHandle.await_eq_joined
  | clone view =>
    refine ⟨hs.workers, fun n hn => ?_, hs.follows, hs.told, hs.joined⟩
    rcases List.mem_append.1 hn with hn | hn
    · exact hs.views n hn
    · exact hs.views n (List.mem_of_getElem? (Option.mem_toList.1 hn))

theorem Sound.deliver (hs : s.Sound size) : s.deliver.Sound size := by
  refine ⟨hs.workers, hs.views, ?_, fun t ht => ?_, fun t e ht => ?_⟩
  · simp only [Workload.deliver, List.length_mapIdx]
    exact hs.follows
  · simp only [Workload.deliver, List.length_mapIdx] at ht
    exact hs.told t ht
  · simp only [Workload.deliver, List.getElem?_mapIdx, Option.map_eq_some_iff] at ht
    obtain ⟨h, hh, hpoll⟩ := ht
    rcases JoinHandle.poll_eq_joined hpoll with rfl | ⟨-, hended⟩
    · exact hs.joined t e hh
    · exact hended

/-- **Every step keeps a workload sound.** -/
theorem Sound.step (hs : s.Sound size) (e : Event α) : (s.step e).Sound size := (hs.act e).deliver

theorem Sound.run (hs : s.Sound size) (schedule : List (Event α)) :
    (s.run schedule).Sound size := by
  induction schedule generalizing s with
  | nil => exact hs
  | cons e schedule ih => exact ih (hs.step e)

theorem sound_new (n : Nat) : (new { size := n, available := n } : Workload α).Sound n where
  workers := rfl
  views := fun m hm => List.mem_singleton.1 hm
  follows :=
    ⟨rfl, rfl, fun hne => absurd rfl hne, rfl, fun t e => by simp [new], fun t _ => rfl⟩
  told := fun t _ => rfl
  joined := fun t e ht => by simp [new] at ht

/-- What an event makes of the handle of the task `t`, before anybody is told. -/
def Event.touch (t : Nat) (h : JoinHandle α) : Event α → JoinHandle α
  | .drop x => if x = t then h.drop else h
  | .await x => if x = t then h.await else h
  | _ => h

theorem handles_act {t : Nat} {h : JoinHandle α} (hh : s.handles[t]? = some h) (e : Event α) :
    (s.act e).handles[t]? = some (e.touch t h) := by
  cases e with
  | spawn view | run view =>
    simp only [act, Workload.spawn]
    split
    · exact (List.getElem?_append_left (List.getElem?_eq_some_iff.1 hh).1).trans hh
    · exact hh
  | finish x e =>
    simp only [act]
    split <;> exact hh
  | drop x | await x =>
    simp only [act, List.getElem?_modify, hh]
    rfl
  | clone view => exact hh

/-- A handle after an event: whoever waits is told once the task has ended. -/
theorem handles_step {t : Nat} {h : JoinHandle α} (hh : s.handles[t]? = some h) (e : Event α) :
    (s.step e).handles[t]? = some ((e.touch t h).poll ((s.step e).pool.endOf t)) := by
  simp only [step, deliver, List.getElem?_mapIdx, handles_act hh, Option.map_some]

/-- Nobody waits for a task that has ended: everybody who does is told. -/
def Told (s : Workload α) : Prop :=
  ∀ t, s.handles[t]? = some .awaited → s.pool.endOf t = none

theorem told_new (pool : WorkerPool Nat α) : (new pool).Told := fun t ht => by simp [new] at ht

theorem told_deliver (s : Workload α) : s.deliver.Told := by
  intro t ht
  simp only [Workload.deliver, List.getElem?_mapIdx, Option.map_eq_some_iff] at ht
  obtain ⟨h, -, hpoll⟩ := ht
  exact JoinHandle.poll_eq_awaited hpoll

theorem told_run (hs : s.Told) (schedule : List (Event α)) : (s.run schedule).Told := by
  induction schedule generalizing s with
  | nil => exact hs
  | cons e schedule ih => exact ih (told_deliver _)

/-! ### The promise -/

/-- Whether an event has nothing to do with the tasks themselves: it concerns a handle, or it
clones the pool. -/
def Event.isQuiet : Event α → Bool
  | .drop _ | .await _ | .clone _ => true
  | _ => false

/-- The task whose handle an event concerns. -/
def Event.handle? : Event α → Option Nat
  | .drop t | .await t => some t
  | _ => none

/-- What whoever waited for a task is given as its result. -/
def reply? (s : Workload α) (t : Nat) : Option (Except Error α) :=
  match s.handles[t]? with
  | some (.joined e) => some e.result
  | _ => none

/-- Whether somebody waits for the task `t` through an event: they waited before and do not drop
the handle, or they begin to wait with a handle that they hold or a task that they spawn. -/
def Waits (s : Workload α) (e : Event α) (t : Nat) : Prop :=
  (s.handles[t]? = some .awaited ∧ e ≠ .drop t) ∨ (s.handles[t]? = some .held ∧ e = .await t) ∨
    (t = s.handles.length ∧ ∃ view < s.views.length, e = .run view)

/-- What a pool of `size` workers promises in a state of its workload. -/
structure Orderly (size : Nat) (s : Workload α) : Prop where
  /-- There are never more tasks with a worker than there are workers. -/
  bounded : s.pool.running.Nodup ∧ s.pool.running.length ≤ size
  /-- The pool and all its clones see the workers that no task holds. -/
  idle : ∀ (view n : Nat), s.views[view]? = some n →
    n = size ∧ s.available? view = some (size - s.pool.running.length)
  /-- Tasks get a worker in the order in which they were spawned, each at most once. -/
  inOrder : s.pool.served ++ s.pool.waiting = List.range s.handles.length
  /-- A task waits only while all workers are taken. -/
  busy : s.pool.waiting ≠ [] → s.pool.running.length = size
  /-- A task holds a worker from when it gets it to when it ends. -/
  holds : ∀ t : Nat, t ∈ s.pool.running ↔ t ∈ s.pool.served ∧ s.pool.endOf t = none
  /-- A task ends if it got a worker and was let finish, and as it was first let. -/
  ends : ∀ (t : Nat) (e : TaskEnd α),
    s.pool.endOf t = some e ↔ t ∈ s.pool.served ∧ s.told? t = some e
  /-- Nobody waits for a task that has ended. -/
  joins : ∀ t : Nat, s.handles[t]? = some .awaited → s.pool.endOf t = none
  /-- Whoever waits for a task is told how it ended as soon as it has, and waits on until then. -/
  waits : ∀ (e : Event α) (t : Nat), s.Waits e t →
    (s.step e).handles[t]? = some (((s.step e).pool.endOf t).elim .awaited .joined)
  /-- Whoever waited for a task got its own result, or an error if it broke down, and nothing takes
  that back. -/
  replies : ∀ (t : Nat) (r : Except Error α), s.reply? t = some r →
    (∃ e, s.told? t = some e ∧ s.pool.endOf t = some e ∧
      (∀ result, e = .returned result → r = result) ∧
      (e = .crashed → ∃ m, r = .error (.internal ("worker task failed: " ++ m)))) ∧
    ∀ e : Event α, (s.step e).reply? t = some r
  /-- A handle that is dropped or awaited and a clone make no difference to the pool, to the tasks
  and to the other handles. -/
  quiet : ∀ e : Event α, e.isQuiet = true →
    (s.step e).pool = s.pool ∧ (s.step e).told = s.told ∧
      ∀ t : Nat, e.handle? ≠ some t → (s.step e).handles[t]? = s.handles[t]?
  /-- Once all tasks were let finish, all of them have ended, and all workers are idle. -/
  finished : (∀ t : Nat, t < s.handles.length → s.told? t ≠ none) →
    (∀ t : Nat, t < s.handles.length → s.pool.endOf t = s.told? t) ∧ s.pool.available = size

/-- A handle that an event does not concern stays as it is, as long as the pool does. -/
theorem handles_step_quiet (hs : s.Told) {e : Event α} (he : e.isQuiet = true) {t : Nat}
    (ht : e.handle? ≠ some t) : (s.step e).handles[t]? = s.handles[t]? := by
  cases hh : s.handles[t]? with
  | none =>
    have hlength : (s.step e).handles.length = s.handles.length := by
      cases e with
      | spawn | run | finish => cases he
      | drop | await => simp only [step, act, deliver, List.length_mapIdx, List.length_modify]
      | clone => exact List.length_mapIdx
    rw [List.getElem?_eq_none_iff] at hh ⊢
    exact hlength ▸ hh
  | some h =>
    have htouch : e.touch t h = h := by
      cases e with
      | drop x | await x => exact if_neg fun hx => ht (congrArg some hx)
      | _ => rfl
    have hpool : (s.step e).pool = s.pool := by
      cases e with
      | spawn | run | finish => cases he
      | _ => rfl
    rw [handles_step hh, htouch, hpool]
    cases h with
    | awaited => rw [hs t hh]; rfl
    | _ => rfl

/-- Whoever waits for a task through an event is told once the task has ended. -/
theorem handles_step_of_waits {e : Event α} {t : Nat} (h : s.Waits e t) :
    (s.step e).handles[t]? = some (((s.step e).pool.endOf t).elim .awaited .joined) := by
  have hpoll (o : Option (TaskEnd α)) : JoinHandle.awaited.poll o = o.elim .awaited .joined := by
    cases o <;> rfl
  rw [← hpoll]
  rcases h with ⟨hawaited, hkept⟩ | ⟨hheld, rfl⟩ | ⟨rfl, view, hview, rfl⟩
  · have htouch : e.touch t .awaited = .awaited := by
      cases e with
      | drop x => exact if_neg fun hx => hkept (congrArg _ hx)
      | await x => exact ite_self _
      | _ => rfl
    rw [handles_step hawaited, htouch]
  · rw [handles_step hheld, Event.touch, if_pos rfl]
    rfl
  · simp only [step, act, deliver, Workload.spawn, if_pos hview, List.getElem?_mapIdx,
      List.getElem?_concat_length, Option.map_some]

/-- Nobody is told twice. -/
theorem handles_step_of_joined {t : Nat} {told : TaskEnd α}
    (h : s.handles[t]? = some (.joined told)) (e : Event α) :
    (s.step e).handles[t]? = some (.joined told) := by
  have htouch : e.touch t (.joined told) = .joined told := by
    cases e with
    | drop | await => exact ite_self _
    | _ => rfl
  rw [handles_step h, htouch]
  rfl

/-- An idle worker is one that no task holds. -/
theorem Sound.workers_eq (hs : s.Sound size) :
    s.pool.available + s.pool.running.length = size := by
  have := hs.follows.workers
  rwa [hs.workers] at this

/-- Once all tasks were let finish, no task holds a worker. -/
theorem Sound.running_eq_nil (hs : s.Sound size)
    (hall : ∀ t : Nat, t < s.handles.length → s.told? t ≠ none) : s.pool.running = [] := by
  rw [List.eq_nil_iff_forall_not_mem]
  intro t ht
  obtain ⟨hserved, htold⟩ := hs.follows.mem_running.1 ht
  have hlt : t < s.handles.length :=
    List.mem_range.1 (hs.follows.order ▸ List.mem_append_left _ hserved)
  exact hall t hlt htold

/-- While no task holds a worker, no task waits for one. -/
theorem Sound.mem_served (hs : s.Sound size) (hsize : 0 < size) (hrunning : s.pool.running = [])
    {t : Nat} (ht : t < s.handles.length) : t ∈ s.pool.served := by
  have hworkers := hs.workers_eq
  rw [hrunning, List.length_nil] at hworkers
  have hwaiting : s.pool.waiting = [] := by
    by_contra hne
    exact absurd (hs.follows.busy hne) (by omega)
  have horder := hs.follows.order
  rw [hwaiting, List.append_nil] at horder
  exact horder ▸ List.mem_range.2 ht

theorem Sound.orderly (hs : s.Sound size) (hsize : 0 < size) (htold : s.Told) :
    s.Orderly size where
  bounded := by
    have := hs.workers_eq
    exact ⟨hs.follows.nodup_running, by omega⟩
  idle view n hn := by
    have := hs.workers_eq
    have hidle : s.pool.available = size - s.pool.running.length := by omega
    rw [available?, hn, Option.map_some, hidle]
    exact ⟨hs.views n (List.mem_of_getElem? hn), rfl⟩
  inOrder := hs.follows.order
  busy hne := by
    have := hs.workers_eq
    rw [hs.follows.busy hne] at this
    omega
  holds t := by
    rw [hs.follows.mem_running]
    refine and_congr_right fun ht => ?_
    rw [Option.eq_none_iff_forall_ne_some, Option.eq_none_iff_forall_ne_some]
    refine forall_congr' fun e => not_congr ?_
    rw [WorkerPool.endOf, hs.follows.ended]
    exact ⟨fun h => ⟨ht, h⟩, fun h => h.2⟩
  ends := hs.follows.ended
  joins := htold
  waits _ _ := handles_step_of_waits
  replies t r hr := by
    unfold reply? at hr
    split at hr
    · rename_i e he
      have hend := hs.joined t e he
      obtain rfl : e.result = r := Option.some.inj hr
      refine ⟨⟨e, ((hs.follows.ended t e).1 hend).2, hend, ?_, ?_⟩, fun e' => ?_⟩
      · rintro result rfl
        rfl
      · rintro rfl
        exact ⟨"the task broke down", rfl⟩
      · rw [reply?, handles_step_of_joined he]
    · cases hr
  quiet e he := by
    refine ⟨?_, ?_, fun t ht => handles_step_quiet htold he ht⟩ <;>
    · cases e with
      | spawn | run | finish => cases he
      | drop | await | clone => rfl
  finished hall := by
    have hrunning := hs.running_eq_nil hall
    refine ⟨fun t ht => ?_, ?_⟩
    · obtain ⟨e, he⟩ := Option.ne_none_iff_exists'.1 (hall t ht)
      rw [he]
      exact (hs.follows.ended t e).2 ⟨hs.mem_served hsize hrunning ht, he⟩
    · have := hs.workers_eq
      rwa [hrunning] at this

/-- **A pool keeps its promise** whatever is spawned on it, let finish, dropped, awaited and
cloned. It has as many workers as were asked for, or sixteen if none were. -/
theorem run_orderly {configured : UInt64} (h : WorkerPool.sizeFor configured ≤ maxWorkers) :
    ∃ pool : WorkerPool Nat α, WorkerPool.new configured = some pool ∧
      pool.size = (if configured = 0 then 16 else configured.toNat) ∧
      ∀ schedule : List (Event α), ((new pool).run schedule).Orderly pool.size := by
  have hpos : 0 < WorkerPool.sizeFor configured := by
    unfold WorkerPool.sizeFor
    split
    · decide
    · rename_i hne
      exact Nat.pos_of_ne_zero fun hzero => hne (UInt64.toNat_inj.1 hzero)
  refine ⟨_, if_pos h, rfl, fun schedule => ?_⟩
  exact ((sound_new _).run schedule).orderly hpos (told_run (told_new _) schedule)

/-- Three tasks for one worker: the second was let finish too early, and the first breaks down. -/
def cascade : List (Event Nat) :=
  [.spawn 0, .run 0, .clone 0, .spawn 1, .finish 1 (.returned (.ok 7)), .await 0,
    .finish 0 .crashed, .drop 2]

/-- The second task ends when it gets the worker of the first, and the third runs. -/
theorem run_orderly_cascade :
    ∃ pool : WorkerPool Nat Nat, WorkerPool.new 1 = some pool ∧
      ((new pool).run cascade).pool.running = [2] ∧
      ((new pool).run cascade).pool.served = [0, 1, 2] ∧
      ((new pool).run cascade).reply? 1 = some (.ok 7) ∧
      ((new pool).run cascade).Orderly 1 := by
  obtain ⟨pool, hpool, hsize, horderly⟩ :=
    run_orderly (show WorkerPool.sizeFor 1 ≤ maxWorkers by decide)
  cases hpool
  exact ⟨_, rfl, rfl, rfl, rfl, horderly cascade⟩

end Workload
end Collectors
