import Collectors.Proofs.Attachment
import Collectors.Proofs.Custody

/-!
# Teardown

The drain step of a shutdown closes a table and empties it, and both are for ever
(`Drained.run`). What a drained provider does to calls that come too late is told by the paths
`refusal` and `emptyTeardown`: the number of steps that such a call took itself says where it is,
whatever else happened (`Traffic.follows`).

`Traffic.shelter` counts where an instance is with one provider. It is handed on to nothing but
the end of the instance, so that a drained provider without calls has ended everything that was
ever entered (`Traffic.shelter_run`).

`teardown_final` puts it together with what holds of errands.
-/

namespace Collectors

variable {β ι ω : Type} {b : Behaviour β ι ω}

/-! ### What a step of a call does to the table and to the trace -/

namespace Call

/-- A step of a call leaves the entries of the table alone, enters a collector into an open table,
takes one away, or drains the table. -/
theorem step_table (b : Behaviour β ι ω) (call : Call β ι) (p : Provider β ι) (w : ω) :
    let t := (call.step b p w).provider.table
    (t.entries = p.table.entries ∧ t.closed = p.table.closed) ∨
    (p.table.closed = false ∧ t.closed = false ∧ ∃ c, t.entries = p.table.entries ++ [c]) ∨
    (t.closed = p.table.closed ∧ ∃ id, t.entries = p.table.entries.filter fun c => c.id ≠ id) ∨
    (t.closed = true ∧ t.entries = []) := by
  dsimp only
  cases call with
  | insert c =>
    rcases p.table.insert_cases c with ⟨-, h⟩ | ⟨-, -, h⟩ | ⟨hopen, -, t, h, hentries, hclosed, -⟩
    · rw [step, h]; exact .inl ⟨rfl, rfl⟩
    · rw [step, h]; exact .inl ⟨rfl, rfl⟩
    · rw [step, h]; exact .inr (.inl ⟨hopen, hclosed, c, hentries⟩)
  | instantiate | closeRefused | destroy =>
    simp only [step]; split <;> exact .inl ⟨rfl, rfl⟩
  | detachToDestroy id =>
    rcases p.table.take_cases id with ⟨-, h⟩ | ⟨c, -, -, h⟩
    · rw [step, h]; exact .inl ⟨rfl, rfl⟩
    · rw [step, h]; exact .inr (.inr (.inl ⟨rfl, id, rfl⟩))
  | remove r =>
    simp only [step]
    cases r with
    | detach id runClose =>
      rcases p.table.take_cases id with ⟨-, h⟩ | ⟨c, -, -, h⟩
      · rw [Removal.step, h]; exact .inl ⟨rfl, rfl⟩
      · rw [Removal.step, h]; exact .inr (.inr (.inl ⟨rfl, id, rfl⟩))
    | drain => exact .inr (.inr (.inr ⟨rfl, rfl⟩))
    | close c => simp only [Removal.step]; split <;> exact .inl ⟨rfl, rfl⟩
    | closeAll rest total =>
      cases rest with
      | nil => exact .inl ⟨rfl, rfl⟩
      | cons c rest => simp only [Removal.step]; split <;> exact .inl ⟨rfl, rfl⟩
    | _ => exact .inl ⟨rfl, rfl⟩
  | _ => exact .inl ⟨rfl, rfl⟩

/-- Whether a call asks for a collector and has not entered it. -/
def Unentered : Call β ι → Prop
  | start (.instantiate ..) | checkClosed .. | findBackend .. | instantiate .. | insert _
  | closeRefused .. | finished (.error _) | broken => True
  | _ => False

/-- A closed table lets no call enter a collector. -/
theorem Unentered.step (b : Behaviour β ι ω) {call : Call β ι} (hcall : call.Unentered)
    {p : Provider β ι} (hclosed : p.table.closed = true) (w : ω) :
    (call.step b p w).call.Unentered := by
  cases call with
  | start r =>
    cases r with
    | instantiate mode token backend config id =>
      simp only [Call.step, begin]; split <;> trivial
    | _ => cases hcall
  | checkClosed => rw [Call.step, if_pos hclosed]; trivial
  | findBackend | instantiate | closeRefused => simp only [Call.step]; split <;> trivial
  | insert c =>
    have hrefused : p.table.insert c = .error .tableClosed := by simp [Table.insert, hclosed]
    rw [Call.step, hrefused]
    trivial
  | finished => exact hcall
  | broken => trivial
  | _ => cases hcall

end Call

namespace Trace

/-- Whether a trace comes to be `t'` later. -/
structure Becomes (t t' : Trace) : Prop where
  made : t.made ≤ t'.made
  ended : t.ended <+: t'.ended

theorem Becomes.refl (t : Trace) : t.Becomes t := ⟨Nat.le_refl _, List.prefix_refl _⟩

theorem becomes_make (t : Trace) : t.Becomes t.make := ⟨Nat.le_succ _, List.prefix_refl _⟩

theorem becomes_part (t : Trace) (k : Nat) (how : Parting) : t.Becomes (t.part k how) :=
  ⟨Nat.le_refl _, List.prefix_append _ _⟩

theorem Becomes.partings {t t' : Trace} (h : t.Becomes t') (k : Nat) :
    t.partings k <+: t'.partings k := (h.ended.filter _).map _

end Trace

/-- A call that ends an instance is added to the trace. -/
theorem becomes_close {tr : Trace} {w : ω} {i : Nat × ι} {r : Option (Except Error Unit)}
    {w' : Trace × ω} (h : b.traced.close i (tr, w) = (r, w')) : tr.Becomes w'.1 := by
  rw [← congrArg (fun x => x.2.1) h]
  exact tr.becomes_part _ _

theorem becomes_destroy {tr : Trace} {w : ω} {i : Nat × ι} {r : Option (Except Error Unit)}
    {w' : Trace × ω} (h : b.traced.destroy i (tr, w) = (r, w')) : tr.Becomes w'.1 := by
  rw [← congrArg (fun x => x.2.1) h]
  exact tr.becomes_part _ _

/-- A step of a call only adds to the trace. -/
theorem Call.step_becomes (b : Behaviour β ι ω) (call : Call β (Nat × ι)) (p : Provider β (Nat × ι))
    (w : Trace × ω) : w.1.Becomes (call.step b.traced p w).world.1 := by
  obtain ⟨tr, w⟩ := w
  cases call with
  | insert | detachToDestroy => simp only [step]; split <;> exact .refl _
  | instantiate made mode backend config id =>
    rcases h : b.instantiate made mode config w with ⟨_ | (e | i), w'⟩
    · simp only [step, Behaviour.traced, h]; exact .refl _
    · simp only [step, Behaviour.traced, h]; exact .refl _
    · simp only [step, Behaviour.traced, h]; exact tr.becomes_make
  | closeRefused c e => simp only [step]; split <;> exact becomes_close ‹_›
  | destroy c => simp only [step]; split <;> exact becomes_destroy ‹_›
  | remove r =>
    simp only [step]
    cases r with
    | detach id runClose => simp only [Removal.step]; split <;> exact .refl _
    | close c => simp only [Removal.step]; split <;> exact becomes_close ‹_›
    | closeAll rest total =>
      cases rest with
      | nil => exact .refl _
      | cons c rest => simp only [Removal.step]; split <;> exact becomes_close ‹_›
    | _ => exact .refl _
  | _ => exact .refl _

namespace Traffic

/-- An event only adds to the trace. -/
theorem step_becomes (b : Behaviour β ι ω) (s : Traffic β (Nat × ι) (Trace × ω)) (e : Event β) :
    s.world.1.Becomes (s.step b.traced e).world.1 := by
  rcases step_quiet b.traced s e with ⟨i, j, p, -, -, -, h⟩ | h
  · rw [h]
    exact Call.step_becomes b j.call p s.world
  · rw [h.world]
    exact .refl _

/-! ### Drained providers -/

/-- Whether the table of the provider at a place is closed and empty. -/
def Drained (s : Traffic β ι ω) (place : Nat) : Prop := s.host.contents[place]? = some ([], true)

/-- What was drained stays so. -/
theorem Drained.step {s : Traffic β ι ω} {place : Nat} (hs : s.Drained place)
    (b : Behaviour β ι ω) (e : Event β) : (s.step b e).Drained place := by
  unfold Drained at hs ⊢
  rcases step_quiet b s e with ⟨i, j, p, -, -, hp, h⟩ | ⟨-, ⟨new, hnew, -⟩, -⟩
  · rw [h, Host.contents_put]
    by_cases hplace : j.place = place
    · subst hplace
      have hold := Option.some.inj ((Host.contents_of_provider? hp).symm.trans hs)
      obtain ⟨hentries, hclosed⟩ := Prod.mk.inj hold
      rw [List.getElem?_set_self (List.getElem?_eq_some_iff.1 hs).1]
      refine congrArg some (Prod.ext_iff.2 ?_)
      rcases j.call.step_table b p s.world with ⟨he, hc⟩ | ⟨hopen, -⟩ | ⟨hc, id, he⟩ | ⟨hc, he⟩
      · exact ⟨he.trans hentries, hc.trans hclosed⟩
      · rw [hclosed] at hopen
        cases hopen
      · rw [hentries] at he
        exact ⟨he, hc.trans hclosed⟩
      · exact ⟨he, hc⟩
    · rw [List.getElem?_set_ne hplace, hs]
  · rw [hnew, List.getElem?_append_left (List.getElem?_eq_some_iff.1 hs).1, hs]

theorem Drained.run {s : Traffic β ι ω} {place : Nat} (hs : s.Drained place)
    (b : Behaviour β ι ω) (es : List (Event β)) : (run b s es).Drained place := by
  induction es generalizing s with
  | nil => exact hs
  | cons e es ih => exact ih (hs.step b e)

/-- The table of a drained provider. -/
theorem Drained.table {s : Traffic β ι ω} {place : Nat} (hs : s.Drained place)
    {p : Provider β ι} (hp : s.host.provider? place = some p) :
    p.table.entries = [] ∧ p.table.closed = true :=
  Prod.mk.inj (Option.some.inj ((Host.contents_of_provider? hp).symm.trans hs))

theorem Drained.provider? {s : Traffic β ι ω} {place : Nat} (hs : s.Drained place) :
    ∃ p, s.host.provider? place = some p := by
  refine Host.provider?_isSome ?_
  have := (List.getElem?_eq_some_iff.1 hs).1
  rwa [Host.contents, List.length_map] at this

/-! ### Calls that come too late -/

/-- Whether an event is a step of the job at `i`. -/
def Event.isJob (i : Nat) : Event β → Bool
  | .job k => k = i
  | _ => false

theorem eq_job_of_isJob {i : Nat} {e : Event β} (he : e.isJob i = true) : e = .job i := by
  cases e with
  | job k => rw [show k = i by simpa [Event.isJob] using he]
  | _ => cases he

/-- The number of steps that the job at `i` takes in a schedule. -/
def turns (i : Nat) (es : List (Event β)) : Nat := es.countP (Event.isJob i)

theorem turns_cons (i : Nat) (e : Event β) (es : List (Event β)) :
    turns i (e :: es) = turns i es + if e.isJob i then 1 else 0 := List.countP_cons

/-- A job takes no step by an event that is not its own. -/
theorem jobs_step_other (b : Behaviour β ι ω) {s : Traffic β ι ω} {e : Event β} {i : Nat}
    {j : Job β ι} (he : e.isJob i = false) (hj : s.jobs[i]? = some j) :
    (s.step b e).jobs[i]? = some j := by
  rcases step_quiet b s e with ⟨i', j', p, rfl, -, -, h⟩ | ⟨⟨new, hnew, -⟩, -, -⟩
  · have hne : i' ≠ i := by simpa [Event.isJob] using he
    rw [h, List.getElem?_set_ne hne, hj]
  · rw [hnew, List.getElem?_append_left (List.getElem?_eq_some_iff.1 hj).1, hj]

/-- A job takes a step by its own event. -/
theorem step_own (b : Behaviour β ι ω) {s : Traffic β ι ω} {i : Nat} {j : Job β ι}
    {p : Provider β ι} (hj : s.jobs[i]? = some j) (hp : s.host.provider? j.place = some p) :
    (s.step b (.job i)).jobs[i]? = some { j with call := (j.call.step b p s.world).call } ∧
      (s.step b (.job i)).world = (j.call.step b p s.world).world := by
  simp only [step, stepJob, hj, Host.step, hp]
  exact ⟨List.getElem?_set_self (List.getElem?_eq_some_iff.1 hj).1, trivial⟩

/-- A call at a drained provider follows a path, if each of its steps there does: where it is then
depends only on the number of steps that it took. -/
theorem follows (b : Behaviour β ι ω) {place i : Nat} (path : Nat → Call β ι → Prop)
    (hpath : ∀ n call p (w : ω), path n call → p.table.entries = [] → p.table.closed = true →
      path (n + 1) (call.step b p w).call)
    {s : Traffic β ι ω} (hs : s.Drained place) {n : Nat} {call : Call β ι}
    (hj : s.jobs[i]? = some { place, call }) (hn : path n call) (es : List (Event β)) :
    ∃ call', (run b s es).jobs[i]? = some { place, call := call' } ∧
      path (n + turns i es) call' := by
  induction es generalizing s n call with
  | nil => exact ⟨call, hj, hn⟩
  | cons e es ih =>
    rw [run_cons, turns_cons]
    -- Other events leave the job where it is, and the provider drained.
    by_cases he : e.isJob i = true
    · obtain rfl : e = .job i := eq_job_of_isJob he
      obtain ⟨p, hp⟩ := hs.provider?
      obtain ⟨hentries, hclosed⟩ := hs.table hp
      have hnext := ih (hs.step b _) (step_own b hj hp).1
        (hpath n call p s.world hn hentries hclosed)
      rwa [if_pos he, Nat.add_comm (turns i es), ← Nat.add_assoc]
    · rw [if_neg he]
      exact ih (hs.step b e) (jobs_step_other b (Bool.eq_false_iff.2 he) hj) hn

/-- Where a call is `n` steps after it came to enter a collector into a drained table. -/
def Refused (b : Behaviour β ι ω) (c : Collector ι) : Nat → Call β ι → Prop
  | 0, call => call = .insert c
  | 1, call => call = .closeRefused c .tableClosed
  | _, call => call = .finished (.error .tableClosed) ∨ call = .broken ∧ ¬ b.Closes

/-- Where a shutdown of a drained provider is after `n` steps. -/
def emptyTeardown : Nat → Call β ι
  | 0 => .start .shutdown
  | 1 => .remove .drain
  | 2 => .remove (.countDrained [])
  | 3 => .remove (.closeAll [] 0)
  | _ => .finished (.ok (.count 0))

theorem Refused.step {c : Collector (Nat × ι)} {n : Nat} {call : Call β (Nat × ι)}
    (h : Refused b.traced c n call) (p : Provider β (Nat × ι)) (w : Trace × ω)
    (hclosed : p.table.closed = true) :
    Refused b.traced c (n + 1) (call.step b.traced p w).call := by
  match n with
  | 0 =>
    obtain rfl : call = .insert c := h
    simp [Refused, Call.step, Table.insert, hclosed]
  | 1 =>
    obtain rfl : call = .closeRefused c .tableClosed := h
    rw [Call.step]
    rcases hclose : b.traced.close c.resource w with ⟨_ | (e | _), w'⟩
    · exact .inr ⟨rfl, fun hb => hb c.resource w (congrArg Prod.fst hclose)⟩
    · exact .inl rfl
    · exact .inl rfl
  | n + 2 =>
    obtain rfl | ⟨rfl, hb⟩ : call = .finished (.error .tableClosed) ∨
      call = .broken ∧ ¬ b.traced.Closes := h
    · exact .inl rfl
    · exact .inr ⟨rfl, hb⟩

theorem Refused.held {c : Collector ι} {n : Nat} {call : Call β ι} (h : Refused b c n call)
    (hn : n < 2) : call.held = [c] := by
  match n with
  | 0 => rw [show call = .insert c from h]; rfl
  | 1 => rw [show call = .closeRefused c .tableClosed from h]; rfl

theorem step_emptyTeardown (b : Behaviour β ι ω) (n : Nat) (p : Provider β ι) (w : ω)
    (hentries : p.table.entries = []) :
    ((emptyTeardown n : Call β ι).step b p w).call = emptyTeardown (n + 1) := by
  match n with
  | 0 | 1 | 2 | 3 =>
    simp [emptyTeardown, Call.step, Call.begin, Removal.step, Call.ofRemoval, Table.drain, hentries]
  | _ + 4 => rfl

/-! ### Instances that are refused -/

/-- An instance in the hands of a job got no call that ends it. -/
theorem Balanced.partings_of_held {s : Traffic β (Nat × ι) (Trace × ω)} (hs : s.Balanced b)
    {i k : Nat} {j : Job β (Nat × ι)} (hj : s.jobs[i]? = some j)
    (hk : 0 < Collector.share k j.call.held) : s.world.1.partings k = [] := by
  have hle : Collector.share k j.call.held ≤ s.heldShare k :=
    le_sum_map (fun j : Job β (Nat × ι) => Collector.share k j.call.held) (List.mem_of_getElem? hj)
  have hplaces := hs.le k
  have hdue := s.world.1.due_le k
  rw [places] at hplaces
  exact List.eq_nil_of_length_eq_zero (by omega)

theorem Balanced.length_partings_le {s : Traffic β (Nat × ι) (Trace × ω)} (hs : s.Balanced b)
    (k : Nat) : (s.world.1.partings k).length ≤ 1 := by
  have hplaces := hs.le k
  have hdue := s.world.1.due_le k
  rw [places] at hplaces
  omega

/-- What ended an instance once is all that ever ends it. -/
theorem partings_run {w : ω} {s : Traffic β (Nat × ι) (Trace × ω)}
    (hs : Reachable b.traced ({}, w) s) {k : Nat} {how : Parting}
    (hk : s.world.1.partings k = [how]) (es : List (Event β)) :
    (run b.traced s es).world.1.partings k = [how] := by
  induction es generalizing s with
  | nil => exact hk
  | cons e es ih =>
    refine ih (hs.step e) ?_
    have hprefix := (step_becomes b s e).partings k
    rw [hk] at hprefix
    have hle := (hs.step e).balanced.length_partings_le k
    exact (List.IsPrefix.eq_of_length_le hprefix hle).symm

/-- The step that closes a refused collector ends its instance. -/
theorem partings_step_closeRefused (b : Behaviour β ι ω) {s : Traffic β (Nat × ι) (Trace × ω)}
    {place i : Nat} {c : Collector (Nat × ι)} {e : Error} {p : Provider β (Nat × ι)}
    (hj : s.jobs[i]? = some { place, call := .closeRefused c e })
    (hp : s.host.provider? place = some p) (hnone : s.world.1.partings c.resource.1 = []) :
    (s.step b.traced (.job i)).world.1.partings c.resource.1 = [.closed] := by
  have hclosed : ((Call.closeRefused c e).step b.traced p s.world).world.1 =
      s.world.1.part c.resource.1 .closed := by
    rcases h : b.close c.resource.2 s.world.2 with ⟨_ | (e | _), w'⟩ <;>
      simp [Call.step, Behaviour.traced, h]
  rw [(step_own b.traced hj hp).2, hclosed, Trace.partings_part, hnone, if_pos rfl]
  rfl

/-- An event is the step of a job that takes it to its second step. -/
theorem isJob_of_turns {i n : Nat} {e : Event β} (hn : n < 2) (h : ¬ n + turns i [e] < 2) :
    e.isJob i = true ∧ n = 1 := by
  rw [turns_cons] at h
  simp only [turns, List.countP_nil] at h
  by_cases he : e.isJob i = true
  · rw [if_pos he] at h
    exact ⟨he, by omega⟩
  · rw [if_neg he] at h
    omega

/-- An instance that comes too late gets its only call with the second step of its job. -/
theorem partings_step_refused {w : ω} {s : Traffic β (Nat × ι) (Trace × ω)}
    (hs : Reachable b.traced ({}, w) s) {place i n : Nat} {c : Collector (Nat × ι)}
    {call : Call β (Nat × ι)} (hdrained : s.Drained place)
    (hj : s.jobs[i]? = some { place, call }) (hn : Refused b.traced c n call)
    (hparted : s.world.1.partings c.resource.1 = if n < 2 then [] else [.closed]) (e : Event β) :
    (s.step b.traced e).world.1.partings c.resource.1 =
      if n + turns i [e] < 2 then [] else [.closed] := by
  obtain ⟨call', hnext, hn'⟩ := follows b.traced (Refused b.traced c)
    (fun n call p w h _ hclosed => h.step p w hclosed) hdrained hj hn [e]
  by_cases hlate : n < 2
  · rw [if_pos hlate] at hparted
    by_cases hearly : n + turns i [e] < 2
    · -- The call still holds the collector.
      rw [if_pos hearly]
      refine (hs.step e).balanced.partings_of_held hnext ?_
      show 0 < Collector.share _ call'.held
      rw [hn'.held hearly, Collector.share_self]
      exact Nat.one_pos
    · obtain ⟨he, rfl⟩ := isJob_of_turns hlate hearly
      obtain rfl : e = .job i := eq_job_of_isJob he
      obtain rfl : call = .closeRefused c .tableClosed := hn
      obtain ⟨p, hp⟩ := hdrained.provider?
      rw [if_neg hearly, partings_step_closeRefused b hj hp hparted]
  · -- The call is at its end, and nothing ends the instance again.
    rw [if_neg (by omega)]
    rw [if_neg hlate] at hparted
    exact partings_run hs hparted [e]

/-- **A collector that comes too late is closed by the call that made it.** Its instance got no
call before the second step of that call, and just the one close from then on. -/
theorem partings_refused {w : ω} {s : Traffic β (Nat × ι) (Trace × ω)}
    (hs : Reachable b.traced ({}, w) s) {place i : Nat} {c : Collector (Nat × ι)}
    (hdrained : s.Drained place) (hj : s.jobs[i]? = some { place, call := .insert c })
    (es : List (Event β)) :
    (run b.traced s es).world.1.partings c.resource.1 =
      if turns i es < 2 then [] else [.closed] := by
  -- Along the schedule; the number of steps says where the call is and what its instance got.
  have key : ∀ (es : List (Event β)) s n call, Reachable b.traced ({}, w) s → s.Drained place →
      s.jobs[i]? = some { place, call } → Refused b.traced c n call →
      (s.world.1.partings c.resource.1 = if n < 2 then [] else [.closed]) →
      (run b.traced s es).world.1.partings c.resource.1 =
        if n + turns i es < 2 then [] else [.closed] := by
    intro es
    induction es with
    | nil => intro s n call _ _ _ _ hparted; exact hparted
    | cons e es ih =>
      intro s n call hs hdrained hj hn hparted
      obtain ⟨call', hnext, hn'⟩ := follows b.traced (Refused b.traced c)
        (fun n call p w h _ hclosed => h.step p w hclosed) hdrained hj hn [e]
      have hturns : turns i (e :: es) = turns i [e] + turns i es := by
        rw [turns_cons, turns_cons]
        simp only [turns, List.countP_nil]
        omega
      rw [run_cons, hturns, ← Nat.add_assoc]
      exact ih _ _ call' (hs.step e) (hdrained.step _ e) hnext hn'
        (partings_step_refused hs hdrained hj hn hparted e)
  have hheld : s.world.1.partings c.resource.1 = [] := by
    refine hs.balanced.partings_of_held hj ?_
    show 0 < Collector.share _ [c]
    rw [Collector.share_self]
    exact Nat.one_pos
  have := key es s 0 _ hs hdrained hj rfl hheld
  rwa [Nat.zero_add] at this

/-! ### Instances that were entered -/

/-- How often the instance numbered `k` stands among what the provider at a place has: in its
table, or in the hands of its jobs. -/
def shelter (s : Traffic β (Nat × ι) (Trace × ω)) (place k : Nat) : Nat :=
  (s.jobs.map fun j => if j.place = place then Collector.share k j.call.held else 0).sum +
    (s.host.contents[place]?.map fun t => Collector.share k t.1).getD 0

/-- A provider gives up an instance that was made only to its end, unless a job breaks down. -/
theorem shelter_step {s : Traffic β (Nat × ι) (Trace × ω)} (hs : s.Balanced b) (place : Nat)
    {k : Nat} (hk : k < s.world.1.made) {e : Event β} (he : (s.step b.traced e).Unbroken) :
    s.shelter place k + (s.world.1.partings k).length ≤
      (s.step b.traced e).shelter place k + ((s.step b.traced e).world.1.partings k).length := by
  have hbecomes := step_becomes b s e
  have hended := (hbecomes.partings k).length_le
  have hmade := Nat.lt_of_lt_of_le hk hbecomes.made
  rcases step_quiet b.traced s e with ⟨i, j, p, -, hj, hp, h⟩ |
    ⟨⟨jobs, hjobs, -⟩, ⟨tables, htables, -⟩, -⟩
  · rw [h] at hended hmade he ⊢
    have hsum := sum_map_set
      (fun j : Job β (Nat × ι) => if j.place = place then Collector.share k j.call.held else 0) hj
      { j with call := (j.call.step b.traced p s.world).call }
    simp only [shelter, Host.contents_put] at hended hsum ⊢
    by_cases hplace : j.place = place
    · subst hplace
      have hold := Host.contents_of_provider? hp
      have hunbroken : (j.call.step b.traced p s.world).call ≠ .broken :=
        he _ (List.mem_of_getElem? (List.getElem?_set_self (List.getElem?_eq_some_iff.1 hj).1))
      obtain ⟨lost, hstep, hlost⟩ :=
        Call.step_share b k (hs.ending j (List.mem_of_getElem? hj)) p s.world
      have := hlost (.inr hunbroken)
      simp only [Trace.due, if_pos hk, if_pos hmade] at hstep
      simp only [if_true] at hsum
      rw [hold, List.getElem?_set_self (List.getElem?_eq_some_iff.1 hold).1]
      simp only [Option.map_some, Option.getD_some]
      omega
    · simp only [if_neg hplace] at hsum
      rw [List.getElem?_set_ne hplace]
      omega
  · have htable : (s.host.contents[place]?.map fun t => Collector.share k t.1).getD 0 ≤
        ((s.step b.traced e).host.contents[place]?.map fun t => Collector.share k t.1).getD 0 := by
      cases hold : s.host.contents[place]? with
      | none => exact Nat.zero_le _
      | some t =>
        have hsame : (s.host.contents ++ tables)[place]? = s.host.contents[place]? :=
          List.getElem?_append_left (List.getElem?_eq_some_iff.1 hold).1
        exact Nat.le_of_eq (by rw [htables, hsame, hold])
    rw [shelter, shelter, hjobs, List.map_append, List.sum_append]
    omega

theorem unbroken_of_run {s : Traffic β ι ω} {es : List (Event β)} (h : (run b s es).Unbroken) :
    s.Unbroken := by
  induction es generalizing s with
  | nil => exact h
  | cons e es ih => exact unbroken_of_step (ih h)

theorem shelter_run {w : ω} {s : Traffic β (Nat × ι) (Trace × ω)}
    (hs : Reachable b.traced ({}, w) s) (place : Nat) {k : Nat} (hk : k < s.world.1.made)
    {es : List (Event β)} (hes : (run b.traced s es).Unbroken) :
    s.shelter place k + (s.world.1.partings k).length ≤
      (run b.traced s es).shelter place k + ((run b.traced s es).world.1.partings k).length := by
  induction es generalizing s with
  | nil => exact Nat.le_refl _
  | cons e es ih =>
    have hmade := Nat.lt_of_lt_of_le hk (step_becomes b s e).made
    exact Nat.le_trans (shelter_step hs.balanced place hk (unbroken_of_run hes))
      (ih (hs.step e) hmade hes)

/-- A provider without calls shelters nothing but what is in its table. -/
theorem shelter_of_isDone {s : Traffic β (Nat × ι) (Trace × ω)} {place : Nat}
    (hs : s.Drained place) (hdone : ∀ j ∈ s.jobs, j.call.isDone = true) (k : Nat) :
    s.shelter place k = 0 := by
  have hjobs : (s.jobs.map fun j =>
      if j.place = place then Collector.share k j.call.held else 0).sum = 0 := by
    refine List.sum_eq_zero_iff_forall_eq_nat.2 fun n hn => ?_
    obtain ⟨j, hj, rfl⟩ := List.mem_map.1 hn
    rw [held_of_isDone (hdone j hj), Collector.share_nil, ite_self]
  rw [shelter, hjobs, show s.host.contents[place]? = some ([], true) from hs]
  rfl

/-- **A drained provider without calls has ended every collector that it ever had**, each once. -/
theorem partings_of_drained {w : ω} {s : Traffic β (Nat × ι) (Trace × ω)}
    (hs : Reachable b.traced ({}, w) s) {place : Nat} {t : List (Collector (Nat × ι)) × Bool}
    (ht : s.host.contents[place]? = some t) {c : Collector (Nat × ι)} (hc : c ∈ t.1)
    {es : List (Event β)} (hdrained : (run b.traced s es).Drained place)
    (hdone : ∀ j ∈ (run b.traced s es).jobs, ∃ r, j.call = .finished r) :
    ∃ how, (run b.traced s es).world.1.partings c.resource.1 = [how] := by
  have hshare : 0 < Collector.share c.resource.1 t.1 :=
    List.length_pos_of_mem (List.mem_filter.2 ⟨hc, by simp⟩)
  have htable : Collector.share c.resource.1 t.1 ≤ s.tableShare c.resource.1 :=
    le_sum_map (fun t : List (Collector (Nat × ι)) × Bool => Collector.share c.resource.1 t.1)
      (List.mem_of_getElem? ht)
  have hmade : c.resource.1 < s.world.1.made := by
    have hplaces := hs.balanced.le c.resource.1
    by_contra hnot
    rw [Trace.due, if_neg hnot, places] at hplaces
    omega
  have hunbroken : (run b.traced s es).Unbroken := by
    intro j hj hbroken
    obtain ⟨r, hr⟩ := hdone j hj
    cases hr.symm.trans hbroken
  have hisDone : ∀ j ∈ (run b.traced s es).jobs, j.call.isDone = true := by
    intro j hj
    obtain ⟨r, hr⟩ := hdone j hj
    rw [hr]
    rfl
  -- Nothing is sheltered at the end, so what was there at first has gone to its end.
  have hrun := shelter_run hs place hmade hunbroken
  rw [shelter_of_isDone hdrained hisDone, shelter, ht] at hrun
  simp only [Option.map_some, Option.getD_some] at hrun
  have hle := (hs.run es).balanced.length_partings_le c.resource.1
  exact List.length_eq_one_iff.1 (by omega)

/-! ### Errands that shut providers down -/

/-- Whether the job at `i` drains the provider at a place, or the provider is drained. -/
def Draining (s : Traffic β ι ω) (i place : Nat) : Prop :=
  ∃ j, s.jobs[i]? = some j ∧ j.place = place ∧
    (j.call = .start .shutdown ∨ j.call = .remove .drain ∨ s.Drained place)

/-- A drain step drains. -/
theorem drained_of_drain (b : Behaviour β ι ω) {s : Traffic β ι ω} {i place : Nat}
    {p : Provider β ι} (hj : s.jobs[i]? = some { place, call := .remove .drain })
    (hp : s.host.provider? place = some p) : (s.step b (.job i)).Drained place := by
  have hlt := (List.getElem?_eq_some_iff.1 (Host.contents_of_provider? hp)).1
  simp only [Drained, step, stepJob, hj, Host.step, hp, Host.contents_put]
  exact List.getElem?_set_self hlt

theorem Draining.step (b : Behaviour β ι ω) {s : Traffic β ι ω} (hs : s.Placed) {i place : Nat}
    (h : s.Draining i place) (e : Event β) : (s.step b e).Draining i place := by
  obtain ⟨j, hj, rfl, hcall⟩ := h
  by_cases he : e.isJob i = true
  · obtain rfl : e = .job i := eq_job_of_isJob he
    obtain ⟨p, hp⟩ := Host.provider?_isSome (hs.jobs j (List.mem_of_getElem? hj))
    refine ⟨_, (step_own b hj hp).1, rfl, ?_⟩
    rcases hcall with hcall | hcall | hcall
    · exact .inr (.inl (by rw [hcall]; rfl))
    · refine .inr (.inr (drained_of_drain b ?_ hp))
      rw [hj, ← hcall]
    · exact .inr (.inr (hcall.step b _))
  · refine ⟨j, jobs_step_other b (Bool.eq_false_iff.2 he) hj, rfl, ?_⟩
    rcases hcall with hcall | hcall | hcall
    · exact .inl hcall
    · exact .inr (.inl hcall)
    · exact .inr (.inr (hcall.step b e))

/-- A job that is done has drained the provider that it was to drain. -/
theorem Draining.drained {s : Traffic β ι ω} {i place : Nat} (h : s.Draining i place)
    (hdone : s.isDone i = true) : s.Drained place := by
  obtain ⟨j, hj, -, hcall | hcall | hcall⟩ := h
  · simp [isDone, hj, hcall, Call.isDone] at hdone
  · simp [isDone, hj, hcall, Call.isDone] at hdone
  · exact hcall

/-- Whether an errand has the providers that it detached drained, or a job of its own for each of
them, according to its stage. -/
def Drains (s : Traffic β ι ω) (e : Errand) : Prop :=
  match e.stage with
  | .join => ∀ place ∈ e.detached, ∃ i ∈ e.jobs, s.Draining i place
  | .finished _ => ∀ place ∈ e.detached, s.Drained place
  | _ => True

theorem Drains.mono {s s' : Traffic β ι ω} {e : Errand} (h : s.Drains e)
    (hdraining : ∀ i place, s.Draining i place → s'.Draining i place)
    (hdrained : ∀ place, s.Drained place → s'.Drained place) : s'.Drains e := by
  unfold Drains at h ⊢
  split
  · rename_i hstage
    rw [hstage] at h
    intro place hplace
    obtain ⟨i, hi, hold⟩ := h place hplace
    exact ⟨i, hi, hdraining i place hold⟩
  · rename_i r hstage
    rw [hstage] at h
    exact fun place hplace => hdrained place (h place hplace)
  · trivial

/-- A step of an errand starts jobs for all that it detached, or finds them done. -/
theorem Drains.move {s : Traffic β ι ω} (hs : s.Placed) {e e' : Errand} {jobs : List (Job β ι)}
    {attached : List (ProviderId × Nat)} (he : e ∈ s.errands) (h : s.Drains e)
    (hmove : Errand.Move s e e' jobs attached) {s' : Traffic β ι ω}
    (hjobs : s'.jobs = s.jobs ++ jobs) (hdrained : ∀ place, s.Drained place → s'.Drained place) :
    s'.Drains e' := by
  cases hmove with
  | refuse err stage =>
    have hnone : e.detached = [] := hs.idle e he (by rw [stage]; rfl)
    intro place hplace
    cases hnone ▸ (hplace : place ∈ e.detached)
  | answer stage =>
    have hnone : e.detached = [] := hs.idle e he (by rw [stage]; rfl)
    intro place hplace
    cases hnone ▸ (hplace : place ∈ e.detached)
  | begin stage =>
    intro place hplace
    obtain ⟨n, hn, rfl⟩ := List.mem_iff_getElem.1 hplace
    refine ⟨s.jobs.length + n, ?_, { place := e.detached[n], call := .start .shutdown }, ?_, rfl,
      .inl rfl⟩
    · exact List.mem_range'_1.2 ⟨Nat.le_add_right _ _, Nat.add_lt_add_left hn _⟩
    · rw [hjobs, List.getElem?_append_right (Nat.le_add_right _ _), Nat.add_sub_cancel_left,
        List.getElem?_map, List.getElem?_eq_getElem hn]
      rfl
  | join stage done =>
    intro place hplace
    rw [Drains, stage] at h
    obtain ⟨i, hi, hdraining⟩ := h place hplace
    exact hdrained place (hdraining.drained (List.all_eq_true.1 done i hi))
  | _ => trivial

/-- Every errand drains what it detached. -/
theorem Reachable.drains {b : Behaviour β ι ω} {w : ω} {s : Traffic β ι ω}
    (hs : Reachable b w s) : ∀ e ∈ s.errands, s.Drains e := by
  refine (hs.induct (fun s => s.Placed ∧ ∀ e ∈ s.errands, s.Drains e)
    ⟨Reachable.placed (b := b) ⟨[], rfl⟩, nofun⟩ ?_).2
  rintro s e ⟨hplaced, hdrains⟩
  refine ⟨hplaced.step b e, ?_⟩
  have hdraining : ∀ i place, s.Draining i place → (s.step b e).Draining i place :=
    fun i place h => h.step b hplaced e
  have hdrained : ∀ place, s.Drained place → (s.step b e).Drained place :=
    fun place h => h.step b e
  have hturn := s.step_turn b e
  generalize s.step b e = s' at hturn hdraining hdrained ⊢
  have hold : ∀ e ∈ s.errands, s'.Drains e := fun e he => (hdrains e he).mono hdraining hdrained
  cases hturn with
  | order o =>
    intro e he
    rcases List.mem_append.1 he with he | he
    · exact hold e he
    · rw [List.mem_singleton.1 he]
      trivial
  | errand errand move =>
    have he := List.mem_of_getElem? errand
    have hnew := (hdrains _ he).move hplaced he move rfl hdrained
    intro e he
    rcases List.mem_or_eq_of_mem_set he with he | rfl
    · exact hold e he
    · exact hnew
  | _ => exact hold

/-- **An errand to shut down all providers leaves none attached and has all of its own drained**,
if no provider is attached while it is on its way. -/
theorem cleared_of_finished {b : Behaviour β ι ω} {w : ω} {s : Traffic β ι ω}
    (hs : Reachable b w s) {i : Nat} {e : Errand} (hi : s.errands[i]? = some e)
    (hstage : e.stage = .start .shutdown) {es : List (Event β)}
    (hes : ∀ e ∈ es, e.attaches = false) {e' : Errand} (hi' : (run b s es).errands[i]? = some e')
    {r : Option (Except Error Answer)} (hstage' : e'.stage = .finished r) :
    (run b s es).host.attached = [] ∧ ∀ place ∈ e'.detached, (run b s es).Drained place := by
  obtain ⟨e'', hi'', hclears⟩ := clears_run (b := b) hes hi (by rw [Clears, hstage])
  obtain rfl : e' = e'' := Option.some.inj (hi'.symm.trans hi'')
  have hdrains := (hs.run es).drains e' (List.mem_of_getElem? hi')
  rw [Clears, hstage'] at hclears
  rw [Drains, hstage'] at hdrains
  exact ⟨hclears, hdrains⟩

/-! ### Teardown is final and complete -/

/-- What holds of a drained provider from then on. -/
structure Final (b : Behaviour β ι ω) (s : Traffic β (Nat × ι) (Trace × ω)) (place : Nat) :
    Prop where
  /-- Its table stays closed and empty. -/
  drained : ∀ es : List (Event β), (run b.traced s es).Drained place
  /-- No call that has not entered its collector succeeds. -/
  refused : ∀ (i : Nat) (j : Job β (Nat × ι)), s.jobs[i]? = some j → j.place = place →
    j.call.Unentered → ∀ (es : List (Event β)) (answer : Answer),
    (run b.traced s es).answer? i ≠ some (.ok answer)
  /-- A call that comes to enter a collector fails because the table is closed, and closes the
  instance by the second of its steps. -/
  closed : ∀ (i : Nat) (c : Collector (Nat × ι)), s.jobs[i]? = some { place, call := .insert c } →
    ∀ es : List (Event β),
    (∃ call, (run b.traced s es).jobs[i]? = some { place, call } ∧
      Refused b.traced c (turns i es) call) ∧
    (run b.traced s es).world.1.partings c.resource.1 = if turns i es < 2 then [] else [.closed]
  /-- Another shutdown finds nothing to close. -/
  zero : ∀ i : Nat, s.jobs[i]? = some { place, call := .start .shutdown } →
    ∀ es : List (Event β),
    (run b.traced s es).jobs[i]? = some { place, call := emptyTeardown (turns i es) }

theorem Drained.final {w : ω} {s : Traffic β (Nat × ι) (Trace × ω)}
    (hs : Reachable b.traced ({}, w) s) {place : Nat} (hdrained : s.Drained place) :
    s.Final b place where
  drained es := hdrained.run b.traced es
  refused i j hj hplace hcall es answer := by
    subst hplace
    obtain ⟨call, hj', hcall'⟩ := follows b.traced (fun _ call => call.Unentered)
      (fun _ call p w h _ hclosed => h.step b.traced hclosed w) hdrained (n := 0) hj hcall es
    intro hanswer
    rw [answer?, hj', Option.bind_some] at hanswer
    unfold Call.result? at hanswer
    split at hanswer
    · rename_i r hfinished
      rw [show call = .finished r from hfinished, Option.some.inj hanswer] at hcall'
      exact hcall'
    · cases hanswer
  closed i c hj es := by
    have hpath := follows b.traced (Refused b.traced c)
      (fun n call p w h _ hclosed => h.step p w hclosed) hdrained (n := 0) hj rfl es
    rw [Nat.zero_add] at hpath
    exact ⟨hpath, partings_refused hs hdrained hj es⟩
  zero i hj es := by
    obtain ⟨call, hj', hcall⟩ := follows b.traced (fun n call => call = emptyTeardown n)
      (fun n call p w h hentries _ => h ▸ step_emptyTeardown b.traced n p w hentries)
      hdrained (n := 0) hj rfl es
    rw [hj', hcall, Nat.zero_add]

/-- What teardown promises in a state of the traffic on a host. -/
structure Teardown (b : Behaviour β ι ω) (s : Traffic β (Nat × ι) (Trace × ω)) : Prop where
  /-- A drain step is final. -/
  final : ∀ i place : Nat, s.jobs[i]? = some { place, call := .remove .drain } →
    (s.step b.traced (.job i)).Final b place
  /-- And it stays so, in whatever state the provider is looked at. -/
  stays : ∀ place : Nat, s.Drained place → ∀ es : List (Event β), (run b.traced s es).Final b place
  /-- What is in a table now has ended once when its provider is drained and all calls are
  finished. -/
  ended : ∀ (place : Nat) (p : Provider β (Nat × ι)) (c : Collector (Nat × ι)),
    s.host.providers[place]? = some p → c ∈ p.table.entries →
    ∀ es : List (Event β), (run b.traced s es).Drained place →
    (∀ j ∈ (run b.traced s es).jobs, ∃ r, j.call = .finished r) →
    ∃ how, (run b.traced s es).world.1.partings c.resource.1 = [how]
  /-- An errand that is finished has all drained that it detached. -/
  errands : ∀ e ∈ s.errands, ∀ r : Option (Except Error Answer), e.stage = .finished r →
    ∀ place ∈ e.detached, s.Drained place
  /-- An errand to shut down all providers ends with none attached and with those drained that it
  detached, if no provider is attached meanwhile. -/
  cleared : ∀ (i : Nat) (e : Errand), s.errands[i]? = some e → e.stage = .start .shutdown →
    ∀ es : List (Event β), (∀ event ∈ es, event.attaches = false) →
    ∀ (e' : Errand) (r : Option (Except Error Answer)),
    (run b.traced s es).errands[i]? = some e' → e'.stage = .finished r →
    (run b.traced s es).host.attached = [] ∧
      ∀ place ∈ e'.detached, (run b.traced s es).Drained place
  /-- A provider goes from the set to one errand: it is attached at most once, and the errands
  have detached it once more when it is not any longer. -/
  once : ∀ es : List (Event β), (∀ event ∈ es, event.attaches = false) → ∀ place : Nat,
    s.host.places.count place ≤ 1 ∧
      (run b.traced s es).detachments place + (run b.traced s es).host.places.count place =
        s.detachments place + s.host.places.count place

/-- **Teardown is final and complete**, whatever calls are going on and however their steps follow
one another. -/
theorem teardown_final {w : ω} {s : Traffic β (Nat × ι) (Trace × ω)}
    (hs : Reachable b.traced ({}, w) s) : s.Teardown b where
  final i place hj := by
    obtain ⟨p, hp⟩ := Host.provider?_isSome (hs.placed.jobs _ (List.mem_of_getElem? hj))
    exact (drained_of_drain b.traced hj hp).final (hs.step _)
  stays place hdrained es := (hdrained.run b.traced es).final (hs.run es)
  ended place p c hp hc es hdrained hdone :=
    partings_of_drained hs (t := (p.table.entries, p.table.closed))
      (by simp [Host.contents, hp]) hc hdrained hdone
  errands e he r hstage := by
    have hdrains := hs.drains e he
    rwa [Drains, hstage] at hdrains
  cleared i e hi hstage es hes e' r hi' hstage' :=
    cleared_of_finished hs hi hstage hes hi' hstage'
  once es hes place :=
    ⟨List.nodup_iff_count_le_one.1 hs.placed.sound.nodup_places place,
      detachments_run hs hes place⟩

/-- A shutdown of all providers and a deregistration that is faster, up to the drain step. -/
def race : List (Event Unit) :=
  [.make {} (), .attach 0,
    .request 0 (.instantiate .create none Dummy.backendName none nilId),
    .job 0, .job 0, .job 0, .job 0, .job 0, .order .shutdown,
    .order (.deregister ({} : ProviderConfig).providerId), .errand 0, .errand 1, .errand 0,
    .errand 1, .job 1]

theorem teardown_race :
    let s := run Dummy.behaviour.traced { world := ({}, {}) } race
    s.jobs[1]? = some { place := 0, call := .remove .drain } ∧ s.Teardown Dummy.behaviour :=
  ⟨rfl, teardown_final ⟨race, rfl⟩⟩

end Traffic
end Collectors
