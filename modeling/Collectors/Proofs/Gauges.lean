import Collectors.Proofs.Outcomes
import Collectors.Proofs.Table

/-!
# What requests publish

A table publishes its size whenever a collector comes or goes, and when it is drained.
`Provider.perform_shown` says what a request other than a shutdown does to what a table shows: a
collector has come or gone and the size is published, or nothing has changed. A shutdown publishes
always (`Provider.perform_shutdown`).

Both go through the steps of a call (`Call.step_shown`), of which only one, the drain, publishes
without moving a collector of its own.
-/

namespace Collectors

variable {β ι ω : Type}

namespace Table

/-- How often a collector came or went. -/
def moves (t : Table ι) : Nat := t.inserted + t.removed

/-- Whether a table `t'` that was `t` before shows the same. -/
structure Silent (t t' : Table ι) : Prop where
  entries : t'.entries = t.entries
  gauge : t'.gauge = t.gauge
  inserted : t'.inserted = t.inserted
  removed : t'.removed = t.removed

/-- Whether a table `t'` that was `t` before differs at most in what was counted. -/
structure Settles (t t' : Table ι) : Prop where
  entries : t'.entries = t.entries
  closed : t'.closed = t.closed
  gauge : t'.gauge = t.gauge

/-- Whether a table `t'` that was `t` before has published its size since. -/
def Spoken (t t' : Table ι) : Prop := t'.gauge = publish t.gauge t'.size

variable {t t' t'' : Table ι}

theorem Silent.refl (t : Table ι) : t.Silent t := ⟨rfl, rfl, rfl, rfl⟩

theorem Silent.trans (h : t.Silent t') (h' : t'.Silent t'') : t.Silent t'' :=
  ⟨h'.entries.trans h.entries, h'.gauge.trans h.gauge, h'.inserted.trans h.inserted,
    h'.removed.trans h.removed⟩

theorem Silent.moves (h : t.Silent t') : t'.moves = t.moves := by
  rw [Table.moves, Table.moves, h.inserted, h.removed]

/-- What was published is shown until something else is. -/
theorem Spoken.of_same (h : t.Spoken t') (hentries : t''.entries = t'.entries)
    (hgauge : t''.gauge = t'.gauge) : t.Spoken t'' := by
  rw [Spoken, hgauge, h, size, size, hentries]

theorem Silent.spoken (h : t.Silent t') (h' : t'.Spoken t'') : t.Spoken t'' := by
  rw [Spoken, h', h.gauge]

theorem Spoken.trans (h : t.Spoken t') (h' : t'.Spoken t'') : t.Spoken t'' := by
  rw [Spoken, h', h]
  cases t.gauge <;> rfl

/-- A table that publishes nowhere never does. -/
theorem Spoken.isSome (h : t.Spoken t') : t'.gauge.isSome = t.gauge.isSome := by
  rw [h, publish, Option.isSome_map]

end Table

namespace Call

/-! ### Steps -/

/-- Whether a call is part of a shutdown. -/
def TearsDown : Call β ι → Prop
  | start .shutdown | remove .drain | remove (.countDrained _) | remove (.closeAll _ _)
  | remove (.countFailureOfAll _ _) => True
  | _ => False

/-- Whether a call is part of a shutdown that has drained the table, or has ended. -/
def Settled : Call β ι → Prop
  | remove (.countDrained _) | remove (.closeAll _ _) | remove (.countFailureOfAll _ _)
  | finished _ | broken => True
  | _ => False

theorem not_tearsDown_start {r : Request} (hr : r ≠ .shutdown) :
    ¬ (start r : Call β ι).TearsDown := by
  cases r with
  | shutdown => exact absurd rfl hr
  | _ => exact id

theorem not_tearsDown_begin (p : Provider β ι) {r : Request} (hr : r ≠ .shutdown) :
    ¬ (begin p r).TearsDown := by
  cases r with
  | shutdown => exact absurd rfl hr
  | instantiate | close | destroy | list | hello | sum | invoke =>
    simp only [begin]; split <;> exact id

theorem not_tearsDown_ofOutcome {α : Type} (give : α → Answer) (r : Option (Except Error α)) :
    ¬ (ofOutcome give r : Call β ι).TearsDown := by
  cases r <;> exact id

/-- No call becomes a part of a shutdown. -/
theorem not_tearsDown_step (b : Behaviour β ι ω) {call : Call β ι} (h : ¬ call.TearsDown)
    (p : Provider β ι) (w : ω) : ¬ (call.step b p w).call.TearsDown := by
  cases call with
  | start r => exact not_tearsDown_begin p fun hr => h (by rw [hr]; trivial)
  | remove r =>
    cases r with
    | detach target runClose =>
      simp only [step, Removal.step]
      split
      · exact id
      · cases runClose <;> exact id
    | close c => simp only [step, Removal.step]; split <;> exact id
    | drain | countDrained | closeAll | countFailureOfAll => exact absurd trivial h
    | countFailure | removed | tornDown | broken => exact id
  | checkClosed | findBackend | instantiate | insert | closeRefused | detachToDestroy | destroy =>
    simp only [step]; split <;> exact id
  | hello | sum | invoke => exact not_tearsDown_ofOutcome _ _
  | list | finished | broken => exact id

/-- What a step does to what a table shows, unless it is part of a shutdown: a collector comes or
goes and the size is published, or nothing changes. -/
theorem step_shown (b : Behaviour β ι ω) {call : Call β ι} (h : ¬ call.TearsDown)
    (p : Provider β ι) (w : ω) :
    let t := (call.step b p w).provider.table
    p.table.Silent t ∨ p.table.Spoken t ∧ t.moves = p.table.moves + 1 := by
  dsimp only
  cases call with
  | insert c =>
    rcases p.table.insert_cases c with ⟨-, h⟩ | ⟨-, -, h⟩ |
      ⟨-, -, t, h, hentries, -, hgauge, hinserted, hremoved, -⟩ <;> simp only [step, h]
    · exact .inl (.refl _)
    · exact .inl (.refl _)
    · refine .inr ⟨?_, by rw [Table.moves, Table.moves, hinserted, hremoved]; omega⟩
      rw [Table.Spoken, hgauge, Table.size, Table.size, hentries, List.length_append]
      rfl
  | detachToDestroy id =>
    rcases p.table.take_cases id with ⟨-, h⟩ | ⟨c, -, -, h⟩ <;> simp only [step, h]
    · exact .inl (.refl _)
    · exact .inr ⟨rfl, rfl⟩
  | remove r =>
    cases r with
    | detach id runClose =>
      rcases p.table.take_cases id with ⟨-, h⟩ | ⟨c, -, -, h⟩ <;> simp only [step, Removal.step, h]
      · exact .inl (.refl _)
      · exact .inr ⟨rfl, rfl⟩
    | close c => simp only [step, Removal.step]; split <;> exact .inl (.refl _)
    | drain | countDrained | closeAll | countFailureOfAll => exact absurd trivial h
    | countFailure | removed | tornDown | broken => exact .inl ⟨rfl, rfl, rfl, rfl⟩
  | instantiate | closeRefused | destroy => simp only [step]; split <;> exact .inl (.refl _)
  | _ => exact .inl (.refl _)

/-- Behind the drain, a shutdown changes neither the collectors nor the gauge. -/
theorem settled_step (b : Behaviour β ι ω) {call : Call β ι} (h : call.Settled) (p : Provider β ι)
    (w : ω) :
    let next := call.step b p w
    next.call.Settled ∧ p.table.Settles next.provider.table := by
  dsimp only
  cases call with
  | remove r =>
    cases r with
    | countDrained l => exact ⟨trivial, rfl, rfl, rfl⟩
    | closeAll rest total =>
      cases rest with
      | nil => exact ⟨trivial, rfl, rfl, rfl⟩
      | cons c rest => simp only [step, Removal.step]; split <;> exact ⟨trivial, rfl, rfl, rfl⟩
    | countFailureOfAll rest total => exact ⟨trivial, rfl, rfl, rfl⟩
    | _ => exact h.elim
  | finished r => exact ⟨trivial, rfl, rfl, rfl⟩
  | broken => exact ⟨trivial, rfl, rfl, rfl⟩
  | _ => exact h.elim

/-- A gauge is never lost. -/
theorem isSome_gauge_step (b : Behaviour β ι ω) (call : Call β ι) (p : Provider β ι) (w : ω) :
    (call.step b p w).provider.table.gauge.isSome = p.table.gauge.isSome := by
  by_cases h : call.TearsDown
  · cases call with
    | start r => rfl
    | remove r =>
      cases r with
      | drain => exact Option.isSome_map
      | countDrained | closeAll | countFailureOfAll =>
        exact congrArg Option.isSome (settled_step b (by trivial) p w).2.gauge
      | _ => exact h.elim
    | _ => exact h.elim
  · rcases step_shown b h p w with h | ⟨h, -⟩
    · rw [h.gauge]
    · exact h.isSome

/-! ### Runs -/

theorem id_run (b : Behaviour β ι ω) (call : Call β ι) (p : Provider β ι) (w : ω) :
    (call.run b p w).provider.id = p.id := by
  fun_induction call.run b p w with
  | case1 call p w hdone => rfl
  | case2 call p w hdone next last ih => exact ih.trans (call.id_step b p w)

/-- What a run that is no part of a shutdown does to what a table shows. -/
theorem run_shown (b : Behaviour β ι ω) {call : Call β ι} (h : ¬ call.TearsDown)
    (p : Provider β ι) (w : ω) :
    let t := (call.run b p w).provider.table
    p.table.Silent t ∨ p.table.Spoken t ∧ p.table.moves < t.moves := by
  -- Along the run; what was published before a step that shows nothing is shown behind it.
  fun_induction call.run b p w with
  | case1 call p w hdone => exact .inl (.refl _)
  | case2 call p w hdone next last ih =>
    rcases step_shown b h p w with hsilent | ⟨hspoken, hmoves⟩ <;>
      rcases ih (not_tearsDown_step b h p w) with hsilent' | ⟨hspoken', hmoves'⟩
    · exact .inl (hsilent.trans hsilent')
    · exact .inr ⟨hsilent.spoken hspoken', by rw [← hsilent.moves]; exact hmoves'⟩
    · have hlast := hsilent'.moves
      refine .inr ⟨hspoken.of_same hsilent'.entries hsilent'.gauge, ?_⟩
      dsimp only [last, next] at hlast ⊢
      omega
    · refine .inr ⟨hspoken.trans hspoken', ?_⟩
      dsimp only [last, next] at hmoves' ⊢
      omega

theorem settled_run (b : Behaviour β ι ω) {call : Call β ι} (h : call.Settled) (p : Provider β ι)
    (w : ω) : p.table.Settles (call.run b p w).provider.table := by
  fun_induction call.run b p w with
  | case1 call p w hdone => exact ⟨rfl, rfl, rfl⟩
  | case2 call p w hdone next last ih =>
    obtain ⟨hsettled, hstep⟩ := settled_step b h p w
    have hrest := ih hsettled
    exact ⟨hrest.entries.trans hstep.entries, hrest.closed.trans hstep.closed,
      hrest.gauge.trans hstep.gauge⟩

end Call

namespace Provider

/-- **A request publishes what it moves.** Unless it is a shutdown, a request moves a collector and
publishes the size of the table, or shows nothing. -/
theorem perform_shown (b : Behaviour β ι ω) {r : Request} (hr : r ≠ .shutdown) (p : Provider β ι)
    (w : ω) :
    let t := (p.perform b r w).provider.table
    p.table.Silent t ∨ p.table.Spoken t ∧ p.table.moves < t.moves :=
  Call.run_shown b (Call.not_tearsDown_start hr) p w

/-- **A shutdown leaves nothing and publishes that.** -/
theorem perform_shutdown (b : Behaviour β ι ω) (p : Provider β ι) (w : ω) :
    let t := (p.perform b .shutdown w).provider.table
    t.entries = [] ∧ t.closed = true ∧ p.table.Spoken t := by
  rw [perform, Call.run_of_not_isDone rfl]
  dsimp only
  rw [show (Call.step b (.start .shutdown) p w : Call.Next β ι ω).call = .remove .drain from rfl,
    Call.run_of_not_isDone rfl]
  have hsettled : (Call.remove (.countDrained p.table.entries) : Call β ι).Settled := trivial
  have hdrained : p.table.Spoken p.table.drain.2 := rfl
  have hrest := Call.settled_run b hsettled { p with table := p.table.drain.2 } w
  exact ⟨hrest.entries, hrest.closed, hdrained.of_same hrest.entries hrest.gauge⟩

end Provider
end Collectors
