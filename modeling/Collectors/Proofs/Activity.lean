import Mathlib.Algebra.Order.BigOperators.Group.List
import Mathlib.Algebra.Order.Group.Nat
import Collectors.Proofs.Table

/-!
# What a table counts

`Job.Stands` says of every place where a call may be what it has done by then, and `Job.Moves` what
one step of it does to the table around it: to the entries, the counters, the gauge, and to the
books of the call. Both are kept up by every step (`Job.Stands.step`), and the sums over all calls
follow (`Activity.Booked.step`). While a removal is between two of its steps its counter lags
behind (`Job.uncounted`, `Job.unreported`); when no call is in progress nothing lags
(`Activity.Booked.exact`).

`Activity.Books` is what comes of it for every schedule. It ends with the calls that are made one
after another: they are the schedules in which every call is let run to its end.
-/

namespace Collectors
namespace Table

variable {ι ω : Type} (close : ι → ω → Option (Except Error Unit) × ω)

/-! ### What a call has done -/

/-- What a removal has done, with what is left of it: who went out, and what was closed. -/
inductive Underway : Op ι → Removal ι → List (Collector ι) → List (Close ι) → Prop where
  | detach {id : CollectorId} {runClose : Bool} :
    Underway (.remove id runClose) (.detach id runClose) [] []
  | close {c : Collector ι} : Underway (.remove c.id true) (.close c) [c] []
  | countFailure {c : Collector ι} {e : Error} :
    Underway (.remove c.id true) (.countFailure e) [c] [(c.resource, some (.error e))]
  | drain : Underway .removeAll .drain [] []
  | countDrained {detached : List (Collector ι)} :
    Underway .removeAll (.countDrained detached) detached []
  | closeAll {rest departed : List (Collector ι)} {closes : List (Close ι)}
    (order : closes.map Prod.fst ++ rest.map Collector.resource = departed.map Collector.resource)
    (whole : ∀ x ∈ closes, x.2 ≠ none) :
    Underway .removeAll (.closeAll rest departed.length) departed closes
  | countFailureOfAll {rest departed : List (Collector ι)} {closes : List (Close ι)}
    (order : closes.map Prod.fst ++ rest.map Collector.resource = departed.map Collector.resource)
    (whole : ∀ x ∈ closes, x.2 ≠ none) :
    Underway .removeAll (.countFailureOfAll rest departed.length) departed closes

/-- What a call that has replied has done: who went out, and what was closed. -/
inductive Finished : Op ι → Reply ι → List (Collector ι) → List (Close ι) → Prop where
  | inserted {c : Collector ι} (result : Except Error Unit) :
    Finished (.insert c) (.inserted result) [] []
  | taken {c : Collector ι} : Finished (.take c.id) (.collector (some c)) [c] []
  | missed {id : CollectorId} : Finished (.take id) (.collector none) [] []
  | absent {id : CollectorId} {runClose : Bool} :
    Finished (.remove id runClose) (.removed (some (.error (.collectorNotFound id.text)))) [] []
  | detached {c : Collector ι} :
    Finished (.remove c.id false) (.removed (some (.ok ()))) [c] []
  | removed {c : Collector ι} (result : Option (Except Error Unit)) :
    Finished (.remove c.id true) (.removed result) [c] [(c.resource, result)]
  /-- Every instance was closed, in the order in which the collectors stood in the table. -/
  | tornDown {departed : List (Collector ι)} {closes : List (Close ι)}
    (order : closes.map Prod.fst = departed.map Collector.resource)
    (whole : ∀ x ∈ closes, x.2 ≠ none) :
    Finished .removeAll (.tornDown (some departed.length)) departed closes
  /-- The close of one instance broke down; those in front of it were closed. -/
  | brokenOff {departed : List (Collector ι)} {closes : List (Close ι)} {i : ι}
    (order : (closes ++ [(i, none)]).map Prod.fst <+: departed.map Collector.resource)
    (whole : ∀ x ∈ closes, x.2 ≠ none) :
    Finished .removeAll (.tornDown none) departed (closes ++ [(i, none)])
  | got (id : CollectorId) (c : Option (Collector ι)) : Finished (.get id) (.collector c) [] []
  | contained (id : CollectorId) (b : Bool) : Finished (.contains id) (.truth b) [] []
  | sized (n : Nat) : Finished .size (.count n) [] []
  | emptied (b : Bool) : Finished .isEmpty (.truth b) [] []
  | listed (limit : Nat) (ids : List CollectorId) : Finished (.list limit) (.ids ids) [] []

namespace Job

/-- Whether a call has done what it must have done where it is. -/
inductive Stands : Job ι → Prop where
  | ready {op : Op ι} (h : op.stage = .ready) : Stands ⟨op, .ready, [], []⟩
  | removing {op : Op ι} {r : Removal ι} {departed : List (Collector ι)} {closes : List (Close ι)}
    (h : Underway op r departed closes) : Stands ⟨op, .removing r, departed, closes⟩
  | replied {op : Op ι} {reply : Reply ι} {departed : List (Collector ι)}
    {closes : List (Close ι)} (h : Finished op reply departed closes) :
    Stands ⟨op, .replied reply, departed, closes⟩

/-- How many collectors the call has detached and not yet counted. -/
def uncounted (j : Job ι) : Nat :=
  match j.stage with
  | .removing (.countDrained detached) => detached.length
  | _ => 0

/-- How many failed closes the call has not yet counted. -/
def unreported (j : Job ι) : Nat :=
  match j.stage with
  | .removing (.countFailure _) | .removing (.countFailureOfAll _ _) => 1
  | _ => 0

/-- What a step of a call does to a table, which was `t` and is `t'`. -/
structure Moves (t t' : Table ι) (j j' : Job ι) : Prop where
  op : j'.op = j.op
  stands : j'.Stands
  /-- Who came in is counted, and the call is an insert that was accepted. -/
  inserted : t'.inserted = t.inserted + (Collector.beyond t'.entries t.entries).length
  accepted : (if j'.accepted then 1 else 0) =
    (if j.accepted then 1 else 0) + (Collector.beyond t'.entries t.entries).length
  removed : t'.removed + j'.uncounted + j.departed.length =
    t.removed + j.uncounted + j'.departed.length
  closeFailures : t'.closeFailures + j'.unreported + j.failures =
    t.closeFailures + j.unreported + j'.failures
  size : t'.size + j'.departed.length =
    t.size + j.departed.length + (Collector.beyond t'.entries t.entries).length
  /-- A gauge that showed the size does so again. -/
  gauge : ∀ g, t.gauge = publish g t.size → t'.gauge = publish g t'.size
  order : t'.entries.Sublist (t.entries ++ Collector.beyond t'.entries t.entries)
  departed : j'.departed = j.departed ∨ j'.departed.Sublist t.entries
  closes : j'.closes = j.closes ∨ ∃ i w, j'.closes = j.closes ++ [(i, (close i w).1)]
  /-- Who moves nobody changes nothing, unless it closes the table. -/
  idle : j.op.drains = false → j'.accepted = false → j'.departed = [] → t' = t

variable {close} {t t' : Table ι} {w w' : ω} {j : Job ι} {stage : Stage ι} {closes : List (Close ι)}

theorem step_of_next (h : j.next close t w = (stage, t', closes, w')) :
    j.step close t w =
      ({ j with stage, closes, departed := j.departed ++ Collector.beyond t.entries t'.entries },
        t', w') := by
  rw [step, h]

/-- A step that leaves the entries as they are. -/
theorem moves_of_still (hnext : j.next close t w = (stage, t', closes, w'))
    (hstands : Stands { j with stage, closes }) (hentries : t'.entries = t.entries)
    (hinserted : t'.inserted = t.inserted) (hgauge : t'.gauge = t.gauge)
    (haccepted : ({ j with stage, closes } : Job ι).accepted = j.accepted)
    (hremoved : t'.removed + uncounted { j with stage } = t.removed + j.uncounted)
    (hfailures : t'.closeFailures + unreported { j with stage } + j.failures =
      t.closeFailures + j.unreported + failures { j with closes })
    (hcloses : closes = j.closes ∨ ∃ i w, closes = j.closes ++ [(i, (close i w).1)])
    (hidle : j.op.drains = false → j.departed = [] → t' = t) :
    Moves close t (j.step close t w).2.1 j (j.step close t w).1 := by
  have hnone : Collector.beyond t'.entries t.entries = [] := by
    rw [hentries, Collector.beyond_self]
  have hgone : Collector.beyond t.entries t'.entries = [] := by
    rw [hentries, Collector.beyond_self]
  have hsize : t'.size = t.size := congrArg List.length hentries
  rw [step_of_next hnext, hgone, List.append_nil]
  refine ⟨rfl, hstands, ?_, ?_, ?_, hfailures, ?_, fun g h => ?_, ?_, .inl rfl, hcloses,
    fun hop _ hdeparted => hidle hop hdeparted⟩
  · rw [hnone, hinserted, List.length_nil, Nat.add_zero]
  · rw [hnone, haccepted, List.length_nil, Nat.add_zero]
  · exact congrArg (· + j.departed.length) hremoved
  · rw [hnone, hsize, List.length_nil, Nat.add_zero]
  · rw [hgauge, hsize, h]
  · rw [hnone, hentries, List.append_nil]

/-- A step at which collectors leave the table. -/
theorem moves_of_leaving {gone : List (Collector ι)}
    (hnext : j.next close t w = (stage, t', j.closes, w')) (hbefore : j.departed = [])
    (hgone : Collector.beyond t.entries t'.entries = gone)
    (hstands : Stands { j with stage, departed := gone })
    (hperm : t.entries.Perm (gone ++ t'.entries)) (hkept : t'.entries.Sublist t.entries)
    (hinserted : t'.inserted = t.inserted) (hgauge : t'.gauge = publish t.gauge t'.size)
    (haccepted : ({ j with stage } : Job ι).accepted = j.accepted)
    (hremoved : t'.removed + uncounted { j with stage } = t.removed + j.uncounted + gone.length)
    (hfailures : t'.closeFailures + unreported { j with stage } = t.closeFailures + j.unreported)
    (hidle : j.op.drains = false → gone ≠ []) :
    Moves close t (j.step close t w).2.1 j (j.step close t w).1 := by
  have hnone : Collector.beyond t'.entries t.entries = [] :=
    Collector.beyond_eq_nil_of_subset hkept.subset
  have hsize : t.size = gone.length + t'.size := by
    rw [Table.size, hperm.length_eq, List.length_append, Table.size]
  rw [step_of_next hnext, hgone, hbefore, List.nil_append]
  refine ⟨rfl, hstands, ?_, ?_, ?_, congrArg (· + j.failures) hfailures, ?_, fun g h => ?_, ?_,
    .inr ?_, .inl rfl, fun hop _ hdeparted => absurd hdeparted (hidle hop)⟩
  · rw [hnone, hinserted, List.length_nil, Nat.add_zero]
  · rw [hnone, List.length_nil, Nat.add_zero]
    exact congrArg (fun b : Bool => if b then 1 else 0) haccepted
  · rw [hbefore]
    exact hremoved
  · rw [hnone, hbefore, hsize, List.length_nil]
    dsimp only
    omega
  · rw [hgauge, h]
    cases g <;> rfl
  · rw [hnone, List.append_nil]
    exact hkept
  · rw [← hgone]
    exact List.filter_sublist

theorem accepted_eq_false {op : Op ι} (h : ∀ c, op ≠ .insert c) (stage : Stage ι)
    (departed : List (Collector ι)) (closes : List (Close ι)) :
    (⟨op, stage, departed, closes⟩ : Job ι).accepted = false := by
  cases stage with
  | replied reply =>
    cases op with
    | insert c => exact absurd rfl (h c)
    | _ => rfl
  | _ => rfl

/-! ### One step -/

/-- A step that enters a collector. -/
theorem moves_insert (c : Collector ι) (t : Table ι) (w : ω) :
    let j : Job ι := ⟨.insert c, .ready, [], []⟩
    Moves close t (j.step close t w).2.1 j (j.step close t w).1 := by
  dsimp only
  rcases t.insert_cases c with ⟨-, h⟩ | ⟨-, -, h⟩ |
    ⟨-, hid, t', h, hentries, -, hgauge, hinserted, hremoved, hfailures⟩
  · have hnext : next close ⟨.insert c, .ready, [], []⟩ t w =
        (.replied (.inserted (.error .tableClosed)), t, [], w) := by
      simp only [next, apply, h]
    exact moves_of_still hnext (.replied (.inserted _)) rfl rfl rfl rfl rfl rfl (.inl rfl)
      fun _ _ => rfl
  · have hnext : next close ⟨.insert c, .ready, [], []⟩ t w =
        (.replied (.inserted (.error (.collectorExists c.id.text))), t, [], w) := by
      simp only [next, apply, h]
    exact moves_of_still hnext (.replied (.inserted _)) rfl rfl rfl rfl rfl rfl (.inl rfl)
      fun _ _ => rfl
  · have hnext : next close ⟨.insert c, .ready, [], []⟩ t w =
        (.replied (.inserted (.ok ())), t', [], w) := by
      simp only [next, apply, h]
    have hcame : Collector.beyond t'.entries t.entries = [c] := by
      rw [hentries, Collector.beyond_append hid]
    have hgone : Collector.beyond t.entries t'.entries = [] := by
      rw [hentries, Collector.beyond_eq_nil_of_subset (List.subset_append_left _ _)]
    have hsize : t'.size = t.size + 1 := by
      rw [Table.size, hentries, List.length_append, List.length_singleton, Table.size]
    rw [step_of_next hnext, hgone]
    refine ⟨rfl, .replied (.inserted _), ?_, ?_, ?_, ?_, ?_, fun g h => ?_, ?_, .inl rfl, .inl rfl,
      fun _ h => by cases h⟩
    · rw [hcame, hinserted, List.length_singleton]
    · rw [hcame]
      rfl
    · exact congrArg (· + 0 + 0) hremoved
    · exact congrArg (· + 0 + 0) hfailures
    · rw [hcame, hsize]
      rfl
    · rw [hgauge, h, hsize]
      cases g <;> rfl
    · rw [hcame, hentries]

/-- A step that detaches a collector. -/
theorem moves_take (id : CollectorId) (t : Table ι) (w : ω) :
    let j : Job ι := ⟨.take id, .ready, [], []⟩
    Moves close t (j.step close t w).2.1 j (j.step close t w).1 := by
  dsimp only
  rcases t.take_cases id with ⟨-, h⟩ | ⟨c, hc, rfl, h⟩
  · have hnext : next close ⟨.take id, .ready, [], []⟩ t w =
        (.replied (.collector none), t, [], w) := by
      simp only [next, apply, h]
    exact moves_of_still hnext (.replied .missed) rfl rfl rfl rfl rfl rfl (.inl rfl) fun _ _ => rfl
  · have hnext : next close ⟨.take c.id, .ready, [], []⟩ t w =
        (.replied (.collector (some c)), t.without c.id, [], w) := by
      simp only [next, apply, h]
    exact moves_of_leaving hnext rfl (Collector.beyond_without hc) (.replied .taken)
      (perm_without hc) List.filter_sublist rfl rfl rfl rfl rfl
      fun _ => List.cons_ne_nil _ _

/-- A step of a call that only looks. -/
theorem moves_look {op : Op ι} {reply : Reply ι} (hop : ∀ c, op ≠ .insert c)
    (happly : t.apply (noted close) ([], w) op = (reply, t, [], w)) (h : Finished op reply [] []) :
    let j : Job ι := ⟨op, .ready, [], []⟩
    Moves close t (j.step close t w).2.1 j (j.step close t w).1 := by
  have hnext : next close ⟨op, .ready, [], []⟩ t w = (.replied reply, t, [], w) := by
    simp only [next, happly]
  exact moves_of_still hnext (.replied h) rfl rfl rfl
    ((accepted_eq_false hop _ _ _).trans (accepted_eq_false hop _ _ _).symm) rfl rfl (.inl rfl)
    fun _ _ => rfl

/-- A step of a removal of all collectors behind its drain. -/
theorem moves_closeAll {rest departed : List (Collector ι)}
    (order : closes.map Prod.fst ++ rest.map Collector.resource = departed.map Collector.resource)
    (whole : ∀ x ∈ closes, x.2 ≠ none) (t : Table ι) (w : ω) :
    let j : Job ι := ⟨.removeAll, .removing (.closeAll rest departed.length), departed, closes⟩
    Moves close t (j.step close t w).2.1 j (j.step close t w).1 := by
  dsimp only
  cases rest with
  | nil =>
    rw [List.map_nil, List.append_nil] at order
    exact moves_of_still rfl (.replied (.tornDown order whole)) rfl rfl rfl rfl rfl rfl (.inl rfl)
      fun _ _ => rfl
  | cons c rest =>
    have horder (x : Option (Except Error Unit)) : (closes ++ [(c.resource, x)]).map Prod.fst ++
        rest.map Collector.resource = departed.map Collector.resource := by
      rw [← order, List.map_append, List.append_assoc]
      rfl
    have hwhole (x : Except Error Unit) : ∀ y ∈ closes ++ [(c.resource, some x)], y.2 ≠ none :=
      fun y hy => (List.mem_append.1 hy).elim (whole y) fun hy =>
        List.mem_singleton.1 hy ▸ Option.some_ne_none x
    have hclosed : ∃ i w', closes ++ [(c.resource, (close c.resource w).1)] =
        closes ++ [(i, (close i w').1)] := ⟨c.resource, w, rfl⟩
    have hfailures (x : Option (Except Error Unit)) :
        (closes ++ [(c.resource, x)]).countP Close.failed =
          closes.countP Close.failed + if Close.failed (c.resource, x) then 1 else 0 := by
      rw [List.countP_append, List.countP_singleton]
    rcases hclose : close c.resource w with ⟨_ | (e | ⟨⟩), w'⟩ <;> rw [hclose] at hclosed
    · have hnext : next close ⟨.removeAll, .removing (.closeAll (c :: rest) departed.length),
          departed, closes⟩ t w =
            (.replied (.tornDown none), t, closes ++ [(c.resource, none)], w') := by
        simp only [next, Removal.step, noted, hclose]
        rfl
      exact moves_of_still hnext (.replied (.brokenOff ⟨_, horder none⟩ whole)) rfl rfl rfl rfl rfl
        (congrArg (t.closeFailures + 0 + ·) (hfailures none).symm) (.inr hclosed) fun _ _ => rfl
    · have hnext : next close ⟨.removeAll, .removing (.closeAll (c :: rest) departed.length),
          departed, closes⟩ t w = (.removing (.countFailureOfAll rest departed.length), t,
            closes ++ [(c.resource, some (.error e))], w') := by
        simp only [next, Removal.step, noted, hclose]
        rfl
      refine moves_of_still hnext (.removing (.countFailureOfAll (horder _) (hwhole _))) rfl rfl
        rfl rfl rfl ?_ (.inr hclosed) fun _ _ => rfl
      rw [failures, failures, hfailures]
      exact Nat.add_right_comm _ _ _
    · have hnext : next close ⟨.removeAll, .removing (.closeAll (c :: rest) departed.length),
          departed, closes⟩ t w = (.removing (.closeAll rest departed.length), t,
            closes ++ [(c.resource, some (.ok ()))], w') := by
        simp only [next, Removal.step, noted, hclose]
        rfl
      exact moves_of_still hnext (.removing (.closeAll (horder _) (hwhole _))) rfl rfl rfl rfl
        rfl (congrArg (t.closeFailures + 0 + ·) (hfailures (some (.ok ()))).symm) (.inr hclosed)
        fun _ _ => rfl

/-- A step of a removal. -/
theorem moves_removing {op : Op ι} {r : Removal ι} {departed : List (Collector ι)}
    (h : Underway op r departed closes) (t : Table ι) (w : ω) :
    let j : Job ι := ⟨op, .removing r, departed, closes⟩
    Moves close t (j.step close t w).2.1 j (j.step close t w).1 := by
  dsimp only
  cases h with
  | @detach id runClose =>
    rcases t.take_cases id with ⟨-, h⟩ | ⟨c, hc, rfl, h⟩
    · have hnext : next close ⟨.remove id runClose, .removing (.detach id runClose), [], []⟩ t w =
          (.replied (.removed (some (.error (.collectorNotFound id.text)))), t, [], w) := by
        simp only [next, Removal.step, h]
        rfl
      exact moves_of_still hnext (.replied .absent) rfl rfl rfl rfl rfl rfl (.inl rfl)
        fun _ _ => rfl
    · cases runClose with
      | false =>
        have hnext : next close ⟨.remove c.id false, .removing (.detach c.id false), [], []⟩ t w =
            (.replied (.removed (some (.ok ()))), t.without c.id, [], w) := by
          simp only [next, Removal.step, h]
          rfl
        exact moves_of_leaving hnext rfl (Collector.beyond_without hc) (.replied .detached)
          (perm_without hc) List.filter_sublist rfl rfl rfl rfl rfl
          fun _ => List.cons_ne_nil _ _
      | true =>
        have hnext : next close ⟨.remove c.id true, .removing (.detach c.id true), [], []⟩ t w =
            (.removing (.close c), t.without c.id, [], w) := by
          simp only [next, Removal.step, h]
          rfl
        exact moves_of_leaving hnext rfl (Collector.beyond_without hc) (.removing .close)
          (perm_without hc) List.filter_sublist rfl rfl rfl rfl rfl
          fun _ => List.cons_ne_nil _ _
  | @close c =>
    have hclosed : ∃ i w', [(c.resource, (close c.resource w).1)] =
        ([] : List (Close ι)) ++ [(i, (close i w').1)] := ⟨c.resource, w, rfl⟩
    rcases hclose : close c.resource w with ⟨_ | (e | ⟨⟩), w'⟩ <;> rw [hclose] at hclosed
    · have hnext : next close ⟨.remove c.id true, .removing (.close c), [c], []⟩ t w =
          (.replied (.removed none), t, [(c.resource, none)], w') := by
        simp only [next, Removal.step, noted, hclose]
        rfl
      exact moves_of_still hnext (.replied (.removed none)) rfl rfl rfl rfl rfl rfl (.inr hclosed)
        fun _ _ => rfl
    · have hnext : next close ⟨.remove c.id true, .removing (.close c), [c], []⟩ t w =
          (.removing (.countFailure e), t, [(c.resource, some (.error e))], w') := by
        simp only [next, Removal.step, noted, hclose]
        rfl
      exact moves_of_still hnext (.removing .countFailure) rfl rfl rfl rfl rfl rfl (.inr hclosed)
        fun _ _ => rfl
    · have hnext : next close ⟨.remove c.id true, .removing (.close c), [c], []⟩ t w =
          (.replied (.removed (some (.ok ()))), t, [(c.resource, some (.ok ()))], w') := by
        simp only [next, Removal.step, noted, hclose]
        rfl
      exact moves_of_still hnext (.replied (.removed _)) rfl rfl rfl rfl rfl rfl (.inr hclosed)
        fun _ _ => rfl
  | @countFailure c e =>
    exact moves_of_still rfl (.replied (.removed _)) rfl rfl rfl rfl rfl rfl (.inl rfl)
      fun _ h => by cases h
  | drain =>
    have hgone : Collector.beyond t.entries t.drain.2.entries = t.entries :=
      Collector.beyond_nil_right _
    have hall : t.entries.Perm (t.entries ++ t.drain.2.entries) :=
      .of_eq (List.append_nil t.entries).symm
    exact moves_of_leaving rfl rfl hgone (.removing .countDrained) hall (List.nil_sublist _) rfl rfl
      rfl rfl rfl fun h => by cases h
  | countDrained =>
    have hnone : ∀ x ∈ ([] : List (Close ι)), x.2 ≠ none := List.forall_mem_nil _
    exact moves_of_still rfl (.removing (.closeAll rfl hnone)) rfl rfl rfl rfl rfl rfl (.inl rfl)
      fun h => by cases h
  | closeAll order whole => exact moves_closeAll order whole t w
  | countFailureOfAll order whole =>
    exact moves_of_still rfl (.removing (.closeAll order whole)) rfl rfl rfl rfl rfl rfl (.inl rfl)
      fun h => by cases h

variable (close) in
/-- **A step of a call does to the table what is counted of it**, and leaves the call with what it
must have done by then. -/
theorem Stands.step {j : Job ι} (h : j.Stands) (t : Table ι) (w : ω) :
    Moves close t (j.step close t w).2.1 j (j.step close t w).1 := by
  cases h with
  | @ready op hop =>
    cases op with
    | insert c => exact moves_insert c t w
    | take id => exact moves_take id t w
    | remove id runClose => cases hop
    | removeAll => cases hop
    | get id => exact moves_look nofun rfl (.got id _)
    | contains id => exact moves_look nofun rfl (.contained id _)
    | size => exact moves_look nofun rfl (.sized _)
    | isEmpty => exact moves_look nofun rfl (.emptied _)
    | list limit => exact moves_look nofun rfl (.listed limit _)
  | removing h => exact moves_removing h t w
  | replied h =>
    exact moves_of_still rfl (.replied h) rfl rfl rfl rfl rfl rfl (.inl rfl) fun _ _ => rfl

theorem stands_of (op : Op ι) : (of op).Stands := by
  cases op with
  | remove id runClose => exact .removing .detach
  | removeAll => exact .removing .drain
  | _ => exact .ready rfl

/-- A call has had as many collectors leave as it has failed closes and collectors to count. -/
theorem Stands.failures_le {j : Job ι} (h : j.Stands) :
    j.failures + j.uncounted ≤ j.departed.length := by
  have hall {closes : List (Close ι)} {departed : List (Collector ι)}
      (order : closes.map Prod.fst <+: departed.map Collector.resource) :
      closes.countP Close.failed ≤ departed.length := by
    have hlength := order.length_le
    rw [List.length_map, List.length_map] at hlength
    exact List.countP_le_length.trans hlength
  cases h with
  | ready hop => exact Nat.le_refl 0
  | removing h =>
    cases h with
    | detach | drain => exact Nat.le_refl 0
    | close => exact Nat.zero_le 1
    | countFailure => exact Nat.le_refl 1
    | countDrained => exact (Nat.zero_add _).le
    | closeAll order whole => exact hall ⟨_, order⟩
    | countFailureOfAll order whole => exact hall ⟨_, order⟩
  | replied h =>
    cases h with
    | taken | detached => exact Nat.zero_le 1
    | removed result => exact List.countP_le_length
    | tornDown order whole => exact hall (order ▸ List.prefix_rfl)
    | brokenOff order whole => exact hall order
    | _ => exact Nat.le_refl 0

end Job

/-! ### All calls -/

namespace Activity

/-- The books of a table and its calls at any moment. -/
structure Booked (gauge : Option Nat) (a : Activity ι ω) : Prop where
  stands : ∀ j ∈ a.jobs, j.Stands
  inserted : a.table.inserted = a.entered.length
  accepted : a.jobs.countP Job.accepted = a.entered.length
  /-- What a removal has yet to count is missing. -/
  removed : a.table.removed + (a.jobs.map Job.uncounted).sum = a.departures
  closeFailures : a.table.closeFailures + (a.jobs.map Job.unreported).sum = a.failures
  size : a.table.size + a.departures = a.entered.length
  gauge : a.table.gauge = publish gauge a.table.size
  order : a.table.entries.Sublist a.entered
  departed : ∀ j ∈ a.jobs, j.departed.Sublist a.entered
  closes : ∀ j ∈ a.jobs, ∀ x ∈ j.closes, ∃ w, (close x.1 w).1 = x.2

variable {close} {gauge : Option Nat} {a : Activity ι ω}

variable (close) in
theorem booked_start (gauge : Option Nat) (w : ω) :
    (start gauge w : Activity ι ω).Booked close gauge where
  stands := fun _ hj => nomatch hj
  inserted := rfl
  accepted := rfl
  removed := rfl
  closeFailures := rfl
  size := rfl
  gauge := rfl
  order := .refl _
  departed := fun _ hj => nomatch hj
  closes := fun _ hj => nomatch hj

theorem Booked.call (h : a.Booked close gauge) (op : Op ι) :
    (a.step close (.call op)).Booked close gauge := by
  have hnothing (f : Job ι → Nat) (hf : f (Job.of op) = 0) :
      ((a.jobs ++ [Job.of op]).map f).sum = (a.jobs.map f).sum := by
    rw [List.map_append, List.sum_append, List.map_singleton, List.sum_singleton, hf, Nat.add_zero]
  have huncounted : (Job.of op).uncounted = 0 := by cases op <;> rfl
  have hunreported : (Job.of op).unreported = 0 := by cases op <;> rfl
  have haccepted : (Job.of op).accepted = false := by cases op <;> rfl
  refine ⟨fun j hj => ?_, h.inserted, ?_, ?_, ?_, ?_, h.gauge, h.order, fun j hj => ?_,
    fun j hj => ?_⟩
  · rcases List.mem_append.1 hj with hj | hj
    · exact h.stands j hj
    · exact List.mem_singleton.1 hj ▸ Job.stands_of op
  · simp only [step, List.countP_append, List.countP_singleton, haccepted]
    exact h.accepted
  · rw [departures, step, hnothing _ huncounted, hnothing (fun j => j.departed.length) rfl]
    exact h.removed
  · rw [failures, step, hnothing _ hunreported, hnothing Job.failures rfl]
    exact h.closeFailures
  · rw [departures, step, hnothing (fun j => j.departed.length) rfl]
    exact h.size
  · rcases List.mem_append.1 hj with hj | hj
    · exact h.departed j hj
    · exact List.mem_singleton.1 hj ▸ List.nil_sublist _
  · rcases List.mem_append.1 hj with hj | hj
    · exact h.closes j hj
    · rw [List.mem_singleton.1 hj]
      exact nofun

variable (close) in
/-- What a step of one call leads to. -/
theorem step_of_job {i : Nat} {j : Job ι} (hj : a.jobs[i]? = some j) :
    a.step close (.step i) =
      { table := (j.step close a.table a.world).2.1
        world := (j.step close a.table a.world).2.2
        jobs := a.jobs.set i (j.step close a.table a.world).1
        entered := a.entered ++
          Collector.beyond (j.step close a.table a.world).2.1.entries a.table.entries } := by
  simp only [step, hj]

theorem Booked.next (h : a.Booked close gauge) {i : Nat} {j : Job ι} (hj : a.jobs[i]? = some j) :
    (a.step close (.step i)).Booked close gauge := by
  have hmem : j ∈ a.jobs := List.mem_of_getElem? hj
  have hmoves := (h.stands j hmem).step close a.table a.world
  rw [step_of_job close hj]
  generalize j.step close a.table a.world = next at hmoves ⊢
  obtain ⟨j', t', w'⟩ := next
  dsimp only at hmoves ⊢
  have hset {p : Job ι → Prop} (hall : ∀ x ∈ a.jobs, p x) (hnew : p j') :
      ∀ x ∈ a.jobs.set i j', p x := fun x hx =>
    (List.mem_or_eq_of_mem_set hx).elim (hall x) fun hx => hx ▸ hnew
  have hdepartures := sum_map_set (fun j => j.departed.length) hj j'
  refine ⟨hset h.stands hmoves.stands, ?_, ?_, ?_, ?_, ?_, hmoves.gauge gauge h.gauge, ?_,
    hset (fun x hx => ?_) ?_, hset h.closes ?_⟩
  · rw [hmoves.inserted, h.inserted, List.length_append]
  · have hcount := countP_set Job.accepted hj j'
    have haccepted := hmoves.accepted
    rw [List.length_append, ← h.accepted]
    dsimp only
    omega
  · have huncounted := sum_map_set Job.uncounted hj j'
    have hremoved := hmoves.removed
    have hbefore := h.removed
    simp only [departures] at hbefore hdepartures ⊢
    omega
  · have hunreported := sum_map_set Job.unreported hj j'
    have hfailures := sum_map_set Job.failures hj j'
    have hcloseFailures := hmoves.closeFailures
    have hbefore := h.closeFailures
    simp only [failures] at hbefore ⊢
    omega
  · have hsize := hmoves.size
    have hbefore := h.size
    rw [List.length_append]
    simp only [departures] at hbefore hdepartures ⊢
    omega
  · exact hmoves.order.trans (h.order.append_right _)
  · exact (h.departed x hx).trans (List.sublist_append_left _ _)
  · rcases hmoves.departed with hsame | hsub
    · rw [hsame]
      exact (h.departed j hmem).trans (List.sublist_append_left _ _)
    · exact hsub.trans (h.order.trans (List.sublist_append_left _ _))
  · rcases hmoves.closes with hsame | ⟨x, w, hnew⟩
    · rw [hsame]
      exact h.closes j hmem
    · intro y hy
      rw [hnew] at hy
      rcases List.mem_append.1 hy with hy | hy
      · exact h.closes j hmem y hy
      · exact ⟨w, by rw [List.mem_singleton.1 hy]⟩

/-- **Every event keeps the books.** -/
theorem Booked.step (h : a.Booked close gauge) (e : Event ι) :
    (a.step close e).Booked close gauge := by
  cases e with
  | call op => exact h.call op
  | step i =>
    cases hj : a.jobs[i]? with
    | none =>
      simp only [Activity.step, hj]
      exact h
    | some j => exact h.next hj

theorem Booked.run (h : a.Booked close gauge) (schedule : List (Event ι)) :
    (a.run close schedule).Booked close gauge := by
  induction schedule generalizing a with
  | nil => exact h
  | cons e schedule ih => exact ih (h.step e)

/-! ### When nobody calls -/

/-- What the counters and the gauge of a table show of its calls. -/
structure Exact (gauge : Option Nat) (a : Activity ι ω) : Prop where
  inserted : a.table.stats.inserted = a.jobs.countP Job.accepted
  removed : a.table.stats.removed = a.departures
  live : a.table.stats.live = a.table.stats.inserted - a.table.stats.removed
  closeFailures : a.table.stats.closeFailures = a.failures
  gauge : a.table.gauge = gauge.map fun _ => a.table.size

theorem sum_eq_zero_of_quiet (h : a.Quiet) {f : Job ι → Nat}
    (hf : ∀ j, j.reply?.isSome = true → f j = 0) : (a.jobs.map f).sum = 0 := by
  refine List.sum_eq_zero fun n hn => ?_
  obtain ⟨j, hj, rfl⟩ := List.mem_map.1 hn
  exact hf j (h j hj)

/-- When no call is in progress, no counter lags behind. -/
theorem Booked.exact (h : a.Booked close gauge) (hquiet : a.Quiet) : a.Exact gauge := by
  have huncounted : (a.jobs.map Job.uncounted).sum = 0 :=
    sum_eq_zero_of_quiet hquiet fun j hj => by
      unfold Job.reply? at hj
      unfold Job.uncounted
      split at hj <;> simp_all
  have hunreported : (a.jobs.map Job.unreported).sum = 0 :=
    sum_eq_zero_of_quiet hquiet fun j hj => by
      unfold Job.reply? at hj
      unfold Job.unreported
      split at hj <;> simp_all
  have hremoved := h.removed
  have hfailures := h.closeFailures
  rw [huncounted, Nat.add_zero] at hremoved
  rw [hunreported, Nat.add_zero] at hfailures
  refine ⟨h.inserted.trans h.accepted.symm, hremoved, ?_, hfailures, h.gauge⟩
  show a.table.size = a.table.inserted - a.table.removed
  rw [h.inserted, hremoved, ← h.size, Nat.add_sub_cancel]

/-- At any moment, no more closes were counted than collectors removed, and no more of these than
entered. -/
theorem Booked.bounded (h : a.Booked close gauge) :
    a.table.stats.closeFailures ≤ a.table.stats.removed ∧
      a.table.stats.removed ≤ a.table.stats.inserted ∧
      a.table.stats.inserted ≤ a.jobs.length := by
  have hjobs : (a.jobs.map fun j => j.failures + j.uncounted).sum ≤ a.departures :=
    List.sum_le_sum fun j hj => (h.stands j hj).failures_le
  have hremoved := h.removed
  have hfailures := h.closeFailures
  have hsize := h.size
  have haccepted : a.jobs.countP Job.accepted ≤ a.jobs.length := List.countP_le_length
  rw [List.sum_map_add] at hjobs
  rw [h.accepted] at haccepted
  simp only [stats, h.inserted]
  simp only [failures] at hfailures
  omega

/-- A teardown that has replied has closed every collector that it detached, in their order, and
says how many there were, whatever the closes gave, as long as none broke down. -/
theorem Booked.tornDown (h : a.Booked close gauge) (hclose : ∀ i w, (close i w).1 ≠ none)
    {j : Job ι} (hj : j ∈ a.jobs) (hop : j.op = .removeAll) {reply : Reply ι}
    (hreply : j.reply? = some reply) :
    reply = .tornDown (some j.departed.length) ∧
      j.closes.map Prod.fst = j.departed.map Collector.resource := by
  have hwhole := h.closes j hj
  cases h.stands j hj with
  | ready _ => cases hreply
  | removing _ => cases hreply
  | replied hfinished =>
    cases hreply
    cases hop
    cases hfinished with
    | tornDown order whole => exact ⟨rfl, order⟩
    | @brokenOff _ closes i order whole =>
      obtain ⟨w, hnone⟩ := hwhole (i, none) (List.mem_append_right _ List.mem_cons_self)
      exact absurd hnone (hclose i w)

/-- A step of a call that moves nobody leaves the table as it was, unless the call is a teardown. -/
theorem Booked.idle (h : a.Booked close gauge) {i : Nat} {j' : Job ι}
    (hj' : (a.step close (.step i)).jobs[i]? = some j') (hop : j'.op.drains = false)
    (haccepted : j'.accepted = false) (hdeparted : j'.departed = []) :
    (a.step close (.step i)).table = a.table := by
  cases hj : a.jobs[i]? with
  | none => simp only [Activity.step, hj]
  | some j =>
    have hmoves := (h.stands j (List.mem_of_getElem? hj)).step close a.table a.world
    have hlt : i < a.jobs.length := (List.getElem?_eq_some_iff.1 hj).1
    rw [step_of_job close hj] at hj' ⊢
    rw [List.getElem?_set_self hlt] at hj'
    obtain rfl := Option.some.inj hj'
    exact hmoves.idle (hmoves.op ▸ hop) haccepted hdeparted

end Activity

/-! ### Calls that nobody disturbs -/

/-- Writing down what is closed changes nothing else. -/
theorem removal_step_noted (r : Removal ι) (t : Table ι) (w : ω) (closes : List (Close ι)) :
    let next := r.step close t w
    let next' := r.step (noted close) t (closes, w)
    next'.removal = next.removal ∧ next'.table = next.table ∧ next'.world.2 = next.world := by
  cases r with
  | detach id runClose =>
    rcases t.take_cases id with ⟨-, h⟩ | ⟨c, -, -, h⟩ <;> simp only [Removal.step, h, and_self]
  | close c =>
    rcases h : close c.resource w with ⟨_ | (e | ⟨⟩), w'⟩ <;>
      simp only [Removal.step, noted, h, and_self]
  | closeAll rest total =>
    cases rest with
    | nil => exact ⟨rfl, rfl, rfl⟩
    | cons c rest =>
      rcases h : close c.resource w with ⟨_ | (e | ⟨⟩), w'⟩ <;>
        simp only [Removal.step, noted, h, and_self]
  | _ => exact ⟨rfl, rfl, rfl⟩

theorem apply_noted {op : Op ι} (h : op.stage = .ready) (t : Table ι) (w : ω)
    (closes : List (Close ι)) :
    t.apply (noted close) (closes, w) op =
      ((t.apply close w op).1, (t.apply close w op).2.1, closes, (t.apply close w op).2.2) := by
  cases op with
  | insert c => simp only [apply]; split <;> rfl
  | take id => simp only [apply]; split <;> rfl
  | remove id runClose => cases h
  | removeAll => cases h
  | _ => rfl

/-- A step of a call that is a removal is a step of the removal. -/
theorem Job.step_removing {j : Job ι} {r : Removal ι} (h : j.stage = .removing r) (t : Table ι)
    (w : ω) :
    let next := r.step close t w
    ∃ j', j.step close t w = (j', next.table, next.world) ∧ j'.op = j.op ∧
      j'.stage = j.op.stageOf next.removal := by
  obtain ⟨hremoval, htable, hworld⟩ := removal_step_noted close r t w j.closes
  dsimp only
  rw [← hremoval, ← htable, ← hworld]
  simp only [Job.step, Job.next, h]
  exact ⟨_, rfl, rfl, rfl⟩

namespace Activity

/-- Whether `a'` is what `a` came to when the call at a place was let run to its end. -/
structure Ends (a a' : Activity ι ω) (i : Nat) (op : Op ι) (reply : Reply ι) (t : Table ι) (w : ω) :
    Prop where
  table : a'.table = t
  world : a'.world = w
  jobs : ∃ j, a'.jobs = a.jobs.set i j ∧ j.op = op ∧ j.stage = .replied reply

variable {close} {a : Activity ι ω} {i : Nat} {j : Job ι}

variable (close) in
/-- A removal that is let run does what it does when nobody else is there. -/
theorem run_removing (r : Removal ι) (hj : a.jobs[i]? = some j)
    (hstage : j.stage = j.op.stageOf r) :
    ∃ n, let last := r.run close a.table a.world
      a.Ends (a.run close (List.replicate n (.step i))) i j.op (j.op.replyOf last.removal)
        last.table last.world := by
  -- Along the run; every step of it is a step of the call.
  generalize ht : a.table = t
  generalize hw : a.world = w
  fun_induction r.run close t w generalizing a j with
  | case1 r t w hdone =>
    obtain ⟨hlt, hget⟩ := List.getElem?_eq_some_iff.1 hj
    refine ⟨0, ht, hw, j, ?_, rfl, ?_⟩
    · rw [← hget, List.set_getElem_self]
      rfl
    · rw [hstage, Op.stageOf, if_pos hdone]
  | case2 r t w hdone next =>
    rename_i last ih
    subst ht hw
    have hnext : j.stage = .removing r := by rw [hstage, Op.stageOf, if_neg hdone]
    obtain ⟨j', hstep, hop, hstage'⟩ := Job.step_removing close hnext a.table a.world
    have hafter := step_of_job close hj
    rw [hstep] at hafter
    have hj' : (a.jobs.set i j')[i]? = some j' :=
      List.getElem?_set_self (List.getElem?_eq_some_iff.1 hj).1
    obtain ⟨n, hn⟩ := ih (a := a.step close (.step i)) (by rw [hafter]; exact hj')
      (by rw [hstage', hop]) (by rw [hafter]) (by rw [hafter])
    obtain ⟨j'', hjobs, hop'', hstage''⟩ := hn.jobs
    refine ⟨n + 1, hn.table, hn.world, j'', ?_, hop''.trans hop, by rw [hstage'', hop]⟩
    rw [List.replicate_succ, run, List.foldl_cons, ← run, hjobs, hafter, List.set_set]

/-- A call that is a single step is over after it. -/
theorem run_ready (hj : a.jobs[i]? = some j) (hop : j.op.stage = .ready)
    (hstage : j.stage = .ready) :
    let done := a.table.apply close a.world j.op
    a.Ends (a.run close [.step i]) i j.op done.1 done.2.1 done.2.2 := by
  have hnext := apply_noted close hop a.table a.world j.closes
  rw [run, List.foldl_cons, List.foldl_nil, step_of_job close hj]
  simp only [Job.step, Job.next, hstage, hnext]
  exact ⟨rfl, rfl, _, rfl, rfl, rfl⟩

theorem Ends.reply? {a' : Activity ι ω} {op : Op ι} {reply : Reply ι} {t : Table ι} {w : ω}
    (h : a.Ends a' i op reply t w) (hlt : i < a.jobs.length) :
    a'.jobs[i]?.bind Job.reply? = some reply := by
  obtain ⟨j, hjobs, -, hstage⟩ := h.jobs
  rw [hjobs, List.getElem?_set_self hlt, Option.bind_some, Job.reply?, hstage]

/-- Every call comes to its end if it is let run. -/
theorem Booked.returns {gauge : Option Nat} (h : a.Booked close gauge) (hlt : i < a.jobs.length) :
    ∃ n, ((a.run close (List.replicate n (.step i))).jobs[i]?.bind Job.reply?).isSome = true := by
  have hj := List.getElem?_eq_getElem hlt
  have hstands := h.stands _ (List.getElem_mem hlt)
  generalize a.jobs[i] = j at hj hstands
  cases hstands with
  | ready hop =>
    exact ⟨1, by rw [List.replicate_one, (run_ready hj hop rfl).reply? hlt]; rfl⟩
  | @removing op r departed closes hr =>
    have hnot : r.isDone = false := by cases hr <;> rfl
    obtain ⟨n, hn⟩ := run_removing close r hj (by rw [Op.stageOf, hnot]; rfl)
    exact ⟨n, by rw [hn.reply? hlt]; rfl⟩
  | replied _ => exact ⟨0, by rw [List.replicate_zero, Activity.run, List.foldl_nil, hj]; rfl⟩

/-- Whether the calls and the table are those of a history. -/
structure Replays (a : Activity ι ω) (h : History ι ω) : Prop where
  table : a.table = h.table
  world : a.world = h.world
  jobs : a.jobs.map (fun j => (j.op, j.reply?)) = h.log.map fun e => (e.1, some e.2)

variable (close) in
/-- A call that is made and let run does what it does when nobody else is there. -/
theorem Replays.perform {h : History ι ω} (ha : a.Replays h) (op : Op ι) :
    ∃ n, (a.run close (.call op :: List.replicate n (.step a.jobs.length))).Replays
      (h.perform close op) := by
  have hj : (a.step close (.call op)).jobs[a.jobs.length]? = some (.of op) :=
    List.getElem?_concat_length
  have hends : ∃ n, let done := a.table.apply close a.world op
      (a.step close (.call op)).Ends
        ((a.step close (.call op)).run close (List.replicate n (.step a.jobs.length)))
        a.jobs.length op done.1 done.2.1 done.2.2 := by
    cases op with
    | remove id runClose => exact run_removing close (.detach id runClose) hj rfl
    | removeAll => exact run_removing close .drain hj rfl
    | _ => exact ⟨1, run_ready hj rfl rfl⟩
  obtain ⟨n, htable, hworld, j, hjobs, hop, hstage⟩ := hends
  refine ⟨n, ?_, ?_, ?_⟩
  · rw [History.perform, ← ha.table, ← ha.world]
    exact htable
  · rw [History.perform, ← ha.table, ← ha.world]
    exact hworld
  · have hset : (a.jobs ++ [Job.of op]).set a.jobs.length j = a.jobs ++ [j] := by simp
    have hlast : a.run close (.call op :: List.replicate n (.step a.jobs.length)) =
        (a.step close (.call op)).run close (List.replicate n (.step a.jobs.length)) := rfl
    have hreply : j.reply? = some (h.table.apply close h.world op).1 := by
      rw [Job.reply?, hstage, ha.table, ha.world]
    rw [hlast, hjobs]
    simp only [step, hset, List.map_append, ha.jobs, List.map_singleton, hop, hreply,
      History.perform]

variable (close) in
/-- What is asked one after another is a schedule in which every call is let run to its end. -/
theorem Replays.performAll {h : History ι ω} (ha : a.Replays h) (ops : List (Op ι)) :
    ∃ schedule, (a.run close schedule).Replays (ops.foldl (History.perform close) h) := by
  induction ops generalizing a h with
  | nil => exact ⟨[], ha⟩
  | cons op ops ih =>
    obtain ⟨n, hn⟩ := ha.perform close op
    obtain ⟨schedule, hschedule⟩ := ih hn
    refine ⟨(.call op :: List.replicate n (.step a.jobs.length)) ++ schedule, ?_⟩
    rw [run, List.foldl_append]
    exact hschedule

theorem Replays.quiet {h : History ι ω} (ha : a.Replays h) : a.Quiet := fun j hj => by
  obtain ⟨e, -, he⟩ := List.mem_map.1 (ha.jobs ▸ List.mem_map_of_mem hj)
  have hreply : some e.2 = j.reply? := congrArg Prod.snd he
  rw [← hreply]
  rfl

/-- What holds of a table and its calls, whatever is called and in whatever order the steps are
taken. -/
structure Books (close : ι → ω → Option (Except Error Unit) × ω) (gauge : Option Nat)
    (a : Activity ι ω) : Prop where
  /-- No call in progress: the counters and the gauge are exact. -/
  exact : a.Quiet → a.Exact gauge
  /-- At any moment no counter is above the number of calls. -/
  bounded : a.table.stats.closeFailures ≤ a.table.stats.removed ∧
    a.table.stats.removed ≤ a.table.stats.inserted ∧ a.table.stats.inserted ≤ a.jobs.length
  /-- Every call has done what it must have done by now. -/
  stands : ∀ j ∈ a.jobs, j.Stands
  /-- The collectors of the table, and those that went out at one call, came in in this order. -/
  order : a.table.entries.Sublist a.entered ∧ ∀ j ∈ a.jobs, j.departed.Sublist a.entered
  /-- A call whose step moves nobody has left the table as it was, unless it is a teardown. -/
  idle : ∀ i j, (a.step close (.step i)).jobs[i]? = some j → j.op.drains = false →
    j.accepted = false → j.departed = [] → (a.step close (.step i)).table = a.table
  /-- Every call replies if it is let run. -/
  returns : ∀ i, i < a.jobs.length →
    ∃ n, ((a.run close (List.replicate n (.step i))).jobs[i]?.bind Job.reply?).isSome = true
  /-- A teardown says how many it detached and has closed them all, whatever the closes gave. -/
  tornDown : (∀ i w, (close i w).1 ≠ none) → ∀ j ∈ a.jobs, j.op = .removeAll →
    ∀ reply, j.reply? = some reply → reply = .tornDown (some j.departed.length) ∧
      j.closes.map Prod.fst = j.departed.map Collector.resource

theorem Booked.books {gauge : Option Nat} (h : a.Booked close gauge) : a.Books close gauge where
  exact := h.exact
  bounded := h.bounded
  stands := h.stands
  order := ⟨h.order, h.departed⟩
  idle := fun _ _ => h.idle
  returns := fun _ => h.returns
  tornDown := fun hclose _ hj hop _ => h.tornDown hclose hj hop

/-- **The counters and the gauge of a table agree with its contents.** Whatever is called on a new
table and however the steps of the calls interleave, its books are right; and calls that are made
one after another are such a schedule, after each of which no call is in progress. -/
theorem books_right (close : ι → ω → Option (Except Error Unit) × ω) (gauge : Option Nat) (w : ω) :
    (∀ schedule, ((start gauge w).run close schedule).Books close gauge) ∧
      ∀ ops, ∃ schedule, let a := (start gauge w).run close schedule
        a.Quiet ∧ a.Replays (History.of close gauge w ops) := by
  refine ⟨fun schedule => ((booked_start close gauge w).run schedule).books, fun ops => ?_⟩
  have hstart : (start gauge w : Activity ι ω).Replays { table := withGauge gauge, world := w } :=
    ⟨rfl, rfl, rfl⟩
  obtain ⟨schedule, hschedule⟩ := hstart.performAll close ops
  exact ⟨schedule, hschedule.quiet, hschedule⟩

end Activity
end Table
end Collectors
