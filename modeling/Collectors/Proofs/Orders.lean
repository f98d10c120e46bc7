import Collectors.Proofs.Passages

/-!
# Orders and their answers

An errand hands its order on to jobs of its own. `Traffic.Follows` says where an errand with a given
order may be, and that its answer is made of what its jobs answered; `Ledger.Served` adds that the
jobs were asked what the order says and that no two errands share one. Answers stay
(`Traffic.jobs_step_done`), so what an errand made of them stays true.
-/

namespace Collectors

variable {β ι ω : Type} {b : Behaviour β ι ω}

/-- What an order hands to the providers that it reaches. -/
def Order.handed : Order → Request
  | request _ r => r
  | deregister _ | shutdown => .shutdown

/-! ### Answers stay -/

theorem Call.step_of_isDone {call : Call β ι} (h : call.isDone = true) (b : Behaviour β ι ω)
    (p : Provider β ι) (w : ω) : (call.step b p w).call = call := by
  cases call <;> first | rfl | cases h

namespace Traffic

/-- A job that is done stays as it is. -/
theorem jobs_step_done (b : Behaviour β ι ω) {s : Traffic β ι ω} {i : Nat} {j : Job β ι}
    (hj : s.jobs[i]? = some j) (hdone : j.call.isDone = true) (e : Event β) :
    (s.step b e).jobs[i]? = some j := by
  have hlt := (List.getElem?_eq_some_iff.1 hj).1
  rcases step_quiet b s e with ⟨i', j', p, -, hj', -, h⟩ | ⟨⟨new, hnew, -⟩, -, -⟩
  · rw [h]
    by_cases hi : i' = i
    · subst hi
      obtain rfl := Option.some.inj (hj.symm.trans hj')
      rw [Call.step_of_isDone hdone, List.getElem?_set_self hlt]
    · rw [List.getElem?_set_ne hi, hj]
  · rw [hnew, List.getElem?_append_left hlt, hj]

/-- What the answers of some jobs make the answer to an order: the only answer, or the sum of what
was counted. -/
def outcome (s : Traffic β ι ω) (o : Order) (jobs : List Nat) : Option (Except Error Answer) :=
  match o with
  | .request _ _ => jobs.head?.bind s.answer?
  | .deregister _ | .shutdown => (s.total jobs).map fun n => .ok (.count n)

theorem outcome_congr {s s' : Traffic β ι ω} {jobs : List Nat}
    (h : ∀ i ∈ jobs, s'.answer? i = s.answer? i) (o : Order) :
    s'.outcome o jobs = s.outcome o jobs := by
  have htotal : s'.total jobs = s.total jobs := by
    unfold total
    refine congrArg (Option.map _) ?_
    induction jobs with
    | nil => rfl
    | cons i jobs ih =>
      rw [List.mapM_cons, List.mapM_cons, h i List.mem_cons_self,
        ih fun k hk => h k (List.mem_cons_of_mem _ hk)]
  cases o with
  | request id r =>
    cases jobs with
    | nil => rfl
    | cons i jobs => exact h i List.mem_cons_self
  | deregister | shutdown => exact congrArg (Option.map _) htotal

/-- Where an errand with an order may be, and what answer it may have: that of its jobs, or an
error if it has none. -/
def Follows (s : Traffic β ι ω) (o : Order) (e : Errand) : Prop :=
  match e.stage with
  | .start o' => o' = o ∧ e.jobs = []
  | .detach _ => o = .shutdown ∧ e.jobs = []
  | .begin => (o = .shutdown ∨ (∃ id, o = .deregister id) ∧ e.detached.length = 1) ∧ e.jobs = []
  | .await => (∃ id r, o = .request id r) ∧ e.jobs.length = 1
  | .join => o = .shutdown ∨ (∃ id, o = .deregister id) ∧ e.jobs.length = 1
  | .finished result =>
    ((o = .shutdown ∨ e.jobs.length = 1) ∧ (∀ i ∈ e.jobs, s.isDone i = true) ∧
      result = s.outcome o e.jobs) ∨
    (o ≠ .shutdown ∧ e.jobs = [] ∧ ∃ err, result = some (.error err))

/-- A step of an errand keeps to its order. Where it starts jobs these are new ones, and what the
errand then waits for does not depend on what is going on. -/
theorem Follows.move {s : Traffic β ι ω} {o : Order} {e e' : Errand} {jobs : List (Job β ι)}
    {attached : List (ProviderId × Nat)} (h : s.Follows o e)
    (hmove : Errand.Move s e e' jobs attached) :
    (e'.jobs = e.jobs ∧ s.Follows o e') ∨
    (e.jobs = [] ∧ e'.jobs = List.range' s.jobs.length jobs.length ∧
      (∀ j ∈ jobs, j.call = .start o.handed) ∧ ∀ s' : Traffic β ι ω, s'.Follows o e') := by
  unfold Follows at h
  cases hmove with
  | request stage mem =>
    rw [stage] at h
    obtain ⟨rfl, hjobs⟩ := h
    refine .inr ⟨hjobs, rfl, fun j hj => ?_, fun s' => ⟨⟨_, _, rfl⟩, rfl⟩⟩
    rw [List.mem_singleton.1 hj]
    rfl
  | refuse err stage ne =>
    rw [stage] at h
    obtain ⟨rfl, hjobs⟩ := h
    exact .inl ⟨rfl, .inr ⟨ne, hjobs, err, rfl⟩⟩
  | deregister stage mem =>
    rw [stage] at h
    obtain ⟨rfl, hjobs⟩ := h
    exact .inl ⟨rfl, .inr ⟨⟨_, rfl⟩, rfl⟩, hjobs⟩
  | shutdown stage =>
    rw [stage] at h
    obtain ⟨rfl, hjobs⟩ := h
    exact .inl ⟨rfl, rfl, hjobs⟩
  | detach stage mem => rw [stage] at h; exact .inl ⟨rfl, h⟩
  | skip stage notMem => rw [stage] at h; exact .inl ⟨rfl, h⟩
  | detachedAll stage => rw [stage] at h; exact .inl ⟨rfl, .inl h.1, h.2⟩
  | begin stage =>
    rw [stage] at h
    obtain ⟨horder, hjobs⟩ := h
    have hhanded : o.handed = .shutdown := by
      rcases horder with rfl | ⟨⟨id, rfl⟩, -⟩ <;> rfl
    refine .inr ⟨hjobs, by rw [List.length_map], fun j hj => ?_,
      fun s' => horder.imp_right fun h => ⟨h.1, List.length_range'.trans h.2⟩⟩
    obtain ⟨place, -, rfl⟩ := List.mem_map.1 hj
    rw [hhanded]
  | answer stage done =>
    rw [stage] at h
    obtain ⟨⟨id, r, rfl⟩, hlength⟩ := h
    exact .inl ⟨rfl, .inl ⟨.inr hlength, List.all_eq_true.1 done, rfl⟩⟩
  | join stage done =>
    rw [stage] at h
    refine .inl ⟨rfl, .inl ⟨h.imp_right And.right, List.all_eq_true.1 done, ?_⟩⟩
    rcases h with rfl | ⟨⟨id, rfl⟩, -⟩ <;> rfl

theorem Follows.mono {s s' : Traffic β ι ω} {o : Order} {e : Errand} (h : s.Follows o e)
    (hdone : ∀ i ∈ e.jobs, s.isDone i = true → s'.isDone i = true ∧ s'.answer? i = s.answer? i) :
    s'.Follows o e := by
  unfold Follows at h ⊢
  split
  case h_6 result hstage =>
    rw [hstage] at h
    refine h.imp_left fun ⟨hlength, hjobs, hresult⟩ =>
      ⟨hlength, fun i hi => (hdone i hi (hjobs i hi)).1, ?_⟩
    rw [hresult, outcome_congr fun i hi => (hdone i hi (hjobs i hi)).2]
  all_goals
    rename_i hstage
    rw [hstage] at h
    exact h

/-- What an event does to the errands. -/
theorem errands_step (b : Behaviour β ι ω) (s : Traffic β ι ω) (e : Event β) :
    ((∀ o, e ≠ .order o) ∧ (s.step b e).errands = s.errands) ∨
    (∃ o, e = .order o ∧ (s.step b e).errands = s.errands ++ [{ stage := .start o }]) ∨
    ∃ i errand errand' jobs attached, e = .errand i ∧ s.errands[i]? = some errand ∧
      Errand.Move s errand errand' jobs attached ∧
      (s.step b e).jobs = s.jobs ++ jobs ∧ (s.step b e).errands = s.errands.set i errand' := by
  by_cases horder : ∃ o, e = .order o
  · obtain ⟨o, rfl⟩ := horder
    exact .inr (.inl ⟨o, rfl, rfl⟩)
  · have hne : ∀ o, e ≠ .order o := fun o ho => horder ⟨o, ho⟩
    have hturn := s.step_turn b e
    generalize s.step b e = s' at hturn ⊢
    cases hturn with
    | order o => exact (hne o rfl).elim
    | errand errand move => exact .inr (.inr ⟨_, _, _, _, _, rfl, errand, move, rfl, rfl⟩)
    | _ => exact .inl ⟨hne, rfl⟩

end Traffic

namespace Ledger

theorem orders_step_of_ne (b : Behaviour β ι ω) (l : Ledger β ι ω) {e : Traffic.Event β}
    (he : ∀ o, e ≠ .order o) : (l.step b e).orders = l.orders := by
  cases e with
  | order o => exact (he o rfl).elim
  | job i =>
    simp only [step]
    split <;> rfl
  | _ => rfl

/-- Whether every errand follows its order, by jobs of its own that do what the order says. -/
structure Served (l : Ledger β ι ω) : Prop where
  length : l.orders.length = l.traffic.errands.length
  handed : ∀ (k : Nat) (o : Order) (e : Errand), l.orders[k]? = some o →
    l.traffic.errands[k]? = some e → ∀ i ∈ e.jobs, l.requests[i]? = some o.handed
  follows : ∀ (k : Nat) (o : Order) (e : Errand), l.orders[k]? = some o →
    l.traffic.errands[k]? = some e → l.traffic.Follows o e
  apart : (l.traffic.errands.flatMap Errand.jobs).Nodup

/-- What is written down stays so, and so do the answers of jobs that are done. -/
structure Extends (l l' : Ledger β ι ω) : Prop where
  requests : ∀ (i : Nat) (r : Request), l.requests[i]? = some r → l'.requests[i]? = some r
  done : ∀ i < l.requests.length, l.traffic.isDone i = true →
    l'.traffic.isDone i = true ∧ l'.traffic.answer? i = l.traffic.answer? i

theorem extends_step (b : Behaviour β ι ω) {l : Ledger β ι ω}
    (hlength : l.requests.length = l.traffic.jobs.length) (e : Traffic.Event β) :
    Extends l (l.step b e) where
  requests i r hr := by
    rw [requests_step, List.getElem?_append_left (List.getElem?_eq_some_iff.1 hr).1, hr]
  done i hi hdone := by
    have hj : l.traffic.jobs[i]? = some l.traffic.jobs[i] :=
      List.getElem?_eq_getElem (hlength ▸ hi)
    rw [Traffic.isDone, hj] at hdone
    have hnext := Traffic.jobs_step_done b hj hdone e
    rw [← traffic_step] at hnext
    simp only [Traffic.isDone, Traffic.answer?, hnext, hj]
    exact ⟨hdone, trivial⟩

theorem Served.kept {l l' : Ledger β ι ω} (hl : l.Served) (h : Extends l l') {k : Nat} {o : Order}
    {e : Errand} (ho : l.orders[k]? = some o) (he : l.traffic.errands[k]? = some e) :
    (∀ i ∈ e.jobs, l'.requests[i]? = some o.handed) ∧ l'.traffic.Follows o e :=
  have hhanded := hl.handed k o e ho he
  ⟨fun i hi => h.requests i _ (hhanded i hi), (hl.follows k o e ho he).mono fun i hi hdone =>
    h.done i (List.getElem?_eq_some_iff.1 (hhanded i hi)).1 hdone⟩

theorem served_start (w : ω) : Served ({ traffic := { world := w } } : Ledger β ι ω) := by
  refine ⟨rfl, fun k o e ho => ?_, fun k o e ho => ?_, .nil⟩ <;> cases ho

theorem Served.lt_of_mem {l : Ledger β ι ω} (hl : l.Served) {i : Nat}
    (hi : i ∈ l.traffic.errands.flatMap Errand.jobs) : i < l.requests.length := by
  obtain ⟨e, he, hi⟩ := List.mem_flatMap.1 hi
  obtain ⟨k, hk, rfl⟩ := List.mem_iff_getElem.1 he
  have hhanded := hl.handed k _ _ (List.getElem?_eq_getElem (hl.length.symm ▸ hk))
    (List.getElem?_eq_getElem hk) i hi
  exact (List.getElem?_eq_some_iff.1 hhanded).1

/-- Where nothing becomes of the errands, they follow their orders as before. -/
theorem Served.quiet {l l' : Ledger β ι ω} (hl : l.Served) (h : Extends l l')
    (horders : l'.orders = l.orders) (herrands : l'.traffic.errands = l.traffic.errands) :
    l'.Served where
  length := by rw [horders, herrands, hl.length]
  handed k o e ho he := (hl.kept h (horders ▸ ho) (herrands ▸ he)).1
  follows k o e ho he := (hl.kept h (horders ▸ ho) (herrands ▸ he)).2
  apart := herrands ▸ hl.apart

/-- A new errand has nothing yet but its order. -/
theorem Served.order {l l' : Ledger β ι ω} (hl : l.Served) (h : Extends l l') {o : Order}
    (horders : l'.orders = l.orders ++ [o])
    (herrands : l'.traffic.errands = l.traffic.errands ++ [{ stage := .start o }]) :
    l'.Served := by
  have hboth : ∀ (k : Nat) (o' : Order) (e : Errand), l'.orders[k]? = some o' →
      l'.traffic.errands[k]? = some e →
      (∀ i ∈ e.jobs, l'.requests[i]? = some o'.handed) ∧ l'.traffic.Follows o' e := by
    intro k o' e ho he
    rw [horders] at ho
    rw [herrands] at he
    by_cases hk : k < l.orders.length
    · rw [List.getElem?_append_left hk] at ho
      rw [List.getElem?_append_left (hl.length ▸ hk)] at he
      exact hl.kept h ho he
    · rw [List.getElem?_append_right (Nat.not_lt.1 hk), List.getElem?_singleton] at ho
      rw [List.getElem?_append_right (hl.length ▸ Nat.not_lt.1 hk), List.getElem?_singleton] at he
      split at ho
      · obtain rfl := Option.some.inj ho
        split at he
        · obtain rfl := Option.some.inj he
          exact ⟨nofun, rfl, rfl⟩
        · cases he
      · cases ho
  exact ⟨by rw [horders, herrands, List.length_append, List.length_append, hl.length]; rfl,
    fun k o e ho he => (hboth k o e ho he).1, fun k o e ho he => (hboth k o e ho he).2,
    by rw [herrands, List.flatMap_append]; simpa using hl.apart⟩

/-- An errand that takes a step follows its order still: its jobs are those that it had, or they are
new and do what the order says. -/
theorem Served.moved {l l' : Ledger β ι ω} (hl : l.Served) (h : Extends l l')
    (hlength : l.requests.length = l.traffic.jobs.length) {asked : List Request}
    (hnotes : Notes l l' asked) {k : Nat} {o : Order} {e e' : Errand} {jobs : List (Job β ι)}
    {attached : List (ProviderId × Nat)} (ho : l.orders[k]? = some o)
    (he : l.traffic.errands[k]? = some e) (hmove : Errand.Move l.traffic e e' jobs attached)
    (hjobs : l'.traffic.jobs = l.traffic.jobs ++ jobs) :
    (∀ i ∈ e'.jobs, l'.requests[i]? = some o.handed) ∧ l'.traffic.Follows o e' := by
  have hhanded := hl.handed k o e ho he
  rcases (hl.follows k o e ho he).move hmove with ⟨hsame, hfollows⟩ | ⟨-, hnew, hstart, hfollows⟩
  · refine ⟨fun i hi => h.requests i _ (hhanded i (hsame ▸ hi)),
      hfollows.mono fun i hi hdone => ?_⟩
    exact h.done i (List.getElem?_eq_some_iff.1 (hhanded i (hsame ▸ hi))).1 hdone
  · refine ⟨fun i hi => ?_, hfollows l'.traffic⟩
    rw [hnew, List.mem_range'_1] at hi
    have hlt : i - l.traffic.jobs.length < jobs.length := by omega
    have hget : l'.traffic.jobs[i]? = some jobs[i - l.traffic.jobs.length] := by
      rw [hjobs, List.getElem?_append_right hi.1, List.getElem?_eq_getElem hlt]
    obtain ⟨r, hr, hcall⟩ := hnotes.start hlength hi.1 hget
    rw [hstart _ (List.getElem_mem _)] at hcall
    rw [hr, Call.start.inj hcall]

/-- The jobs that an errand starts are those of no other. -/
theorem Served.nodup_moved {l : Ledger β ι ω} (hl : l.Served)
    (hlength : l.requests.length = l.traffic.jobs.length) {k : Nat} {o : Order} {e e' : Errand}
    {jobs : List (Job β ι)} {attached : List (ProviderId × Nat)} (ho : l.orders[k]? = some o)
    (he : l.traffic.errands[k]? = some e) (hmove : Errand.Move l.traffic e e' jobs attached) :
    ((l.traffic.errands.set k e').flatMap Errand.jobs).Nodup := by
  obtain ⟨rest, hold, hset⟩ := perm_flatMap_set Errand.jobs he
  have hapart := hold.nodup_iff.1 hl.apart
  rw [(hset e').nodup_iff]
  rcases (hl.follows k o e ho he).move hmove with ⟨hsame, -⟩ | ⟨hnone, hnew, -, -⟩
  · rwa [hsame]
  · rw [hnone, List.nil_append] at hapart
    rw [hnew]
    refine List.nodup_append.2 ⟨List.nodup_range', hapart, fun i hi i' hi' hii' => ?_⟩
    have hnewer := (List.mem_range'_1.1 hi).1
    have holder := hl.lt_of_mem (hold.mem_iff.2 (List.mem_append_right _ hi'))
    omega

/-- Where an errand takes a step, it and all others follow their orders still. -/
theorem Served.errand {l l' : Ledger β ι ω} (hl : l.Served) (h : Extends l l')
    (hlength : l.requests.length = l.traffic.jobs.length) {asked : List Request}
    (hnotes : Notes l l' asked) {k : Nat} {e e' : Errand} {jobs : List (Job β ι)}
    {attached : List (ProviderId × Nat)} (he : l.traffic.errands[k]? = some e)
    (hmove : Errand.Move l.traffic e e' jobs attached) (horders : l'.orders = l.orders)
    (hjobs : l'.traffic.jobs = l.traffic.jobs ++ jobs)
    (herrands : l'.traffic.errands = l.traffic.errands.set k e') : l'.Served := by
  have hlt := (List.getElem?_eq_some_iff.1 he).1
  obtain ⟨o, ho⟩ : ∃ o, l.orders[k]? = some o := ⟨_, List.getElem?_eq_getElem (hl.length ▸ hlt)⟩
  have hboth : ∀ (k' : Nat) (o : Order) (e'' : Errand), l'.orders[k']? = some o →
      l'.traffic.errands[k']? = some e'' →
      (∀ i ∈ e''.jobs, l'.requests[i]? = some o.handed) ∧ l'.traffic.Follows o e'' := by
    intro k' o e'' ho he''
    rw [horders] at ho
    rw [herrands] at he''
    by_cases hk : k = k'
    · subst hk
      rw [List.getElem?_set_self hlt] at he''
      obtain rfl := Option.some.inj he''
      exact hl.moved h hlength hnotes ho he hmove hjobs
    · rw [List.getElem?_set_ne hk] at he''
      exact hl.kept h ho he''
  refine ⟨by rw [horders, herrands, List.length_set, hl.length],
    fun k o e ho he => (hboth k o e ho he).1, fun k o e ho he => (hboth k o e ho he).2, ?_⟩
  rw [herrands]
  exact hl.nodup_moved hlength ho he hmove

theorem Served.step (b : Behaviour β ι ω) {l : Ledger β ι ω} (hl : l.Served)
    (hlength : l.requests.length = l.traffic.jobs.length) (e : Traffic.Event β) :
    (l.step b e).Served := by
  have h := extends_step b hlength e
  rcases l.traffic.errands_step b e with ⟨hne, herrands⟩ | ⟨o, rfl, herrands⟩ |
    ⟨k, errand, errand', jobs, attached, rfl, he, hmove, hjobs, herrands⟩
  · exact hl.quiet h (l.orders_step_of_ne b hne) (by rw [traffic_step, herrands])
  · exact hl.order h rfl herrands
  · rcases l.step_cases b (.errand k) with ⟨i, j, p, hjob, -⟩ | ⟨asked, hnotes⟩
    · cases hjob
    · exact hl.errand h hlength hnotes he hmove rfl hjobs herrands

end Ledger

/-! ### What an order is answered -/

namespace Traffic

/-- Whether an order is answered what the jobs answered that it was handed to: as the only one of
them, or by the sum of what they counted. -/
def Accounts (s : Traffic β ι ω) (jobs : List Nat) (result : Option (Except Error Answer)) :
    Order → Prop
  | .request _ _ => ∃ i, jobs = [i] ∧ result = s.answer? i
  | .deregister _ =>
    ∃ i n, jobs = [i] ∧ s.answer? i = some (.ok (.count n)) ∧ result = some (.ok (.count n))
  | .shutdown =>
    ∃ counts : List Nat, jobs.map s.answer? = counts.map (fun n => some (.ok (.count n))) ∧
      result = some (.ok (.count counts.sum))

/-- The sum of what some jobs counted, if all of them did. -/
theorem total_of_counts {s : Traffic β ι ω} {jobs : List Nat}
    (h : ∀ i ∈ jobs, ∃ n, s.answer? i = some (.ok (.count n))) :
    ∃ counts : List Nat, jobs.map s.answer? = counts.map (fun n => some (.ok (.count n))) ∧
      s.total jobs = some counts.sum := by
  suffices hcounts : ∃ counts : List Nat,
      jobs.map s.answer? = counts.map (fun n => some (.ok (.count n))) ∧
      (jobs.mapM fun i => (s.answer? i).bind counted) = some counts by
    obtain ⟨counts, hmap, hmapM⟩ := hcounts
    exact ⟨counts, hmap, by rw [total, hmapM, Option.map_some, List.sum_eq_foldl]⟩
  induction jobs with
  | nil => exact ⟨[], rfl, rfl⟩
  | cons i jobs ih =>
    obtain ⟨n, hn⟩ := h i List.mem_cons_self
    obtain ⟨counts, hmap, hmapM⟩ := ih fun k hk => h k (List.mem_cons_of_mem _ hk)
    refine ⟨n :: counts, by rw [List.map_cons, List.map_cons, hn, hmap], ?_⟩
    rw [List.mapM_cons, hmapM, hn]
    rfl

/-- An errand that is finished has the answers of its jobs, if those that are shutdowns counted. -/
theorem Follows.accounts {s : Traffic β ι ω} {o : Order} {e : Errand} (h : s.Follows o e)
    {result : Option (Except Error Answer)} (hstage : e.stage = .finished result)
    (hcounts : o.handed = .shutdown → ∀ i ∈ e.jobs, ∃ n, s.answer? i = some (.ok (.count n))) :
    s.Accounts e.jobs result o ∨
      (o ≠ .shutdown ∧ e.jobs = [] ∧ ∃ err, result = some (.error err)) := by
  rw [Follows, hstage] at h
  refine h.imp_left fun ⟨hlength, _, hresult⟩ => ?_
  rw [hresult]
  cases o with
  | request id r =>
    obtain ⟨i, hi⟩ := List.length_eq_one_iff.1 (hlength.resolve_left nofun)
    exact ⟨i, hi, by rw [hi]; rfl⟩
  | deregister id =>
    obtain ⟨i, hi⟩ := List.length_eq_one_iff.1 (hlength.resolve_left nofun)
    obtain ⟨n, hn⟩ := hcounts rfl i (hi ▸ List.mem_singleton_self i)
    refine ⟨i, n, hi, hn, ?_⟩
    rw [hi]
    simp [outcome, total, hn, counted]
  | shutdown =>
    obtain ⟨counts, hmap, htotal⟩ := total_of_counts (hcounts rfl)
    exact ⟨counts, hmap, by rw [outcome, htotal]; rfl⟩

end Traffic
end Collectors
