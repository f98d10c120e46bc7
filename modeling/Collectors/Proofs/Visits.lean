import Collectors.Backend.Private
import Collectors.Proofs.Outcomes
import Collectors.Proofs.Table

/-!
# What requests come to

A request to one collector looks at its token and at one entry of the table. It is answered at once
(`Request.reach`), or has the instance of the entry act: `Request.visit` says what comes of that, in
one step, where instances keep to themselves (`Provider.outcome_visit`). A request for a new
collector enters one behind the others, if a backend makes an instance (`Provider.outcome_enter`).

What requests do to a table is to settle what becomes of one entry (`Table.settle`) and to enter one
(`Table.insert`). None of that depends on the order in which it is done (`Table.settle_comm`,
`Table.insert_settle`).
-/

namespace Collectors

variable {β σ τ ι ω : Type}

/-! ### What becomes of an entry -/

/-- What becomes of a collector that a request is made to. -/
inductive Fate where
  | stays
  | leaves
  /-- It leaves, and its close failed. -/
  | fails

namespace Table

attribute [ext] Table

/-- The table once a request to the collector with an id is through. -/
def settle (t : Table ι) (id : CollectorId) : Fate → Table ι
  | .stays => t
  | .leaves => t.without id
  | .fails => (t.without id).countCloseFailure

theorem publish_publish (gauge : Option Nat) (m n : Nat) :
    publish (publish gauge m) n = publish gauge n := by
  cases gauge <;> rfl

/-- It does not matter who leaves first: the others keep their order. -/
theorem without_comm (t : Table ι) (id id' : CollectorId) :
    (t.without id).without id' = (t.without id').without id := by
  have hrest : (t.entries.filter fun c => c.id ≠ id).filter (fun c => c.id ≠ id') =
      (t.entries.filter fun c => c.id ≠ id').filter fun c => c.id ≠ id := by
    simp only [List.filter_filter, Bool.and_comm]
  ext1
  · exact hrest
  · rfl
  · simp only [without, publish_publish, hrest]
  · rfl
  · rfl
  · rfl

theorem settle_comm (t : Table ι) (id id' : CollectorId) (f f' : Fate) :
    (t.settle id f).settle id' f' = (t.settle id' f').settle id f := by
  have hcomm := t.without_comm id id'
  cases f <;> cases f'
  case leaves.leaves => exact hcomm
  case leaves.fails => exact congrArg countCloseFailure hcomm
  case fails.leaves => exact congrArg countCloseFailure hcomm
  case fails.fails => exact congrArg (fun t => t.countCloseFailure.countCloseFailure) hcomm
  all_goals rfl

@[simp] theorem closed_settle (t : Table ι) (id : CollectorId) (f : Fate) :
    (t.settle id f).closed = t.closed := by
  cases f <;> rfl

theorem entries_settle (t : Table ι) (id : CollectorId) (f : Fate) :
    (t.settle id f).entries = t.entries ∨
      (t.settle id f).entries = t.entries.filter fun c => c.id ≠ id := by
  cases f
  · exact .inl rfl
  · exact .inr rfl
  · exact .inr rfl

theorem mem_ids_settle {t : Table ι} {id id' : CollectorId} {f : Fate}
    (h : id' ∈ (t.settle id f).ids) : id' ∈ t.ids := by
  obtain ⟨c, hc, rfl⟩ := mem_ids.1 h
  refine mem_ids.2 ⟨c, ?_, rfl⟩
  rcases t.entries_settle id f with heq | heq <;> rw [heq] at hc
  · exact hc
  · exact List.mem_of_mem_filter hc

/-- The entries of others are found as before. -/
theorem get?_settle (t : Table ι) {id id' : CollectorId} (hne : id' ≠ id) (f : Fate) :
    (t.settle id f).get? id' = t.get? id' := by
  have hfilter : (t.entries.filter fun c => c.id ≠ id).find? (fun c => c.id = id') =
      t.entries.find? fun c => c.id = id' := by
    rw [List.find?_filter]
    refine congrArg (List.find? · t.entries) (funext fun c => ?_)
    by_cases hc : c.id = id' <;> simp [hc, hne]
  rcases t.entries_settle id f with heq | heq <;> rw [get?, heq]
  · rfl
  · exact hfilter

/-- A collector that is entered was free to be, and comes behind the others. -/
structure Entered (t : Table ι) (c : Collector ι) (t' : Table ι) : Prop where
  isOpen : t.closed = false
  fresh : c.id ∉ t.ids
  entries : t'.entries = t.entries ++ [c]
  closed : t'.closed = t.closed
  gauge : t'.gauge = publish t.gauge (t.size + 1)
  inserted : t'.inserted = t.inserted + 1
  removed : t'.removed = t.removed
  closeFailures : t'.closeFailures = t.closeFailures

theorem entered_of_insert {t t' : Table ι} {c : Collector ι} (h : t.insert c = .ok t') :
    t.Entered c t' := by
  rcases t.insert_cases c with ⟨-, hc⟩ | ⟨-, -, hc⟩ |
    ⟨hopen, hfresh, u, hc, hentries, hclosed, hgauge, hinserted, hremoved, hfailures⟩
  · cases hc.symm.trans h
  · cases hc.symm.trans h
  · obtain rfl := Except.ok.inj (hc.symm.trans h)
    exact ⟨hopen, hfresh, hentries, hclosed.trans hopen.symm, hgauge, hinserted, hremoved,
      hfailures⟩

theorem exists_insert {t : Table ι} {c : Collector ι} (hopen : t.closed = false)
    (hfresh : c.id ∉ t.ids) : ∃ t', t.insert c = .ok t' := by
  rcases t.insert_cases c with ⟨hclosed, -⟩ | ⟨-, htaken, -⟩ | ⟨-, -, t', h, -⟩
  · cases hopen.symm.trans hclosed
  · exact absurd htaken hfresh
  · exact ⟨t', h⟩

theorem get?_insert {t t' : Table ι} {c : Collector ι} (h : t.insert c = .ok t')
    {id : CollectorId} (hne : id ≠ c.id) : t'.get? id = t.get? id := by
  have hnot : [c].find? (fun c => c.id = id) = none := by simp [Ne.symm hne]
  rw [get?, (entered_of_insert h).entries, List.find?_append, hnot, Option.or_none]
  rfl

/-- Whoever leaves, a new collector comes behind the others. -/
theorem insert_without {t t' : Table ι} {c : Collector ι} (h : t.insert c = .ok t')
    {id : CollectorId} (hne : id ≠ c.id) : (t.without id).insert c = .ok (t'.without id) := by
  have hold := entered_of_insert h
  have hleft : c.id ∉ (t.without id).ids :=
    fun hmem => hold.fresh (mem_ids_settle (f := .leaves) hmem)
  obtain ⟨u, hu⟩ := exists_insert (t := t.without id) (hold.isOpen) hleft
  have hnew := entered_of_insert hu
  have hentries : u.entries = (t'.without id).entries := by
    have hstays : [c].filter (fun c => c.id ≠ id) = [c] := by simp [Ne.symm hne]
    rw [hnew.entries, entries_without, entries_without, hold.entries, List.filter_append, hstays]
  rw [hu]
  congr 1
  ext1
  · exact hentries
  · exact hnew.closed.trans hold.closed.symm
  · have hsize : (t.without id).size + 1 = (t'.without id).entries.length := by
      rw [← hentries, hnew.entries, List.length_append]
      rfl
    rw [hnew.gauge, hsize]
    simp only [without, hold.gauge, publish_publish]
  · exact hnew.inserted.trans hold.inserted.symm
  · exact hnew.removed.trans (congrArg (· + 1) hold.removed.symm)
  · exact hnew.closeFailures.trans hold.closeFailures.symm

theorem insert_countCloseFailure {t t' : Table ι} {c : Collector ι} (h : t.insert c = .ok t') :
    t.countCloseFailure.insert c = .ok t'.countCloseFailure := by
  have hold := entered_of_insert h
  obtain ⟨u, hu⟩ := exists_insert (t := t.countCloseFailure) hold.isOpen hold.fresh
  have hnew := entered_of_insert hu
  rw [hu]
  congr 1
  ext1
  · exact hnew.entries.trans hold.entries.symm
  · exact hnew.closed.trans hold.closed.symm
  · exact hnew.gauge.trans hold.gauge.symm
  · exact hnew.inserted.trans hold.inserted.symm
  · exact hnew.removed.trans hold.removed.symm
  · exact hnew.closeFailures.trans (congrArg (· + 1) hold.closeFailures.symm)

theorem insert_settle {t t' : Table ι} {c : Collector ι} (h : t.insert c = .ok t')
    {id : CollectorId} (hne : id ≠ c.id) (f : Fate) :
    (t.settle id f).insert c = .ok (t'.settle id f) := by
  have hwithout := insert_without h hne
  cases f with
  | stays => exact h
  | leaves => exact hwithout
  | fails => exact insert_countCloseFailure hwithout

end Table

/-! ### What a request comes to -/

/-- The answer of a request, and the provider and the state of the backends then. -/
structure Outcome (β ι ω : Type) where
  answer : Option (Except Error Answer)
  provider : Provider β ι
  world : ω

/-- What a call comes to with nobody else acting on the provider. -/
def Call.outcome (b : Behaviour β ι ω) (call : Call β ι) (p : Provider β ι) (w : ω) :
    Outcome β ι ω :=
  let last := call.run b p w
  { answer := last.call.result?, provider := last.provider, world := last.world }

/-- What a request comes to with nobody else acting on the provider. -/
def Provider.outcome (b : Behaviour β ι ω) (r : Request) (p : Provider β ι) (w : ω) :
    Outcome β ι ω :=
  let next := p.perform b r w
  { answer := next.call.result?, provider := next.provider, world := next.world }

namespace Call

variable {b : Behaviour β ι ω} {call : Call β ι}

theorem outcome_step (h : call.isDone = false) (p : Provider β ι) (w : ω) :
    call.outcome b p w =
      (call.step b p w).call.outcome b (call.step b p w).provider (call.step b p w).world := by
  rw [outcome, run_of_not_isDone h]
  rfl

theorem outcome_done (h : call.isDone = true) (p : Provider β ι) (w : ω) :
    call.outcome b p w = { answer := call.result?, provider := p, world := w } := by
  rw [outcome, run_of_isDone h]

end Call

theorem Provider.outcome_begin (b : Behaviour β ι ω) (r : Request) (p : Provider β ι) (w : ω) :
    p.outcome b r w = (Call.begin p r).outcome b p w := by
  have hstart : (Call.start r : Call β ι).isDone = false := rfl
  exact Call.outcome_step hstart p w

/-! ### Requests to one collector -/

/-- What a request comes to that reaches its collector. -/
structure Visit (σ : Type) where
  answer : Option (Except Error Answer)
  fate : Fate
  state : σ

namespace Request

/-- The id of the collector that a request is made to, or that it makes. -/
def subject? : Request → Option CollectorId
  | instantiate _ _ _ _ id => some id
  | r => r.collector?

/-- Whether a request asks for a new collector. -/
def makes : Request → Bool
  | instantiate _ _ _ _ _ => true
  | _ => false

/-- The answer of a request whose collector there is not. -/
def missing (id : CollectorId) : Request → Except Error Answer
  | hello _ => .ok .done
  | _ => .error (.collectorNotFound id.text)

/-- The collector that a request to the collector with an id reaches; it is answered at once if its
token is wrong, or if there is no such collector. -/
def reach (p : Provider β ι) (id : CollectorId) (r : Request) :
    Except (Except Error Answer) (Collector ι) :=
  match r.token?.map p.authorize with
  | some (.error e) => .error (.error e)
  | _ =>
    match p.table.get? id with
    | some c => .ok c
    | none => .error (r.missing id)

theorem reach_eq_ok {p : Provider β ι} {id : CollectorId} {r : Request} {c : Collector ι}
    (h : r.reach p id = .ok c) :
    (∀ token ∈ r.token?, p.authorize token = .ok ()) ∧ p.table.get? id = some c := by
  unfold reach at h
  split at h
  · cases h
  · rename_i hallowed
    refine ⟨fun token htoken => ?_, ?_⟩
    · rcases p.authorize_cases token with hok | herror
      · exact hok
      · exact absurd (by rw [htoken, Option.map_some, herror]) (hallowed .invalidToken)
    · split at h
      · rename_i hget
        rw [hget, Except.ok.inj h]
      · cases h

theorem reach_eq_error {p : Provider β ι} {id : CollectorId} {r : Request}
    {a : Except Error Answer} (h : r.reach p id = .error a) :
    (∃ token ∈ r.token?, ∃ e, p.authorize token = .error e ∧ a = .error e) ∨
    ((∀ token ∈ r.token?, p.authorize token = .ok ()) ∧ p.table.get? id = none ∧
      a = r.missing id) := by
  unfold reach at h
  split at h
  · rename_i e hdenied
    obtain ⟨token, htoken, he⟩ := Option.map_eq_some_iff.1 hdenied
    exact .inl ⟨token, htoken, e, he, (Except.error.inj h).symm⟩
  · rename_i hallowed
    refine .inr ⟨fun token htoken => ?_, ?_⟩
    · rcases p.authorize_cases token with hok | herror
      · exact hok
      · exact absurd (by rw [htoken, Option.map_some, herror]) (hallowed .invalidToken)
    · split at h
      · cases h
      · rename_i hget
        exact ⟨hget, (Except.error.inj h).symm⟩

/-- What a request does to the collector that it reaches, whose instance is in the state `s`. -/
def visit (m : Methods β σ τ) (c : Collector ι) (s : σ) : Request → Visit σ
  | close _ _ =>
    match m.close s with
    | (none, s) => { answer := none, fate := .leaves, state := s }
    | (some (.ok ()), s) => { answer := some (.ok .done), fate := .leaves, state := s }
    | (some (.error e), s) => { answer := some (.error e), fate := .fails, state := s }
  | destroy _ _ =>
    { answer := (m.destroy s).1.map fun _ => .ok .done, fate := .leaves,
      state := (m.destroy s).2 }
  | hello _ =>
    { answer := (m.hello s).1.map fun _ => .ok .done, fate := .stays, state := (m.hello s).2 }
  | sum _ x y =>
    { answer := (m.sum x y s).1.map fun r => r.map .sum, fate := .stays,
      state := (m.sum x y s).2 }
  | invoke _ operation args =>
    { answer := (m.invoke operation args s).1.map fun r =>
        (r.mapError (Call.renameUnsupported c.backend)).map .value
      fate := .stays, state := (m.invoke operation args s).2 }
  | _ => { answer := none, fate := .stays, state := s }

end Request

namespace Provider

variable {m : Methods β σ τ} {b : Behaviour β ι ω} {r : Request} {id : CollectorId}

/-- A request that does not reach its collector leaves everything as it is. -/
theorem outcome_missed {p : Provider β ι} (hr : r.collector? = some id)
    {a : Except Error Answer} (h : r.reach p id = .error a) (w : ω) :
    p.outcome b r w = { answer := some a, provider := p, world := w } := by
  rw [outcome_begin]
  rcases Request.reach_eq_error h with ⟨token, htoken, e, hdenied, rfl⟩ | ⟨hallowed, hget, rfl⟩
  · cases r with
    | close _ id | destroy _ id =>
      cases htoken
      rw [Call.begin, hdenied, Call.outcome_done rfl]
      rfl
    | instantiate | list | shutdown => cases hr
    | hello | sum | invoke => cases htoken
  · cases r with
    | close token _ =>
      cases hr
      rw [Call.begin, hallowed token rfl, Call.outcome_step rfl]
      simp only [Call.step, Removal.step, Table.take, hget, Option.map_none]
      exact Call.outcome_done rfl _ _
    | destroy token _ =>
      cases hr
      rw [Call.begin, hallowed token rfl, Call.outcome_step rfl]
      simp only [Call.step, Table.take, hget, Option.map_none]
      exact Call.outcome_done rfl _ _
    | hello _ | sum _ x y | invoke _ operation args =>
      cases hr
      rw [Call.begin, hget]
      exact Call.outcome_done rfl _ _
    | instantiate | list | shutdown => cases hr

/-- A request that reaches its collector has its instance act, and settles what becomes of the
collector. -/
theorem outcome_visit {p : Provider β Nat} (hr : r.collector? = some id) {c : Collector Nat}
    (h : r.reach p id = .ok c) {w : Cells σ τ} {s : σ} (hs : w.states[c.resource]? = some s) :
    p.outcome m.behaviour r w =
      { answer := (r.visit m c s).answer
        provider := { p with table := p.table.settle id (r.visit m c s).fate }
        world := { w with states := w.states.set c.resource (r.visit m c s).state } } := by
  obtain ⟨hallowed, hget⟩ := Request.reach_eq_ok h
  have hact : ∀ {α : Type} (f : σ → Option α × σ), w.act c.resource f =
      ((f s).1, { w with states := w.states.set c.resource (f s).2 }) := by
    intro α f
    rw [Cells.act, hs]
  rw [outcome_begin]
  cases r with
  | close token _ =>
    cases hr
    rw [Call.begin, hallowed token rfl, Call.outcome_step rfl]
    simp only [Call.step, Removal.step, Table.take, hget, Option.map_some, if_true]
    have hclose : (Call.ofRemoval (.close c) : Call β Nat) = .remove (.close c) := rfl
    rw [hclose, Call.outcome_step rfl]
    simp only [Call.step, Removal.step, Methods.close_behaviour, hact, Request.visit]
    rcases m.close s with ⟨_ | (e | _), s'⟩
    · exact Call.outcome_done rfl _ _
    · -- The failure is counted in a step of its own.
      exact (Call.outcome_step rfl _ _).trans (Call.outcome_done rfl _ _)
    · exact Call.outcome_done rfl _ _
  | destroy token _ =>
    cases hr
    rw [Call.begin, hallowed token rfl, Call.outcome_step rfl]
    simp only [Call.step, Table.take, hget, Option.map_some]
    rw [Call.outcome_step rfl]
    simp only [Call.step, Methods.destroy_behaviour, hact, Request.visit]
    rcases m.destroy s with ⟨_ | (e | _), s'⟩ <;> exact Call.outcome_done rfl _ _
  | hello _ =>
    cases hr
    rw [Call.begin, hget, Call.outcome_step rfl]
    simp only [Call.step, Methods.hello_behaviour, hact, Request.visit]
    rcases m.hello s with ⟨_ | _, s'⟩ <;> exact Call.outcome_done rfl _ _
  | sum _ x y =>
    cases hr
    rw [Call.begin, hget, Call.outcome_step rfl]
    simp only [Call.step, Methods.sum_behaviour, hact, Request.visit]
    rcases m.sum x y s with ⟨_ | _, s'⟩ <;> exact Call.outcome_done rfl _ _
  | invoke _ operation args =>
    cases hr
    rw [Call.begin, hget, Call.outcome_step rfl]
    simp only [Call.step, Methods.invoke_behaviour, hact, Request.visit]
    rcases m.invoke operation args s with ⟨_ | _, s'⟩ <;> exact Call.outcome_done rfl _ _
  | instantiate | list | shutdown => cases hr

/-! ### Requests for a new collector -/

/-- The backend that a request for a new collector reaches; it is answered at once if its token is
wrong, if the table is closed, or if there is no such backend. -/
def order (p : Provider β ι) (token : Option String) (backend : String) :
    Except (Except Error Answer) β :=
  match p.authorize token with
  | .error e => .error (.error e)
  | .ok () =>
    if p.table.closed then .error (.error .tableClosed)
    else
      match p.registry.find? backend with
      | some made => .ok made
      | none => .error (.error (.backendNotFound backend))

theorem outcome_declined {p : Provider β ι} {token : Option String} {backend : String}
    {a : Except Error Answer} (h : p.order token backend = .error a) (mode : Mode)
    (config : Option String) (w : ω) :
    p.outcome b (.instantiate mode token backend config id) w =
      { answer := some a, provider := p, world := w } := by
  rw [outcome_begin]
  unfold order at h
  cases hallowed : p.authorize token with
  | error e =>
    rw [hallowed] at h
    cases h
    rw [Call.begin, hallowed]
    exact Call.outcome_done rfl _ _
  | ok u =>
    rw [hallowed] at h
    rw [Call.begin, hallowed, Call.outcome_step rfl]
    simp only [Call.step] at h ⊢
    cases hclosed : p.table.closed with
    | true =>
      rw [hclosed, if_pos rfl] at h
      cases h
      exact Call.outcome_done rfl _ _
    | false =>
      rw [hclosed, if_neg Bool.false_ne_true] at h
      rw [if_neg Bool.false_ne_true, Call.outcome_step rfl]
      cases hfound : p.registry.find? backend with
      | some made => rw [hfound] at h; cases h
      | none =>
        rw [hfound] at h
        cases h
        simp only [Call.step, hfound]
        exact Call.outcome_done rfl _ _

theorem order_eq_ok {p : Provider β ι} {token : Option String} {backend : String} {made : β}
    (h : p.order token backend = .ok made) : p.authorize token = .ok () ∧
      p.table.closed = false ∧ p.registry.find? backend = some made := by
  unfold order at h
  split at h
  · cases h
  · rename_i hallowed
    split at h
    · cases h
    · rename_i hopen
      split at h
      · rename_i hfound
        exact ⟨hallowed, eq_false_of_ne_true hopen, Except.ok.inj h ▸ hfound⟩
      · cases h

/-- A request for a collector that reaches its backend comes to what the backend gives. -/
theorem outcome_order {p : Provider β ι} {token : Option String} {backend : String} {made : β}
    (h : p.order token backend = .ok made) (mode : Mode) (config : Option String) (w : ω) :
    p.outcome b (.instantiate mode token backend config id) w =
      (Call.instantiate made mode backend config id).outcome b p w := by
  obtain ⟨hallowed, hopen, hfound⟩ := order_eq_ok h
  rw [outcome_begin, Call.begin, hallowed, Call.outcome_step rfl]
  simp only [Call.step, hopen, Bool.false_eq_true, if_false]
  rw [Call.outcome_step rfl]
  simp only [Call.step, hfound]

/-- A backend that makes no instance leaves the provider as it is. -/
theorem outcome_unmade {p : Provider β Nat} {token : Option String} {backend : String} {made : β}
    (h : p.order token backend = .ok made) {mode : Mode} {config : Option String}
    {w : Cells σ τ} {backends : τ} (result : Option Error)
    (hmade : m.instantiate made mode config w.backends = (result.map .error, backends)) :
    p.outcome m.behaviour (.instantiate mode token backend config id) w =
      { answer := result.map .error, provider := p, world := { w with backends } } := by
  rw [outcome_order h, Call.outcome_step rfl]
  cases result <;>
  · simp only [Option.map_none, Option.map_some] at hmade
    simp only [Call.step, Methods.behaviour, hmade]
    exact Call.outcome_done rfl _ _

/-- A new instance is entered behind the others. -/
theorem outcome_enter {p : Provider β Nat} {token : Option String} {backend : String} {made : β}
    (h : p.order token backend = .ok made) {mode : Mode} {config : Option String}
    {w : Cells σ τ} {backends : τ} {s : σ}
    (hmade : m.instantiate made mode config w.backends = (some (.ok s), backends)) {t : Table Nat}
    (hinsert : p.table.insert { id, backend, resource := w.states.length } = .ok t) :
    p.outcome m.behaviour (.instantiate mode token backend config id) w =
      { answer := some (.ok (.id id)), provider := { p with table := t },
        world := { states := w.states ++ [s], backends } } := by
  rw [outcome_order h, Call.outcome_step rfl]
  simp only [Call.step, Methods.behaviour, hmade]
  rw [Call.outcome_step rfl]
  simp only [Call.step, hinsert]
  exact Call.outcome_done rfl _ _

end Provider

end Collectors
