import Mathlib.Data.List.Basic
import Collectors.Backend.Scripted
import Collectors.Backend.Traced
import Collectors.Proofs.Custody
import Collectors.Proofs.Outcomes
import Collectors.Proofs.Table

/-!
# Requests that fail

`Provider.Failure` lists every way in which a request to a provider can fail, with what the request
leaves of the provider and of the backends' trace. Only a close whose instance fails to close leaves
another provider than there was.

A request is followed by `Call.Course`, which says how far it may have come: nothing was changed
yet, or the request cannot fail any more (`Call.Succeeds`), or it is such a close. Every step keeps
to the course (`Course.step`), and so does a whole run (`Course.run`).

`Host.failed_perform` puts it together for a host, whose gauges it keeps too.
-/

namespace Collectors

variable {β ι ω : Type}

/-! ### The ways to fail -/

/-- Every way in which a request to a provider `p` can fail, while the trace of the backends is
`tr` and their state is `w`: the request, the error, and the provider, the trace and the state
that are left. -/
inductive Provider.Failure (b : Behaviour β ι ω) (p : Provider β (Nat × ι)) (tr : Trace) (w : ω) :
    Request → Error → Provider β (Nat × ι) → Trace × ω → Prop where
  /-- The token is wrong. -/
  | unauthorized {r token} (carried : r.token? = some token) (wrong : p.token.check token = false) :
      Failure b p tr w r .invalidToken p (tr, w)
  /-- The table takes no more collectors. -/
  | closed {mode token backend config id} (closed : p.table.closed = true) :
      Failure b p tr w (.instantiate mode token backend config id) .tableClosed p (tr, w)
  | unknownBackend {mode token backend config id} (unknown : p.registry.find? backend = none) :
      Failure b p tr w (.instantiate mode token backend config id) (.backendNotFound backend) p
        (tr, w)
  /-- The backend makes no instance. -/
  | notMade {mode token backend config id made e w'} (found : p.registry.find? backend = some made)
      (failed : b.instantiate made mode config w = (some (.error e), w')) :
      Failure b p tr w (.instantiate mode token backend config id) e p (tr, w')
  /-- The id of the new collector is taken; the new instance is closed. -/
  | taken {mode token backend config id w'} (present : id ∈ p.table.ids) :
      Failure b p tr w (.instantiate mode token backend config id) (.collectorExists id.text) p
        (tr.make.part tr.made .closed, w')
  /-- There is no such collector. -/
  | missing {r id} (asked : r.collector? = some id) (absent : id ∉ p.table.ids) :
      Failure b p tr w r (.collectorNotFound id.text) p (tr, w)
  /-- The instance does not add. -/
  | sum {id x y c e w'} (found : p.table.get? id = some c)
      (failed : b.sum c.resource.2 x y w = (some (.error e), w')) :
      Failure b p tr w (.sum id x y) e p (tr, w')
  /-- The instance does not run the operation. -/
  | invoke {id operation args c e w'} (found : p.table.get? id = some c)
      (failed : b.invoke c.resource.2 operation args w = (some (.error e), w')) :
      Failure b p tr w (.invoke id operation args) (Call.renameUnsupported c.backend e) p (tr, w')
  /-- The instance fails to close; its collector has left the table all the same. -/
  | notClosed {token id c e w'} (found : p.table.get? id = some c)
      (failed : b.close c.resource.2 w = (some (.error e), w')) :
      Failure b p tr w (.close token id) e
        { p with table := (p.table.without id).countCloseFailure }
        (tr.part c.resource.1 .closed, w')

namespace Call

/-! ### Calls that cannot fail any more -/

/-- Whether a call cannot fail any more: it succeeds, unless a backend breaks down. -/
def Succeeds : Call β ι → Prop
  | remove (.detach _ _) | remove (.close _) | remove (.countFailure _) => False
  | remove (.removed (.error _)) | finished (.error _) => False
  | remove _ | destroy _ | list _ | hello _ | finished (.ok _) | broken => True
  | _ => False

theorem succeeds_ofRemoval {r : Removal ι} (h : (remove r : Call β ι).Succeeds) :
    (ofRemoval r : Call β ι).Succeeds := by
  cases r with
  | removed result =>
    cases result with
    | ok => trivial
    | error e => exact h
  | _ => exact h

theorem Succeeds.step (b : Behaviour β ι ω) {call : Call β ι} (h : call.Succeeds)
    (p : Provider β ι) (w : ω) : (call.step b p w).call.Succeeds := by
  cases call with
  | remove r =>
    refine succeeds_ofRemoval ?_
    cases r with
    | closeAll rest total =>
      cases rest with
      | nil => trivial
      | cons c rest => simp only [Removal.step]; split <;> trivial
    | detach | close | countFailure => exact h.elim
    | _ => exact h
  | destroy c => simp only [Call.step]; split <;> trivial
  | list limit => trivial
  | hello c =>
    simp only [Call.step]
    cases (b.hello c.resource w).1 <;> trivial
  | finished result => exact h
  | broken => trivial
  | _ => exact h.elim

/-! ### How far a request may have come -/

/-- How far a request `r` to a provider `p` may have come, which began when the trace of the
backends was `tr` and their state was `w`: what is left to do, and the provider, the trace and the
state then. -/
inductive Course (b : Behaviour β ι ω) (p : Provider β (Nat × ι)) (tr : Trace) (w : ω)
    (r : Request) : Call β (Nat × ι) → Provider β (Nat × ι) → Trace × ω → Prop where
  | start : Course b p tr w r (.start r) p (tr, w)
  | checkClosed {mode token backend config id}
      (asked : r = .instantiate mode token backend config id) :
      Course b p tr w r (.checkClosed mode backend config id) p (tr, w)
  | findBackend {mode token backend config id}
      (asked : r = .instantiate mode token backend config id) (opened : p.table.closed = false) :
      Course b p tr w r (.findBackend mode backend config id) p (tr, w)
  | instantiate {mode token backend config id made}
      (asked : r = .instantiate mode token backend config id) (opened : p.table.closed = false)
      (found : p.registry.find? backend = some made) :
      Course b p tr w r (.instantiate made mode backend config id) p (tr, w)
  | insert {mode token backend config id i w'}
      (asked : r = .instantiate mode token backend config id) (opened : p.table.closed = false) :
      Course b p tr w r (.insert { id, backend, resource := (tr.made, i) }) p (tr.make, w')
  | closeRefused {mode token backend config id i w'}
      (asked : r = .instantiate mode token backend config id) (present : id ∈ p.table.ids) :
      Course b p tr w r
        (.closeRefused { id, backend, resource := (tr.made, i) } (.collectorExists id.text)) p
        (tr.make, w')
  | detach {token id} (asked : r = .close token id) :
      Course b p tr w r (.remove (.detach id true)) p (tr, w)
  | close {token c} (asked : r = .close token c.id) (present : c ∈ p.table.entries) :
      Course b p tr w r (.remove (.close c)) { p with table := p.table.without c.id } (tr, w)
  | countFailure {token c e w'} (asked : r = .close token c.id) (present : c ∈ p.table.entries)
      (failed : b.close c.resource.2 w = (some (.error e), w')) :
      Course b p tr w r (.remove (.countFailure e)) { p with table := p.table.without c.id }
        (tr.part c.resource.1 .closed, w')
  | detachToDestroy {token id} (asked : r = .destroy token id) :
      Course b p tr w r (.detachToDestroy id) p (tr, w)
  | sum {id x y c} (asked : r = .sum id x y) (found : p.table.get? id = some c) :
      Course b p tr w r (.sum c x y) p (tr, w)
  | invoke {id operation args c} (asked : r = .invoke id operation args)
      (found : p.table.get? id = some c) : Course b p tr w r (.invoke c operation args) p (tr, w)
  | failed {e p' w'} (failure : p.Failure b tr w r e p' w') :
      Course b p tr w r (.finished (.error e)) p' w'
  | succeeds {call p' w'} (sure : call.Succeeds) : Course b p tr w r call p' w'

variable {b : Behaviour β ι ω} {p : Provider β (Nat × ι)} {tr : Trace} {w : ω} {r : Request}

/-- A request is refused for its token, or it goes on. -/
theorem begin_authorize (p : Provider β ι) {r : Request} {token : Option String}
    (h : r.token? = some token) :
    (p.token.check token = false ∧ begin p r = .finished (.error .invalidToken)) ∨
    (p.token.check token = true ∧ p.authorize token = .ok ()) := by
  cases hcheck : p.token.check token with
  | true => exact .inr ⟨rfl, Provider.authorize_of_check hcheck⟩
  | false =>
    have hrefused : p.authorize token = .error .invalidToken := by
      rw [Provider.authorize, if_neg (by rw [hcheck]; exact Bool.false_ne_true)]
    refine .inl ⟨rfl, ?_⟩
    cases r <;> cases h <;> simp only [begin, hrefused]

/-- The first step of a request. -/
theorem course_begin (b : Behaviour β ι ω) (p : Provider β (Nat × ι)) (tr : Trace) (w : ω)
    (r : Request) : Course b p tr w r (begin p r) p (tr, w) := by
  -- A request without a token has nothing to fear from the check.
  have hcheck : ∀ token, r.token? = some token →
      Course b p tr w r (begin p r) p (tr, w) ∨ p.authorize token = .ok () := by
    intro token htoken
    rcases begin_authorize p htoken with ⟨hwrong, h⟩ | ⟨-, h⟩
    · rw [h]
      exact .inl (.failed (.unauthorized htoken hwrong))
    · exact .inr h
  cases r with
  | instantiate mode token backend config id =>
    rcases hcheck token rfl with h | h
    · exact h
    · simp only [begin, h]
      exact .checkClosed rfl
  | close token id =>
    rcases hcheck token rfl with h | h
    · exact h
    · simp only [begin, h]
      exact .detach rfl
  | destroy token id =>
    rcases hcheck token rfl with h | h
    · exact h
    · simp only [begin, h]
      exact .detachToDestroy rfl
  | list token limit =>
    rcases hcheck token rfl with h | h
    · exact h
    · simp only [begin, h]
      exact .succeeds trivial
  | hello id =>
    simp only [begin]
    split <;> exact .succeeds trivial
  | sum id x y =>
    simp only [begin]
    cases hfound : p.table.get? id with
    | some c => exact .sum rfl hfound
    | none => exact .failed (.missing rfl (Table.get?_eq_none_iff.1 hfound))
  | invoke id operation args =>
    simp only [begin]
    cases hfound : p.table.get? id with
    | some c => exact .invoke rfl hfound
    | none => exact .failed (.missing rfl (Table.get?_eq_none_iff.1 hfound))
  | shutdown => exact .succeeds trivial

/-- **Every step keeps to the course**, if nobody else acts on the provider. -/
theorem Course.step {call : Call β (Nat × ι)} {p' : Provider β (Nat × ι)} {w' : Trace × ω}
    (h : Course b p tr w r call p' w') :
    Course b p tr w r (call.step b.traced p' w').call (call.step b.traced p' w').provider
      (call.step b.traced p' w').world := by
  cases h with
  | start => exact course_begin b p tr w r
  | checkClosed asked =>
    simp only [Call.step]
    cases hclosed : p.table.closed with
    | true => exact .failed (asked ▸ .closed hclosed)
    | false => exact .findBackend asked hclosed
  | @findBackend mode token backend config id asked opened =>
    simp only [Call.step]
    cases hfound : p.registry.find? backend with
    | some made => exact .instantiate asked opened hfound
    | none => exact .failed (asked ▸ .unknownBackend hfound)
  | @instantiate mode token backend config id made asked opened found =>
    rcases hmade : b.instantiate made mode config w with ⟨_ | (e | i), w'⟩ <;>
      simp only [Call.step, Behaviour.traced, hmade]
    · exact .succeeds trivial
    · exact .failed (asked ▸ .notMade found hmade)
    · exact .insert asked opened
  | @insert mode token backend config id i w' asked opened =>
    rcases p.table.insert_cases { id, backend, resource := (tr.made, i) } with
      ⟨hclosed, -⟩ | ⟨-, hpresent, hinsert⟩ | ⟨-, -, t, hinsert, -⟩
    · rw [opened] at hclosed
      cases hclosed
    · simp only [Call.step, hinsert]
      exact .closeRefused asked hpresent
    · simp only [Call.step, hinsert]
      exact .succeeds trivial
  | @closeRefused mode token backend config id i w' asked present =>
    rcases hclose : b.close i w' with ⟨_ | (e | _), w''⟩ <;>
      simp only [Call.step, Behaviour.traced, hclose]
    · exact .succeeds trivial
    · exact .failed (asked ▸ .taken present)
    · exact .failed (asked ▸ .taken present)
  | @detach token id asked =>
    rcases p.table.take_cases id with ⟨habsent, htake⟩ | ⟨c, hc, rfl, htake⟩ <;>
      simp only [Call.step, Removal.step, htake]
    · exact .failed (asked ▸ .missing rfl habsent)
    · exact .close asked hc
  | @close token c asked present =>
    rcases hclose : b.close c.resource.2 w with ⟨_ | (e | _), w'⟩ <;>
      simp only [Call.step, Removal.step, Behaviour.traced, hclose]
    · exact .succeeds trivial
    · exact .countFailure asked present hclose
    · exact .succeeds trivial
  | @countFailure token c e w' asked present failed =>
    exact .failed (asked ▸ .notClosed (Table.get?_eq_some_iff.2 ⟨present, rfl⟩) failed)
  | @detachToDestroy token id asked =>
    rcases p.table.take_cases id with ⟨habsent, htake⟩ | ⟨c, -, -, htake⟩ <;>
      simp only [Call.step, htake]
    · exact .failed (asked ▸ .missing rfl habsent)
    · exact .succeeds trivial
  | @sum id x y c asked found =>
    rcases hsum : b.sum c.resource.2 x y w with ⟨_ | (e | z), w'⟩ <;>
      simp only [Call.step, Behaviour.traced, hsum]
    · exact .succeeds trivial
    · exact .failed (asked ▸ .sum found hsum)
    · exact .succeeds trivial
  | @invoke id operation args c asked found =>
    rcases hinvoke : b.invoke c.resource.2 operation args w with ⟨_ | (e | v), w'⟩ <;>
      simp only [Call.step, Behaviour.traced, hinvoke]
    · exact .succeeds trivial
    · exact .failed (asked ▸ .invoke found hinvoke)
    · exact .succeeds trivial
  | failed failure => exact .failed failure
  | succeeds sure => exact .succeeds (sure.step _ _ _)

/-- What a run that ends with an error leaves is one of the ways to fail. -/
theorem Course.run {call : Call β (Nat × ι)} {p' : Provider β (Nat × ι)} {w' : Trace × ω}
    (h : Course b p tr w r call p' w') {e : Error}
    (he : (call.run b.traced p' w').call = .finished (.error e)) :
    p.Failure b tr w r e (call.run b.traced p' w').provider (call.run b.traced p' w').world := by
  fun_induction call.run b.traced p' w' with
  | case1 call p' w' hdone =>
    obtain rfl : call = .finished (.error e) := he
    cases h with
    | failed failure => exact failure
    | succeeds sure => exact sure.elim
  | case2 call p' w' hdone next last ih => exact ih h.step he

end Call

/-- **A request fails in one of the ways to fail.** -/
theorem Provider.failure (b : Behaviour β ι ω) (p : Provider β (Nat × ι)) (r : Request)
    (tr : Trace) (w : ω) {e : Error}
    (he : (p.perform b.traced r (tr, w)).call.result? = some (.error e)) :
    p.Failure b tr w r e (p.perform b.traced r (tr, w)).provider
      (p.perform b.traced r (tr, w)).world := by
  refine Call.Course.start.run ?_
  change (p.perform b.traced r (tr, w)).call = _
  cases hcall : (p.perform b.traced r (tr, w)).call with
  | finished result =>
    rw [hcall] at he
    rw [Option.some.inj he]
  | _ =>
    rw [hcall] at he
    cases he

/-! ### Hosts -/

namespace Metrics

/-- Giving a key the value that it has changes nothing. -/
theorem assign_of_lookup {κ α : Type} [DecidableEq κ] {key : κ} {value : α} {l : List (κ × α)}
    (h : l.lookup key = some value) : assign key value l = l := by
  induction l with
  | nil => cases h
  | cons entry l ih =>
    rw [List.lookup_cons] at h
    by_cases hkey : key = entry.1
    · subst hkey
      rw [beq_self_eq_true] at h
      obtain rfl : entry.2 = value := Option.some.inj h
      exact if_pos rfl
    · rw [show (key == entry.1) = false from beq_false_of_ne hkey] at h
      unfold assign
      rw [if_neg (Ne.symm hkey), ih h]

theorem setGauge_of_gauge? {m : Metrics} {id : ProviderId} {n : Nat} (h : m.gauge? id = some n) :
    m.setGauge id n = m := by
  rw [setGauge, assign_of_lookup h]

end Metrics

namespace Host

/-- Whether a host shows the same as another: the same provider at every place, the same attached
ones, and the same metrics. -/
structure Same (h' h : Host β ι) : Prop where
  provider? : ∀ place, h'.provider? place = h.provider? place
  attached : h'.attached = h.attached
  metrics : h'.metrics = h.metrics

/-- Storing a provider as it was loaded changes nothing that can be seen. -/
theorem same_put {h : Host β ι} {place : Nat} {p : Provider β ι}
    (hp : h.provider? place = some p) : (h.put place p).Same h := by
  obtain ⟨q, hq, rfl⟩ := provider?_eq_some hp
  have hmetrics : (h.put place { q with
      table := { q.table with gauge := h.metrics.gauge? q.id } }).metrics = h.metrics := by
    cases hgauge : h.metrics.gauge? q.id with
    | none => rw [put]
    | some n => exact Metrics.setGauge_of_gauge? hgauge
  refine ⟨fun other => ?_, rfl, hmetrics⟩
  rw [Host.provider?, Host.provider?, hmetrics, providers_put]
  by_cases hplace : place = other
  · subst hplace
    obtain ⟨hlt, -⟩ := List.getElem?_eq_some_iff.1 hq
    rw [List.getElem?_set_self hlt, hq]
    rfl
  · rw [List.getElem?_set_ne hplace]

end Host

/-- What the failure to close the collector with an id leaves of a table: the collector is gone,
the others keep their order, and two counters and the gauge have changed. -/
structure Table.Loses (t : Table ι) (id : CollectorId) (t' : Table ι) : Prop where
  entries : t'.entries = t.entries.filter fun c => c.id ≠ id
  closed : t'.closed = t.closed
  gauge : t'.gauge = Table.publish t.gauge t'.size
  inserted : t'.inserted = t.inserted
  removed : t'.removed = t.removed + 1
  closeFailures : t'.closeFailures = t.closeFailures + 1

theorem Table.loses (t : Table ι) (id : CollectorId) :
    t.Loses id (t.without id).countCloseFailure where
  entries := rfl
  closed := rfl
  gauge := rfl
  inserted := rfl
  removed := rfl
  closeFailures := rfl

namespace Host

variable {b : Behaviour β ι ω} {h : Host β (Nat × ι)} {place : Nat} {p : Provider β (Nat × ι)}
  {tr : Trace} {w : ω} {r : Request} {e : Error}

/-- A request to a host that fails has failed at its provider. -/
theorem exists_failure (hp : h.provider? place = some p)
    (he : (h.perform b.traced place r (tr, w)).result = some (.error e)) :
    ∃ p', p.Failure b tr w r e p' (h.perform b.traced place r (tr, w)).world ∧
      (h.perform b.traced place r (tr, w)).host = h.put place p' := by
  rw [perform, hp] at he ⊢
  exact ⟨_, p.failure b r tr w he, rfl⟩

end Host

/-! ### Requests with a known end -/

namespace Provider

variable {b : Behaviour β ι ω} {p : Provider β ι} {w w' : ω}

/-- The destroy of a collector succeeds, whatever its instance makes of it. -/
theorem result_destroy {token : Option String} (hcheck : p.token.check token = true)
    {id : CollectorId} {c : Collector ι} (hc : p.table.get? id = some c) {r : Except Error Unit}
    (hr : b.destroy c.resource w = (some r, w')) :
    (p.perform b (.destroy token id) w).call.result? = some (.ok .done) := by
  rw [perform, Call.call_run rfl]
  simp only [Call.step, Call.begin, authorize_of_check hcheck]
  rw [Call.call_run rfl]
  simp only [Call.step, Table.take_of_get? hc]
  rw [Call.call_run rfl]
  simp only [Call.step, hr]
  cases r <;>
  · rw [Call.call_run_done rfl]
    rfl

/-- The close of a collector fails as its instance does; the collector has left the table, and
both are counted. -/
theorem perform_unclosed {token : Option String} (hcheck : p.token.check token = true)
    {id : CollectorId} {c : Collector ι} (hc : p.table.get? id = some c) {e : Error}
    (hclose : b.close c.resource w = (some (.error e), w')) :
    let next := p.perform b (.close token id) w
    next.call.result? = some (.error e) ∧
      next.provider = { p with table := (p.table.without id).countCloseFailure } ∧
      next.world = w' := by
  rw [perform, Call.run_of_not_isDone rfl]
  simp only [Call.step, Call.begin, authorize_of_check hcheck]
  rw [Call.run_of_not_isDone rfl]
  simp only [Call.step, Removal.step, Table.take_of_get? hc, if_true]
  rw [Call.run_of_not_isDone rfl]
  simp only [Call.step, Call.ofRemoval, Removal.step, hclose]
  rw [Call.run_of_not_isDone rfl]
  simp only [Call.step, Removal.step]
  rw [Call.run_of_isDone rfl]
  exact ⟨rfl, rfl, rfl⟩

/-- A request for a collector fails if its id is taken, once the new instance is closed. -/
theorem perform_taken {mode : Mode} {token config : Option String} {backend : String}
    {id : CollectorId} {made : β} {i : ι} {r : Except Error Unit} {w'' : ω}
    (hcheck : p.token.check token = true) (hopen : p.table.closed = false)
    (hfound : p.registry.find? backend = some made)
    (hmade : b.instantiate made mode config w = (some (.ok i), w')) (hid : id ∈ p.table.ids)
    (hclose : b.close i w' = (some r, w'')) :
    let next := p.perform b (.instantiate mode token backend config id) w
    next.call.result? = some (.error (.collectorExists id.text)) ∧ next.world = w'' := by
  have hrefused : p.table.insert { id, backend, resource := i } =
      .error (.collectorExists id.text) := by
    rcases p.table.insert_cases { id, backend, resource := i } with
      ⟨hclosed, -⟩ | ⟨-, -, h⟩ | ⟨-, habsent, -⟩
    · rw [hopen] at hclosed
      cases hclosed
    · exact h
    · exact absurd hid habsent
  rw [perform, Call.run_of_not_isDone rfl]
  simp only [Call.step, Call.begin, authorize_of_check hcheck]
  rw [Call.run_of_not_isDone rfl]
  simp only [Call.step, hopen, Bool.false_eq_true, if_false]
  rw [Call.run_of_not_isDone rfl]
  simp only [Call.step, hfound]
  rw [Call.run_of_not_isDone rfl]
  simp only [Call.step, hmade]
  rw [Call.run_of_not_isDone rfl]
  simp only [Call.step, hrefused]
  rw [Call.run_of_not_isDone rfl]
  simp only [Call.step, hclose]
  cases r <;>
  · rw [Call.run_of_isDone rfl]
    exact ⟨rfl, rfl⟩

/-- A request for a collector succeeds if its id is free. -/
theorem perform_entered {mode : Mode} {token config : Option String} {backend : String}
    {id : CollectorId} {made : β} {i : ι} (hcheck : p.token.check token = true)
    (hopen : p.table.closed = false) (hfound : p.registry.find? backend = some made)
    (hmade : b.instantiate made mode config w = (some (.ok i), w')) {t : Table ι}
    (hinsert : p.table.insert { id, backend, resource := i } = .ok t) :
    let next := p.perform b (.instantiate mode token backend config id) w
    next.call.result? = some (.ok (.id id)) ∧ next.provider = { p with table := t } ∧
      next.world = w' := by
  rw [perform, Call.run_of_not_isDone rfl]
  simp only [Call.step, Call.begin, authorize_of_check hcheck]
  rw [Call.run_of_not_isDone rfl]
  simp only [Call.step, hopen, Bool.false_eq_true, if_false]
  rw [Call.run_of_not_isDone rfl]
  simp only [Call.step, hfound]
  rw [Call.run_of_not_isDone rfl]
  simp only [Call.step, hmade]
  rw [Call.run_of_not_isDone rfl]
  simp only [Call.step, hinsert]
  rw [Call.run_of_isDone rfl]
  exact ⟨rfl, rfl, rfl⟩

end Provider

/-! ### What is kept -/

/-- What requests that fail leave of a host, where they are made to the provider `p` at a place
while the trace of the backends is `tr` and their state is `w`. -/
structure Host.Keeps (b : Behaviour β ι ω) (h : Host β (Nat × ι)) (place : Nat)
    (p : Provider β (Nat × ι)) (tr : Trace) (w : ω) : Prop where
  /-- Unless it is a close, the request has changed nothing, and if it has obtained an instance,
  then this one has been closed once and no other. -/
  kept : ∀ (r : Request) (e : Error), (∀ token id, r ≠ .close token id) →
    (h.perform b.traced place r (tr, w)).result = some (.error e) →
    (h.perform b.traced place r (tr, w)).host.Same h ∧
      ((h.perform b.traced place r (tr, w)).world.1 = tr ∨
        (∃ mode token backend config id, r = .instantiate mode token backend config id) ∧
          (h.perform b.traced place r (tr, w)).world.1 = tr.make.part tr.made .closed)
  /-- A close has changed nothing either, unless the instance failed to close; its error is the
  error of the close then, and the collector is gone. -/
  close : ∀ (token : Option String) (id : CollectorId) (e : Error),
    (h.perform b.traced place (.close token id) (tr, w)).result = some (.error e) →
    ((h.perform b.traced place (.close token id) (tr, w)).host.Same h ∧
      (h.perform b.traced place (.close token id) (tr, w)).world = (tr, w)) ∨
    ∃ c w' table, p.table.get? id = some c ∧ b.close c.resource.2 w = (some (.error e), w') ∧
      (h.perform b.traced place (.close token id) (tr, w)).world =
        (tr.part c.resource.1 .closed, w') ∧
      p.table.Loses id table ∧
      (h.perform b.traced place (.close token id) (tr, w)).host = h.put place { p with table }
  /-- A close whose instance fails to close does not hide it: the error of the instance is the
  answer, the instance has been closed once, and the collector is gone. -/
  unclosed : ∀ (token : Option String) (id : CollectorId) (c : Collector (Nat × ι)) (e : Error)
    (w' : ω), p.token.check token = true → p.table.get? id = some c →
    b.close c.resource.2 w = (some (.error e), w') →
    (h.perform b.traced place (.close token id) (tr, w)).result = some (.error e) ∧
      (h.perform b.traced place (.close token id) (tr, w)).world =
        (tr.part c.resource.1 .closed, w') ∧
      ∃ table, p.table.Loses id table ∧
        (h.perform b.traced place (.close token id) (tr, w)).host = h.put place { p with table }
  /-- A destroy fails for its token or for want of a collector. -/
  destroy : ∀ (token : Option String) (id : CollectorId) (e : Error),
    (h.perform b.traced place (.destroy token id) (tr, w)).result = some (.error e) →
    (e = .invalidToken ∧ p.token.check token = false) ∨
      (e = .collectorNotFound id.text ∧ id ∉ p.table.ids)
  /-- It does not fail for its instance. -/
  destroyed : ∀ (token : Option String) (id : CollectorId) (c : Collector (Nat × ι)) (e : Error)
    (w' : ω), p.token.check token = true → p.table.get? id = some c →
    b.destroy c.resource.2 w = (some (.error e), w') →
    (h.perform b.traced place (.destroy token id) (tr, w)).result = some (.ok .done)
  /-- A backend is refused if its name is taken, and nothing has changed. -/
  register : ∀ (name : String) (backend : β) (e : Error),
    p.registerBackend name backend = .error e →
    e = .backendAlreadyRegistered name ∧ name ∈ p.registry.names ∧
      ∀ s : Traffic β (Nat × ι) (Trace × ω), s.host = h →
        s.step b.traced (.addBackend place name backend) = s

theorem Registry.register_eq_error {registry : Registry β} {name : String} {backend : β}
    {e : Error} (h : registry.register name backend = .error e) :
    e = .backendAlreadyRegistered name ∧ name ∈ registry.names := by
  unfold register at h
  split at h
  · rename_i hname
    cases h
    exact ⟨rfl, by simpa [contains] using hname⟩
  · cases h

namespace Host

/-- **Requests that fail leave the host as it was**, but for a close whose instance fails to
close. -/
theorem failed_perform (b : Behaviour β ι ω) {h : Host β (Nat × ι)} {place : Nat}
    {p : Provider β (Nat × ι)} (hp : h.provider? place = some p) (tr : Trace) (w : ω) :
    h.Keeps b place p tr w where
  kept r e hclose he := by
    obtain ⟨p', hfailure, hhost⟩ := exists_failure hp he
    rw [hhost]
    generalize (h.perform b.traced place r (tr, w)).world = w' at hfailure ⊢
    cases hfailure with
    | taken => exact ⟨same_put hp, .inr ⟨⟨_, _, _, _, _, rfl⟩, rfl⟩⟩
    | notClosed => exact absurd rfl (hclose _ _)
    | _ => exact ⟨same_put hp, .inl rfl⟩
  close token id e he := by
    obtain ⟨p', hfailure, hhost⟩ := exists_failure hp he
    rw [hhost]
    generalize (h.perform b.traced place (.close token id) (tr, w)).world = w' at hfailure ⊢
    cases hfailure with
    | notClosed found failed =>
      exact .inr ⟨_, _, _, found, failed, rfl, p.table.loses id, rfl⟩
    | _ => exact .inl ⟨same_put hp, rfl⟩
  unclosed token id c e w' hcheck hc hfailed := by
    have hclose : b.traced.close c.resource (tr, w) =
        (some (.error e), (tr.part c.resource.1 .closed, w')) := by
      simp only [Behaviour.traced, hfailed]
    obtain ⟨hresult, hprovider, hworld⟩ := Provider.perform_unclosed hcheck hc hclose
    rw [perform, hp]
    exact ⟨hresult, hworld, _, p.table.loses id, congrArg (h.put place) hprovider⟩
  destroy token id e he := by
    obtain ⟨p', hfailure, -⟩ := exists_failure hp he
    generalize (h.perform b.traced place (.destroy token id) (tr, w)).world = w' at hfailure
    cases hfailure with
    | unauthorized carried wrong =>
      cases carried
      exact .inl ⟨rfl, wrong⟩
    | missing asked absent =>
      cases asked
      exact .inr ⟨rfl, absent⟩
  destroyed token id c e w' hcheck hc hfailed := by
    have hdestroy : b.traced.destroy c.resource (tr, w) =
        (some (.error e), (tr.part c.resource.1 .destroyed, w')) := by
      simp only [Behaviour.traced, hfailed]
    rw [perform, hp]
    exact Provider.result_destroy hcheck hc hdestroy
  register name backend e he := by
    have hregister : p.registry.register name backend = .error e := by
      cases hr : p.registry.register name backend with
      | ok registry =>
        rw [Provider.registerBackend, hr] at he
        cases he
      | error e' =>
        rw [Provider.registerBackend, hr] at he
        cases he
        rfl
    obtain ⟨rfl, hname⟩ := Registry.register_eq_error hregister
    refine ⟨rfl, hname, ?_⟩
    rintro s rfl
    simp only [Traffic.step, hp, he]

/-- A backend whose instances fail to close. -/
def stubborn : Scripted.Script := { counter := "stubborn", failClose := some (.internal "busy") }

/-- A provider with such a backend gets one collector. -/
def occupied : List (Traffic.Event Scripted.Script) :=
  [.make {} stubborn, .request 0 (.instantiate .create none Dummy.backendName none Traffic.nilId),
    .job 0, .job 0, .job 0, .job 0, .job 0]

/-- A request for a second collector with the same id fails, and its instance is closed, whatever
comes of that. A close of the first collector fails with its instance; the collector is gone. -/
theorem failed_perform_stubborn :
    let s := Traffic.run Scripted.behaviour.traced { world := ({}, {}) } occupied
    let again := s.host.perform Scripted.behaviour.traced 0
      (.instantiate .create none Dummy.backendName none Traffic.nilId) s.world
    let close := s.host.perform Scripted.behaviour.traced 0 (.close none Traffic.nilId) s.world
    (again.result = some (.error (.collectorExists Traffic.nilId.text)) ∧
      again.host.Same s.host ∧ again.world.1 = s.world.1.make.part 1 .closed) ∧
    close.result = some (.error (.internal "busy")) ∧
      close.world.1 = s.world.1.part 0 .closed ∧
      ∃ p, close.host.provider? 0 = some p ∧ p.table.ids = [] ∧ p.table.removed = 1 ∧
        p.table.closeFailures = 1 := by
  intro s again close
  obtain ⟨p, hp⟩ : ∃ p, s.host.provider? 0 = some p := ⟨_, rfl⟩
  have hkeeps := failed_perform Scripted.behaviour hp s.world.1 s.world.2
  refine ⟨?_, ?_⟩
  · obtain ⟨hresult, hworld⟩ :
        again.result = some (.error (.collectorExists Traffic.nilId.text)) ∧
          again.world = (s.world.1.make.part 1 .closed, {}) := by
      cases hp
      exact Provider.perform_taken (b := Scripted.behaviour.traced) rfl rfl rfl rfl (by decide) rfl
    exact ⟨hresult, (hkeeps.kept _ _ (by simp) hresult).1, congrArg Prod.fst hworld⟩
  · cases hp
    obtain ⟨hresult, hworld, table, hloses, hhost⟩ :=
      hkeeps.unclosed none Traffic.nilId _ (.internal "busy") _ rfl rfl rfl
    refine ⟨hresult, congrArg Prod.fst hworld, ?_⟩
    have hclose : close.host = s.host.put 0 _ := hhost
    rw [hclose]
    refine ⟨_, rfl, ?_, hloses.removed, hloses.closeFailures⟩
    show table.entries.map _ = []
    rw [hloses.entries]
    rfl

end Host

end Collectors
