import Collectors.Backend.Scripted
import Collectors.Endpoint.Checks
import Collectors.Proofs.Authority
import Collectors.Proofs.Tally

/-!
# Which check an answer comes from

A provider takes a request step by step, and an endpoint plans before it asks a provider; the checks
of `Endpoint.verdict` stand one behind the other. `Provider.toldOf_start` and
`Endpoint.exists_checked` say that both come to the same. A call into a backend that breaks down is
answered like a check that fails with the status `other`.

It is promised that there is a message for any status but success (`Endpoint.Promised`). That holds
with orderly backends (`Endpoint.answered_in_order`), but a backend may fail with the status of a
success, and then there is a message all the same (`Scripted.not_promised`).
-/

namespace Collectors

open Verdict (ofResult ofOutcome demand require)

variable {β ι ω : Type}

/-! ### Checks one after another -/

namespace Verdict

variable {α γ : Type} (status : Status)

@[simp] theorem demand_true_bind (f : Unit → Except Status γ) :
    (demand status true >>= f) = f () := rfl

@[simp] theorem demand_false_bind (f : Unit → Except Status γ) :
    (demand status false >>= f) = .error status := rfl

@[simp] theorem require_some_bind (a : α) (f : α → Except Status γ) :
    (require status (some a) >>= f) = f a := rfl

@[simp] theorem require_none_bind (f : α → Except Status γ) :
    (require status none >>= f) = .error status := rfl

end Verdict

/-! ### The checks of a provider -/

namespace Provider

variable {b : Behaviour β ι ω} {p : Provider β ι} {w : ω}

/-- What is told of a call in the end, wherever it is. -/
def toldOf (b : Behaviour β ι ω) (p : Provider β ι) (w : ω) (call : Call β ι) : Verdict :=
  ofResult (Endpoint.ofWorker (call.run b p w).call.result?)

/-- A step changes nothing of what is told in the end. -/
theorem toldOf_step {call : Call β ι} (h : call.isDone = false) :
    p.toldOf b w call =
      (call.step b p w).provider.toldOf b (call.step b p w).world (call.step b p w).call := by
  rw [toldOf, Call.call_run h]
  rfl

theorem toldOf_finished (result : Except Error Answer) :
    p.toldOf b w (.finished result) = ofResult result := by
  rw [toldOf, Call.call_run_done rfl]
  rfl

theorem toldOf_broken : p.toldOf b w .broken = .error .other := by
  rw [toldOf, Call.call_run_done rfl]
  rfl

/-- Whoever is refused is told why, whatever the close of the instance comes to. -/
theorem toldOf_closeRefused (c : Collector ι) (e : Error) :
    p.toldOf b w (.closeRefused c e) =
      if (b.close c.resource w).1.isNone then .error .other else .error e.status := by
  rw [toldOf_step rfl]
  rcases hclose : b.close c.resource w with ⟨_ | (e' | ⟨⟩), w'⟩ <;>
    simp only [Call.step, hclose]
  · exact toldOf_broken
  · exact toldOf_finished _
  · exact toldOf_finished _

/-- An instance is entered if its id is free, and else it is closed. -/
theorem toldOf_insert (c : Collector ι) (hopen : p.table.closed = false) :
    p.toldOf b w (.insert c) =
      p.judgeMade (.error .other) b c.id (some (.ok c.resource), w) := by
  rw [toldOf_step rfl]
  rcases p.table.insert_cases c with ⟨hclosed, -⟩ | ⟨-, hid, h⟩ | ⟨-, hid, t, h, -⟩
  · rw [hopen] at hclosed
    cases hclosed
  · have hcontains : p.table.contains c.id = true := by rw [Table.contains_eq, decide_eq_true hid]
    simp only [Call.step, h, judgeMade, hcontains, if_true]
    exact toldOf_closeRefused c _
  · have hcontains : p.table.contains c.id = false := by
      rw [Table.contains_eq, decide_eq_false hid]
    simp only [Call.step, h, judgeMade, hcontains, Bool.false_eq_true, if_false]
    exact toldOf_finished _

/-- A closed collector tells what its instance made of it. -/
theorem toldOf_close (c : Collector ι) :
    p.toldOf b w (.remove (.close c)) = ofOutcome (.error .other) (b.close c.resource w).1 := by
  rw [toldOf_step rfl]
  rcases hclose : b.close c.resource w with ⟨_ | (e | ⟨⟩), w'⟩ <;>
    simp only [Call.step, Removal.step, hclose, Call.ofRemoval]
  · exact toldOf_broken
  · rw [toldOf_step rfl]
    exact toldOf_finished _
  · exact toldOf_finished _

theorem toldOf_destroy (c : Collector ι) :
    p.toldOf b w (.destroy c) =
      if (b.destroy c.resource w).1.isNone then .error .other else .ok () := by
  rw [toldOf_step rfl]
  rcases hdestroy : b.destroy c.resource w with ⟨_ | (e | ⟨⟩), w'⟩ <;>
    simp only [Call.step, hdestroy]
  · exact toldOf_broken
  · exact toldOf_finished _
  · exact toldOf_finished _

theorem toldOf_ofOutcome {α : Type} (give : α → Answer) (result : Option (Except Error α)) :
    p.toldOf b w (Call.ofOutcome give result) = ofOutcome (.error .other) result := by
  rcases result with _ | (e | a)
  · exact toldOf_broken
  · exact toldOf_finished _
  · exact toldOf_finished _

theorem toldOf_instantiate {token : Option String} (htoken : p.token.check token = true)
    (mode : Mode) (backend : String) (config : Option String) (id : CollectorId) :
    p.toldOf b w (.start (.instantiate mode token backend config id)) =
      p.judge (.error .other) b w (.instantiate mode token backend config id) := by
  have hallowed : p.authorize token = .ok () := if_pos htoken
  rw [toldOf_step rfl]
  simp only [Call.step, Call.begin, hallowed]
  rw [toldOf_step rfl]
  cases hclosed : p.table.closed with
  | true =>
    simp only [Call.step, judge, hclosed, if_true, Bool.not_true, Verdict.demand_false_bind]
    exact toldOf_finished _
  | false =>
    simp only [Call.step, judge, hclosed, Bool.false_eq_true, if_false, Bool.not_false,
      Verdict.demand_true_bind]
    rw [toldOf_step rfl]
    cases hfound : p.registry.find? backend with
    | none =>
      simp only [Call.step, hfound, Verdict.require_none_bind]
      exact toldOf_finished _
    | some made =>
      simp only [Call.step, hfound, Verdict.require_some_bind]
      rw [toldOf_step rfl]
      rcases hmade : b.instantiate made mode config w with ⟨_ | (e | i), w'⟩ <;>
        simp only [Call.step, hmade]
      · exact toldOf_broken
      · exact toldOf_finished _
      · exact toldOf_insert { id, backend, resource := i } hclosed

/-- **A request with the right token is answered as its first check that fails.** -/
theorem toldOf_start {request : Request} (htoken : request.token?.all p.token.check = true)
    (hrequest : request ≠ .shutdown) :
    p.toldOf b w (.start request) = p.judge (.error .other) b w request := by
  cases request with
  | instantiate mode token backend config id =>
    exact toldOf_instantiate htoken mode backend config id
  | close token id =>
    have hallowed : p.authorize token = .ok () := if_pos htoken
    rw [toldOf_step rfl]
    simp only [Call.step, Call.begin, hallowed]
    rw [toldOf_step rfl]
    cases hc : p.table.get? id with
    | none =>
      simp only [Call.step, Removal.step, Table.take, hc, Option.map_none, Call.ofRemoval, judge,
        Verdict.require_none_bind]
      exact toldOf_finished _
    | some c =>
      simp only [Call.step, Removal.step, Table.take, hc, Option.map_some, if_true, Call.ofRemoval,
        judge, Verdict.require_some_bind]
      exact toldOf_close c
  | destroy token id =>
    have hallowed : p.authorize token = .ok () := if_pos htoken
    rw [toldOf_step rfl]
    simp only [Call.step, Call.begin, hallowed]
    rw [toldOf_step rfl]
    cases hc : p.table.get? id with
    | none =>
      simp only [Call.step, Table.take, hc, Option.map_none, judge, Verdict.require_none_bind]
      exact toldOf_finished _
    | some c =>
      simp only [Call.step, Table.take, hc, Option.map_some, judge, Verdict.require_some_bind]
      exact toldOf_destroy c
  | list token limit =>
    have hallowed : p.authorize token = .ok () := if_pos htoken
    rw [toldOf_step rfl]
    simp only [Call.step, Call.begin, hallowed]
    rw [toldOf_step rfl]
    exact toldOf_finished _
  | hello id =>
    rw [toldOf_step rfl]
    cases hc : p.table.get? id with
    | none =>
      simp only [Call.step, Call.begin, hc, judge]
      exact toldOf_finished _
    | some c =>
      simp only [Call.step, Call.begin, hc, judge]
      rw [toldOf_step rfl]
      simp only [Call.step]
      rw [toldOf_ofOutcome]
      cases (b.hello c.resource w).1 <;> rfl
  | sum id x y =>
    rw [toldOf_step rfl]
    cases hc : p.table.get? id with
    | none =>
      simp only [Call.step, Call.begin, hc, judge, Verdict.require_none_bind]
      exact toldOf_finished _
    | some c =>
      simp only [Call.step, Call.begin, hc, judge, Verdict.require_some_bind]
      rw [toldOf_step rfl]
      exact toldOf_ofOutcome _ _
  | invoke id operation args =>
    rw [toldOf_step rfl]
    cases hc : p.table.get? id with
    | none =>
      simp only [Call.step, Call.begin, hc, judge, Verdict.require_none_bind]
      exact toldOf_finished _
    | some c =>
      simp only [Call.step, Call.begin, hc, judge, Verdict.require_some_bind]
      rw [toldOf_step rfl]
      simp only [Call.step]
      rw [toldOf_ofOutcome]
      rcases (b.invoke c.resource operation args w).1 with _ | (e | v)
      · rfl
      · exact congrArg Except.error (Call.status_renameUnsupported c.backend e)
      · rfl
  | shutdown => exact absurd rfl hrequest

/-- A request that carries the wrong token is refused in its first step. -/
theorem perform_of_wrong {request : Request} (htoken : request.token?.all p.token.check = false)
    (b : Behaviour β ι ω) (w : ω) :
    p.perform b request w =
      { call := .finished (.error .invalidToken), provider := p, world := w } := by
  cases hadmin : request.token? with
  | none => simp [hadmin] at htoken
  | some token =>
    rw [hadmin, Option.all_some] at htoken
    rcases Call.begin_authorize p hadmin with ⟨-, hbegin⟩ | ⟨hcheck, -⟩
    · exact perform_of_begin hbegin b w
    · rw [htoken] at hcheck
      cases hcheck

/-- What an orderly backend answers does not depend on what a breakdown comes to, and it fails with
no status of a success. -/
theorem ofOutcome_orderly {α : Type} {result : Option (Except Error α)}
    (h : ∃ r, result = some r ∧ Proper r) (broken : Verdict) :
    ofOutcome broken result = ofOutcome (.error .other) result ∧
      ofOutcome broken result ≠ .error .success := by
  obtain ⟨r, rfl, hproper⟩ := h
  refine ⟨rfl, ?_⟩
  cases r with
  | ok a => nofun
  | error e => exact fun he => hproper e rfl (Except.error.inj he)

theorem judgeMade_orderly (hb : b.Orderly) (broken : Verdict) (p : Provider β ι) (id : CollectorId)
    {made : Option (Except Error ι) × ω} (h : ∃ r, made.1 = some r ∧ Proper r) :
    p.judgeMade broken b id made = p.judgeMade (.error .other) b id made ∧
      p.judgeMade broken b id made ≠ .error .success := by
  obtain ⟨r, w, rfl, hproper⟩ := exists_eq_some h
  cases r with
  | error e => exact ⟨rfl, fun he => hproper e rfl (Except.error.inj he)⟩
  | ok i =>
    obtain ⟨closed, hclosed, -⟩ := hb.close i w
    simp only [judgeMade, hclosed, Option.isNone_some, Bool.false_eq_true, if_false]
    split <;> exact ⟨trivial, nofun⟩

/-- With an orderly backend it does not matter what a breakdown comes to, and no check fails with
the status of a success. -/
theorem judge_orderly (hb : b.Orderly) (broken : Verdict) (p : Provider β ι) (w : ω)
    (request : Request) :
    p.judge broken b w request = p.judge (.error .other) b w request ∧
      p.judge broken b w request ≠ .error .success := by
  cases request with
  | instantiate mode token backend config id =>
    simp only [judge]
    cases p.table.closed with
    | true => exact ⟨rfl, nofun⟩
    | false =>
      cases p.registry.find? backend with
      | none => exact ⟨rfl, nofun⟩
      | some made => exact judgeMade_orderly hb broken p id (hb.instantiate made mode config w)
  | close token id =>
    simp only [judge]
    cases p.table.get? id with
    | none => exact ⟨rfl, nofun⟩
    | some c => exact ofOutcome_orderly (hb.close c.resource w) broken
  | destroy token id =>
    simp only [judge]
    cases p.table.get? id with
    | none => exact ⟨rfl, nofun⟩
    | some c =>
      obtain ⟨r, hr⟩ := Option.isSome_iff_exists.1 (hb.destroy c.resource w)
      simp only [Verdict.require_some_bind, hr, Option.isNone_some, Bool.false_eq_true, if_false]
      exact ⟨trivial, nofun⟩
  | hello id =>
    simp only [judge]
    cases p.table.get? id with
    | none => exact ⟨rfl, nofun⟩
    | some c =>
      obtain ⟨r, hr⟩ := Option.isSome_iff_exists.1 (hb.hello c.resource w)
      simp only [hr, Option.isNone_some, Bool.false_eq_true, if_false]
      exact ⟨trivial, nofun⟩
  | sum id x y =>
    simp only [judge]
    cases p.table.get? id with
    | none => exact ⟨rfl, nofun⟩
    | some c => exact ofOutcome_orderly (hb.sum c.resource x y w) broken
  | invoke id operation args =>
    simp only [judge]
    cases p.table.get? id with
    | none => exact ⟨rfl, nofun⟩
    | some c => exact ofOutcome_orderly (hb.invoke c.resource operation args w) broken
  | list token limit => exact ⟨rfl, nofun⟩
  | shutdown => exact ⟨rfl, nofun⟩

end Provider

/-! ### The checks of an endpoint -/

theorem Host.Same.refl (h : Host β ι) : h.Same h := ⟨fun _ => rfl, rfl, rfl⟩

namespace Endpoint

variable {b : Behaviour β ι ω} {limit : Nat} {mint : CollectorId} {h : Host β ι} {w : ω} {rpc : Rpc}
  {segment : List Char} {r : Http.Request}

/-- Nobody shuts a provider down by a call. -/
theorem decoded?_ne_shutdown {request : Request} (h : decoded? limit rpc mint r = some request) :
    request ≠ .shutdown := by
  rintro rfl
  unfold decoded? at h
  split at h
  · cases rpc <;> simp only [Endpoint.request] at h
    all_goals
      revert h
      generalize Json.Codec.readFront _ (Json.textOf r.body) = read
      cases read <;> simp [Except.map, Except.toOption]
  · cases h

/-- What a call comes to that is refused by the endpoint. -/
theorem handle_of_refuse {e : Error} (hplan : plan limit mint r h = .refuse rpc e)
    (b : Behaviour β ι ω) (w : ω) :
    handle b limit mint r h w =
      { response := answer rpc (.error e), host := record h rpc e.status, world := w } := by
  rw [handle, hplan]

/-- Whether a call was answered with a result that comes from its first check that fails, and has
left nothing but a count if it was not admitted. -/
structure Checked (b : Behaviour β ι ω) (limit : Nat) (mint : CollectorId) (h : Host β ι) (w : ω)
    (rpc : Rpc) (segment : List Char) (r : Http.Request) (result : Except Error Answer) : Prop where
  response : (handle b limit mint r h w).response = answer rpc result
  verdict : ofResult result = verdict (.error .other) b limit mint h w rpc segment r
  untouched : ∀ status, admission limit mint h rpc segment r = .error status →
    (handle b limit mint r h w).world = w ∧
      (handle b limit mint r h w).host.Same (record h rpc status)

/-- A call that the endpoint refuses was checked no further. -/
theorem checked_of_refuse {e : Error} (hplan : plan limit mint r h = .refuse rpc e)
    (hadmission : admission limit mint h rpc segment r = .error e.status) :
    Checked b limit mint h w rpc segment r (.error e) := by
  have hnext := handle_of_refuse hplan b w
  refine ⟨?_, ?_, fun status hstatus => ?_⟩
  · rw [hnext]
  · rw [Endpoint.verdict, hadmission]
    rfl
  · rw [hnext]
    obtain rfl : e.status = status := Except.error.inj (hadmission.symm.trans hstatus)
    exact ⟨rfl, .refl _⟩

/-- What is planned for a call, with what is checked of it: it is refused, or it goes to its
provider, where its token is left to be checked. -/
theorem plan_cases (hs : h.Sound) (hcall : r.call? = some (rpc, segment)) (limit : Nat)
    (mint : CollectorId) :
    (∃ e, plan limit mint r h = .refuse rpc e ∧
      admission limit mint h rpc segment r = .error e.status) ∨
    ∃ place p request, h.provider? place = some p ∧ request ≠ .shutdown ∧
      plan limit mint r h = .perform rpc place request ∧
      admission limit mint h rpc segment r = do
        demand .invalidToken (request.token?.all p.token.check)
        return (p, request) := by
  have hplan := plan_of_call hcall limit mint h
  unfold admission
  cases hid : Http.providerId? segment with
  | none =>
    rw [provider, hid] at hplan
    exact .inl ⟨_, hplan, rfl⟩
  | some id =>
    rw [provider, hid] at hplan
    cases hl : h.attached.lookup id with
    | none =>
      simp only [Host.find, hl] at hplan
      refine .inl ⟨_, hplan, ?_⟩
      simp only [Verdict.require_some_bind, hl, Option.bind_none, Verdict.require_none_bind]
      rfl
    | some place =>
      obtain ⟨p, hp⟩ := Host.provider?_isSome (hs.lt_of_mem (Host.mem_of_lookup hl))
      simp only [Host.find, hl] at hplan
      simp only [Verdict.require_some_bind, hl, Option.bind_some, hp]
      rcases body_cases limit rpc mint r with ⟨request, hdecoded, hbody⟩ | ⟨text, hdecoded, hbody⟩
      · rw [hbody] at hplan
        rw [hdecoded]
        exact .inr ⟨place, p, request, hp, decoded?_ne_shutdown hdecoded, hplan, rfl⟩
      · rw [hbody] at hplan
        rw [hdecoded]
        exact .inl ⟨_, hplan, rfl⟩

/-- **Every call is answered as its first check that fails.** -/
theorem exists_checked (hs : h.Sound) (hcall : r.call? = some (rpc, segment)) (hrpc : rpc ≠ .hello)
    (b : Behaviour β ι ω) (limit : Nat) (mint : CollectorId) (w : ω) :
    ∃ result, Checked b limit mint h w rpc segment r result := by
  rcases plan_cases hs hcall limit mint with ⟨e, hplan, hadmission⟩ |
    ⟨place, p, request, hp, hrequest, hplan, hadmission⟩
  · exact ⟨_, checked_of_refuse hplan hadmission⟩
  · refine ⟨ofWorker (h.perform b place request w).result, ?_⟩
    have hresult : (h.perform b place request w).result = (p.perform b request w).call.result? := by
      rw [Host.perform, hp]
    cases htoken : request.token?.all p.token.check with
    | true =>
      rw [htoken, Verdict.demand_true_bind] at hadmission
      refine ⟨by rw [handle, hplan], ?_, fun status hstatus => ?_⟩
      · rw [verdict, hadmission, hresult]
        exact Provider.toldOf_start htoken hrequest
      · rw [hadmission] at hstatus
        cases hstatus
    | false =>
      rw [htoken, Verdict.demand_false_bind] at hadmission
      have hperform := p.perform_of_wrong htoken b w
      have hinvalid : ofWorker (h.perform b place request w).result = .error .invalidToken := by
        rw [hresult, hperform]
        rfl
      refine ⟨by rw [handle, hplan], ?_, fun status hstatus => ?_⟩
      · rw [verdict, hadmission, hinvalid]
        rfl
      · obtain rfl : Status.invalidToken = status :=
          Except.error.inj (hadmission.symm.trans hstatus)
        simp only [handle, hplan, hinvalid, statusOf_error hrpc]
        simp only [Host.perform, hp, hperform]
        exact ⟨trivial, same_record (Host.same_put hp) rpc .invalidToken⟩

/-! ### What a call is answered with -/

/-- Whether a call is answered with an envelope that carries the status of its first check that
fails. If it is not admitted, no call into a backend is made, and nothing is left of it but that it
was counted. -/
structure Judged (broken : Verdict) (b : Behaviour β ι ω) (limit : Nat) (mint : CollectorId)
    (h : Host β ι) (w : ω) (rpc : Rpc) (segment : List Char) (r : Http.Request)
    (e : Envelope Json) : Prop where
  response : (handle b limit mint r h w).response =
    { status := 200, contentType := some Http.jsonType
      body := ((Envelope.codec .free).write e).toUTF8 }
  status : e.status = (Endpoint.verdict broken b limit mint h w rpc segment r).status
  result : e.result.isSome = true → e.status = .success
  untouched : ∀ status, admission limit mint h rpc segment r = .error status →
    (∀ n, (handle b.counted limit mint r h (n, w)).world = (n, w)) ∧
      (handle b limit mint r h w).world = w ∧
      (handle b limit mint r h w).host.Same (record h rpc status)

/-- Whether a call is answered as it is promised: the status is that of the first check that fails,
if any does, and there is a message for any status but success. -/
def Promised (b : Behaviour β ι ω) (limit : Nat) (mint : CollectorId) (h : Host β ι) (w : ω)
    (rpc : Rpc) (segment : List Char) (r : Http.Request) : Prop :=
  ∃ e, Judged (.ok ()) b limit mint h w rpc segment r e ∧
    (e.message.isSome = true ↔ e.status ≠ .success)

/-- Whether a call is answered as its first check that fails, where a call into a backend that
breaks down is answered as an error of its own. There is a message if a check fails, whatever its
status, and else a result. -/
structure Answered (b : Behaviour β ι ω) (limit : Nat) (mint : CollectorId) (h : Host β ι) (w : ω)
    (rpc : Rpc) (segment : List Char) (r : Http.Request) (e : Envelope Json) : Prop where
  judged : Judged (.error .other) b limit mint h w rpc segment r e
  message : e.message.isSome = true ↔
    Endpoint.verdict (.error .other) b limit mint h w rpc segment r ≠ .ok ()
  result : e.result.isSome = true ↔
    Endpoint.verdict (.error .other) b limit mint h w rpc segment r = .ok ()

/-- A call has an answer that comes from its first check that fails. -/
theorem exists_answered (hs : h.Sound) (hcall : r.call? = some (rpc, segment))
    (hrpc : rpc ≠ .hello) (b : Behaviour β ι ω) (limit : Nat) (mint : CollectorId) (w : ω) :
    ∃ e, Answered b limit mint h w rpc segment r e := by
  obtain ⟨result, hresponse, hverdict, huntouched⟩ := exists_checked hs hcall hrpc b limit mint w
  have hcounted (n : Nat) := exists_checked hs hcall hrpc b.counted limit mint (n, w)
  refine ⟨Envelope.ofResult (result.map payload), ⟨?_, ?_, ?_, fun status hstatus => ?_⟩, ?_, ?_⟩
  · rw [hresponse, Transport.answer_eq hrpc]
  · rw [← hverdict]
    cases result <;> rfl
  · cases result with
    | ok answer => exact fun _ => rfl
    | error e => nofun
  · refine ⟨fun n => ?_, huntouched status hstatus⟩
    obtain ⟨result', hchecked⟩ := hcounted n
    exact (hchecked.untouched status hstatus).1
  · rw [← hverdict]
    cases result <;> simp [ofResult, Envelope.ofResult, Envelope.ok, Envelope.ofError, Except.map]
  · rw [← hverdict]
    cases result <;> simp [ofResult, Envelope.ofResult, Envelope.ok, Envelope.ofError, Except.map]

/-- No check in front of a provider fails with the status of a success. -/
theorem admission_ne_success : admission limit mint h rpc segment r ≠ .error .success := by
  intro hadmission
  unfold admission at hadmission
  cases hid : Http.providerId? segment with
  | none => rw [hid] at hadmission; cases hadmission
  | some id =>
    cases hp : (h.attached.lookup id).bind h.provider? with
    | none =>
      simp only [hid, hp, Verdict.require_some_bind, Verdict.require_none_bind] at hadmission
      cases hadmission
    | some p =>
      simp only [hid, hp, Verdict.require_some_bind] at hadmission
      cases hdecoded : decoded? limit rpc mint r with
      | none => rw [hdecoded] at hadmission; cases hadmission
      | some request =>
        simp only [hdecoded, Verdict.require_some_bind] at hadmission
        cases htoken : request.token?.all p.token.check <;>
        · rw [htoken] at hadmission
          cases hadmission

theorem verdict_orderly (hb : b.Orderly) (broken : Verdict) :
    Endpoint.verdict broken b limit mint h w rpc segment r =
        Endpoint.verdict (.error .other) b limit mint h w rpc segment r ∧
      Endpoint.verdict broken b limit mint h w rpc segment r ≠ .error .success := by
  unfold Endpoint.verdict
  cases hadmission : admission limit mint h rpc segment r with
  | error status =>
    refine ⟨rfl, fun he => admission_ne_success (hadmission.trans ?_)⟩
    rw [show status = .success from Except.error.inj he]
  | ok found => exact found.1.judge_orderly hb broken w found.2

/-- **Every call that waits for its result is answered as the first check that fails**, in the one
order of the checks, in whatever state the host is and whatever the call carries; and with orderly
backends just as it is promised. -/
theorem answered_in_order (hs : h.Sound) (hcall : r.call? = some (rpc, segment))
    (hrpc : rpc ≠ .hello) (b : Behaviour β ι ω) (limit : Nat) (mint : CollectorId) (w : ω) :
    (∃ e, Answered b limit mint h w rpc segment r e) ∧
      (b.Orderly → Promised b limit mint h w rpc segment r) := by
  obtain ⟨e, he⟩ := exists_answered hs hcall hrpc b limit mint w
  refine ⟨⟨e, he⟩, fun hb => ?_⟩
  have hsame : Endpoint.verdict (.ok ()) b limit mint h w rpc segment r =
      Endpoint.verdict (.error .other) b limit mint h w rpc segment r := (verdict_orderly hb _).1
  have hproper : Endpoint.verdict (.error .other) b limit mint h w rpc segment r ≠
      .error .success := (verdict_orderly hb _).2
  obtain ⟨hresponse, hstatus, hresult, huntouched⟩ := he.judged
  refine ⟨e, ⟨hresponse, by rw [hsame, hstatus], hresult, huntouched⟩, ?_⟩
  rw [he.message, hstatus]
  cases hverdict : Endpoint.verdict (.error .other) b limit mint h w rpc segment r with
  | ok _ => exact iff_of_false (fun hne => hne rfl) fun hne => hne rfl
  | error status =>
    refine iff_of_true nofun fun hsuccess => hproper ?_
    rw [hverdict, show status = .success from hsuccess]

/-! ### Calls that are posted by a client -/

theorem call?_posted (id : ProviderId) (rpc : Rpc) (text : String) :
    (posted (Rpc.path id rpc.name) text).call? = some (rpc, Nat.toDigits 10 id.toNat) := by
  simp only [Http.Request.call?, posted, Http.Route.ofTarget?_path, if_true]

/-- What a client posts is checked by its provider only. -/
theorem verdict_posted {call received : RemoteCall} (hreceived : call.Received received)
    {limit : Nat} (hsize : call.body.utf8ByteSize ≤ limit) {id : ProviderId} {p : Provider β ι}
    (hp : (h.attached.lookup id).bind h.provider? = some p)
    (htoken : (received.request mint).token?.all p.token.check = true) (broken : Verdict)
    (b : Behaviour β ι ω) (w : ω) :
    Endpoint.verdict broken b limit mint h w call.rpc (Nat.toDigits 10 id.toNat)
        (posted (Rpc.path id call.rpc.name) call.body) =
      p.judge broken b w (received.request mint) := by
  have hbody := body_posted hreceived hsize mint (Rpc.path id call.rpc.name)
  have hdecoded : decoded? limit call.rpc mint (posted (Rpc.path id call.rpc.name) call.body) =
      some (received.request mint) := by
    rcases body_cases limit call.rpc mint (posted (Rpc.path id call.rpc.name) call.body) with
      ⟨request, hdecoded, hread⟩ | ⟨text, -, hread⟩
    · rw [hdecoded, Except.ok.inj (hread.symm.trans hbody)]
    · cases hread.symm.trans hbody
  simp only [Endpoint.verdict, admission, Http.providerId?_toDigits, hp, hdecoded, htoken,
    Verdict.require_some_bind, Verdict.demand_true_bind]
  rfl

end Endpoint

/-! ### What is not promised -/

namespace Envelope

/-- The names of the members that an answer is written with. -/
def names (e : Envelope Json) : List String :=
  "status" :: (e.message.map fun _ => "message").toList ++ (e.result.map fun _ => "result").toList

theorem document_encode (e : Envelope Json) :
    ∃ members, ((codec .free).encode e).document = .object members .closed ∧
      members.map Prod.fst = e.names.map some := by
  obtain ⟨status, message, result⟩ := e
  cases message <;> cases result <;> exact ⟨_, rfl, rfl⟩

theorem mem_names {e : Envelope Json} : "message" ∈ e.names ↔ e.message.isSome = true := by
  obtain ⟨status, message, result⟩ := e
  cases message <;> cases result <;> simp [names]

/-- An answer shows its status, and whether it carries a message. -/
theorem shows_of_body_eq {e e' : Envelope Json}
    (h : ((codec .free).write e).toUTF8 = ((codec .free).write e').toUTF8) :
    e.status = e'.status ∧ (e.message.isSome = true ↔ e'.message.isSome = true) := by
  constructor
  · have hstatus := status?_write e
    rw [h, status?_write] at hstatus
    exact (Option.some.inj hstatus).symm
  · have htext := congrArg Json.Document.ofText (String.toByteArray_inj.1 h)
    rw [Json.Codec.write, Json.Codec.write, Json.ofText_render, Json.ofText_render] at htext
    have hdocument := congrArg Prod.fst htext
    obtain ⟨members, hobject, hnames⟩ := e.document_encode
    obtain ⟨members', hobject', hnames'⟩ := e'.document_encode
    rw [hobject, hobject', Json.Document.object.injEq] at hdocument
    rw [hdocument.1, hnames'] at hnames
    rw [← mem_names, ← mem_names, List.map_inj_right (fun _ _ => Option.some.inj) |>.1 hnames]

end Envelope

/-- Two accounts of one answer show the same. -/
theorem Endpoint.Judged.shows {broken broken' : Verdict} {b : Behaviour β ι ω} {limit : Nat}
    {mint : CollectorId} {h : Host β ι} {w : ω} {rpc : Rpc} {segment : List Char} {r : Http.Request}
    {e e' : Envelope Json} (he : Judged broken b limit mint h w rpc segment r e)
    (he' : Judged broken' b limit mint h w rpc segment r e') :
    e.status = e'.status ∧ (e.message.isSome = true ↔ e'.message.isSome = true) := by
  have hresponse := he.response.symm.trans he'.response
  simp only [Http.Response.mk.injEq, true_and] at hresponse
  exact Envelope.shows_of_body_eq hresponse

namespace Scripted

/-- A provider with a scripted backend and one collector of it. -/
def provider (s : Script) : Provider Script Script where
  id := 0
  token := .new none
  registry := { entries := [("probe", s)] }
  table :=
    { entries := [{ id := Traffic.nilId, backend := "probe", resource := s }]
      gauge := some 1, inserted := 1 }
  poolSize := 16

/-- A host of this provider alone. -/
def host (s : Script) : Host Script Script where
  providers := [provider s]
  attached := [(0, 0)]
  metrics := Metrics.setGauge {} 0 1

theorem provider?_host (s : Script) :
    ((host s).attached.lookup 0).bind (host s).provider? = some (provider s) := rfl

theorem sound_host (s : Script) : (host s).Sound :=
  ⟨by simp [host, Host.ids], by simp [host, provider]⟩

/-- Asks the collector to add. -/
def addition : RemoteCall := .sum RemoteCall.handle 1 2

/-- Asks the collector for an operation in which its instance panics. -/
def panicking : RemoteCall := .invoke RemoteCall.handle "panic" .null

/-- An instance whose sum fails with the status of a success. -/
def contradicting : Script := { counter := "c", failSum := some (.remote .success "m") }

/-- An instance with operations, one of which breaks down. -/
def fragile : Script := { counter := "c", hasVerbs := true }

theorem verdict_addition (broken : Verdict) (w : Ledger) :
    Endpoint.verdict broken behaviour defaultBodyLimit Traffic.nilId (host contradicting) w .sum
        (Nat.toDigits 10 0) (Endpoint.posted (Rpc.path 0 "sum") addition.body) =
      .error .success := by
  have hreceived : addition.Received addition := rfl
  have hsize : addition.body.utf8ByteSize ≤ defaultBodyLimit := by decide +kernel
  exact Endpoint.verdict_posted hreceived hsize (provider?_host _) rfl broken behaviour w

theorem verdict_panicking (broken : Verdict) (w : Ledger) :
    Endpoint.verdict broken behaviour defaultBodyLimit Traffic.nilId (host fragile) w .invoke
        (Nat.toDigits 10 0) (Endpoint.posted (Rpc.path 0 "invoke") panicking.body) = broken := by
  have hreceived : panicking.Received panicking := RemoteCall.Portable.received ⟨trivial, by decide⟩
  have hsize : panicking.body.utf8ByteSize ≤ defaultBodyLimit := by decide +kernel
  exact Endpoint.verdict_posted hreceived hsize (provider?_host _) rfl broken behaviour w

/-- The answer to an addition that fails with the status of a success. -/
theorem answered_in_order_addition :
    ∃ e, Endpoint.Answered behaviour defaultBodyLimit Traffic.nilId (host contradicting) {} .sum
        (Nat.toDigits 10 0) (Endpoint.posted (Rpc.path 0 "sum") addition.body) e ∧
      e.status = .success ∧ e.message.isSome = true ∧ e.result.isSome = false := by
  obtain ⟨⟨e, hanswered⟩, -⟩ := Endpoint.answered_in_order (sound_host contradicting)
    (Endpoint.call?_posted 0 .sum addition.body) Rpc.noConfusion behaviour defaultBodyLimit
    Traffic.nilId {}
  have hfails := verdict_addition (.error .other) {}
  refine ⟨e, hanswered, hanswered.judged.status.trans (congrArg Verdict.status hfails), ?_, ?_⟩
  · exact hanswered.message.2 fun hpasses => nomatch hfails.symm.trans hpasses
  · exact Bool.eq_false_iff.2 fun hresult =>
      nomatch hfails.symm.trans (hanswered.result.1 hresult)

/-- **The promise fails where a backend fails in a way of its own.** An error that has the status
of a success comes with a message, and a call in which the instance breaks down has another status
though it fails no check. -/
theorem not_promised :
    ¬ Endpoint.Promised behaviour defaultBodyLimit Traffic.nilId (host contradicting) {} .sum
        (Nat.toDigits 10 0) (Endpoint.posted (Rpc.path 0 "sum") addition.body) ∧
      ¬ Endpoint.Promised behaviour defaultBodyLimit Traffic.nilId (host fragile) {} .invoke
        (Nat.toDigits 10 0) (Endpoint.posted (Rpc.path 0 "invoke") panicking.body) := by
  refine ⟨fun ⟨e, hjudged, hmessage⟩ => ?_, fun ⟨e, hjudged, _⟩ => ?_⟩
  · obtain ⟨e', hanswered⟩ := Endpoint.exists_answered (sound_host contradicting)
      (Endpoint.call?_posted 0 .sum addition.body) Rpc.noConfusion behaviour defaultBodyLimit
      Traffic.nilId {}
    have hstatus : e.status = .success :=
      hjudged.status.trans (congrArg Verdict.status (verdict_addition _ _))
    have hfails : e'.message.isSome = true :=
      hanswered.message.2 fun hpasses => nomatch (verdict_addition _ _).symm.trans hpasses
    exact hmessage.1 ((hjudged.shows hanswered.judged).2.2 hfails) hstatus
  · obtain ⟨e', hanswered⟩ := Endpoint.exists_answered (sound_host fragile)
      (Endpoint.call?_posted 0 .invoke panicking.body) Rpc.noConfusion behaviour defaultBodyLimit
      Traffic.nilId {}
    have hstatus : e.status = .success :=
      hjudged.status.trans (congrArg Verdict.status (verdict_panicking _ _))
    have hother : e'.status = .other :=
      hanswered.judged.status.trans (congrArg Verdict.status (verdict_panicking _ _))
    exact absurd (hstatus.symm.trans ((hjudged.shows hanswered.judged).1.trans hother))
      Status.noConfusion

end Scripted
end Collectors
