import Mathlib.Data.List.Basic
import Collectors.Proofs.Attachment

/-!
# The outcome of a request

A request to a provider comes to an end with a result of its own kind (`Request.Allows`), if no
call into a backend breaks down (`Behaviour.Orderly`). `Call.Leads` says what may still be to be
done on the way to such a result. It is kept by every step (`Call.leads_step`), and therefore
holds of what a run comes to (`Provider.perform_result`).
-/

namespace Collectors

variable {β ι ω : Type}

/-- Whether a result of a backend is a value, or an error with a status that is not success. -/
def Proper {α : Type} (result : Except Error α) : Prop :=
  ∀ e, result = .error e → e.status ≠ .success

/-- Whether every call into a backend has an answer, and no error has the status of a success. -/
structure Behaviour.Orderly (b : Behaviour β ι ω) : Prop where
  instantiate : ∀ k mode config w, ∃ r, (b.instantiate k mode config w).1 = some r ∧ Proper r
  close : ∀ i w, ∃ r, (b.close i w).1 = some r ∧ Proper r
  destroy : ∀ i w, (b.destroy i w).1.isSome = true
  hello : ∀ i w, (b.hello i w).1.isSome = true
  sum : ∀ i x y w, ∃ r, (b.sum i x y w).1 = some r ∧ Proper r
  invoke : ∀ i operation args w, ∃ r, (b.invoke i operation args w).1 = some r ∧ Proper r

/-- A call into a backend that has an answer gives it together with a new state. -/
theorem exists_eq_some {α : Type} {P : α → Prop} {x : Option α × ω}
    (h : ∃ r, x.1 = some r ∧ P r) : ∃ r w, x = (some r, w) ∧ P r := by
  obtain ⟨r, hr, hP⟩ := h
  exact ⟨r, x.2, Prod.ext hr rfl, hP⟩

namespace Request

/-- Which results a request may have: values of its kind, and errors with a status that is not
success, where the request may fail. -/
def Allows : Request → Except Error Answer → Prop
  | .hello _, .error _ => False
  | .shutdown, .error _ => False
  | _, .error e => e.status ≠ .success
  | .instantiate _ _ _ _ _, .ok (.id _) => True
  | .close _ _, .ok .done => True
  | .destroy _ _, .ok .done => True
  | .list _ _, .ok (.ids _) => True
  | .hello _, .ok .done => True
  | .sum _ _ _, .ok (.sum _) => True
  | .invoke _ _ _, .ok (.value _) => True
  | .shutdown, .ok (.count _) => True
  | _, .ok _ => False

theorem Allows.status {r : Request} {e : Error} (h : r.Allows (.error e)) :
    e.status ≠ .success := by
  cases r <;> first | exact h | exact h.elim

/-! ### Answers of each kind -/

theorem Allows.eq_id {mode : Mode} {token config : Option String} {backend : String}
    {id : CollectorId} {answer : Answer}
    (h : (instantiate mode token backend config id).Allows (.ok answer)) :
    ∃ id, answer = .id id := by
  cases answer with
  | id id => exact ⟨id, rfl⟩
  | _ => exact h.elim

theorem Allows.eq_done_of_close {token : Option String} {id : CollectorId} {answer : Answer}
    (h : (close token id).Allows (.ok answer)) : answer = .done := by
  cases answer with
  | done => rfl
  | _ => exact h.elim

theorem Allows.eq_done_of_destroy {token : Option String} {id : CollectorId} {answer : Answer}
    (h : (destroy token id).Allows (.ok answer)) : answer = .done := by
  cases answer with
  | done => rfl
  | _ => exact h.elim

theorem Allows.eq_ids {token : Option String} {limit : Nat} {answer : Answer}
    (h : (list token limit).Allows (.ok answer)) : ∃ ids, answer = .ids ids := by
  cases answer with
  | ids ids => exact ⟨ids, rfl⟩
  | _ => exact h.elim

theorem Allows.eq_sum {id : CollectorId} {x y : Int32} {answer : Answer}
    (h : (sum id x y).Allows (.ok answer)) : ∃ z, answer = .sum z := by
  cases answer with
  | sum z => exact ⟨z, rfl⟩
  | _ => exact h.elim

theorem Allows.eq_value {id : CollectorId} {operation : String} {args : Json} {answer : Answer}
    (h : (invoke id operation args).Allows (.ok answer)) : ∃ v, answer = .value v := by
  cases answer with
  | value v => exact ⟨v, rfl⟩
  | _ => exact h.elim

/-- Whether a request may fail with any error whose status is not success. -/
def MayFail (r : Request) : Prop := ∀ e : Error, e.status ≠ .success → r.Allows (.error e)

end Request

theorem Provider.authorize_cases (p : Provider β ι) (token : Option String) :
    p.authorize token = .ok () ∨ p.authorize token = .error .invalidToken := by
  unfold authorize
  split
  · exact .inl rfl
  · exact .inr rfl

namespace Call

/-- What may still be to be done for a request `r`: it leads to a result that `r` may have. -/
def Leads (r : Request) : Call β ι → Prop
  | .start r' => r' = r
  | .checkClosed _ _ _ _ | .findBackend _ _ _ _ | .instantiate _ _ _ _ _ | .insert _ =>
    (∀ id, r.Allows (.ok (.id id))) ∧ r.MayFail
  | .closeRefused _ e => e.status ≠ .success ∧ r.MayFail
  | .remove (.detach _ _) | .remove (.close _) | .detachToDestroy _ | .destroy _ =>
    r.Allows (.ok .done) ∧ r.MayFail
  | .remove (.countFailure e) => e.status ≠ .success ∧ r.MayFail
  | .remove .drain | .remove (.countDrained _) | .remove (.closeAll _ _)
  | .remove (.countFailureOfAll _ _) => ∀ n, r.Allows (.ok (.count n))
  | .remove _ => False
  | .list _ => ∀ ids, r.Allows (.ok (.ids ids))
  | .hello _ => r.Allows (.ok .done)
  | .sum _ _ _ => (∀ x, r.Allows (.ok (.sum x))) ∧ r.MayFail
  | .invoke _ _ _ => (∀ v, r.Allows (.ok (.value v))) ∧ r.MayFail
  | .finished result => r.Allows result
  | .broken => False

theorem status_renameUnsupported (backend : String) (e : Error) :
    (renameUnsupported backend e).status = e.status := by
  cases e <;> rfl

theorem run_of_isDone {b : Behaviour β ι ω} {call : Call β ι} (h : call.isDone = true)
    (p : Provider β ι) (w : ω) : call.run b p w = { call, provider := p, world := w } := by
  rw [run, dif_pos h]

/-- A run is its first step and the run from there. -/
theorem run_of_not_isDone {b : Behaviour β ι ω} {call : Call β ι} (h : call.isDone = false)
    (p : Provider β ι) (w : ω) :
    call.run b p w =
      let next := call.step b p w
      let last := next.call.run b next.provider next.world
      { last with warnings := next.warnings ++ last.warnings } := by
  rw [run, dif_neg (by rw [h]; exact Bool.false_ne_true)]

theorem call_run {b : Behaviour β ι ω} {call : Call β ι} (h : call.isDone = false)
    (p : Provider β ι) (w : ω) :
    (call.run b p w).call =
      (run b (call.step b p w).call (call.step b p w).provider (call.step b p w).world).call := by
  rw [run_of_not_isDone h]

theorem call_run_done {b : Behaviour β ι ω} {call : Call β ι} (h : call.isDone = true)
    (p : Provider β ι) (w : ω) : (call.run b p w).call = call := by
  rw [run_of_isDone h]

end Call

/-- The value that an instance gives to an operation is the result of the request. -/
theorem Provider.result_invoke {b : Behaviour β ι ω} {p : Provider β ι} {id : CollectorId}
    {c : Collector ι} (hc : p.table.get? id = some c) {operation : String} {args : Json} {w : ω}
    {v : Json} (hv : (b.invoke c.resource operation args w).1 = some (.ok v)) :
    (p.perform b (.invoke id operation args) w).call.result? = some (.ok (.value v)) := by
  rw [Provider.perform, Call.call_run rfl]
  simp only [Call.step, Call.begin, hc]
  rw [Call.call_run rfl]
  simp only [Call.step, hv]
  rw [Call.call_run_done rfl]
  rfl

namespace Host

end Host

/-! ### The dummy backend -/

namespace Dummy

theorem proper_ok {α : Type} (a : α) : Proper (.ok a) := fun e he => by cases he

theorem proper_error {α : Type} {e : Error} (h : e.status ≠ .success) :
    Proper (.error e : Except Error α) := by
  intro e' he
  cases he
  exact h

theorem proper_parseConfig (config : Option String) : Proper (parseConfig config) := by
  unfold parseConfig
  split
  · exact proper_ok _
  · split
    · exact proper_ok _
    · exact proper_error Status.noConfusion

theorem proper_operand (args : Json) (name : String) : Proper (operand args name) := by
  unfold operand
  split
  · split
    · exact proper_ok _
    · exact proper_error Status.noConfusion
  · exact proper_error Status.noConfusion

theorem proper_answer (config : Option Json) (operation : String) (args : Json) :
    Proper (answer config operation args) := by
  unfold answer
  by_cases hhello : operation = "hello"
  · rw [if_pos hhello]
    exact proper_ok _
  by_cases hsum : operation = "sum"
  · rw [if_neg hhello, if_pos hsum]
    have hx := proper_operand args "x"
    have hy := proper_operand args "y"
    cases hopx : operand args "x" with
    | error e => exact proper_error (hx e hopx)
    | ok x =>
      cases hopy : operand args "y" with
      | error e => exact proper_error (hy e hopy)
      | ok y => exact proper_ok _
  rw [if_neg hhello, if_neg hsum]
  split
  · exact proper_ok _
  · exact proper_error Status.noConfusion

/-- The dummy backend keeps to the rules. -/
theorem orderly : behaviour.Orderly where
  instantiate _ _ config w := by
    have hproper := proper_parseConfig config
    simp only [behaviour]
    cases hconfig : parseConfig config with
    | ok v => exact ⟨_, rfl, proper_ok _⟩
    | error e => exact ⟨_, rfl, proper_error (hproper e hconfig)⟩
  close _ _ := ⟨_, rfl, proper_ok _⟩
  destroy _ _ := rfl
  hello _ _ := rfl
  sum _ _ _ _ := ⟨_, rfl, proper_ok _⟩
  invoke _ operation args w := ⟨_, rfl, proper_answer _ operation args⟩

end Dummy
end Collectors
