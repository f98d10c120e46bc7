import Collectors.Endpoint.Service

/-!
# Which checks decide about a request

A request that is posted to the path of a call is checked for its provider and for its body, in this
order (`Endpoint.plan_of_call`); what is wrong with a body is always a matter of transport
(`Endpoint.body_cases`). Any other request is answered at once and leaves everything as it is
(`Endpoint.handle_of_no_call`).
-/

namespace Collectors

variable {β ι ω : Type}

namespace Http

theorem Request.route_of_call {r : Request} {rpc : Rpc} {segment : List Char}
    (hcall : r.call? = some (rpc, segment)) :
    Route.ofTarget? r.target = some (.rpc rpc segment) ∧ r.method = "POST" := by
  unfold call? at hcall
  split at hcall
  · rename_i made place hroute
    split at hcall
    · rename_i hmethod
      cases hcall
      exact ⟨hroute, hmethod⟩
    · cases hcall
  · cases hcall

/-- A call is made by no other method than this. -/
theorem Route.contains_allowed (rpc : Rpc) (segment : List Char) (method : String) :
    (Route.rpc rpc segment).allowed.contains method = true ↔ method = "POST" := by
  simp [Route.allowed]

end Http

namespace Endpoint

variable {limit : Nat} {mint : CollectorId} {r : Http.Request} {rpc : Rpc} {segment : List Char}

theorem plan_of_call (hcall : r.call? = some (rpc, segment)) (limit : Nat) (mint : CollectorId)
    (h : Host β ι) :
    plan limit mint r h =
      match provider h segment with
      | .error e => .refuse rpc e
      | .ok place =>
        match body limit rpc mint r with
        | .error e => .refuse rpc e
        | .ok request => .perform rpc place request := by
  obtain ⟨hroute, hmethod⟩ := Http.Request.route_of_call hcall
  have hallowed := (Http.Route.contains_allowed rpc segment r.method).2 hmethod
  unfold plan
  rw [hroute]
  exact if_neg (Decidable.not_not.2 hallowed)

/-- What is left over when a request is no call. -/
theorem plan_of_no_call (hcall : r.call? = none) (limit : Nat) (mint : CollectorId)
    (h : Host β ι) :
    (∃ response, plan limit mint r h = .respond response) ∨
      ∃ withBody, plan limit mint r h = .metrics withBody := by
  unfold plan
  split
  · exact .inl ⟨_, rfl⟩
  · rename_i route hroute
    split
    · exact .inl ⟨_, rfl⟩
    · rename_i hallowed
      cases route with
      | health => exact .inl ⟨_, rfl⟩
      | metrics => exact .inr ⟨_, rfl⟩
      | rpc rpc segment =>
        have hmethod : r.method = "POST" :=
          (Http.Route.contains_allowed rpc segment r.method).1 (Decidable.not_not.1 hallowed)
        simp [Http.Request.call?, hroute, hmethod] at hcall

/-- A request that is no call changes nothing. -/
theorem handle_of_no_call (hcall : r.call? = none) (b : Behaviour β ι ω) (limit : Nat)
    (mint : CollectorId) (h : Host β ι) (w : ω) :
    (handle b limit mint r h w).host = h ∧ (handle b limit mint r h w).world = w := by
  rcases plan_of_no_call hcall limit mint h with ⟨response, hplan⟩ | ⟨withBody, hplan⟩ <;>
    simp only [handle, hplan, and_self]

/-- The request in a body, or the error that it has none. -/
theorem body_cases (limit : Nat) (rpc : Rpc) (mint : CollectorId) (r : Http.Request) :
    (∃ request, decoded? limit rpc mint r = some request ∧
      body limit rpc mint r = .ok request) ∨
    ∃ text, decoded? limit rpc mint r = none ∧ body limit rpc mint r = .error (.protocol text) := by
  unfold decoded? body
  by_cases hjson : Http.declaresJson r.contentType = true
  · by_cases hsize : r.body.size ≤ limit
    · rw [if_pos ⟨hjson, hsize⟩, if_neg (Decidable.not_not.2 hjson), if_neg (Nat.not_lt.2 hsize)]
      cases request rpc mint (Json.textOf r.body) with
      | ok request => exact .inl ⟨request, rfl, rfl⟩
      | error fault => cases fault <;> exact .inr ⟨_, rfl, rfl⟩
    · rw [if_neg fun h => hsize h.2, if_neg (Decidable.not_not.2 hjson),
        if_pos (Nat.not_le.1 hsize)]
      exact .inr ⟨_, rfl, rfl⟩
  · rw [if_neg fun h => hjson h.1, if_pos hjson]
    exact .inr ⟨_, rfl, rfl⟩

end Endpoint
end Collectors
