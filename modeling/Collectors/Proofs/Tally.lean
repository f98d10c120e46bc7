import Collectors.Proofs.Exchange
import Collectors.Proofs.Plans
import Collectors.Proofs.Session

/-!
# The count of calls

Every call is counted once, under the status that its answer tells (`handled_handle`). The status
that is counted is computed beside the envelope that carries it to the caller; that the two are the
same takes a reader of the envelope, which has to get past a result of any form
(`Envelope.status?_answer`).

Nothing else moves the counts, neither what a provider does (`Host.handled_perform`) nor a request
that is no call. So after any requests the counts have grown by what the answers tell
(`handled_serve`).
-/

namespace Collectors

variable {β ι ω : Type}

/-! ### The status in a body -/

namespace Json

mutual

/-- A written value has the form of JSON, however deep it nests. -/
theorem wellFormed_document : (v : Json) → v.document.wellFormed = true
  | .null | .bool _ | .number _ | .string _ => rfl
  | .array items => by
    simp [document, Document.wellFormed, wellFormed_documentItems items]
  | .object members => by
    simp [document, Document.wellFormed, wellFormed_documentMembers members]

theorem wellFormed_documentItems : (items : List Json) →
    Document.wellFormedItems (documentItems items) = true
  | [] => rfl
  | item :: items => by
    simp [documentItems, Document.wellFormedItems, wellFormed_document item,
      wellFormed_documentItems items]

theorem wellFormed_documentMembers : (members : List (String × Json)) →
    Document.wellFormedMembers (documentMembers members) = true
  | [] => rfl
  | (_, value) :: members => by
    simp [documentMembers, Document.wellFormedMembers, wellFormed_document value,
      wellFormed_documentMembers members]

end

namespace Fields

variable {room : Nat} {α σ : Type}

/-- Members that nobody asked for are passed over, whatever they hold. -/
theorem storeAll_unknown {fields : Fields α σ} {extra : List (String × Json)}
    (hextra : ∀ name ∈ extra.map Prod.fst, name ∉ fields.names) (s : σ) :
    fields.storeAll room (documentMembers extra) s = .ok s := by
  induction extra with
  | nil => rfl
  | cons member extra ih =>
    rw [List.map_cons, List.forall_mem_cons] at hextra
    rw [documentMembers, storeAll, store_unknown _ hextra.1, if_pos (wellFormed_document member.2)]
    exact ih hextra.2

theorem storeAll_append {fields : Fields α σ} {extra : List (String × Json)}
    (hextra : ∀ name ∈ extra.map Prod.fst, name ∉ fields.names)
    (members : List (String × Json)) (s : σ) :
    fields.storeAll room (documentMembers (members ++ extra)) s =
      fields.storeAll room (documentMembers members) s := by
  induction members generalizing s with
  | nil => exact storeAll_unknown hextra s
  | cons member members ih =>
    rw [List.cons_append, documentMembers, documentMembers, storeAll, storeAll]
    cases fields.store room member.1 member.2.document s with
    | none => simp only [ih]
    | some r =>
      cases r with
      | error fault => rfl
      | ok s => exact ih s

end Fields

/-- A record reads what its fields read, be there more members behind. -/
theorem Codec.reads_record_append {room : Nat} {α σ : Type} {fields : Fields α σ}
    {members extra : List (String × Json)} {a : α} (hnodup : fields.names.Nodup)
    (h : fields.Reads room members a)
    (hextra : ∀ name ∈ extra.map Prod.fst, name ∉ fields.names) :
    (Codec.record fields).Reads (room + 1) (.object (members ++ extra)) a := by
  have hread : (Codec.record fields).Reads (room + 1) (.object members) a := reads_record hnodup h
  simp only [Reads, document, record, Fields.storeAll_append hextra] at hread ⊢
  exact hread

end Json

namespace Envelope

open Json

/-- The status is read off a written answer without a look at its result. -/
theorem status?_write (a : Envelope Json) :
    status? ((codec .free).write a).toUTF8 = some a.status := by
  let extra := (Fields.cons (.whenPresent "message" .text)
    (.cons (.whenPresent "result" Codec.free) .nil)).members (a.message, a.result, ())
  have hextra : ∀ name ∈ extra.map Prod.fst, name ∉ statusField.names := by
    intro name hname
    have hother : name = "message" ∨ name = "result" := by
      cases hmessage : a.message <;> cases hresult : a.result <;>
        simp_all [extra, Fields.members, Field.whenPresent]
    rcases hother with rfl | rfl <;> simp [statusField, Fields.names, Field.required]
  have hreads : (Codec.record statusField).Reads maxDepth ((codec .free).encode a)
      (a.status, ()) :=
    Codec.reads_record_append (by simp [Fields.names]) (.named a.status.reads_codec .nil) hextra
  rw [status?, fromUTF8?_toUTF8, Option.bind_some, Codec.write, hreads.read]
  rfl

/-- The answer to a call that is no greeting carries the status under which it is counted. -/
theorem status?_answer {rpc : Rpc} (hrpc : rpc ≠ .hello) (result : Except Error Answer) :
    status? (Endpoint.answer rpc result).body = some (Endpoint.statusOf rpc result) := by
  rw [Transport.answer_eq hrpc, status?_write]
  cases result with
  | ok answer => cases rpc <;> rfl
  | error e => cases rpc <;> first | rfl | exact absurd rfl hrpc

end Envelope

/-! ### What moves the counts -/

theorem Metrics.handled_record (m : Metrics) (rpc rpc' : Rpc) (status status' : Status) :
    (m.record rpc status).handled rpc' status' =
      m.handled rpc' status' + if (rpc, status) = (rpc', status') then 1 else 0 := by
  simp only [handled, record, lookup_assign]
  by_cases hkey : (rpc', status') = (rpc, status)
  · rw [if_pos hkey, if_pos hkey.symm, hkey]
    rfl
  · rw [if_neg hkey, if_neg (Ne.symm hkey)]
    rfl

namespace Host

theorem handled_put (h : Host β ι) (place : Nat) (p : Provider β ι) (rpc : Rpc)
    (status : Status) :
    (h.put place p).metrics.handled rpc status = h.metrics.handled rpc status := by
  unfold put
  cases p.table.gauge <;> rfl

/-- Whatever a provider does is not counted as a call. -/
theorem handled_perform (b : Behaviour β ι ω) (h : Host β ι) (place : Nat) (r : Request) (w : ω)
    (rpc : Rpc) (status : Status) :
    (h.perform b place r w).host.metrics.handled rpc status = h.metrics.handled rpc status := by
  unfold perform
  split
  · rfl
  · exact handled_put _ _ _ _ _

end Host

/-! ### What is counted -/

namespace Endpoint

variable {r : Http.Request} {rpc : Rpc} {segment : List Char}

theorem statusOf_error (hrpc : rpc ≠ .hello) (e : Error) : statusOf rpc (.error e) = e.status := by
  cases rpc <;> first | rfl | exact absurd rfl hrpc

/-- A greeting is judged by its address and its body, and any other call by its answer. -/
theorem told_of_call (hcall : r.call? = some (rpc, segment)) {limit : Nat} {mint : CollectorId}
    {h : Host β ι} {response : Http.Response} {status : Status} (result : Except Error Answer)
    (hresponse : response = answer rpc result)
    (hgreeting : rpc = .hello → greetingStatus limit mint h segment r = status)
    (hanswer : rpc ≠ .hello → statusOf rpc result = status) :
    Exchange.told limit { host := h, mint, request := r, response } = some (rpc, status) := by
  simp only [Exchange.told, hcall, Option.bind_some, hresponse]
  by_cases hrpc : rpc = .hello
  · rw [if_pos hrpc, hgreeting hrpc]
    rfl
  · rw [if_neg hrpc, Envelope.status?_answer hrpc, hanswer hrpc]
    rfl

/-- **A call is counted under the status that is told about it.** It is so on each of the three ways
that a call can take: its provider is not found, its body is not read, or it is handed to its
provider. -/
theorem counts_of_call (hcall : r.call? = some (rpc, segment)) (b : Behaviour β ι ω) (limit : Nat)
    (mint : CollectorId) (h : Host β ι) (w : ω) :
    let next := handle b limit mint r h w
    ∃ status before,
      Exchange.told limit { host := h, mint, request := r, response := next.response } =
        some (rpc, status) ∧
      (∀ rpc' status', before.metrics.handled rpc' status' = h.metrics.handled rpc' status') ∧
      next.host = record before rpc status := by
  intro next
  have hplan := plan_of_call hcall limit mint h
  cases hprovider : provider h segment with
  | error e =>
    have hnext : plan limit mint r h = .refuse rpc e := by rw [hplan, hprovider]
    refine ⟨e.status, h, told_of_call hcall (.error e) ?_ (fun _ => ?_)
      (fun hrpc => statusOf_error hrpc e), fun _ _ => rfl, ?_⟩
    · simp only [next, handle, hnext]
    · simp only [greetingStatus, hprovider]
    · simp only [next, handle, hnext]
  | ok place =>
    rcases body_cases limit rpc mint r with ⟨request, hdecoded, hbody⟩ | ⟨text, hdecoded, hbody⟩
    · have hnext : plan limit mint r h = .perform rpc place request := by
        rw [hplan, hprovider, hbody]
      let result := ofWorker (h.perform b place request w).result
      refine ⟨statusOf rpc result, _, told_of_call hcall result ?_ (fun hrpc => ?_)
        (fun _ => rfl), h.handled_perform b place request w, ?_⟩
      · simp only [next, handle, hnext, result]
      · subst hrpc
        simp only [greetingStatus, hprovider, hdecoded, Option.isSome_some, if_true, statusOf]
      · simp only [next, handle, hnext, result]
    · have hnext : plan limit mint r h = .refuse rpc (.protocol text) := by
        rw [hplan, hprovider, hbody]
      refine ⟨.fromTransport, h, told_of_call hcall (.error (.protocol text)) ?_
        (fun hrpc => ?_) (fun hrpc => statusOf_error hrpc _), fun _ _ => rfl, ?_⟩
      · simp only [next, handle, hnext]
      · subst hrpc
        simp only [greetingStatus, hprovider, hdecoded, Option.isSome_none, Bool.false_eq_true,
          if_false]
      · simp only [next, handle, hnext, Error.status]

/-- One request adds one to the count that its answer tells, if it is a call, and nothing else. -/
theorem handled_handle (b : Behaviour β ι ω) (limit : Nat) (mint : CollectorId)
    (r : Http.Request) (h : Host β ι) (w : ω) :
    let next := handle b limit mint r h w
    let e : Exchange β ι := { host := h, mint, request := r, response := next.response }
    (e.told limit).map Prod.fst = r.call?.map Prod.fst ∧
    ∀ rpc status, next.host.metrics.handled rpc status =
      h.metrics.handled rpc status + if e.told limit = some (rpc, status) then 1 else 0 := by
  intro next e
  cases hcall : r.call? with
  | none =>
    have htold : e.told limit = none := by simp only [e, Exchange.told, hcall, Option.bind_none]
    rw [htold]
    refine ⟨rfl, fun rpc status => ?_⟩
    rw [(handle_of_no_call hcall b limit mint h w).1, if_neg (by simp)]
    rfl
  | some call =>
    obtain ⟨rpc, segment⟩ := call
    obtain ⟨status, before, htold, hbefore, hhost⟩ := counts_of_call hcall b limit mint h w
    rw [htold]
    refine ⟨rfl, fun rpc' status' => ?_⟩
    simp only [next, hhost, record, Metrics.handled_record, hbefore, Option.some.injEq]

/-- What was counted of some requests that were answered one after another, of which `s` came, at
a host `h`. -/
structure Tallied (limit : Nat) (h : Host β ι) (requests : List (CollectorId × Http.Request))
    (s : Service β ι ω) : Prop where
  /-- Every request was answered, in its turn. -/
  answered : s.exchanges.map (fun e => (e.mint, e.request)) = requests
  /-- About every call, and about no other request, one status is told. -/
  told : ∀ e ∈ s.exchanges, (e.told limit).map Prod.fst = e.request.call?.map Prod.fst
  /-- The counts grew by what was told. -/
  handled : ∀ rpc status, s.host.metrics.handled rpc status =
    h.metrics.handled rpc status + s.exchanges.countP fun e => e.told limit = some (rpc, status)
  /-- Requests that are no calls leave everything as it is. -/
  quiet : (∀ e ∈ requests, e.2.call? = none) → s.host = h

/-- **Every call is counted once, under the status that it was answered with**, whatever is
requested, in whatever state everything is, and whatever the backends do. -/
theorem tallied_serve (b : Behaviour β ι ω) (limit : Nat) (h : Host β ι) (w : ω)
    (requests : List (CollectorId × Http.Request)) :
    Tallied limit h requests (serve b limit h w requests) := by
  induction requests generalizing h w with
  | nil => exact ⟨rfl, List.forall_mem_nil _, fun _ _ => rfl, fun _ => rfl⟩
  | cons request rest ih =>
    obtain ⟨mint, r⟩ := request
    obtain ⟨htold, hhandled⟩ := handled_handle b limit mint r h w
    have hrest := ih (handle b limit mint r h w).host (handle b limit mint r h w).world
    refine ⟨?_, ?_, fun rpc status => ?_, fun hquiet => ?_⟩
    · simp only [serve, List.map_cons, hrest.answered]
    · exact List.forall_mem_cons.2 ⟨htold, hrest.told⟩
    · simp only [serve, List.countP_cons, hrest.handled, hhandled, decide_eq_true_eq]
      omega
    · obtain ⟨hfirst, hothers⟩ := List.forall_mem_cons.1 hquiet
      exact (hrest.quiet hothers).trans (handle_of_no_call hfirst b limit mint h w).1

end Endpoint
end Collectors
