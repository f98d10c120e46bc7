import Collectors.Client.RemoteCall
import Collectors.Endpoint.Network
import Collectors.Proofs.Codecs
import Collectors.Proofs.Outcomes

/-!
# One call over the wire

The two halves of a call. `Endpoint.post_call` is what the request of a client comes to at an
endpoint: the provider is asked what the client had in mind, and its result is closed into the
answer. `RemoteCall.make_of_post` is what the client makes of the answer.
-/

namespace Collectors

open Json (Codec maxDepth)

variable {β ι ω σ : Type}

/-! ### What an endpoint reads -/

namespace RemoteCall

/-- What an endpoint receives of a call: the arguments of an operation as they come back from
their text, and anything else as it is. The arguments stand in the object of the request, which
leaves them one place less to nest in. -/
def Received : RemoteCall → RemoteCall → Prop
  | .invoke handle operation args, received =>
    ∃ args', Codec.free.Reads 126 args args' ∧ received = .invoke handle operation args'
  | call, received => received = call

theorem readFront_write {α γ : Type} {c : Codec α} {a a' : α}
    (h : c.Reads maxDepth (c.encode a) a') (make : α → γ) :
    (c.readFront (c.write a)).map make = .ok (make a') :=
  congrArg (Except.map make) h.readFront

/-- **The body of a call is read as what is received of it.** -/
theorem request_body {call received : RemoteCall} (h : call.Received received)
    (mint : CollectorId) :
    Endpoint.request call.rpc mint call.body = .ok (received.request mint) := by
  cases call with
  | create r => cases h; exact readFront_write r.reads_codec _
  | openExisting r => cases h; exact readFront_write r.reads_codec _
  | close r => cases h; exact readFront_write r.reads_codec _
  | destroy r => cases h; exact readFront_write r.reads_codec _
  | list r => cases h; exact readFront_write r.reads_codec _
  | hello handle => cases h; exact readFront_write (HelloRequest.reads_codec _) _
  | sum handle x y => cases h; exact readFront_write (SumRequest.reads_codec _) _
  | invoke handle operation args =>
    obtain ⟨args', hargs, rfl⟩ := h
    exact readFront_write (InvokeRequest.reads_codec _ hargs) _

end RemoteCall

namespace Endpoint

theorem declaresJson_jsonType : Http.declaresJson (some Http.jsonType) = true := by decide

theorem body_posted {call received : RemoteCall} (hreceived : call.Received received)
    {limit : Nat} (hsize : call.body.utf8ByteSize ≤ limit) (mint : CollectorId)
    (target : String) :
    body limit call.rpc mint (posted target call.body) = .ok (received.request mint) := by
  have hlimit : ¬ limit < call.body.toUTF8.size := Nat.not_lt.2 hsize
  simp only [body, posted, declaresJson_jsonType, not_true_eq_false, if_false, if_neg hlimit,
    Json.textOf_toUTF8, RemoteCall.request_body hreceived mint]

/-- What is planned for what is posted to a provider. -/
theorem plan_path (limit : Nat) (mint : CollectorId) (id : ProviderId) (rpc : Rpc) (text : String)
    (h : Host β ι) :
    plan limit mint (posted (Rpc.path id rpc.name) text) h =
      match h.find id with
      | .error e => .refuse rpc e
      | .ok place =>
        match body limit rpc mint (posted (Rpc.path id rpc.name) text) with
        | .error e => .refuse rpc e
        | .ok request => .perform rpc place request := by
  have hprovider : provider h (Nat.toDigits 10 id.toNat) = h.find id := by
    rw [provider, Http.providerId?_toDigits]
  have hroute := Http.Route.ofTarget?_path id rpc
  have hmethod : ¬ ¬ (["POST"].contains "POST" = true) := by decide
  unfold plan
  rw [show (posted (Rpc.path id rpc.name) text).target = Rpc.path id rpc.name from rfl, hroute]
  simp only [Http.Route.allowed, hprovider]
  exact if_neg hmethod

/-- What is planned for the request of a client: it goes to the provider that has the id. -/
theorem plan_posted {call received : RemoteCall} (hreceived : call.Received received)
    {limit : Nat} (hsize : call.body.utf8ByteSize ≤ limit) (mint : CollectorId)
    (id : ProviderId) (h : Host β ι) :
    plan limit mint (posted (Rpc.path id call.rpc.name) call.body) h =
      match h.find id with
      | .error e => .refuse call.rpc e
      | .ok place => .perform call.rpc place (received.request mint) := by
  rw [plan_path, body_posted hreceived hsize]

/-- What is posted to an address arrives at the endpoint there. -/
theorem post_url (b : Behaviour β ι ω) (limit : Nat) (mint : CollectorId) (a : Address)
    (rpc body : String) (s : Host β ι × ω) :
    (network b limit mint a.baseUrl).post (a.url rpc) body s =
      let next := handle b limit mint (posted (Rpc.path a.providerId rpc) body) s.1 s.2
      (.ok next.response, (next.host, next.world)) := by
  have hurl : (a.url rpc).toList = a.baseUrl.toList ++ (Rpc.path a.providerId rpc).toList :=
    String.toList_append
  have hprefix : a.baseUrl.toList.isPrefixOf (a.url rpc).toList = true := by
    rw [hurl, List.isPrefixOf_iff_prefix]
    exact List.prefix_append _ _
  have htarget : String.ofList ((a.url rpc).toList.drop a.baseUrl.toList.length) =
      Rpc.path a.providerId rpc := by
    rw [hurl, List.drop_left, String.ofList_toList]
  show (if a.baseUrl.toList.isPrefixOf (a.url rpc).toList then _ else _) = _
  rw [if_pos hprefix, htarget]

end Endpoint

/-! ### What a client makes of an answer -/

namespace Transport

variable {α : Type} {payload : Codec α} {rpc : Rpc}

/-- What is answered to a call that is not a greeting. -/
theorem answer_eq (hrpc : rpc ≠ .hello) (result : Except Error Answer) :
    Endpoint.answer rpc result =
      { status := 200, contentType := some Http.jsonType
        body := ((Envelope.codec .free).write
          (Envelope.ofResult (result.map Endpoint.payload))).toUTF8 } := if_neg hrpc

/-- The body of an answer is read as the envelope that it was closed into. -/
theorem reply_answer (a : Address) (hrpc : rpc ≠ .hello) (result : Except Error Answer)
    {e : Envelope α}
    (h : (Envelope.codec payload).Reads maxDepth
      ((Envelope.codec .free).encode (Envelope.ofResult (result.map Endpoint.payload))) e) :
    reply payload a rpc.name (Endpoint.answer rpc result) = e.toResult := by
  have hread : envelope? payload
      ((Envelope.codec .free).write (Envelope.ofResult (result.map Endpoint.payload))).toUTF8 =
      some e := by
    rw [envelope?, Json.textOf_toUTF8, Codec.write, h.read]
    rfl
  rw [reply, answer_eq hrpc, if_neg fun hstatus => hstatus rfl, hread]

/-- An error comes to the client with its status and its wording. -/
theorem reply_error (a : Address) (hrpc : rpc ≠ .hello) {e : Error} (he : e.status ≠ .success) :
    reply payload a rpc.name (Endpoint.answer rpc (.error e)) =
      .error (.remote e.status e.message) := by
  have hsuccess : e.status.isSuccess = false := decide_eq_false he
  rw [reply_answer a hrpc (.error e) (Envelope.reads_error payload e), Envelope.toResult]
  simp only [Envelope.ofError, hsuccess, Bool.false_eq_true, if_false]
  rfl

/-- A result comes to the client as its reader reads a value that may be absent. -/
theorem reply_ok (a : Address) (hrpc : rpc ≠ .hello) {answer : Answer} {r : Option α}
    (h : payload.optional.Reads 126 (Endpoint.payload answer) r) :
    reply payload a rpc.name (Endpoint.answer rpc (.ok answer)) = .ok r := by
  rw [reply_answer a hrpc (.ok answer) (Envelope.reads_ok h)]
  rfl

theorem replyFor_error (a : Address) (hrpc : rpc ≠ .hello) {e : Error}
    (he : e.status ≠ .success) :
    replyFor payload a rpc.name (Endpoint.answer rpc (.error e)) =
      .error (.remote e.status e.message) := by
  rw [replyFor, reply_error a hrpc he]
  rfl

theorem replyFor_ok (a : Address) (hrpc : rpc ≠ .hello) {answer : Answer} {r : α}
    (h : payload.Reads 126 (Endpoint.payload answer) r)
    (hnull : Endpoint.payload answer ≠ .null) :
    replyFor payload a rpc.name (Endpoint.answer rpc (.ok answer)) = .ok r := by
  rw [replyFor, reply_ok a hrpc (h.some hnull)]
  rfl

/-- The result of an operation whose value is not read as a free value cannot be decoded. -/
theorem replyFor_undecodable (a : Address) {v : Json} {fault : Json.Fault}
    (h : v.document.toJson 125 = .error fault) :
    replyFor InvokeReply.codec a Rpc.invoke.name (Endpoint.answer .invoke (.ok (.value v))) =
      .error (.transport .undecodable) := by
  have hsent : Envelope.ofResult (Except.map Endpoint.payload
      (.ok (.value v) : Except Error Answer)) = .ok (InvokeReply.codec.encode { result := v }) := rfl
  have hread : envelope? InvokeReply.codec ((Envelope.codec .free).write
      (.ok (InvokeReply.codec.encode { result := v }))).toUTF8 = none := by
    rw [envelope?, Json.textOf_toUTF8, Codec.read, Codec.write, Json.ofText_render]
    dsimp only
    rw [Envelope.decode_error h]
    rfl
  rw [replyFor, reply, answer_eq Rpc.noConfusion, hsent, hread,
    if_neg fun hstatus => hstatus rfl]
  rfl

end Transport

namespace RemoteCall

/-- What may be seen of a result on the other side of the wire: the value of an operation as it
comes back from its text, and anything else as it is. The value stands in an object that stands in
the envelope, which leaves it two places less to nest in. -/
def Seen (result seen : Except Error Answer) : Prop :=
  match result with
  | .ok (.value v) => ∃ v', Codec.free.Reads 125 v v' ∧ seen = .ok (.value v')
  | result => seen = result

theorem Seen.error {e : Error} {seen : Except Error Answer} (h : Seen (.error e) seen) :
    seen = .error e := h

/-- What the wire tells of a result that must be there. -/
theorem told_replyFor {α γ : Type} {payload : Codec α} (a : Address) {rpc : Rpc}
    (hrpc : rpc ≠ .hello) (get : α → γ) (give : γ → Answer) {result seen : Except Error Answer}
    (hstatus : ∀ e, result = .error e → e.status ≠ .success) (hseen : Seen result seen)
    (hok : ∀ answer, result = .ok answer → ∃ r, payload.Reads 126 (Endpoint.payload answer) r ∧
      Endpoint.payload answer ≠ .null ∧ seen = .ok (give (get r))) :
    ((Transport.replyFor payload a rpc.name (Endpoint.answer rpc result)).map get).map give =
      seen.mapError fun e => .remote e.status e.message := by
  cases result with
  | error e =>
    rw [hseen.error, Transport.replyFor_error a hrpc (hstatus e rfl)]
    rfl
  | ok answer =>
    obtain ⟨r, hreads, hnull, rfl⟩ := hok answer rfl
    rw [Transport.replyFor_ok a hrpc hreads hnull]
    rfl

/-- What the wire tells of a result that says nothing: the `null` of the answer is read as a
result that is absent. -/
theorem told_reply (a : Address) {rpc : Rpc} (hrpc : rpc ≠ .hello)
    {result seen : Except Error Answer}
    (hstatus : ∀ e, result = .error e → e.status ≠ .success) (hseen : Seen result seen)
    (hok : ∀ answer, result = .ok answer → answer = .done) :
    ((Transport.reply Codec.unit a rpc.name (Endpoint.answer rpc result)).map
        fun _ => ()).map (fun _ => Answer.done) =
      seen.mapError fun e => .remote e.status e.message := by
  cases result with
  | error e =>
    rw [hseen.error, Transport.reply_error a hrpc (hstatus e rfl)]
    rfl
  | ok answer =>
    obtain rfl := hok answer rfl
    obtain rfl : seen = .ok .done := hseen
    rw [Transport.reply_ok a hrpc (Codec.reads_none Codec.unit)]
    rfl

variable {net : Network σ} {a : Address} {s s' : σ} {result seen : Except Error Answer}

/-- A client gets the id of what was made. -/
theorem told_instantiate {rpc : Rpc} (hrpc : rpc ≠ .hello) {r : InstantiateRequest}
    (hsend : Transport.send net a rpc.name (InstantiateRequest.codec.write r)
        (Transport.replyFor IdReply.codec a rpc.name) s =
      (Transport.replyFor IdReply.codec a rpc.name (Endpoint.answer rpc result), s'))
    (hstatus : ∀ e, result = .error e → e.status ≠ .success) (hseen : Seen result seen)
    (hok : ∀ answer, result = .ok answer → ∃ id, answer = .id id) :
    (let (reply, s) := Admin.instantiate net rpc a r s; (reply.map Answer.id, s)) =
      (seen.mapError fun e => .remote e.status e.message, s') := by
  simp only [Admin.instantiate, Transport.callFor, hsend]
  rw [told_replyFor a hrpc IdReply.id Answer.id hstatus hseen]
  rintro answer rfl
  obtain ⟨id, rfl⟩ := hok answer rfl
  exact ⟨{ id }, IdReply.reads_codec _, Json.noConfusion, hseen⟩

/-- A client is told whether a collector was removed. -/
theorem told_remove {rpc : Rpc} (hrpc : rpc ≠ .hello) {r : RemoveRequest}
    (hsend : Transport.send net a rpc.name (RemoveRequest.codec.write r)
        (Transport.reply Codec.unit a rpc.name) s =
      (Transport.reply Codec.unit a rpc.name (Endpoint.answer rpc result), s'))
    (hstatus : ∀ e, result = .error e → e.status ≠ .success) (hseen : Seen result seen)
    (hok : ∀ answer, result = .ok answer → answer = .done) :
    (let (reply, s) := Admin.remove net rpc a r s; (reply.map fun _ => Answer.done, s)) =
      (seen.mapError fun e => .remote e.status e.message, s') := by
  simp only [Admin.remove, Transport.call, hsend]
  rw [told_reply a hrpc hstatus hseen hok]

theorem target?_of_goesTo {h : Handle} (ht : h.target = some a) : h.target? = .ok a := by
  rw [Handle.target?, ht]

/-- **What a client makes of an answer.** If what it posts is answered with a result of the right
kind, a call tells what can be seen of this result. -/
theorem make_of_post {call : RemoteCall} {mint : CollectorId} (hcall : call.GoesTo a)
    (hpost : net.post (a.url call.rpc.name) call.body s =
      (.ok (Endpoint.answer call.rpc result), s'))
    (hstatus : ∀ e, result = .error e → e.status ≠ .success)
    (hallows : ∀ answer, result = .ok answer → (call.request mint).Allows (.ok answer))
    (hseen : Seen result seen) : call.make net a s = (call.told seen, s') := by
  -- All eight calls post in the same way; they differ in what they read.
  have hsend : ∀ {α : Type} (read : Http.Response → Except Error α),
      Transport.send net a call.rpc.name call.body read s =
        (read (Endpoint.answer call.rpc result), s') := by
    intro α read
    rw [Transport.send, hpost]
  cases call with
  | create r =>
    exact told_instantiate Rpc.noConfusion (hsend _) hstatus hseen fun answer h =>
      (hallows answer h).eq_id
  | openExisting r =>
    exact told_instantiate Rpc.noConfusion (hsend _) hstatus hseen fun answer h =>
      (hallows answer h).eq_id
  | close r =>
    exact told_remove Rpc.noConfusion (hsend _) hstatus hseen fun answer h =>
      (hallows answer h).eq_done_of_close
  | destroy r =>
    exact told_remove Rpc.noConfusion (hsend _) hstatus hseen fun answer h =>
      (hallows answer h).eq_done_of_destroy
  | list r =>
    have h := hsend (Transport.replyFor ListReply.codec a Rpc.listCollectors.name)
    simp only [rpc, body] at h
    simp only [make, Admin.list, Transport.callFor, h]
    rw [told_replyFor a Rpc.noConfusion ListReply.ids Answer.ids hstatus hseen]
    · rfl
    · rintro answer rfl
      obtain ⟨ids, rfl⟩ := (hallows answer rfl).eq_ids
      exact ⟨⟨_, ids⟩, ListReply.reads_codec _, Json.noConfusion, hseen⟩
  | hello handle =>
    -- A greeting is told nothing but that it was accepted, whatever its result.
    have h := hsend (Transport.accepted a Rpc.hello.name)
    simp only [rpc, body] at h
    simp only [make, Handle.hello, target?_of_goesTo hcall, Transport.notify, h]
    rfl
  | sum handle x y =>
    have h := hsend (Transport.replyFor SumReply.codec a Rpc.sum.name)
    simp only [rpc, body] at h
    simp only [make, Handle.sum, target?_of_goesTo hcall, Transport.callFor, h]
    rw [told_replyFor a Rpc.noConfusion SumReply.result Answer.sum hstatus hseen]
    · rfl
    · rintro answer rfl
      obtain ⟨z, rfl⟩ := (hallows answer rfl).eq_sum
      exact ⟨{ result := z }, SumReply.reads_codec _, Json.noConfusion, hseen⟩
  | invoke handle operation args =>
    have h := hsend (Transport.replyFor InvokeReply.codec a Rpc.invoke.name)
    simp only [rpc, body] at h
    simp only [make, Handle.invoke, target?_of_goesTo hcall, Transport.callFor, h]
    rw [told_replyFor a Rpc.noConfusion InvokeReply.result Answer.value hstatus hseen]
    · rfl
    · rintro answer rfl
      obtain ⟨v, rfl⟩ := (hallows answer rfl).eq_value
      obtain ⟨v', hv, hseen⟩ := hseen
      exact ⟨{ result := v' }, InvokeReply.reads_codec _ hv, Json.noConfusion, hseen⟩

/-- A value that nests too deep in the envelope is not seen at all. -/
theorem make_of_deep {handle : Handle} {operation : String} {args v : Json}
    (hhandle : handle.target = some a)
    (hpost : net.post (a.url Rpc.invoke.name) (invoke handle operation args).body s =
      (.ok (Endpoint.answer .invoke (.ok (.value v))), s'))
    (hv : v.Portable) (hdeep : 125 < v.depth) :
    (invoke handle operation args).make net a s = (.error (.transport .undecodable), s') := by
  simp only [body] at hpost
  -- The text is well-formed, but there is no room left to read it as a value.
  simp only [make, Handle.invoke, target?_of_goesTo hhandle, Transport.callFor, Transport.send,
    hpost, Transport.replyFor_undecodable a (Json.toJson_document_deep v hv hdeep)]
  rfl

end RemoteCall
end Collectors
