import Collectors.Proofs.Records
import Collectors.Transport

/-!
# What a client makes of a response

A body carries an envelope if its text is an object with one status, at most one message and at most
one result, or an array of the three (`Envelope.Stands`, `Transport.carries_iff`). What the outcome
of a call is follows from the status code of the response and from the envelope that its body
carries, if there is one: each of the five outcomes has its own condition
(`Transport.Classified`), and there is nothing else. `Transport.classifies` says so of calls with
and without a result, and of notices, for any response that a network brings back.
-/

namespace Collectors

open Json

variable {α : Type}

/-! ### Envelopes in documents -/

/-- What the values under a name say where there need not be one: nothing if there is none, or if it
is null. -/
inductive Json.Codec.Given (c : Codec α) (room : Nat) : List Document → Option α → Prop where
  | missing : c.Given room [] none
  | null : c.Given room [.null] none
  | value {d : Document} {a : α} (present : d ≠ .null) (read : c.decode room d = .ok a) :
      c.Given room [d] (some a)

theorem Json.Codec.given_iff {c : Codec α} {room : Nat} {ds : List Document} {x : Option α} :
    c.Given room ds x ↔
      (ds = [] ∧ x = none) ∨ ∃ d, ds = [d] ∧ c.optional.decode room d = .ok x := by
  simp only [Codec.optional_eq_ok_iff]
  constructor
  · rintro (_ | _ | ⟨present, read⟩)
    · exact .inl ⟨rfl, rfl⟩
    · exact .inr ⟨_, rfl, .inl ⟨rfl, rfl⟩⟩
    · exact .inr ⟨_, rfl, .inr ⟨present, _, read, rfl⟩⟩
  · rintro (⟨rfl, rfl⟩ | ⟨d, rfl, ⟨rfl, rfl⟩ | ⟨present, a, read, rfl⟩⟩)
    · exact .missing
    · exact .null
    · exact .value present read

namespace Envelope

/-- The names of the members of an envelope. -/
def memberNames : List String := ["status", "message", "result"]

/-- Whether a document is an envelope: an object whose members are one status, at most one message
and at most one result, among others that nobody asks for; or an array of these three. -/
inductive Stands (payload : Codec α) (room : Nat) : Document → Envelope α → Prop where
  | object {members : List (Option String × Document)} {e : Envelope α} {status : Document}
      (passed : ∀ member ∈ members, ∃ name, member.1 = some name ∧
        (name ∉ memberNames → member.2.wellFormed = true))
      (one : under "status" members = [status])
      (read : Status.codec.decode room status = .ok e.status)
      (message : Codec.text.Given room (under "message" members) e.message)
      (result : payload.Given room (under "result" members) e.result) :
      Stands payload room (.object members .closed) e
  | array {s m r : Document} {e : Envelope α}
      (read : Status.codec.decode room s = .ok e.status)
      (message : Codec.text.Given room [m] e.message)
      (result : payload.Given room [r] e.result) :
      Stands payload room (.array [s, m, r] true) e

/-- The fields of an envelope. -/
abbrev fields (payload : Codec α) : Fields (Status × Option String × Option α × Unit)
    (Option Status × Option (Option String) × Option (Option α) × Unit) :=
  .cons (.required "status" Status.codec) <|
    .cons (.whenPresent "message" .text) <| .cons (.whenPresent "result" payload) .nil

theorem says_iff {payload : Codec α} {room : Nat} {members : List (Option String × Document)}
    {e : Envelope α} :
    (fields payload).Says room members (e.status, e.message, e.result, ()) ↔
      (∃ d, under "status" members = [d] ∧ Status.codec.decode room d = .ok e.status) ∧
      Codec.text.Given room (under "message" members) e.message ∧
      payload.Given room (under "result" members) e.result := by
  simp only [Codec.given_iff, Fields.Says, Field.required, Field.whenPresent, and_true,
    Option.some.injEq, reduceCtorEq, and_false, false_or, @eq_comm _ none]

theorem lists_iff {payload : Codec α} {room : Nat} {items : List Document} {e : Envelope α} :
    (fields payload).Lists room items (e.status, e.message, e.result, ()) ↔
      ∃ s m r, items = [s, m, r] ∧ Status.codec.decode room s = .ok e.status ∧
        Codec.text.Given room [m] e.message ∧ payload.Given room [r] e.result := by
  have hone : ∀ {β : Type} {c : Codec β} {d : Document} {x : Option β},
      c.Given room [d] x ↔ c.optional.decode room d = .ok x := by
    intro β c d x
    simp [Codec.given_iff]
  simp only [hone]
  -- An array that ends before the result says nothing about it.
  rcases items with _ | ⟨s, _ | ⟨m, _ | ⟨r, items⟩⟩⟩
  · simp [Fields.Lists, Field.required]
  · simp [Fields.Lists, Field.whenPresent]
  · simp [Fields.Lists, Field.whenPresent]
  · simp only [Fields.Lists, Field.required, Field.whenPresent, List.cons.injEq]
    constructor
    · rintro ⟨hs, hm, hr, rfl⟩
      exact ⟨s, m, r, ⟨rfl, rfl, rfl, rfl⟩, hs, hm, hr⟩
    · rintro ⟨_, _, _, ⟨rfl, rfl, rfl, rfl⟩, hs, hm, hr⟩
      exact ⟨hs, hm, hr, rfl⟩

/-- **What envelopes are read from.** -/
theorem decode_eq_ok_iff {payload : Codec α} {room : Nat} {d : Document} {e : Envelope α} :
    (codec payload).decode (room + 1) d = .ok e ↔ Stands payload room d e := by
  have hrecord : (codec payload).decode (room + 1) d = .ok e ↔
      (Codec.record (fields payload)).decode (room + 1) d =
        .ok (e.status, e.message, e.result, ()) := by
    rw [codec, Codec.via_eq_ok_iff]
    constructor
    · rintro ⟨⟨status, message, result, ⟨⟩⟩, h, heq⟩
      cases heq
      exact h
    · exact fun h => ⟨_, h, rfl⟩
  have hnodup : (fields payload).names.Nodup := nodup_names
  rw [hrecord, Codec.record_eq_ok_iff hnodup]
  simp only [says_iff, lists_iff]
  constructor
  · rintro (⟨members, rfl, hpasses, ⟨status, hone, hread⟩, hmessage, hresult⟩ |
      ⟨items, rfl, s, m, r, rfl, hread, hmessage, hresult⟩)
    · exact .object hpasses hone hread hmessage hresult
    · exact .array hread hmessage hresult
  · rintro (⟨hpasses, hone, hread, hmessage, hresult⟩ | ⟨hread, hmessage, hresult⟩)
    · exact .inl ⟨_, rfl, hpasses, ⟨_, hone, hread⟩, hmessage, hresult⟩
    · exact .inr ⟨_, rfl, _, _, _, rfl, hread, hmessage, hresult⟩

end Envelope

namespace Transport

/-! ### Envelopes in bodies -/

/-- Whether a body is one envelope and nothing else. -/
def Carries (payload : Codec α) (body : ByteArray) (e : Envelope α) : Prop :=
  ∃ d, Document.ofText (textOf body) = (d, true) ∧ Envelope.Stands payload 126 d e

theorem carries_iff {payload : Codec α} {body : ByteArray} {e : Envelope α} :
    Carries payload body e ↔ envelope? payload body = some e := by
  have hread : envelope? payload body = some e ↔
      (Envelope.codec payload).read (textOf body) = .ok e := by
    rw [envelope?]
    cases (Envelope.codec payload).read (textOf body) <;> simp [Except.toOption]
  rw [hread, Codec.read_eq_ok_iff]
  simp only [Carries, ← Envelope.decode_eq_ok_iff, maxDepth]

/-- A body that was written is an envelope if the written value stands for one. -/
theorem carries_render {payload : Codec α} {v : Json} {e : Envelope α} :
    Carries payload v.render.toUTF8 e ↔ Envelope.Stands payload 126 v.document e := by
  unfold Carries
  rw [textOf_toUTF8, ofText_render]
  simp

/-! ### Outcomes of calls -/

/-- The error of a success that comes without the result that it must have. -/
def noResult (rpc : String) : Error := .protocol (rpc ++ " reply carries no result")

/-- One of two texts has a letter that the other one lacks. -/
theorem unexpectedStatus_ne_noResult (a : Address) (rpc : String) (status : Nat) :
    unexpectedStatus a rpc status ≠ noResult rpc := by
  intro h
  have htext := congrArg (fun s : String => s.toList.count 'w') (Error.protocol.inj h)
  have hanswered : " answered ".toList.count 'w' = 1 := by decide
  have hno : " reply carries no result".toList.count 'w' = 0 := by decide
  simp only [String.toList_append, List.count_append] at htext
  omega

/-- How the outcome of a call follows from the response to it, whatever the response: `found` is
what a result comes to, and `missing` what a success without a result does. -/
structure Classified {τ : Type} (payload : Codec α) (a : Address) (rpc : String)
    (r : Http.Response) (found : α → τ) (missing outcome : Except Error τ) : Prop where
  result : ∀ v, outcome = .ok (found v) ↔
    r.status = 200 ∧ ∃ e, Carries payload r.body e ∧ e.status = .success ∧ e.result = some v
  missing : outcome = missing ↔
    r.status = 200 ∧ ∃ e, Carries payload r.body e ∧ e.status = .success ∧ e.result = none
  /-- The name of the status stands in for a message that is missing or null; a result may be there,
  but has to be one. -/
  remote : ∀ s m, outcome = .error (.remote s m) ↔
    r.status = 200 ∧ s ≠ .success ∧
      ∃ e, Carries payload r.body e ∧ e.status = s ∧ e.message.getD s.name = m
  undecodable : ∀ failure, outcome = .error (.transport failure) ↔
    failure = .undecodable ∧ r.status = 200 ∧ ∀ e, ¬Carries payload r.body e
  /-- Nobody looks at the body of such a response. -/
  refused : outcome = .error (.protocol (toString a ++ " answered " ++ Http.statusText r.status ++
      " to " ++ rpc)) ↔ r.status ≠ 200
  final : ∀ e, outcome = .error e → e.isRetryable = false

section

variable {τ : Type} {payload : Codec α} {a : Address} {rpc : String} {r : Http.Response}
  {found : α → τ} {missing : Except Error τ}

/-- Whether results come to different things, and a success without a result to another one: to an
error only if it is that of a missing result. -/
structure Distinct (rpc : String) (found : α → τ) (missing : Except Error τ) : Prop where
  injective : ∀ v w, found v = found w → v = w
  ne : ∀ v, missing ≠ .ok (found v)
  error : ∀ e, missing = .error e → e = noResult rpc

theorem classified_refused (hd : Distinct rpc found missing)
    (h : r.status ≠ 200) :
    Classified payload a rpc r found missing (.error (unexpectedStatus a rpc r.status)) where
  result v := iff_of_false (by simp) fun hresult => h hresult.1
  missing := iff_of_false
    (fun heq => unexpectedStatus_ne_noResult a rpc r.status (hd.error _ heq.symm))
    fun hmiss => h hmiss.1
  remote s m := iff_of_false (by simp [unexpectedStatus]) fun hremote => h hremote.1
  undecodable failure := iff_of_false (by simp [unexpectedStatus]) fun hno => h hno.2.1
  refused := iff_of_true rfl h
  final e he := by
    cases he
    rfl

theorem classified_undecodable (hd : Distinct rpc found missing)
    (h : r.status = 200) (hno : ∀ e, ¬Carries payload r.body e) :
    Classified payload a rpc r found missing (.error (.transport .undecodable)) where
  result v := iff_of_false (by simp) fun ⟨_, e, he, _⟩ => hno e he
  missing := iff_of_false (fun heq => by cases hd.error _ heq.symm) fun ⟨_, e, he, _⟩ => hno e he
  remote s m := iff_of_false (by simp) fun ⟨_, _, e, he, _⟩ => hno e he
  undecodable failure := by
    simp only [Except.error.injEq, Error.transport.injEq]
    exact ⟨fun heq => ⟨heq.symm, h, hno⟩, fun heq => heq.1.symm⟩
  refused := iff_of_false (by simp) fun hne => hne h
  final e he := by
    cases he
    rfl

theorem classified_failure (hd : Distinct rpc found missing)
    (h : r.status = 200) {e : Envelope α} (hcarries : ∀ e', Carries payload r.body e' ↔ e' = e)
    (hstatus : e.status ≠ .success) :
    Classified payload a rpc r found missing (.error (Error.ofStatus e.status e.message)) where
  result v := iff_of_false (by simp) (by simp [hcarries, hstatus])
  missing := iff_of_false (fun heq => by cases hd.error _ heq.symm) (by simp [hcarries, hstatus])
  remote s m := by
    simp only [hcarries, exists_eq_left, h, true_and, Error.ofStatus, Except.error.injEq,
      Error.remote.injEq]
    constructor
    · rintro ⟨rfl, hm⟩
      exact ⟨hstatus, rfl, hm⟩
    · rintro ⟨-, rfl, hm⟩
      exact ⟨rfl, hm⟩
  undecodable failure := iff_of_false (by simp [Error.ofStatus])
    fun hno => hno.2.2 e ((hcarries e).2 rfl)
  refused := iff_of_false (by simp [Error.ofStatus]) fun hne => hne h
  final e he := by
    cases he
    rfl

theorem classified_found (hd : Distinct rpc found missing) (h : r.status = 200) {e : Envelope α}
    (hcarries : ∀ e', Carries payload r.body e' ↔ e' = e) (hstatus : e.status = .success) {v : α}
    (hv : e.result = some v) :
    Classified payload a rpc r found missing (.ok (found v)) where
  result w := by
    simp only [hcarries, exists_eq_left, h, hstatus, hv, true_and, Except.ok.injEq,
      Option.some.injEq]
    exact ⟨hd.injective v w, congrArg found⟩
  missing := iff_of_false (fun heq => hd.ne v heq.symm) (by simp [hcarries, hv])
  remote s m := iff_of_false (by simp) (by
    simp only [hcarries, exists_eq_left, hstatus]
    rintro ⟨-, hs, rfl, -⟩
    exact hs rfl)
  undecodable failure := iff_of_false (by simp) fun hno => hno.2.2 e ((hcarries e).2 rfl)
  refused := iff_of_false (by simp) fun hne => hne h
  final e he := by cases he

theorem classified_missing (hd : Distinct rpc found missing) (h : r.status = 200)
    {e : Envelope α} (hcarries : ∀ e', Carries payload r.body e' ↔ e' = e)
    (hstatus : e.status = .success) (hresult : e.result = none) :
    Classified payload a rpc r found missing missing where
  result w := iff_of_false (hd.ne w) (by simp [hcarries, hresult])
  missing := iff_of_true rfl ⟨h, e, (hcarries e).2 rfl, hstatus, hresult⟩
  remote s m := iff_of_false (fun heq => by cases hd.error _ heq) (by
    simp only [hcarries, exists_eq_left, hstatus]
    rintro ⟨-, hs, rfl, -⟩
    exact hs rfl)
  undecodable failure := iff_of_false (fun heq => by cases hd.error _ heq)
    fun hno => hno.2.2 e ((hcarries e).2 rfl)
  refused := iff_of_false
    (fun heq => unexpectedStatus_ne_noResult a rpc r.status (hd.error _ heq)) fun hne => hne h
  final e he := by
    rw [hd.error e he]
    rfl

/-- What a response comes to. -/
def outcome (payload : Codec α) (a : Address) (rpc : String) (r : Http.Response) (found : α → τ)
    (missing : Except Error τ) : Except Error τ := do
  match ← reply payload a rpc r with
  | some v => return found v
  | none => missing

/-- **Every response is classified.** -/
theorem classified_outcome (hd : Distinct rpc found missing) :
    Classified payload a rpc r found missing (outcome payload a rpc r found missing) := by
  unfold outcome reply
  by_cases h : r.status = 200
  · rw [if_neg (not_not.2 h)]
    cases henvelope : envelope? payload r.body with
    | none =>
      exact classified_undecodable hd h fun e he => by
        rw [carries_iff, henvelope] at he
        cases he
    | some e =>
      have hcarries : ∀ e', Carries payload r.body e' ↔ e' = e := by
        intro e'
        rw [carries_iff, henvelope, Option.some.injEq, eq_comm]
      dsimp only
      by_cases hstatus : e.status = .success
      · have hresult : e.toResult = .ok e.result := if_pos (decide_eq_true hstatus)
        rw [hresult]
        cases hv : e.result with
        | none => exact classified_missing hd h hcarries hstatus hv
        | some v => exact classified_found hd h hcarries hstatus hv
      · have hresult : e.toResult = .error (Error.ofStatus e.status e.message) :=
          if_neg fun heq => hstatus (of_decide_eq_true heq)
        rw [hresult]
        exact classified_failure hd h hcarries hstatus
  · rw [if_pos h]
    exact classified_refused hd h

end

/-- How the outcome of a notice follows from the response to it: nobody looks at its body. -/
structure Noticed (a : Address) (rpc : String) (r : Http.Response) (outcome : Except Error Unit) :
    Prop where
  accepted : outcome = .ok () ↔ 200 ≤ r.status ∧ r.status < 300
  refused : outcome = .error (.protocol (toString a ++ " answered " ++ Http.statusText r.status ++
      " to " ++ rpc)) ↔ ¬(200 ≤ r.status ∧ r.status < 300)
  final : ∀ e, outcome = .error e → e.isRetryable = false

theorem noticed_accepted (a : Address) (rpc : String) (r : Http.Response) :
    Noticed a rpc r (accepted a rpc r) := by
  unfold accepted
  split
  · rename_i h
    exact ⟨iff_of_true rfl h, iff_of_false (by simp) fun hnot => hnot h, fun e he => by cases he⟩
  · rename_i h
    exact ⟨iff_of_false (by simp) h, iff_of_true rfl h, fun e he => by cases he; rfl⟩

variable {σ : Type}

/-- **The client classifies every response.** A call for a result and a call differ in what a
success without a result comes to. -/
theorem classifies {net : Network σ} {a : Address} {rpc body : String} {s s' : σ}
    {r : Http.Response} (h : net.post (a.url rpc) body s = (.ok r, s')) (payload : Codec α) :
    (∃ outcome, callFor net payload a rpc body s = (outcome, s') ∧
      Classified payload a rpc r (fun v => v)
        (.error (.protocol (rpc ++ " reply carries no result"))) outcome) ∧
    (∃ outcome, call net payload a rpc body s = (outcome, s') ∧
      Classified payload a rpc r some (.ok none) outcome) ∧
    ∃ outcome, notify net a rpc body s = (outcome, s') ∧ Noticed a rpc r outcome := by
  have hsend : ∀ {τ : Type} (read : Http.Response → Except Error τ),
      send net a rpc body read s = (read r, s') := by
    intro τ read
    rw [send, h]
  refine ⟨⟨_, hsend _, ?_⟩, ⟨_, hsend _, ?_⟩, _, hsend _, noticed_accepted a rpc r⟩
  · exact classified_outcome ⟨fun v w h => h, by simp, fun e he => (Except.error.inj he).symm⟩
  · have hreply : outcome payload a rpc r some (.ok none) = reply payload a rpc r := by
      unfold outcome
      cases reply payload a rpc r with
      | error e => rfl
      | ok found => cases found <;> rfl
    rw [← hreply]
    exact classified_outcome ⟨fun v w => Option.some.inj, by simp, by simp⟩

/-- A failure without a message that carries a result, and one whose result nobody could read. -/
theorem classifies_failures :
    let net (v : Json) : Network Unit :=
      { post := fun _ _ s => (.ok { status := 200, body := v.render.toUTF8 }, s) }
    let a := Address.new "localhost" 1
    let sum (v : Json) := callFor (net v) SumReply.codec a "sum" "" ()
    sum (.object [("status", .string "other"), ("result", .object [("result", .int 1)])]) =
      (.error (.remote .other "other"), ()) ∧
    sum (.object [("status", .string "other"), ("result", .string "x")]) =
      (.error (.transport .undecodable), ()) := by
  intro net a sum
  have hclass := fun v => (@classifies _ _ (net v) a "sum" "" () () _ rfl SumReply.codec).1
  constructor
  · obtain ⟨outcome, hcall, hclassified⟩ := hclass _
    refine hcall.trans (congrArg (·, ())
      ((hclassified.remote .other "other").2 ⟨rfl, by decide, ?_⟩))
    refine ⟨{ status := .other, message := none, result := some { result := 1 } }, ?_, rfl, rfl⟩
    refine carries_render.2 (.object ?_ rfl rfl .missing
      (.value (Codec.document_ne_null (by simp)) rfl))
    intro member hmember
    rcases List.mem_cons.1 hmember with rfl | hmember
    · exact ⟨"status", rfl, fun hunknown => absurd (by decide) hunknown⟩
    · rw [List.mem_singleton.1 hmember]
      exact ⟨"result", rfl, fun hunknown => absurd (by decide) hunknown⟩
  · obtain ⟨outcome, hcall, hclassified⟩ := hclass _
    refine hcall.trans (congrArg (·, ()) ((hclassified.undecodable .undecodable).2 ⟨rfl, rfl, ?_⟩))
    intro e he
    cases carries_render.1 he with
    | object passed one read message result =>
      have hresult : SumReply.codec.Given 126 [.string (some "x")] e.result := result
      generalize e.result = x at hresult
      cases hresult with
      | value present read => cases read

end Transport
end Collectors
