import Collectors.Proofs.Codecs

/-!
# Answers that are passed on

Somebody who gets an error from one side may pass it on to the other, in an envelope of its own.
`Envelope.carry` is one such hop: an outcome is closed in an envelope, written, read and opened.
`Envelope.relay` is what an error has become behind any number of hops.

A hop must be able to read what it gets. The objects around a result take up room in which arrays
and objects may be opened, so that a result is read with less room in its envelope than alone.
`Codec.Steady` says that a codec does not notice, unless the value nests too deep; every way to
make a codec keeps to it, and so do all results of calls.

`Envelope.faithful` puts it together.
-/

namespace Collectors
namespace Json

/-! ### Reading with more or less room -/

mutual

/-- A free value is read the same wherever there is room for it. -/
theorem toJson_room : (v : Json) → {room room' : Nat} → v.depth ≤ room → v.depth ≤ room' →
    v.document.toJson room = v.document.toJson room'
  | .null, _, _, _, _ => rfl
  | .bool _, _, _, _, _ => rfl
  | .number n, _, _, _, _ => by simp only [document, Document.toJson]
  | .string _, _, _, _, _ => rfl
  | .array _, 0, _, h, _ => absurd h (Nat.not_succ_le_zero _)
  | .array _, _ + 1, 0, _, h' => absurd h' (Nat.not_succ_le_zero _)
  | .array items, room + 1, room' + 1, h, h' => by
    have hitems := toJsonItems_room items (Nat.le_of_succ_le_succ h) (Nat.le_of_succ_le_succ h')
    simp only [document, Document.toJson, hitems]
  | .object _, 0, _, h, _ => absurd h (Nat.not_succ_le_zero _)
  | .object _, _ + 1, 0, _, h' => absurd h' (Nat.not_succ_le_zero _)
  | .object members, room + 1, room' + 1, h, h' => by
    have hmembers :=
      toJsonMembers_room members (Nat.le_of_succ_le_succ h) (Nat.le_of_succ_le_succ h')
    simp only [document, Document.toJson, hmembers]

theorem toJsonItems_room : (items : List Json) → {room room' : Nat} →
    depthItems items ≤ room → depthItems items ≤ room' →
    Document.toJsonItems (documentItems items) room =
      Document.toJsonItems (documentItems items) room'
  | [], _, _, _, _ => rfl
  | item :: items, room, room', h, h' => by
    rw [depthItems, Nat.max_le] at h h'
    simp only [documentItems, Document.toJsonItems, toJson_room item h.1 h'.1,
      toJsonItems_room items h.2 h'.2]

theorem toJsonMembers_room : (members : List (String × Json)) → {room room' : Nat} →
    depthMembers members ≤ room → depthMembers members ≤ room' →
    Document.toJsonMembers (documentMembers members) room =
      Document.toJsonMembers (documentMembers members) room'
  | [], _, _, _, _ => rfl
  | (name, value) :: members, room, room', h, h' => by
    rw [depthMembers, Nat.max_le] at h h'
    simp only [documentMembers, Document.toJsonMembers, toJson_room value h.1 h'.1,
      toJsonMembers_room members h.2 h'.2]

end

/-- Whether a codec reads a written value the same wherever there is room for the value. -/
def Codec.Steady {α : Type} (c : Codec α) : Prop :=
  ∀ (v : Json) {room room' : Nat}, v.depth ≤ room → v.depth ≤ room' →
    c.decode room v.document = c.decode room' v.document

namespace Codec

variable {α β : Type} {c : Codec α}

theorem steady_free : free.Steady := toJson_room

theorem steady_text : text.Steady := fun v _ _ _ _ => by cases v <;> rfl

theorem steady_integer (low high : Int) : (integer low high).Steady := fun v _ _ _ _ => by
  cases v <;> rfl

theorem steady_unit : unit.Steady := fun v _ _ _ _ => by cases v <;> rfl

theorem Steady.via (hc : c.Steady) (make : α → Option β) (raw : β → α) :
    (c.via make raw).Steady := fun v _ _ h h' => by
  simp only [Codec.via, hc v h h']

theorem steady_int32 : int32.Steady := (steady_integer _ _).via _ _

theorem steady_uint64 : uint64.Steady := (steady_integer _ _).via _ _

theorem Steady.optional (hc : c.Steady) : c.optional.Steady := fun v _ _ h h' => by
  cases v with
  | null => rfl
  | _ => exact congrArg (Except.map some) (hc _ h h')

theorem Steady.decodeItems (hc : c.Steady) {room room' : Nat} (items : List Json)
    (h : depthItems items ≤ room) (h' : depthItems items ≤ room') :
    c.decodeItems room (documentItems items) = c.decodeItems room' (documentItems items) := by
  induction items with
  | nil => rfl
  | cons item items ih =>
    rw [depthItems, Nat.max_le] at h h'
    simp only [documentItems, Codec.decodeItems, hc item h.1 h'.1, ih h.2 h'.2]

theorem Steady.list (hc : c.Steady) : c.list.Steady := fun v room room' h h' => by
  cases v with
  | array items =>
    obtain ⟨room, rfl⟩ := Nat.exists_eq_succ_of_ne_zero (Nat.ne_of_gt (Nat.zero_lt_of_lt h))
    obtain ⟨room', rfl⟩ := Nat.exists_eq_succ_of_ne_zero (Nat.ne_of_gt (Nat.zero_lt_of_lt h'))
    simp only [document, Codec.list,
      hc.decodeItems items (Nat.le_of_succ_le_succ h) (Nat.le_of_succ_le_succ h')]
  | _ => cases room <;> cases room' <;> rfl

end Codec

namespace Fields

variable {α σ : Type}

/-- Whether the codecs of all fields are steady. -/
inductive Steady : {α σ : Type} → Fields α σ → Prop where
  | nil : Steady .nil
  | cons {α β σ : Type} {field : Field α} {rest : Fields β σ} (value : field.codec.Steady)
      (others : Steady rest) : Steady (.cons field rest)

theorem store_room {fields : Fields α σ} (hfields : fields.Steady) {room room' : Nat}
    (name : String) {v : Json} (h : v.depth ≤ room) (h' : v.depth ≤ room') (s : σ) :
    fields.store room name v.document s = fields.store room' name v.document s := by
  induction hfields with
  | nil => rfl
  | cons value others ih => simp only [store, value v h h', ih]

theorem storeAll_room {fields : Fields α σ} (hfields : fields.Steady) {room room' : Nat}
    (members : List (String × Json)) (h : depthMembers members ≤ room)
    (h' : depthMembers members ≤ room') (s : σ) :
    fields.storeAll room (documentMembers members) s =
      fields.storeAll room' (documentMembers members) s := by
  induction members generalizing s with
  | nil => rfl
  | cons member members ih =>
    rw [depthMembers, Nat.max_le] at h h'
    simp only [documentMembers, storeAll, store_room hfields member.1 h.1 h'.1, ih h.2 h'.2]

theorem ofItems_room {fields : Fields α σ} (hfields : fields.Steady) {room room' : Nat}
    (closed : Bool) (items : List Json) (h : depthItems items ≤ room)
    (h' : depthItems items ≤ room') :
    fields.ofItems room closed (documentItems items) =
      fields.ofItems room' closed (documentItems items) := by
  induction hfields generalizing items with
  | nil => rfl
  | @cons α β σ field rest value others ih =>
    cases items with
    | nil =>
      have hrest : rest.ofItems room closed [] = rest.ofItems room' closed [] := ih [] h h'
      simp only [documentItems, ofItems, hrest]
    | cons item items =>
      rw [depthItems, Nat.max_le] at h h'
      simp only [documentItems, ofItems, value item h.1 h'.1, ih items h.2 h'.2]

end Fields

/-- A record is read the same wherever there is room for it, if its fields are. -/
theorem Codec.steady_record {α σ : Type} {fields : Fields α σ} (hfields : fields.Steady) :
    (Codec.record fields).Steady := fun v room room' h h' => by
  cases v with
  | array items =>
    obtain ⟨room, rfl⟩ := Nat.exists_eq_succ_of_ne_zero (Nat.ne_of_gt (Nat.zero_lt_of_lt h))
    obtain ⟨room', rfl⟩ := Nat.exists_eq_succ_of_ne_zero (Nat.ne_of_gt (Nat.zero_lt_of_lt h'))
    exact Fields.ofItems_room hfields true items (Nat.le_of_succ_le_succ h)
      (Nat.le_of_succ_le_succ h')
  | object members =>
    obtain ⟨room, rfl⟩ := Nat.exists_eq_succ_of_ne_zero (Nat.ne_of_gt (Nat.zero_lt_of_lt h))
    obtain ⟨room', rfl⟩ := Nat.exists_eq_succ_of_ne_zero (Nat.ne_of_gt (Nat.zero_lt_of_lt h'))
    simp only [document, Codec.record, Fields.storeAll_room hfields members
      (Nat.le_of_succ_le_succ h) (Nat.le_of_succ_le_succ h')]
  | _ => cases room <;> cases room' <;> rfl

end Json

open Json
open Json.Codec (steady_free steady_text steady_int32 steady_uint64 steady_record)

theorem CollectorId.steady_codec : codec.Steady := steady_text.via _ _

theorem Status.steady_codec : codec.Steady := fun v room room' h h' => by
  cases v with
  | object members =>
    cases room with
    | zero => exact absurd h (Nat.not_succ_le_zero _)
    | succ room =>
      cases room' with
      | zero => exact absurd h' (Nat.not_succ_le_zero _)
      | succ room' => cases members <;> rfl
  | _ => cases room <;> cases room' <;> rfl

/-! ### The results of calls -/

theorem IdReply.steady_codec : codec.Steady :=
  (steady_record (.cons CollectorId.steady_codec .nil)).via _ _

theorem ListReply.steady_codec : codec.Steady :=
  (steady_record (.cons steady_uint64 (.cons CollectorId.steady_codec.list .nil))).via _ _

theorem SumReply.steady_codec : codec.Steady := (steady_record (.cons steady_int32 .nil)).via _ _

theorem InvokeReply.steady_codec : codec.Steady := (steady_record (.cons steady_free .nil)).via _ _

/-- What the wording of an error gets in front of it when it comes over the wire. -/
def Status.preamble (s : Status) : String :=
  "Remote call failed with status " ++ s.name ++ ": "

theorem Error.message_remote (s : Status) (message : String) :
    (Error.remote s message).message = s.preamble ++ message := rfl

/-- Only an error from the other side may be answered as a success. -/
theorem Error.eq_remote_of_status {e : Error} (h : e.status = .success) :
    ∃ message, e = .remote .success message := by
  cases e with
  | remote s message => exact ⟨message, congrArg (Error.remote · message) h⟩
  | _ => exact absurd h (by simp [Error.status])

namespace Envelope

variable {α : Type}

/-! ### One hop -/

/-- An outcome on the other side: it is closed in an envelope, written, read and opened. -/
def carry (payload : Codec α) (r : Except Error α) : Except Fault (Except Error (Option α)) :=
  ((codec payload).read ((codec payload).write (ofResult r))).map toResult

/-- A result is written like the free value that it is written as. -/
theorem write_ok (payload : Codec α) (v : α) :
    (codec payload).write (ok v) = ((codec .free).encode (ok (payload.encode v))).render := rfl

theorem write_ofError (payload : Codec α) (e : Error) :
    (codec payload).write (ofError e) = ((codec .free).encode (ofError e)).render := rfl

theorem carry_of_reads {payload : Codec α} {v : α} {r : Option α}
    (h : payload.optional.Reads 126 (payload.encode v) r) :
    carry payload (.ok v) = .ok (.ok r) := by
  have hread : (codec payload).read ((codec payload).write (ok v)) = .ok ⟨.success, none, r⟩ := by
    rw [write_ok]
    exact (reads_ok h).read
  rw [carry, ofResult, hread]
  rfl

theorem carry_error (payload : Codec α) (e : Error) :
    carry payload (.error e) = .ok (toResult (ofError e)) := by
  have hread : (codec payload).read ((codec payload).write (ofError e)) = .ok (ofError e) := by
    rw [write_ofError]
    exact (reads_error payload e).read
  rw [carry, ofResult, hread]
  rfl

theorem carry_failure (payload : Codec α) {e : Error} (he : e.status ≠ .success) :
    carry payload (.error e) = .ok (.error (.remote e.status e.message)) := by
  have hstatus : e.status.isSuccess = false := decide_eq_false he
  rw [carry_error, toResult, ofError, hstatus]
  rfl

/-- A value that is read alone, and nests so that there is room around it, is read in an
envelope. -/
theorem reads_within {payload : Codec α} (hsteady : payload.Steady) {v : α}
    (hread : payload.read (payload.write v) = .ok v) (hdepth : (payload.encode v).depth ≤ 126) :
    payload.Reads 126 (payload.encode v) v := by
  have hroom : payload.decode maxDepth (payload.encode v).document =
      payload.decode 126 (payload.encode v).document :=
    hsteady _ (Nat.le_succ_of_le hdepth) hdepth
  rw [Codec.read, Codec.write, ofText_render] at hread
  simp only [bind, Except.bind] at hread
  rw [hroom] at hread
  cases hdecode : payload.decode 126 (payload.encode v).document with
  | error fault => rw [hdecode] at hread; cases hread
  | ok a =>
    rw [hdecode] at hread
    obtain rfl : a = v := Except.ok.inj hread
    exact hdecode

/-! ### Many hops -/

/-- What an error has become behind some hops, each with a payload of its own; `none` if a hop
cannot read it or takes it for a success. -/
def relay : List (Σ α : Type, Codec α) → Error → Option Error
  | [], e => some e
  | hop :: hops, e =>
    match carry hop.2 (.error e) with
    | .ok (.error e') => relay hops e'
    | _ => none

/-- A failure is passed on as what the other side makes of it. -/
theorem relay_cons {e : Error} (he : e.status ≠ .success) (hop : Σ α : Type, Codec α)
    (hops : List (Σ α : Type, Codec α)) :
    relay (hop :: hops) e = relay hops (.remote e.status e.message) := by
  rw [relay, carry_failure hop.2 he]

/-- Every hop keeps the status and puts one more preamble in front of the wording. -/
theorem relay_remote {s : Status} (hs : s ≠ .success) (message : String)
    (hops : List (Σ α : Type, Codec α)) :
    relay hops (.remote s message) =
      some (.remote s (String.join (List.replicate hops.length s.preamble) ++ message)) := by
  induction hops generalizing message with
  | nil => rfl
  | cons hop hops ih =>
    have hstatus : (Error.remote s message).status ≠ .success := hs
    rw [relay_cons hstatus, Error.message_remote, Error.status, ih, List.length_cons,
      List.replicate_succ', String.join_append]
    simp [String.append_assoc]

/-- What a payload's answers bring across the wire. -/
structure Faithful (payload : Codec α) : Prop where
  /-- A result that its own reader reads comes across, if the objects around it leave room. -/
  result : ∀ v, payload.read (payload.write v) = .ok v → (payload.encode v).depth ≤ 126 →
    payload.encode v ≠ .null → carry payload (.ok v) = .ok (.ok (some v))
  /-- A result that is written like nothing comes across as nothing. -/
  nothing : ∀ v, payload.encode v = .null → carry payload (.ok v) = .ok (.ok none)
  /-- Whatever the error, the answer is read. -/
  read : ∀ e, ∃ r, carry payload (.error e) = .ok r
  failure : ∀ e, e.status ≠ .success →
    carry payload (.error e) = .ok (.error (.remote e.status e.message))
  /-- Only an error that calls itself a success is taken for one. -/
  mistaken : ∀ e r, carry payload (.error e) = .ok (.ok r) → ∃ m, e = .remote .success m
  /-- Behind further hops, whatever their payloads, the status is what it was, and the wording
  stands behind one preamble for every further hop. -/
  relayed : ∀ e, e.status ≠ .success → ∀ hops,
    relay (⟨α, payload⟩ :: hops) e = some (.remote e.status
      (String.join (List.replicate hops.length e.status.preamble) ++ e.message))

/-- **An answer carries every outcome across the wire, any number of times.** -/
theorem faithful {payload : Codec α} (hsteady : payload.Steady) : Faithful payload where
  result v hread hdepth hnull :=
    carry_of_reads ((reads_within hsteady hread hdepth).some hnull)
  nothing v hnull := carry_of_reads (by rw [hnull]; exact Codec.reads_none payload)
  read e := ⟨_, carry_error payload e⟩
  failure e he := carry_failure payload he
  mistaken e r h := by
    by_contra hne
    have he : e.status ≠ .success := fun heq => hne (Error.eq_remote_of_status heq)
    rw [carry_failure payload he] at h
    exact nomatch h
  relayed e he hops := by
    rw [relay_cons he, relay_remote he]

/-- A greeting with a quote, a bell and an accent as the result of an operation, the result that
carries nothing, and a wrong token that is passed on twice. -/
theorem faithful_reply :
    InvokeReply.codec.Steady ∧
      carry InvokeReply.codec (.ok ⟨.string "\"\x07é"⟩) = .ok (.ok (some ⟨.string "\"\x07é"⟩)) ∧
      carry Codec.unit (.ok ()) = .ok (.ok none) ∧
      relay [⟨_, InvokeReply.codec⟩, ⟨_, Codec.unit⟩, ⟨_, IdReply.codec⟩] .invalidToken =
        some (.remote .invalidToken ("Remote call failed with status invalid_token: " ++
          "Remote call failed with status invalid_token: Invalid token")) := by
  have hreads : InvokeReply.codec.Reads maxDepth (InvokeReply.codec.encode ⟨.string "\"\x07é"⟩)
      ⟨.string "\"\x07é"⟩ := InvokeReply.reads_codec _ rfl
  have hreply := faithful InvokeReply.steady_codec
  exact ⟨InvokeReply.steady_codec, hreply.result _ hreads.read (by decide) Json.noConfusion,
    (faithful Codec.steady_unit).nothing () rfl,
    (hreply.relayed _ (by decide) _).trans rfl⟩

end Envelope
end Collectors
