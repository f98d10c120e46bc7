import Collectors.Envelope
import Collectors.Proofs.Documents

/-!
# Messages read back

`Codec.Reads c room v a` says that a codec reads the written value `v` as `a`, where `room` more
arrays and objects may be opened. Every way to make a codec has a lemma that says what it reads;
for records it is `Fields.Reads`, which goes through the fields and the members side by side.

From these follows for every message what its reader gets: the request that was sent, and the
result or the error that was answered (`Envelope.reads_ok`, `Envelope.reads_error`).
-/

namespace Collectors
namespace Json

/-- Whether a codec reads a written value as `a`. -/
def Codec.Reads {α : Type} (c : Codec α) (room : Nat) (v : Json) (a : α) : Prop :=
  c.decode room v.document = .ok a

namespace Codec

variable {α β : Type} {room : Nat}

/-- A value that is read is also read from its text, with the room that there is at first. -/
theorem Reads.read {c : Codec α} {v : Json} {a : α} (h : c.Reads maxDepth v a) :
    c.read v.render = .ok a := by
  have hdecode : c.decode maxDepth v.document = .ok a := h
  simp only [Codec.read, ofText_render, hdecode, bind, Except.bind, if_true, pure, Except.pure]

theorem Reads.readFront {c : Codec α} {v : Json} {a : α} (h : c.Reads maxDepth v a) :
    c.readFront v.render = .ok a := by
  rw [Codec.readFront, ofText_render]
  exact h

/-! ### Single values -/

theorem reads_text (s : String) : text.Reads room (.string s) s := rfl

theorem reads_free {v : Json} (hv : v.Portable) (hdepth : v.depth ≤ room) :
    free.Reads room v v :=
  v.toJson_document hv hdepth

theorem reads_integer {low high i : Int} (hlow : low ≤ i) (hhigh : i ≤ high)
    (hmin : -0x8000000000000000 ≤ i) (hmax : i ≤ Numeral.maxWord) :
    (integer low high).Reads room (.int i) i := by
  have hvalue : (Number.int i).numeral.value = some (.int i) := Number.exact_int hmin hmax
  simp only [Reads, integer, Json.int, document, hvalue]
  rw [if_pos ⟨hlow, hhigh⟩]

theorem Reads.via {c : Codec α} {v : Json} {a : α} {b : β} (h : c.Reads room v a)
    (make : α → Option β) (raw : β → α) (hmake : make a = some b) :
    (c.via make raw).Reads room v b := by
  have hdecode : c.decode room v.document = .ok a := h
  simp only [Reads, Codec.via, hdecode, hmake, bind, Except.bind, pure, Except.pure]

theorem reads_int32 (x : Int32) : int32.Reads room (int32.encode x) x := by
  have hlow : -0x80000000 ≤ x.toInt := x.le_toInt
  have hhigh : x.toInt < 0x80000000 := x.toInt_lt
  have hmax : (Numeral.maxWord : Int) = 0xFFFFFFFFFFFFFFFF := rfl
  have hread : (integer (-0x80000000) 0x7FFFFFFF).Reads room (.int x.toInt) x.toInt :=
    reads_integer hlow (by omega) (by omega) (by omega)
  exact hread.via _ _ (congrArg some (Int32.ofInt_toInt x))

theorem reads_uint16 (n : UInt16) : uint16.Reads room (uint16.encode n) n := by
  have hlt : n.toNat < 0x10000 := n.toNat_lt
  have hmax : (Numeral.maxWord : Int) = 0xFFFFFFFFFFFFFFFF := rfl
  have hread : (integer 0 0xFFFF).Reads room (.int n.toNat) n.toNat :=
    reads_integer (by omega) (by omega) (by omega) (by omega)
  exact hread.via _ _ (congrArg some UInt16.ofNat_toNat)

theorem reads_uint64 (n : UInt64) : uint64.Reads room (uint64.encode n) n := by
  have hlt : n.toNat < 0x10000000000000000 := n.toNat_lt
  have hmax : (Numeral.maxWord : Int) = 0xFFFFFFFFFFFFFFFF := rfl
  have hread : (integer 0 0xFFFFFFFFFFFFFFFF).Reads room (.int n.toNat) n.toNat :=
    reads_integer (by omega) (by omega) (by omega) (by omega)
  exact hread.via _ _ (congrArg some UInt64.ofNat_toNat)

/-! ### Values that may be absent, and lists -/

theorem reads_none (c : Codec α) : c.optional.Reads room .null none := rfl

theorem document_ne_null {v : Json} (hv : v ≠ .null) : v.document ≠ .null := by
  cases v with
  | null => exact absurd rfl hv
  | _ => simp [document]

theorem Reads.some {c : Codec α} {v : Json} {a : α} (h : c.Reads room v a) (hv : v ≠ .null) :
    c.optional.Reads room v (some a) := by
  have hdecode : c.decode room v.document = .ok a := h
  have hne := document_ne_null hv
  show c.optional.decode room v.document = _
  simp only [optional, hdecode]
  rfl

/-- A codec that writes `null` for nothing reads what it writes. -/
theorem reads_optional {c : Codec α} (h : ∀ a, c.Reads room (c.encode a) a)
    (hnull : ∀ a, c.encode a ≠ .null) (a : Option α) :
    c.optional.Reads room (c.optional.encode a) a := by
  cases a with
  | none => exact reads_none c
  | some a => exact (h a).some (hnull a)

theorem reads_list {c : Codec α} (h : ∀ a, c.Reads room (c.encode a) a) (as : List α) :
    c.list.Reads (room + 1) (c.list.encode as) as := by
  have hitems : c.decodeItems room (documentItems (as.map c.encode)) = .ok as := by
    induction as with
    | nil => rfl
    | cons a as ih =>
      have ha : c.decode room (c.encode a).document = .ok a := h a
      simp only [List.map_cons, documentItems, decodeItems, ha, ih, bind, Except.bind, pure,
        Except.pure]
  show c.list.decode (room + 1) (.array (documentItems (as.map c.encode)) true) = _
  simp only [list, hitems, bind, Except.bind, if_true, pure, Except.pure]

end Codec

/-! ### Records -/

namespace Fields

/-- What fields read from some members: each field reads the member in front, if that has its
name, and has a value of its own if it is not named. -/
inductive Reads (room : Nat) : {α σ : Type} → Fields α σ → List (String × Json) → α → Prop where
  | nil : Reads room .nil [] ()
  | named {α β σ : Type} {field : Field α} {rest : Fields β σ} {v : Json} {a : α} {b : β}
      {members : List (String × Json)} (value : field.codec.Reads room v a)
      (others : Reads room rest members b) :
      Reads room (.cons field rest) ((field.name, v) :: members) (a, b)
  | unnamed {α β σ : Type} {field : Field α} {rest : Fields β σ} {a : α} {b : β}
      {members : List (String × Json)} (value : field.unnamed = some a)
      (others : Reads room rest members b) : Reads room (.cons field rest) members (a, b)

/-- The names of some fields. -/
def names : {α σ : Type} → Fields α σ → List String
  | _, _, .nil => []
  | _, _, .cons field rest => field.name :: rest.names

theorem store_unknown {room : Nat} {α σ : Type} {name : String} (value : Document)
    {fields : Fields α σ} (hname : name ∉ fields.names) (s : σ) :
    fields.store room name value s = none := by
  induction fields with
  | nil => rfl
  | cons field rest ih =>
    rw [names, List.mem_cons, not_or] at hname
    show (if name = field.name then _ else (rest.store room name value s.2).map _) = none
    rw [if_neg hname.1, ih hname.2]
    rfl

theorem Reads.subset_names {room : Nat} {α σ : Type} {fields : Fields α σ}
    {members : List (String × Json)} {a : α} (h : fields.Reads room members a) :
    ∀ name ∈ members.map Prod.fst, name ∈ fields.names := by
  induction h with
  | nil => exact fun name hname => hname
  | named value others ih =>
    intro name hname
    rcases List.mem_cons.1 hname with rfl | hname
    · exact List.mem_cons_self
    · exact List.mem_cons_of_mem _ (ih name hname)
  | unnamed value others ih => exact fun name hname => List.mem_cons_of_mem _ (ih name hname)

/-- A field that no member names does not see the members. -/
theorem storeAll_cons {room : Nat} {α β σ : Type} {field : Field α} (rest : Fields β σ)
    {members : List (String × Json)} (h : field.name ∉ members.map Prod.fst) (x : Option α)
    (s : σ) :
    (cons field rest).storeAll room (documentMembers members) (x, s) =
      (rest.storeAll room (documentMembers members) s).map fun s => (x, s) := by
  -- The other fields change with every member, so the induction is for all their states.
  induction members generalizing s with
  | nil => rfl
  | cons member members ih =>
    rw [List.map_cons, List.mem_cons, not_or] at h
    have hstore : (cons field rest).store room member.1 member.2.document (x, s) =
        (rest.store room member.1 member.2.document s).map fun r => r.map fun s => (x, s) :=
      if_neg fun heq => h.1 heq.symm
    rw [documentMembers, storeAll, storeAll, hstore]
    cases rest.store room member.1 member.2.document s with
    | none =>
      simp only [Option.map_none]
      split
      · exact ih h.2 s
      · rfl
    | some r =>
      cases r with
      | error fault => rfl
      | ok s => exact ih h.2 s

/-- What fields read is stored, and then complete. -/
theorem Reads.storeAll {room : Nat} {α σ : Type} {fields : Fields α σ}
    {members : List (String × Json)} {a : α} (h : fields.Reads room members a)
    (hnodup : fields.names.Nodup) :
    ∃ s, fields.storeAll room (documentMembers members) fields.empty = .ok s ∧
      fields.complete s = .ok a := by
  induction h with
  | nil => exact ⟨(), rfl, rfl⟩
  | @named α β σ field rest v a b members value others ih =>
    rw [names, List.nodup_cons] at hnodup
    obtain ⟨s, hs, hcomplete⟩ := ih hnodup.2
    -- The other members have names of other fields, so that none repeats this one.
    have hnotMem : field.name ∉ members.map Prod.fst :=
      fun hmem => hnodup.1 (others.subset_names _ hmem)
    have hdecode : field.codec.decode room v.document = .ok a := value
    have hstore : (cons field rest).store room field.name v.document (none, rest.empty) =
        some (.ok (some a, rest.empty)) := by
      simp only [store, if_true, hdecode]
      rfl
    refine ⟨(some a, s), ?_, ?_⟩
    · show (cons field rest).storeAll room ((some field.name, v.document) ::
        documentMembers members) (none, rest.empty) = _
      rw [Fields.storeAll, hstore]
      show (cons field rest).storeAll room (documentMembers members) (some a, rest.empty) = _
      rw [storeAll_cons rest hnotMem, hs]
      rfl
    · simp only [complete, Option.some_or, hcomplete]
      rfl
  | @unnamed α β σ field rest a b members value others ih =>
    rw [names, List.nodup_cons] at hnodup
    obtain ⟨s, hs, hcomplete⟩ := ih hnodup.2
    have hnotMem : field.name ∉ members.map Prod.fst :=
      fun hmem => hnodup.1 (others.subset_names _ hmem)
    refine ⟨(none, s), ?_, ?_⟩
    · rw [empty, storeAll_cons rest hnotMem, hs]
      rfl
    · simp only [complete, Option.none_or, value, hcomplete]
      rfl

end Fields

/-- **A record reads what its fields read.** -/
theorem Codec.reads_record {room : Nat} {α σ : Type} {fields : Fields α σ}
    {members : List (String × Json)} {a : α} (hnodup : fields.names.Nodup)
    (h : fields.Reads room members a) :
    (Codec.record fields).Reads (room + 1) (.object members) a := by
  obtain ⟨s, hs, hcomplete⟩ := h.storeAll hnodup
  show (Codec.record fields).decode (room + 1) (.object (documentMembers members) .closed) = _
  simp only [Codec.record, hs, bind, Except.bind, if_true, hcomplete]

end Json

open Json
open Json.Codec (reads_text reads_free reads_int32 reads_uint64 reads_optional reads_list
  reads_record)

variable {room : Nat}

/-! ### Ids and statuses -/

theorem CollectorId.reads_codec (id : CollectorId) : codec.Reads room (codec.encode id) id :=
  (reads_text id.text).via _ _ (by rw [parse_text]; rfl)

theorem Status.reads_codec (s : Status) : codec.Reads room (codec.encode s) s := by
  cases s <;> rfl

theorem reads_optional_text (s : Option String) :
    Codec.text.optional.Reads room (Codec.text.optional.encode s) s :=
  reads_optional reads_text (fun _ => Json.noConfusion) s

/-! ### Requests -/

theorem InstantiateRequest.reads_codec (r : InstantiateRequest) :
    codec.Reads (room + 1) (codec.encode r) r :=
  (reads_record (by decide) (.named (reads_text r.backend) (.named (reads_optional_text r.config)
    (.named (reads_optional_text r.token) .nil)))).via _ _ rfl

theorem RemoveRequest.reads_codec (r : RemoveRequest) :
    codec.Reads (room + 1) (codec.encode r) r :=
  (reads_record (by decide) (.named r.id.reads_codec
    (.named (reads_optional_text r.token) .nil))).via _ _ rfl

theorem ListRequest.reads_codec (r : ListRequest) : codec.Reads (room + 1) (codec.encode r) r :=
  (reads_record (by decide) (.named (reads_optional_text r.token)
    (.named (reads_uint64 r.maxIds) .nil))).via _ _ rfl

theorem HelloRequest.reads_codec (r : HelloRequest) :
    codec.Reads (room + 1) (codec.encode r) r :=
  (reads_record (by decide) (.named r.id.reads_codec .nil)).via _ _ rfl

theorem SumRequest.reads_codec (r : SumRequest) : codec.Reads (room + 1) (codec.encode r) r :=
  (reads_record (by decide) (.named r.id.reads_codec (.named (reads_int32 r.x)
    (.named (reads_int32 r.y) .nil)))).via _ _ rfl

/-- The arguments of an operation are read as whatever they come back as. -/
theorem InvokeRequest.reads_codec (r : InvokeRequest) {args : Json}
    (h : Codec.free.Reads room r.args args) :
    codec.Reads (room + 1) (codec.encode r) { r with args } :=
  (reads_record (by decide) (.named r.id.reads_codec (.named (reads_text r.operation)
    (.named h .nil)))).via _ _ rfl

/-! ### Replies -/

theorem IdReply.reads_codec (r : IdReply) : codec.Reads (room + 1) (codec.encode r) r :=
  (reads_record (by decide) (.named r.id.reads_codec .nil)).via _ _ rfl

theorem ListReply.reads_codec (r : ListReply) : codec.Reads (room + 2) (codec.encode r) r :=
  (reads_record (by decide) (.named (reads_uint64 r.count)
    (.named (reads_list CollectorId.reads_codec r.ids) .nil))).via _ _ rfl

theorem SumReply.reads_codec (r : SumReply) : codec.Reads (room + 1) (codec.encode r) r :=
  (reads_record (by decide) (.named (reads_int32 r.result) .nil)).via _ _ rfl

/-- The result of an operation is read as whatever it comes back as. -/
theorem InvokeReply.reads_codec (r : InvokeReply) {v : Json}
    (h : Codec.free.Reads room r.result v) :
    codec.Reads (room + 1) (codec.encode r) { result := v } :=
  (reads_record (by decide) (.named h .nil)).via _ _ rfl

namespace Envelope

variable {α : Type}

theorem nodup_names : ["status", "message", "result"].Nodup := by decide

/-- An error is read by every reader of answers. -/
theorem reads_error (payload : Codec α) (e : Error) :
    (codec payload).Reads (room + 1) ((codec .free).encode (ofError e)) (ofError e) :=
  (reads_record (by exact nodup_names) (.named e.status.reads_codec
    (.named ((reads_text e.message).some Json.noConfusion) (.unnamed rfl .nil)))).via _ _ rfl

/-- The result of a call that succeeded is read as the reader reads a value that may be absent. -/
theorem reads_ok {payload : Codec α} {v : Json} {r : Option α}
    (h : payload.optional.Reads room v r) :
    (codec payload).Reads (room + 1) ((codec .free).encode (ok v))
      { status := .success, message := none, result := r } :=
  (reads_record (by exact nodup_names) (.named Status.success.reads_codec
    (.unnamed rfl (.named h .nil)))).via _ _ rfl

/-- A value of an operation that is not read as a free value is not read in its envelope
either. -/
theorem decode_error {v : Json} {fault : Fault} (h : v.document.toJson 125 = .error fault) :
    (codec InvokeReply.codec).decode maxDepth
        ((codec .free).encode (ok (InvokeReply.codec.encode { result := v }))).document =
      .error fault := by
  have hstatus : Status.codec.decode 126 (.string (some "success")) = .ok .success := rfl
  have hvalue : Codec.free.decode 125 v.document = .error fault := h
  show (codec InvokeReply.codec).decode 127 (.object
    [(some "status", .string (some "success")),
      (some "result", .object [(some "result", v.document)] .closed)] .closed) = _
  simp [codec, InvokeReply.codec, Codec.via, Codec.record, Codec.optional, Fields.storeAll,
    Fields.store, Fields.empty, Field.required, Field.whenPresent, hstatus, hvalue, bind,
    Except.bind, Except.map]

end Envelope
end Collectors
