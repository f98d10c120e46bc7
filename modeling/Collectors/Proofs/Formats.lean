import Collectors.Config
import Collectors.Proofs.Records
import Collectors.Proofs.Values

/-!
# Formats: values that come back from their texts

`Format` lists the bodies of requests, the results of answers and the configurations, each with its
codec and with the free values that one of its values carries.

A value is read from its own text as itself (`Format.reads`): its free values must hold integers
that fit 64 bits, have sorted members, and leave room for the object around them. What is read from
any text has such free values already, if their numbers are integers
(`Format.portable_of_decode`), for every field of a record is drawn from a document or has a value
of its own (`Fields.Drawn`). So reading and writing settle after one round (`Format.roundTrip`).
-/

namespace Collectors
namespace Json

/-! ### Integral values -/

/-- A free value whose numbers are integers that fit 64 bits, with or without a sign, and whose
objects have their members sorted by name, without a name twice. -/
inductive Integral : Json → Prop where
  | null : Integral .null
  | bool (b : Bool) : Integral (.bool b)
  | int {i : Int} (low : -0x8000000000000000 ≤ i) (high : i ≤ 0xFFFFFFFFFFFFFFFF) :
      Integral (.int i)
  | string (s : String) : Integral (.string s)
  | array {items : List Json} (all : ∀ v ∈ items, Integral v) : Integral (.array items)
  | object {members : List (String × Json)} (sorted : (members.map Prod.fst).Pairwise (· < ·))
      (all : ∀ m ∈ members, Integral m.2) : Integral (.object members)

theorem Integral.portable {v : Json} (h : v.Integral) : v.Portable := by
  induction h with
  | null | bool | string => trivial
  | int low high => exact Number.exact_int low high
  | array all ih => exact portableItems_iff.2 ih
  | object sorted all ih => exact ⟨sorted, portableMembers_iff.2 ih⟩

/-! ### How deep the values nest that are read -/

theorem depthMembers_le_iff {members : List (String × Json)} {n : Nat} :
    depthMembers members ≤ n ↔ ∀ m ∈ members, m.2.depth ≤ n := by
  induction members with
  | nil => simp [depthMembers]
  | cons member members ih => simp [depthMembers, ih]

mutual

/-- A value that is read nests no deeper than there was room. -/
theorem depth_le_of_toJson : (d : Document) → {room : Nat} → {v : Json} →
    d.toJson room = .ok v → v.depth ≤ room
  | .null, _, _, h => by cases h; exact Nat.zero_le _
  | .bool _, _, _, h => by cases h; exact Nat.zero_le _
  | .number n, _, _, h => by
    rw [Document.toJson] at h
    split at h
    · cases h; exact Nat.zero_le _
    · cases h
  | .string (some _), _, _, h => by cases h; exact Nat.zero_le _
  | .string none, _, _, h => by cases h
  | .array _ _, 0, _, h => by cases h
  | .array items closed, room + 1, _, h => by
    simp only [Document.toJson, bind, Except.bind] at h
    split at h
    · cases h
    · rename_i values hvalues
      split at h
      · cases h
        exact Nat.succ_le_succ (depthItems_le_of_toJsonItems items hvalues)
      · cases h
  | .object _ _, 0, _, h => by cases h
  | .object members ending, room + 1, _, h => by
    simp only [Document.toJson, bind, Except.bind] at h
    split at h
    · cases h
    · rename_i values hvalues
      split at h
      · cases h
        have hall := depthMembers_le_iff.1 (depthMembers_le_of_toJsonMembers members hvalues)
        exact Nat.succ_le_succ (depthMembers_le_iff.2 fun m hm =>
          hall m (mem_of_mem_sortMembers m hm))
      · cases h
  | .broken, _, _, h => by cases h

theorem depthItems_le_of_toJsonItems : (items : List Document) → {room : Nat} →
    {values : List Json} → Document.toJsonItems items room = .ok values → depthItems values ≤ room
  | [], _, _, h => by cases h; exact Nat.zero_le _
  | item :: items, room, _, h => by
    simp only [Document.toJsonItems, bind, Except.bind] at h
    split at h
    · cases h
    · rename_i value hvalue
      split at h
      · cases h
      · rename_i rest hrest
        cases h
        exact Nat.max_le.2
          ⟨depth_le_of_toJson item hvalue, depthItems_le_of_toJsonItems items hrest⟩

theorem depthMembers_le_of_toJsonMembers : (members : List (Option String × Document)) →
    {room : Nat} → {values : List (String × Json)} →
    Document.toJsonMembers members room = .ok values → depthMembers values ≤ room
  | [], _, _, h => by cases h; exact Nat.zero_le _
  | (none, _) :: _, _, _, h => by cases h
  | (some _, value) :: members, room, _, h => by
    simp only [Document.toJsonMembers, bind, Except.bind] at h
    split at h
    · cases h
    · rename_i v hvalue
      split at h
      · cases h
      · rename_i rest hrest
        cases h
        exact Nat.max_le.2
          ⟨depth_le_of_toJson value hvalue, depthMembers_le_of_toJsonMembers members hrest⟩

end

/-! ### Where the fields of a record come from -/

/-- What a codec makes of a document, with as much room as `Codec.Reads`. -/
def Codec.Draws {α : Type} (c : Codec α) (room : Nat) (a : α) : Prop :=
  ∃ d, c.decode room d = .ok a

namespace Fields

/-- Whether each of the values is drawn by the codec of its field, or is the field's own. -/
def Drawn (room : Nat) : {α σ : Type} → Fields α σ → α → Prop
  | _, _, .nil, () => True
  | _, _, .cons field rest, (a, b) =>
    (field.codec.Draws room a ∨ field.unnamed = some a ∨ field.beyond = some a) ∧
      rest.Drawn room b

/-- The same of the values that are there, while some are still missing. -/
def DrawnSoFar (room : Nat) : {α σ : Type} → Fields α σ → σ → Prop
  | _, _, .nil, () => True
  | _, _, .cons field rest, (a, s) => (∀ x ∈ a, field.codec.Draws room x) ∧ rest.DrawnSoFar room s

theorem drawnSoFar_empty (room : Nat) : {α σ : Type} → (fields : Fields α σ) →
    fields.DrawnSoFar room fields.empty
  | _, _, .nil => trivial
  | _, _, .cons _ rest => ⟨nofun, drawnSoFar_empty room rest⟩

theorem drawnSoFar_store {room : Nat} {name : String} {value : Document} : {α σ : Type} →
    (fields : Fields α σ) → {s s' : σ} → fields.DrawnSoFar room s →
    fields.store room name value s = some (.ok s') → fields.DrawnSoFar room s'
  | _, _, .nil, (), _, _, hs => by cases hs
  | _, _, .cons field rest, (a, s), _, h, hs => by
    simp only [store] at hs
    split at hs
    · cases a with
      | some a => cases hs
      | none =>
        cases hdecode : field.codec.decode room value with
        | error fault => rw [hdecode] at hs; cases hs
        | ok a =>
          rw [hdecode] at hs
          cases hs
          exact ⟨fun x hx => by cases hx; exact ⟨value, hdecode⟩, h.2⟩
    · obtain ⟨r, hr, hrs⟩ := Option.map_eq_some_iff.1 hs
      cases r with
      | error fault => cases hrs
      | ok t => cases hrs; exact ⟨h.1, drawnSoFar_store rest h.2 hr⟩

theorem drawnSoFar_storeAll {room : Nat} {α σ : Type} (fields : Fields α σ)
    {members : List (Option String × Document)} {s s' : σ} (h : fields.DrawnSoFar room s)
    (hs : fields.storeAll room members s = .ok s') : fields.DrawnSoFar room s' := by
  induction members generalizing s with
  | nil => cases hs; exact h
  | cons member members ih =>
    obtain ⟨_ | name, value⟩ := member
    · cases hs
    · rw [storeAll] at hs
      split at hs
      · rename_i r hr
        cases r with
        | error fault => cases hs
        | ok t => exact ih (drawnSoFar_store fields h hr) hs
      · split at hs
        · exact ih h hs
        · cases hs

theorem drawn_of_complete {room : Nat} : {α σ : Type} → (fields : Fields α σ) → {s : σ} →
    {a : α} → fields.DrawnSoFar room s → fields.complete s = .ok a → fields.Drawn room a
  | _, _, .nil, (), _, _, _ => trivial
  | _, _, .cons field rest, (x, s), _, h, ha => by
    rw [complete] at ha
    split at ha
    · rename_i y hy
      cases hrest : rest.complete s with
      | error fault => rw [hrest] at ha; cases ha
      | ok b =>
        rw [hrest] at ha
        cases ha
        refine ⟨?_, drawn_of_complete rest h.2 hrest⟩
        cases x with
        | some x => cases hy; exact .inl (h.1 _ rfl)
        | none => exact .inr (.inl hy)
    · cases ha

theorem drawn_of_ofItems {room : Nat} {closed : Bool} : {α σ : Type} → (fields : Fields α σ) →
    (items : List Document) → {a : α} → fields.ofItems room closed items = .ok a →
    fields.Drawn room a
  | _, _, .nil, _, _, _ => trivial
  | _, _, .cons field rest, item :: items, _, h => by
    simp only [ofItems, bind, Except.bind] at h
    split at h
    · cases h
    · rename_i a ha
      split at h
      · cases h
      · rename_i b hb
        cases h
        exact ⟨.inl ⟨item, ha⟩, drawn_of_ofItems rest items hb⟩
  | _, _, .cons field rest, [], _, h => by
    rw [ofItems] at h
    split at h
    · split at h
      · rename_i a ha
        cases hrest : ofItems room closed rest [] with
        | error fault => rw [hrest] at h; cases h
        | ok b =>
          rw [hrest] at h
          cases h
          exact ⟨.inr (.inr ha), drawn_of_ofItems rest [] hrest⟩
      · cases h
    · cases h

end Fields

namespace Codec

/-- **The fields of a record are drawn from somewhere**, be it from an object or from an array. -/
theorem Draws.drawn {room : Nat} {α σ : Type} {fields : Fields α σ} {a : α}
    (h : (Codec.record fields).Draws (room + 1) a) : fields.Drawn room a := by
  obtain ⟨d, hd⟩ := h
  cases d with
  | array items closed => exact Fields.drawn_of_ofItems fields items hd
  | object members ending =>
    simp only [record, bind, Except.bind] at hd
    split at hd
    · cases hd
    · rename_i s hs
      split at hd
      · exact Fields.drawn_of_complete fields
          (Fields.drawnSoFar_storeAll fields (Fields.drawnSoFar_empty room fields) hs) hd
      · cases hd
  | _ => cases hd

theorem Draws.of_via {α β : Type} {c : Codec α} {make : α → Option β} {raw : β → α} {room : Nat}
    {b : β} (h : (c.via make raw).Draws room b) : ∃ a, c.Draws room a ∧ make a = some b := by
  obtain ⟨d, hd⟩ := h
  obtain ⟨a, ha, hmake⟩ := via_eq_ok_iff.1 hd
  exact ⟨a, ⟨d, ha⟩, hmake⟩

/-- A free value that is drawn comes back from its text, if its numbers are integers. -/
theorem Draws.portable {room : Nat} {v : Json} (h : free.Draws room v) (hv : v.Whole) :
    v.Portable ∧ v.depth ≤ room := by
  obtain ⟨d, hd⟩ := h
  exact ⟨portable_of_toJson d hd hv, depth_le_of_toJson d hd⟩

theorem draws_of_read {α : Type} {c : Codec α} {text : String} {a : α} (h : c.read text = .ok a) :
    c.Draws maxDepth a := by
  obtain ⟨d, -, hd⟩ := read_eq_ok_iff.1 h
  exact ⟨d, hd⟩

end Codec
end Json

open Json
open Json.Codec (reads_uint16 reads_uint64 reads_list reads_record)

variable {room : Nat}

/-! ### Configurations -/

theorem ProviderConfig.reads_codec (c : ProviderConfig) :
    codec.Reads (room + 1) (codec.encode c) c :=
  (reads_record (by decide) (.named (reads_uint16 c.providerId)
    (.named (reads_optional_text c.token) (.named (reads_uint64 c.poolSize) .nil)))).via _ _ rfl

theorem ServerConfig.reads_codec (c : ServerConfig) :
    codec.Reads (room + 3) (codec.encode c) c :=
  (reads_record (by decide)
    (.named (reads_list ProviderConfig.reads_codec c.providers) .nil)).via _ _ rfl

/-! ### Free values in messages -/

/-- The arguments of an operation are drawn from a document, or are missing and then null. -/
theorem InvokeRequest.draws_args {r : InvokeRequest} (h : codec.Draws (room + 1) r) :
    Codec.free.Draws room r.args ∨ r.args = .null := by
  obtain ⟨⟨id, operation, args, _⟩, hrecord, hr⟩ := Codec.Draws.of_via h
  cases hr
  obtain ⟨-, -, hargs, -⟩ := hrecord.drawn
  rcases hargs with hargs | hargs | hargs
  · exact .inl hargs
  · exact .inr (Option.some.inj hargs).symm
  · exact .inr (Option.some.inj hargs).symm

theorem InvokeReply.draws_result {r : InvokeReply} (h : codec.Draws (room + 1) r) :
    Codec.free.Draws room r.result := by
  obtain ⟨⟨result, _⟩, hrecord, hr⟩ := Codec.Draws.of_via h
  cases hr
  obtain ⟨hresult, -⟩ := hrecord.drawn
  -- A result has no value of its own, so that it is never missing.
  rcases hresult with hresult | hresult | hresult
  · exact hresult
  · cases hresult
  · cases hresult

/-! ### Formats -/

/-- The requests, the replies and the configurations that travel as JSON. -/
inductive Format where
  | instantiateRequest
  | removeRequest
  | listRequest
  | helloRequest
  | sumRequest
  | invokeRequest
  | idReply
  | listReply
  | sumReply
  | invokeReply
  | providerConfig
  | serverConfig
  deriving DecidableEq

namespace Format

/-- The values of a format. -/
def Value : Format → Type
  | instantiateRequest => InstantiateRequest
  | removeRequest => RemoveRequest
  | listRequest => ListRequest
  | helloRequest => HelloRequest
  | sumRequest => SumRequest
  | invokeRequest => InvokeRequest
  | idReply => IdReply
  | listReply => ListReply
  | sumReply => SumReply
  | invokeReply => InvokeReply
  | providerConfig => ProviderConfig
  | serverConfig => ServerConfig

/-- The codec of a format. -/
def codec : (f : Format) → Codec f.Value
  | instantiateRequest => InstantiateRequest.codec
  | removeRequest => RemoveRequest.codec
  | listRequest => ListRequest.codec
  | helloRequest => HelloRequest.codec
  | sumRequest => SumRequest.codec
  | invokeRequest => InvokeRequest.codec
  | idReply => IdReply.codec
  | listReply => ListReply.codec
  | sumReply => SumReply.codec
  | invokeReply => InvokeReply.codec
  | providerConfig => ProviderConfig.codec
  | serverConfig => ServerConfig.codec

/-- The free values in a value of a format: the arguments and the results of operations. -/
def free : (f : Format) → f.Value → List Json
  | invokeRequest, r => [InvokeRequest.args r]
  | invokeReply, r => [InvokeReply.result r]
  | _, _ => []

/-- **A value is read from its own text as itself.** -/
theorem reads (f : Format) (a : f.Value)
    (h : ∀ v ∈ f.free a, v.Portable ∧ v.depth < maxDepth) :
    f.codec.Reads maxDepth (f.codec.encode a) a := by
  cases f with
  | instantiateRequest => exact InstantiateRequest.reads_codec a
  | removeRequest => exact RemoveRequest.reads_codec a
  | listRequest => exact ListRequest.reads_codec a
  | helloRequest => exact HelloRequest.reads_codec a
  | sumRequest => exact SumRequest.reads_codec a
  | invokeRequest =>
    obtain ⟨hportable, hdepth⟩ := h _ (List.mem_singleton_self _)
    exact InvokeRequest.reads_codec a (Codec.reads_free hportable (Nat.le_of_lt_succ hdepth))
  | idReply => exact IdReply.reads_codec a
  | listReply => exact ListReply.reads_codec a
  | sumReply => exact SumReply.reads_codec a
  | invokeReply =>
    obtain ⟨hportable, hdepth⟩ := h _ (List.mem_singleton_self _)
    exact InvokeReply.reads_codec a (Codec.reads_free hportable (Nat.le_of_lt_succ hdepth))
  | providerConfig => exact ProviderConfig.reads_codec a
  | serverConfig => exact ServerConfig.reads_codec a

/-- Values that were read come back from their own texts, if the numbers of their free values are
integers. -/
theorem portable_of_draws (f : Format) {a : f.Value} (h : f.codec.Draws maxDepth a)
    (hwhole : ∀ v ∈ f.free a, v.Whole) : ∀ v ∈ f.free a, v.Portable ∧ v.depth < maxDepth := by
  intro v hv
  have hv' := hwhole v hv
  cases f with
  | invokeRequest =>
    cases List.mem_singleton.1 hv
    rcases InvokeRequest.draws_args h with hargs | hargs
    · exact (hargs.portable hv').imp_right Nat.lt_succ_of_le
    · rw [hargs]
      exact ⟨trivial, Nat.succ_pos _⟩
  | invokeReply =>
    cases List.mem_singleton.1 hv
    exact ((InvokeReply.draws_result h).portable hv').imp_right Nat.lt_succ_of_le
  | _ => cases hv

/-- **Wire formats round-trip.** A value is read from its own text as itself. Whatever text a value
was read from, it comes back from the text that is written of it, and is written in the same way
again. -/
theorem roundTrip (f : Format) :
    (∀ a : f.Value, (∀ v ∈ f.free a, v.Integral ∧ v.depth < maxDepth) →
      f.codec.read (f.codec.write a) = .ok a) ∧
    ∀ (text : String) (a : f.Value), f.codec.read text = .ok a → (∀ v ∈ f.free a, v.Whole) →
      f.codec.read (f.codec.write a) = .ok a ∧
      (f.codec.read (f.codec.write a)).map f.codec.write = .ok (f.codec.write a) := by
  refine ⟨fun a h => ?_, fun text a htext hwhole => ?_⟩
  · exact (f.reads a fun v hv => (h v hv).imp_left Integral.portable).read
  · have hportable := f.portable_of_draws (Codec.draws_of_read htext) hwhole
    have hread := (f.reads a hportable).read
    exact ⟨hread, congrArg (Except.map f.codec.write) hread⟩

/-- A request with its id in capitals, members that nobody asked for and no arguments. -/
def shouted : String :=
  "\x7b\"note\": [1e400], \"id\": \"0123ABCD-0000-0000-0000-00000000000F\", \"operation\": \"add\"\x7d"

/-- The request comes back as it was read; so does a reply that nests an integer. -/
theorem roundTrip_shouted :
    (∃ r : InvokeRequest, InvokeRequest.codec.read shouted = .ok r ∧
      InvokeRequest.codec.read (InvokeRequest.codec.write r) = .ok r) ∧
    InvokeReply.codec.read (InvokeReply.codec.write { result := .array [.int (-7)] }) =
      .ok { result := .array [.int (-7)] } := by
  constructor
  · have hread : (InvokeRequest.codec.read shouted).toOption.any
        (fun r => r.args matches .null) = true := by decide +kernel
    cases hshouted : InvokeRequest.codec.read shouted with
    | error fault => rw [hshouted] at hread; cases hread
    | ok r =>
      have hwhole : ∀ v ∈ Format.invokeRequest.free r, v.Whole := by
        intro v hv
        cases List.mem_singleton.1 hv
        rw [hshouted] at hread
        change (r.args matches .null) = true at hread
        split at hread
        · rename_i hnull
          rw [hnull]
          trivial
        · cases hread
      exact ⟨r, rfl, (Format.invokeRequest.roundTrip.2 shouted r hshouted hwhole).1⟩
  · refine Format.invokeReply.roundTrip.1 _ fun v hv => ?_
    cases List.mem_singleton.1 hv
    refine ⟨.array fun v hv => ?_, by decide⟩
    cases List.mem_singleton.1 hv
    exact .int (by decide) (by decide)

end Format
end Collectors
