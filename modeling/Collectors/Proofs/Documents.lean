import Collectors.Json.Codec
import Collectors.Proofs.Tokens

/-!
# Documents of written values

`Json.document` is a value as a document. `Json.ofText_render` says that it is what is read from
the text of the value, to the end of the text, whatever the value is.

What comes back as a free value is the value itself if it is `Portable`: its numbers are read back
as themselves, and the members of its objects are sorted. It must not nest deeper than there is
room (`Json.toJson_document`, `Json.toJson_document_deep`).
-/

namespace Collectors
namespace Json

mutual

/-- A value as a document. -/
def document : Json → Document
  | .null => .null
  | .bool b => .bool b
  | .number n => .number n.numeral
  | .string s => .string (some s)
  | .array items => .array (documentItems items) true
  | .object members => .object (documentMembers members) .closed

/-- Items as documents. -/
def documentItems : List Json → List Document
  | [] => []
  | item :: items => item.document :: documentItems items

/-- Members as documents. -/
def documentMembers : List (String × Json) → List (Option String × Document)
  | [] => []
  | (name, value) :: members => (some name, value.document) :: documentMembers members

end

/-! ### Reading the tokens of a value -/

namespace Document

/-- The first item of an array is read like any value. -/
theorem read_item {t : Token} (ht : startsValue t = true) (ts : List Token)
    (frames : List Frame) :
    read (t :: ts) .item frames = read (t :: ts) .value (.array [] :: frames) := by
  cases t <;> first | rfl | cases ht

end Document

open Document

theorem tokens_startsValue (v : Json) (rest : List Token) :
    ∃ t ts, v.tokens rest = t :: ts ∧ startsValue t = true := by
  cases v with
  | array items => cases items <;> exact ⟨_, _, rfl, rfl⟩
  | object members => cases members <;> exact ⟨_, _, rfl, rfl⟩
  | _ => exact ⟨_, _, rfl, rfl⟩

mutual

/-- The tokens of a value are read as its document. -/
theorem read_tokens : (v : Json) → (rest : List Token) → (frames : List Frame) →
    read (v.tokens rest) .value frames = read rest (.separator v.document) frames
  | .null, rest, frames => rfl
  | .bool b, rest, frames => rfl
  | .number n, rest, frames => rfl
  | .string s, rest, frames => rfl
  | .array [], rest, frames => rfl
  | .array (item :: items), rest, frames => by
    -- Behind the bracket stands no other bracket, so that an item is read and not the end.
    obtain ⟨t, ts, hts, ht⟩ := item.tokens_startsValue (tokensItems items (.closeArray :: rest))
    show read (item.tokens (tokensItems items (.closeArray :: rest))) .item frames = _
    rw [hts, read_item ht, ← hts, read_tokens item, read_tokensItems items]
    rfl
  | .object [], rest, frames => rfl
  | .object ((name, value) :: members), rest, frames => by
    show read (value.tokens (tokensMembers members (.closeObject :: rest))) .value
      (.object [] (some name) :: frames) = _
    rw [read_tokens value, read_tokensMembers members]
    rfl

theorem read_tokensItems : (items : List Json) → (rest : List Token) → (last : Document) →
    (done : List Document) → (frames : List Frame) →
    read (tokensItems items (.closeArray :: rest)) (.separator last) (.array done :: frames) =
      read rest (.separator (.array ((last :: done).reverse ++ documentItems items) true)) frames
  | [], rest, last, done, frames => by
    rw [tokensItems, documentItems, List.append_nil]
    rfl
  | item :: items, rest, last, done, frames => by
    show read (item.tokens (tokensItems items (.closeArray :: rest))) .value
      (.array (last :: done) :: frames) = _
    rw [read_tokens item, read_tokensItems items, documentItems, List.reverse_cons,
      List.append_assoc]
    rfl

theorem read_tokensMembers : (members : List (String × Json)) → (rest : List Token) →
    (last : Document) → (name : Option String) → (done : List (Option String × Document)) →
    (frames : List Frame) →
    read (tokensMembers members (.closeObject :: rest)) (.separator last)
        (.object done name :: frames) =
      read rest (.separator
        (.object (((name, last) :: done).reverse ++ documentMembers members) .closed)) frames
  | [], rest, last, name, done, frames => by
    rw [tokensMembers, documentMembers, List.append_nil]
    rfl
  | (name', value) :: members, rest, last, name, done, frames => by
    show read (value.tokens (tokensMembers members (.closeObject :: rest))) .value
      (.object ((name, last) :: done) (some name') :: frames) = _
    rw [read_tokens value, read_tokensMembers members, documentMembers, List.reverse_cons,
      List.append_assoc]
    rfl

end

/-- **What is written is read to its end.** The text of a value is read as its document. -/
theorem ofText_render (v : Json) : Document.ofText v.render = (v.document, true) := by
  have htokens : Token.ofChars v.render.toList = v.tokens [] := by
    rw [render, String.toList_ofList, ofChars_emit v Token.delimited_nil, Token.ofChars_nil]
  rw [Document.ofText, htokens, read_tokens]
  rfl

/-! ### Free values -/

mutual

/-- Whether a value comes back as itself from its text: numbers that are read back as themselves,
and members sorted by name, without a name twice. -/
def Portable : Json → Prop
  | .number n => n.Exact
  | .array items => PortableItems items
  | .object members => (members.map Prod.fst).Pairwise (· < ·) ∧ PortableMembers members
  | _ => True

/-- Whether some items come back as themselves. -/
def PortableItems : List Json → Prop
  | [] => True
  | item :: items => item.Portable ∧ PortableItems items

/-- Whether the values of some members come back as themselves. -/
def PortableMembers : List (String × Json) → Prop
  | [] => True
  | (_, value) :: members => value.Portable ∧ PortableMembers members

end

theorem insertMember_last {name : String} (value : Json) {members : List (String × Json)}
    (h : ∀ member ∈ members, member.1 < name) :
    insertMember name value members = members ++ [(name, value)] := by
  induction members with
  | nil => rfl
  | cons member members ih =>
    have hlt := h member List.mem_cons_self
    have hne : name ≠ member.1 := fun heq => String.lt_irrefl name (heq ▸ hlt)
    rw [insertMember, if_neg (String.lt_asymm hlt), if_neg hne,
      ih fun m hm => h m (List.mem_cons_of_mem _ hm), List.cons_append]

/-- Sorted members stay as they are when they are sorted. -/
theorem sortMembers_of_pairwise {members : List (String × Json)}
    (h : (members.map Prod.fst).Pairwise (· < ·)) : sortMembers members = members := by
  -- Every member comes behind those that are sorted already.
  have key : ∀ members sorted : List (String × Json),
      ((sorted ++ members).map Prod.fst).Pairwise (· < ·) →
      members.foldl (fun sorted m => insertMember m.1 m.2 sorted) sorted = sorted ++ members := by
    intro members
    induction members with
    | nil => intro sorted _; rw [List.append_nil, List.foldl_nil]
    | cons member members ih =>
      intro sorted hsorted
      have hlast : ∀ m ∈ sorted, m.1 < member.1 := by
        intro m hm
        rw [List.map_append, List.pairwise_append] at hsorted
        exact hsorted.2.2 m.1 (List.mem_map_of_mem hm) member.1 List.mem_cons_self
      rw [List.foldl_cons, insertMember_last member.2 hlast, ih _ (by simpa using hsorted),
        List.append_assoc]
      rfl
  exact key members [] h

mutual

/-- **A portable value comes back from its text**, where it does not nest too deep. -/
theorem toJson_document : (v : Json) → {room : Nat} → v.Portable → v.depth ≤ room →
    v.document.toJson room = .ok v
  | .null, _, _, _ => rfl
  | .bool _, _, _, _ => rfl
  | .number n, room, h, _ => by
    have hvalue : n.numeral.value = some n := h
    simp only [document, Document.toJson, hvalue]
  | .string _, _, _, _ => rfl
  | .array items, 0, _, hdepth => absurd hdepth (by simp [depth])
  | .array items, room + 1, h, hdepth => by
    have hitems := toJsonItems_document items h (Nat.le_of_succ_le_succ hdepth)
    simp only [document, Document.toJson, hitems, bind, Except.bind, if_true, pure, Except.pure]
  | .object members, 0, _, hdepth => absurd hdepth (by simp [depth])
  | .object members, room + 1, h, hdepth => by
    have hmembers := toJsonMembers_document members h.2 (Nat.le_of_succ_le_succ hdepth)
    simp only [document, Document.toJson, hmembers, bind, Except.bind, if_true, pure,
      Except.pure, sortMembers_of_pairwise h.1]

theorem toJsonItems_document : (items : List Json) → {room : Nat} → PortableItems items →
    depthItems items ≤ room → Document.toJsonItems (documentItems items) room = .ok items
  | [], _, _, _ => rfl
  | item :: items, room, h, hdepth => by
    rw [depthItems, Nat.max_le] at hdepth
    simp only [documentItems, Document.toJsonItems, toJson_document item h.1 hdepth.1,
      toJsonItems_document items h.2 hdepth.2, bind, Except.bind, pure, Except.pure]

theorem toJsonMembers_document : (members : List (String × Json)) → {room : Nat} →
    PortableMembers members → depthMembers members ≤ room →
    Document.toJsonMembers (documentMembers members) room = .ok members
  | [], _, _, _ => rfl
  | (name, value) :: members, room, h, hdepth => by
    rw [depthMembers, Nat.max_le] at hdepth
    simp only [documentMembers, Document.toJsonMembers, toJson_document value h.1 hdepth.1,
      toJsonMembers_document members h.2 hdepth.2, bind, Except.bind, pure, Except.pure]

end

mutual

/-- A portable value that nests deeper than there is room does not come back. -/
theorem toJson_document_deep : (v : Json) → {room : Nat} → v.Portable → room < v.depth →
    v.document.toJson room = .error .malformed
  | .null, _, _, hdeep => absurd hdeep (Nat.not_lt_zero _)
  | .bool _, _, _, hdeep => absurd hdeep (Nat.not_lt_zero _)
  | .number _, _, _, hdeep => absurd hdeep (Nat.not_lt_zero _)
  | .string _, _, _, hdeep => absurd hdeep (Nat.not_lt_zero _)
  | .array _, 0, _, _ => rfl
  | .array items, room + 1, h, hdeep => by
    have hitems := toJsonItems_document_deep items h (Nat.lt_of_succ_lt_succ hdeep)
    simp only [document, Document.toJson, hitems, bind, Except.bind]
  | .object _, 0, _, _ => rfl
  | .object members, room + 1, h, hdeep => by
    have hmembers := toJsonMembers_document_deep members h.2 (Nat.lt_of_succ_lt_succ hdeep)
    simp only [document, Document.toJson, hmembers, bind, Except.bind]

theorem toJsonItems_document_deep : (items : List Json) → {room : Nat} → PortableItems items →
    room < depthItems items → Document.toJsonItems (documentItems items) room = .error .malformed
  | [], _, _, hdeep => absurd hdeep (Nat.not_lt_zero _)
  | item :: items, room, h, hdeep => by
    -- The first item that nests too deep decides; those in front of it are read.
    by_cases hitem : room < item.depth
    · simp only [documentItems, Document.toJsonItems, toJson_document_deep item h.1 hitem, bind,
        Except.bind]
    · have hrest : room < depthItems items := by rw [depthItems] at hdeep; omega
      simp only [documentItems, Document.toJsonItems, toJson_document item h.1 (Nat.not_lt.1 hitem),
        toJsonItems_document_deep items h.2 hrest, bind, Except.bind]

theorem toJsonMembers_document_deep : (members : List (String × Json)) → {room : Nat} →
    PortableMembers members → room < depthMembers members →
    Document.toJsonMembers (documentMembers members) room = .error .malformed
  | [], _, _, hdeep => absurd hdeep (Nat.not_lt_zero _)
  | (name, value) :: members, room, h, hdeep => by
    by_cases hvalue : room < value.depth
    · simp only [documentMembers, Document.toJsonMembers, toJson_document_deep value h.1 hvalue,
        bind, Except.bind]
    · have hrest : room < depthMembers members := by rw [depthMembers] at hdeep; omega
      simp only [documentMembers, Document.toJsonMembers,
        toJson_document value h.1 (Nat.not_lt.1 hvalue),
        toJsonMembers_document_deep members h.2 hrest, bind, Except.bind]

end

end Json
end Collectors
