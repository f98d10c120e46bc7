import Collectors.Proofs.Codecs

/-!
# What records are read from

A codec decodes a document as a value exactly if the document says so: `Codec.via_eq_ok_iff`,
`Codec.optional_eq_ok_iff` and, for a text, `Codec.read_eq_ok_iff`.

An object is read one member after another, into a state with a place for every field. After every
member the state holds what the members so far have given to the fields (`Fields.Holds`), and there
is no such state once a field is given two values or one that its codec does not read. So a record
is read from an object whose members say one thing at most about every field (`Fields.Says`), among
members that nobody asks for, or from an array that lists the fields (`Fields.Lists`):
`Codec.record_eq_ok_iff`.
-/

namespace Collectors
namespace Json

/-- The values of the members with a name. -/
def under (name : String) (members : List (Option String × Document)) : List Document :=
  members.filterMap fun member => if member.1 = some name then some member.2 else none

theorem under_append (name : String) (members more : List (Option String × Document)) :
    under name (members ++ more) = under name members ++ under name more :=
  List.filterMap_append

theorem under_self (name : String) (value : Document) :
    under name [(some name, value)] = [value] := by
  simp [under]

theorem under_other {name other : String} (h : other ≠ name) (value : Document) :
    under name [(some other, value)] = [] := by
  simp [under, h]

/-! ### Single codecs -/

namespace Codec

variable {α β : Type}

theorem via_eq_ok_iff {c : Codec α} {make : α → Option β} {raw : β → α} {room : Nat}
    {d : Document} {b : β} :
    (c.via make raw).decode room d = .ok b ↔ ∃ a, c.decode room d = .ok a ∧ make a = some b := by
  simp only [via, bind, Except.bind]
  cases c.decode room d with
  | error fault => simp
  | ok a => cases hmake : make a <;> simp [hmake, pure, Except.pure]

theorem optional_eq_ok_iff {c : Codec α} {room : Nat} {d : Document} {x : Option α} :
    c.optional.decode room d = .ok x ↔
      (d = .null ∧ x = none) ∨ (d ≠ .null ∧ ∃ a, c.decode room d = .ok a ∧ x = some a) := by
  cases d with
  | null =>
    show (.ok none : Except Fault (Option α)) = .ok x ↔ _
    simp [eq_comm]
  | _ =>
    show (c.decode room _).map some = .ok x ↔ _
    cases c.decode room _ <;> simp [Except.map, eq_comm]

/-- A text is read to its end. -/
theorem read_eq_ok_iff {c : Codec α} {text : String} {a : α} :
    c.read text = .ok a ↔ ∃ d, Document.ofText text = (d, true) ∧ c.decode maxDepth d = .ok a := by
  unfold read
  cases Document.ofText text with
  | mk d complete =>
    dsimp only
    cases hdecode : c.decode maxDepth d <;> cases complete <;>
      simp [hdecode, bind, Except.bind, pure, Except.pure]

end Codec

/-! ### Objects -/

/-- What a field has been given by some members: nothing if none has its name. -/
def Field.Holds {α : Type} (room : Nat) (members : List (Option String × Document))
    (field : Field α) : Option α → Prop
  | none => under field.name members = []
  | some a => ∃ d, under field.name members = [d] ∧ field.codec.decode room d = .ok a

namespace Fields

/-- Whether a state is what some members have given to the fields. -/
def Holds (room : Nat) (members : List (Option String × Document)) :
    {α σ : Type} → Fields α σ → σ → Prop
  | _, _, .nil, () => True
  | _, _, .cons field rest, (a, s) => field.Holds room members a ∧ rest.Holds room members s

variable {room : Nat} {members : List (Option String × Document)}

theorem holds_empty : {α σ : Type} → (fields : Fields α σ) → fields.Holds room [] fields.empty
  | _, _, .nil => trivial
  | _, _, .cons _ rest => ⟨rfl, holds_empty rest⟩

end Fields

theorem Field.Holds.unique {α : Type} {room : Nat} {members : List (Option String × Document)}
    {field : Field α} {a b : Option α} (ha : field.Holds room members a)
    (hb : field.Holds room members b) : a = b := by
  cases a with
  | none =>
    cases b with
    | none => rfl
    | some b =>
      obtain ⟨d, hd, -⟩ := hb
      cases ha.symm.trans hd
  | some a =>
    obtain ⟨d, hd, hdecode⟩ := ha
    cases b with
    | none => cases hd.symm.trans hb
    | some b =>
      obtain ⟨d', hd', hdecode'⟩ := hb
      cases hd.symm.trans hd'
      rw [Except.ok.inj (hdecode.symm.trans hdecode')]

/-- A field that does not hold what some members give it does not hold what more of them give. -/
theorem Field.Holds.front {α : Type} {room : Nat} {members more : List (Option String × Document)}
    {field : Field α} {a : Option α} (h : field.Holds room (members ++ more) a) :
    ∃ b, field.Holds room members b := by
  cases a with
  | none =>
    rw [Field.Holds, under_append, List.append_eq_nil_iff] at h
    exact ⟨none, h.1⟩
  | some a =>
    obtain ⟨d, hd, hdecode⟩ := h
    rw [under_append, List.append_eq_singleton_iff] at hd
    rcases hd with ⟨hnil, -⟩ | ⟨hone, -⟩
    · exact ⟨none, hnil⟩
    · exact ⟨some a, d, hone, hdecode⟩

theorem Field.holds_append_other {α : Type} {room : Nat}
    {members : List (Option String × Document)} {field : Field α} {name : String}
    (h : name ≠ field.name) (value : Document) {a : Option α} :
    field.Holds room (members ++ [(some name, value)]) a ↔ field.Holds room members a := by
  have hunder : under field.name (members ++ [(some name, value)]) = under field.name members := by
    rw [under_append, under_other h, List.append_nil]
  cases a with
  | none => rw [Field.Holds, Field.Holds, hunder]
  | some a => rw [Field.Holds, Field.Holds, hunder]

/-- The member that a field is named for gives it its value, if there was none before. -/
theorem Field.holds_append_self {α : Type} {room : Nat}
    {members : List (Option String × Document)} {field : Field α} {a b : Option α}
    (ha : field.Holds room members a) (value : Document) :
    field.Holds room (members ++ [(some field.name, value)]) b ↔
      a = none ∧ ∃ x, field.codec.decode room value = .ok x ∧ b = some x := by
  have hunder : under field.name (members ++ [(some field.name, value)]) =
      under field.name members ++ [value] := by
    rw [under_append, under_self]
  cases a with
  | none =>
    have hnil : under field.name members = [] := ha
    rw [hnil] at hunder
    cases b with
    | none => simp [Holds, hunder]
    | some b => simp [Holds, hunder]
  | some a =>
    obtain ⟨d, hd, -⟩ := ha
    rw [hd] at hunder
    cases b with
    | none => simp [Holds, hunder]
    | some b => simp [Holds, hunder]

namespace Fields

variable {room : Nat} {members more : List (Option String × Document)}

theorem Holds.unique : {α σ : Type} → {fields : Fields α σ} → {s t : σ} →
    fields.Holds room members s → fields.Holds room members t → s = t
  | _, _, .nil, (), (), _, _ => rfl
  | _, _, .cons _ _, (_, _), (_, _), hs, ht => by
    rw [hs.1.unique ht.1, Holds.unique hs.2 ht.2]

theorem Holds.front : {α σ : Type} → {fields : Fields α σ} → {s : σ} →
    fields.Holds room (members ++ more) s → ∃ t, fields.Holds room members t
  | _, _, .nil, (), _ => ⟨(), trivial⟩
  | _, _, .cons _ _, (_, _), h => by
    obtain ⟨a, ha⟩ := h.1.front
    obtain ⟨t, ht⟩ := Holds.front h.2
    exact ⟨(a, t), ha, ht⟩

/-- A member that no field is named for gives them nothing. -/
theorem holds_append_unknown {name : String} (value : Document) : {α σ : Type} →
    {fields : Fields α σ} → {s : σ} → name ∉ fields.names →
    (fields.Holds room (members ++ [(some name, value)]) s ↔ fields.Holds room members s)
  | _, _, .nil, (), _ => .rfl
  | _, _, .cons _ _, (_, _), h => by
    rw [names, List.mem_cons, not_or] at h
    exact and_congr (Field.holds_append_other h.1 value) (holds_append_unknown value h.2)

/-- Storing a member gives its value to the field that it names, and to no other. -/
theorem holds_store {name : String} {value : Document} : {α σ : Type} → {fields : Fields α σ} →
    {s t : σ} → fields.names.Nodup → name ∈ fields.names → fields.Holds room members s →
    (fields.store room name value s = some (.ok t) ↔
      fields.Holds room (members ++ [(some name, value)]) t)
  | _, _, .nil, (), (), _, hname, _ => by cases hname
  | _, _, .cons field rest, (a, s), (b, t), hnodup, hname, hs => by
    rw [names, List.nodup_cons] at hnodup
    by_cases heq : name = field.name
    · subst heq
      have hothers : rest.Holds room (members ++ [(some field.name, value)]) t ↔ s = t :=
        (holds_append_unknown value hnodup.1).trans
          ⟨hs.2.unique, fun h => h ▸ hs.2⟩
      show _ ↔ field.Holds room _ b ∧ rest.Holds room _ t
      rw [Field.holds_append_self hs.1, hothers]
      cases a with
      | some a =>
        have hstore : (cons field rest).store room field.name value (some a, s) =
            some (.error .mismatch) := if_pos rfl
        simp [hstore]
      | none =>
        have hstore : (cons field rest).store room field.name value (none, s) =
            some ((field.codec.decode room value).map fun a => (some a, s)) := if_pos rfl
        rw [hstore]
        cases field.codec.decode room value <;> simp [Except.map, eq_comm]
    · have hrest := List.mem_of_ne_of_mem heq hname
      have hstore : (cons field rest).store room name value (a, s) =
          (rest.store room name value s).map fun r => r.map fun s => (a, s) := if_neg heq
      rw [hstore]
      show _ ↔ field.Holds room _ b ∧ rest.Holds room _ t
      rw [Field.holds_append_other heq, ← holds_store hnodup.2 hrest hs.2]
      have hfield : field.Holds room members b ↔ a = b := ⟨hs.1.unique, fun h => h ▸ hs.1⟩
      rw [hfield]
      cases rest.store room name value s with
      | none => simp
      | some r => cases r <;> simp [Except.map]

theorem store_ne_none {name : String} {value : Document} : {α σ : Type} →
    {fields : Fields α σ} → {s : σ} → name ∈ fields.names →
    fields.store room name value s ≠ none
  | _, _, .nil, (), h => by cases h
  | _, _, .cons field rest, (a, s), h => by
    show (if name = field.name then _ else (rest.store room name value s).map _) ≠ none
    split
    · cases a <;> exact Option.some_ne_none _
    · rename_i hne
      rw [Ne, Option.map_eq_none_iff]
      exact store_ne_none (List.mem_of_ne_of_mem hne h)

/-- Whether a member can be read over by a record: it has a name, and its value has the form of
JSON if nobody asks for it. -/
def Passes {α σ : Type} (fields : Fields α σ) (member : Option String × Document) : Prop :=
  ∃ name, member.1 = some name ∧ (name ∉ fields.names → member.2.wellFormed = true)

/-- Members are stored one after another exactly if all of them can be read over and no field is
given two values or one that it does not read. -/
theorem storeAll_eq_ok_iff {α σ : Type} {fields : Fields α σ} (hnodup : fields.names.Nodup)
    {s t : σ} (hs : fields.Holds room members s) :
    fields.storeAll room more s = .ok t ↔
      (∀ member ∈ more, fields.Passes member) ∧ fields.Holds room (members ++ more) t := by
  -- The state holds what the members in front have given.
  induction more generalizing members s with
  | nil =>
    rw [storeAll, List.append_nil]
    simp only [List.not_mem_nil, false_implies, implies_true, true_and, Except.ok.injEq]
    exact ⟨fun h => h ▸ hs, hs.unique⟩
  | cons member more ih =>
    obtain ⟨_ | name, value⟩ := member
    · refine iff_of_false (by simp [storeAll]) fun h => ?_
      obtain ⟨name, hname, -⟩ := h.1 _ List.mem_cons_self
      cases hname
    · rw [List.forall_mem_cons, List.append_cons]
      have hpasses : fields.Passes (some name, value) ↔
          (name ∉ fields.names → value.wellFormed = true) := by
        simp [Passes]
      rw [hpasses]
      by_cases hname : name ∈ fields.names
      · cases hstore : fields.store room name value s with
        | none => exact absurd hstore (store_ne_none hname)
        | some r =>
          rw [storeAll, hstore]
          cases r with
          | error fault =>
            refine iff_of_false (by simp [bind, Except.bind]) fun h => ?_
            obtain ⟨u, hu⟩ := h.2.front
            rw [← holds_store hnodup hname hs, hstore] at hu
            cases hu
          | ok u =>
            show fields.storeAll room more u = .ok t ↔ _
            rw [ih ((holds_store hnodup hname hs).1 hstore)]
            simp [hname]
      · rw [storeAll, store_unknown value hname s]
        dsimp only
        split
        · rename_i hvalue
          rw [ih ((holds_append_unknown value hname).2 hs)]
          simp [hvalue]
        · rename_i hvalue
          exact iff_of_false (by simp) fun h => hvalue (h.1.1 hname)

/-- What some members say about the fields: the value under its name, if there is one, or what a
field has of its own. -/
def Says (room : Nat) (members : List (Option String × Document)) :
    {α σ : Type} → Fields α σ → α → Prop
  | _, _, .nil, () => True
  | _, _, .cons field rest, (a, b) =>
    ((under field.name members = [] ∧ field.unnamed = some a) ∨
      ∃ d, under field.name members = [d] ∧ field.codec.decode room d = .ok a) ∧
    rest.Says room members b

theorem says_iff : {α σ : Type} → {fields : Fields α σ} → {a : α} →
    (fields.Says room members a ↔ ∃ s, fields.Holds room members s ∧ fields.complete s = .ok a)
  | _, _, .nil, () => ⟨fun _ => ⟨(), trivial, rfl⟩, fun _ => trivial⟩
  | _, _, .cons field rest, (a, b) => by
    have hcomplete : ∀ x s, (cons field rest).complete (x, s) = .ok (a, b) ↔
        x.or field.unnamed = some a ∧ rest.complete s = .ok b := by
      intro x s
      rw [complete]
      cases x.or field.unnamed with
      | none => simp
      | some y => cases rest.complete s <;> simp [Except.map]
    constructor
    · rintro ⟨hfield, hrest⟩
      obtain ⟨s, hs, hb⟩ := says_iff.1 hrest
      rcases hfield with ⟨hnil, hunnamed⟩ | hone
      · exact ⟨(none, s), ⟨hnil, hs⟩, (hcomplete _ _).2 ⟨hunnamed, hb⟩⟩
      · exact ⟨(some a, s), ⟨hone, hs⟩, (hcomplete _ _).2 ⟨rfl, hb⟩⟩
    · rintro ⟨⟨x, s⟩, ⟨hx, hs⟩, h⟩
      obtain ⟨ha, hb⟩ := (hcomplete x s).1 h
      refine ⟨?_, says_iff.2 ⟨s, hs, hb⟩⟩
      cases x with
      | none => exact .inl ⟨hx, ha⟩
      | some y =>
        cases ha
        exact .inr hx

/-- What the items of an array say about the fields, one after another; a field behind them has what
it has of its own there. -/
def Lists (room : Nat) : {α σ : Type} → Fields α σ → List Document → α → Prop
  | _, _, .nil, items, () => items = []
  | _, _, .cons field rest, item :: items, (a, b) =>
    field.codec.decode room item = .ok a ∧ rest.Lists room items b
  | _, _, .cons field rest, [], (a, b) => field.beyond = some a ∧ rest.Lists room [] b

theorem ofItems_eq_ok_iff {closed : Bool} : {α σ : Type} → {fields : Fields α σ} →
    {items : List Document} → {a : α} →
    (fields.ofItems room closed items = .ok a ↔ closed = true ∧ fields.Lists room items a)
  | _, _, .nil, items, () => by
    rw [ofItems]
    cases items <;> cases closed <;> simp [Lists]
  | _, _, .cons field rest, item :: items, (a, b) => by
    have hrest := @ofItems_eq_ok_iff closed _ _ rest items b
    simp only [ofItems, bind, Except.bind, Lists]
    cases field.codec.decode room item with
    | error fault => simp
    | ok a' =>
      dsimp only
      cases hofItems : rest.ofItems room closed items with
      | error fault =>
        rw [hofItems] at hrest
        refine iff_of_false (by simp) fun h => ?_
        cases hrest.2 ⟨h.1, h.2.2⟩
      | ok b' =>
        rw [hofItems] at hrest
        simp only [pure, Except.pure, Except.ok.injEq, Prod.mk.injEq] at hrest ⊢
        rw [hrest]
        exact and_left_comm
  | _, _, .cons field rest, [], (a, b) => by
    have hrest := @ofItems_eq_ok_iff closed _ _ rest [] b
    rw [ofItems]
    cases closed with
    | false => simp
    | true =>
      simp only [if_true, Lists, true_and] at hrest ⊢
      cases field.beyond with
      | none => simp
      | some a' =>
        dsimp only
        rw [← hrest]
        cases rest.ofItems room true [] <;> simp [Except.map]

end Fields

/-- **What records are read from.** -/
theorem Codec.record_eq_ok_iff {α σ : Type} {fields : Fields α σ} (hnodup : fields.names.Nodup)
    {room : Nat} {d : Document} {a : α} :
    (Codec.record fields).decode (room + 1) d = .ok a ↔
      (∃ members, d = .object members .closed ∧ (∀ member ∈ members, fields.Passes member) ∧
        fields.Says room members a) ∨
      ∃ items, d = .array items true ∧ fields.Lists room items a := by
  cases d with
  | object members ending =>
    have hstore : ∀ s, fields.storeAll room members fields.empty = .ok s ↔
        (∀ member ∈ members, fields.Passes member) ∧ fields.Holds room members s :=
      fun s => Fields.storeAll_eq_ok_iff hnodup (Fields.holds_empty fields)
    have hdecode : (Codec.record fields).decode (room + 1) (.object members ending) = .ok a ↔
        ending = .closed ∧
          ∃ s, fields.storeAll room members fields.empty = .ok s ∧ fields.complete s = .ok a := by
      simp only [record, bind, Except.bind]
      cases fields.storeAll room members fields.empty with
      | error fault => simp
      | ok s => by_cases hending : ending = .closed <;> simp [hending]
    rw [hdecode]
    simp only [hstore, Fields.says_iff]
    constructor
    · rintro ⟨rfl, s, ⟨hpasses, hs⟩, ha⟩
      exact .inl ⟨members, rfl, hpasses, s, hs, ha⟩
    · rintro (⟨members', heq, hpasses, s, hs, ha⟩ | ⟨items, heq, -⟩)
      · cases heq
        exact ⟨rfl, s, ⟨hpasses, hs⟩, ha⟩
      · cases heq
  | array items closed =>
    have hdecode : (Codec.record fields).decode (room + 1) (.array items closed) = .ok a ↔
        closed = true ∧ fields.Lists room items a := Fields.ofItems_eq_ok_iff
    rw [hdecode]
    constructor
    · rintro ⟨rfl, h⟩
      exact .inr ⟨items, rfl, h⟩
    · rintro (⟨members, heq, -⟩ | ⟨items', heq, h⟩)
      · cases heq
      · cases heq
        exact ⟨rfl, h⟩
  | _ => simp [record]

end Json
end Collectors
