import Mathlib.Data.List.Basic
import Collectors.Proofs.Documents
import Collectors.Proofs.Magnitudes

/-!
# Free values and their texts

Which values are read from texts, and which texts are read at all. A value that was read from a
text comes back from its own text, if its numbers are integers (`Json.portable_of_read`): its
members have been sorted, and an integer is read as itself. A value whose numbers fit 64 bits is
read from its text as some value (`Json.exists_toJson`).
-/

namespace Collectors
namespace Json

/-! ### Sorted members -/

theorem mem_insertMember {name : String} {value : Json} {members : List (String × Json)}
    {m : String × Json} (h : m ∈ insertMember name value members) :
    m = (name, value) ∨ m ∈ members := by
  induction members with
  | nil => exact .inl (List.mem_singleton.1 h)
  | cons member members ih =>
    rw [insertMember] at h
    split at h
    · exact List.mem_cons.1 h
    · split at h
      · exact (List.mem_cons.1 h).imp_right (List.mem_cons_of_mem _)
      · rcases List.mem_cons.1 h with rfl | h
        · exact .inr List.mem_cons_self
        · exact (ih h).imp_right (List.mem_cons_of_mem _)

theorem pairwise_insertMember (name : String) (value : Json) {members : List (String × Json)}
    (h : (members.map Prod.fst).Pairwise (· < ·)) :
    ((insertMember name value members).map Prod.fst).Pairwise (· < ·) := by
  induction members with
  | nil => exact List.pairwise_singleton _ _
  | cons member members ih =>
    obtain ⟨n, v⟩ := member
    rw [List.map_cons, List.pairwise_cons] at h
    obtain ⟨hfirst, hrest⟩ := h
    rw [insertMember]
    split
    · rename_i hlt
      rw [List.map_cons, List.pairwise_cons, List.map_cons, List.pairwise_cons]
      refine ⟨fun other hother => ?_, hfirst, hrest⟩
      rcases List.mem_cons.1 hother with rfl | hother
      · exact hlt
      · exact String.lt_trans hlt (hfirst other hother)
    · rename_i hnlt
      split
      · rename_i heq
        rw [List.map_cons, List.pairwise_cons, heq]
        exact ⟨hfirst, hrest⟩
      · rename_i hne
        rw [List.map_cons, List.pairwise_cons]
        refine ⟨fun other hother => ?_, ih hrest⟩
        obtain ⟨m, hm, rfl⟩ := List.mem_map.1 hother
        rcases mem_insertMember hm with rfl | hm
        · exact String.not_le.1 fun hle => hne (String.le_antisymm hle (String.not_lt.1 hnlt))
        · exact hfirst _ (List.mem_map_of_mem hm)

theorem sortMembers_induct {motive : List (String × Json) → Prop} {members : List (String × Json)}
    (start : motive [])
    (insert : ∀ m ∈ members, ∀ sorted, motive sorted → motive (insertMember m.1 m.2 sorted)) :
    motive (sortMembers members) :=
  List.foldlRecOn members _ start fun sorted h m hm => insert m hm sorted h

/-- The members of an object that is read are sorted, and no two have one name. -/
theorem pairwise_sortMembers (members : List (String × Json)) :
    ((sortMembers members).map Prod.fst).Pairwise (· < ·) :=
  sortMembers_induct (motive := fun sorted => (sorted.map Prod.fst).Pairwise (· < ·))
    List.Pairwise.nil fun m _ _ h => pairwise_insertMember m.1 m.2 h

theorem mem_of_mem_sortMembers {members : List (String × Json)} :
    ∀ m ∈ sortMembers members, m ∈ members := by
  refine sortMembers_induct (motive := fun sorted => ∀ m ∈ sorted, m ∈ members) nofun ?_
  intro m hm sorted hsorted other hother
  rcases mem_insertMember hother with rfl | hother
  · exact hm
  · exact hsorted other hother

/-! ### Values with integers -/

mutual

/-- Whether all numbers of a value are integers. -/
def Whole : Json → Prop
  | .number (.real _) => False
  | .array items => WholeItems items
  | .object members => WholeMembers members
  | _ => True

/-- Whether all numbers of some items are integers. -/
def WholeItems : List Json → Prop
  | [] => True
  | item :: items => item.Whole ∧ WholeItems items

/-- Whether all numbers of the values of some members are integers. -/
def WholeMembers : List (String × Json) → Prop
  | [] => True
  | (_, value) :: members => value.Whole ∧ WholeMembers members

end

theorem wholeItems_iff {items : List Json} : WholeItems items ↔ ∀ v ∈ items, v.Whole := by
  induction items with
  | nil => simp [WholeItems]
  | cons item items ih => simp [WholeItems, ih]

theorem wholeMembers_iff {members : List (String × Json)} :
    WholeMembers members ↔ ∀ m ∈ members, m.2.Whole := by
  induction members with
  | nil => simp [WholeMembers]
  | cons member members ih => simp [WholeMembers, ih]

theorem portableItems_iff {items : List Json} :
    PortableItems items ↔ ∀ v ∈ items, v.Portable := by
  induction items with
  | nil => simp [PortableItems]
  | cons item items ih => simp [PortableItems, ih]

theorem portableMembers_iff {members : List (String × Json)} :
    PortableMembers members ↔ ∀ m ∈ members, m.2.Portable := by
  induction members with
  | nil => simp [PortableMembers]
  | cons member members ih => simp [PortableMembers, ih]

/-- An integer that is read fits one of the two words that integers are read into. -/
theorem Numeral.bounds_of_value {n : Numeral} {i : Int} (h : n.value = some (.int i)) :
    -0x8000000000000000 ≤ i ∧ i ≤ maxWord := by
  have hreal : n.real.map Number.real ≠ some (.int i) := by
    intro h
    obtain ⟨bits, -, hbits⟩ := Option.map_eq_some_iff.1 h
    cases hbits
  have hmax : (maxWord : Int) = 0xFFFFFFFFFFFFFFFF := rfl
  simp only [value] at h
  split at h
  · exact absurd h hreal
  · split at h
    · split at h
      · rename_i hwhole
        cases h
        omega
      · exact absurd h hreal
    · split at h
      · rename_i hwhole
        cases h
        omega
      · exact absurd h hreal

mutual

/-- What is read from a document comes back from its own text, if its numbers are integers. -/
theorem portable_of_toJson : (d : Document) → {room : Nat} → {v : Json} →
    d.toJson room = .ok v → v.Whole → v.Portable
  | .null, _, _, h, _ => by cases h; trivial
  | .bool _, _, _, h, _ => by cases h; trivial
  | .number n, _, v, h, hv => by
    rw [Document.toJson] at h
    split at h
    · rename_i number hvalue
      cases h
      cases number with
      | int i =>
        obtain ⟨hlow, hhigh⟩ := Numeral.bounds_of_value hvalue
        exact Number.exact_int hlow hhigh
      | real bits => exact hv.elim
    · cases h
  | .string (some _), _, _, h, _ => by cases h; trivial
  | .string none, _, _, h, _ => by cases h
  | .array _ _, 0, _, h, _ => by cases h
  | .array items closed, room + 1, v, h, hv => by
    simp only [Document.toJson, bind, Except.bind] at h
    split at h
    · cases h
    · rename_i values hvalues
      split at h
      · cases h
        have hall := portable_of_toJsonItems items hvalues
        exact portableItems_iff.2 fun v hmem => hall v hmem (wholeItems_iff.1 hv v hmem)
      · cases h
  | .object _ _, 0, _, h, _ => by cases h
  | .object members ending, room + 1, v, h, hv => by
    simp only [Document.toJson, bind, Except.bind] at h
    split at h
    · cases h
    · rename_i values hvalues
      split at h
      · cases h
        -- Of several members with one name only the last is kept, and only that one must be whole.
        have hall := portable_of_toJsonMembers members hvalues
        exact ⟨pairwise_sortMembers values, portableMembers_iff.2 fun m hmem =>
          hall m (mem_of_mem_sortMembers m hmem) (wholeMembers_iff.1 hv m hmem)⟩
      · cases h
  | .broken, _, _, h, _ => by cases h

theorem portable_of_toJsonItems : (items : List Document) → {room : Nat} → {values : List Json} →
    Document.toJsonItems items room = .ok values → ∀ v ∈ values, v.Whole → v.Portable
  | [], _, _, h => by cases h; exact nofun
  | item :: items, room, values, h => by
    simp only [Document.toJsonItems, bind, Except.bind] at h
    split at h
    · cases h
    · rename_i value hvalue
      split at h
      · cases h
      · rename_i rest hrest
        cases h
        intro v hmem hv
        rcases List.mem_cons.1 hmem with rfl | hmem
        · exact portable_of_toJson item hvalue hv
        · exact portable_of_toJsonItems items hrest v hmem hv

theorem portable_of_toJsonMembers : (members : List (Option String × Document)) → {room : Nat} →
    {values : List (String × Json)} → Document.toJsonMembers members room = .ok values →
    ∀ m ∈ values, m.2.Whole → m.2.Portable
  | [], _, _, h => by cases h; exact nofun
  | (none, _) :: _, _, _, h => by cases h
  | (some name, value) :: members, room, values, h => by
    simp only [Document.toJsonMembers, bind, Except.bind] at h
    split at h
    · cases h
    · rename_i v hvalue
      split at h
      · cases h
      · rename_i rest hrest
        cases h
        intro m hmem hv
        rcases List.mem_cons.1 hmem with rfl | hmem
        · exact portable_of_toJson value hvalue hv
        · exact portable_of_toJsonMembers members hrest m hmem hv

end

/-- **What is read from a text comes back from its own text**, if its numbers are integers. -/
theorem portable_of_read {text : String} {v : Json} (h : Codec.free.read text = .ok v)
    (hv : v.Whole) : v.Portable := by
  simp only [Codec.read, bind, Except.bind] at h
  split at h
  · cases h
  · rename_i v' hread
    split at h
    · cases h
      exact portable_of_toJson _ hread hv
    · cases h

/-! ### Values that are read at all -/

mutual

/-- Whether every number of a value fits 64 bits. -/
def Fits : Json → Prop
  | .number n => n.Fits
  | .array items => FitsItems items
  | .object members => FitsMembers members
  | _ => True

/-- Whether every number of some items fits 64 bits. -/
def FitsItems : List Json → Prop
  | [] => True
  | item :: items => item.Fits ∧ FitsItems items

/-- Whether every number of the values of some members fits 64 bits. -/
def FitsMembers : List (String × Json) → Prop
  | [] => True
  | (_, value) :: members => value.Fits ∧ FitsMembers members

end

mutual

/-- **A value whose numbers fit 64 bits is read as some value**, where it does not nest too deep. -/
theorem exists_toJson : (v : Json) → {room : Nat} → v.Fits → v.depth ≤ room →
    ∃ v', v.document.toJson room = .ok v'
  | .null, _, _, _ => ⟨_, rfl⟩
  | .bool _, _, _, _ => ⟨_, rfl⟩
  | .number n, room, h, _ => by
    obtain ⟨n', hn'⟩ := Option.isSome_iff_exists.1 (n.isSome_value h)
    exact ⟨.number n', by simp only [document, Document.toJson, hn']⟩
  | .string _, _, _, _ => ⟨_, rfl⟩
  | .array _, 0, _, hdepth => absurd hdepth (Nat.not_succ_le_zero _)
  | .array items, room + 1, h, hdepth => by
    obtain ⟨values, hvalues⟩ := exists_toJsonItems items h (Nat.le_of_succ_le_succ hdepth)
    exact ⟨.array values, by
      simp only [document, Document.toJson, hvalues, bind, Except.bind, if_true, pure, Except.pure]⟩
  | .object _, 0, _, hdepth => absurd hdepth (Nat.not_succ_le_zero _)
  | .object members, room + 1, h, hdepth => by
    obtain ⟨values, hvalues⟩ := exists_toJsonMembers members h (Nat.le_of_succ_le_succ hdepth)
    exact ⟨.object (sortMembers values), by
      simp only [document, Document.toJson, hvalues, bind, Except.bind, if_true, pure, Except.pure]⟩

theorem exists_toJsonItems : (items : List Json) → {room : Nat} → FitsItems items →
    depthItems items ≤ room → ∃ values, Document.toJsonItems (documentItems items) room = .ok values
  | [], _, _, _ => ⟨[], rfl⟩
  | item :: items, room, h, hdepth => by
    rw [depthItems, Nat.max_le] at hdepth
    obtain ⟨value, hvalue⟩ := exists_toJson item h.1 hdepth.1
    obtain ⟨values, hvalues⟩ := exists_toJsonItems items h.2 hdepth.2
    exact ⟨value :: values, by
      simp only [documentItems, Document.toJsonItems, hvalue, hvalues, bind, Except.bind, pure,
        Except.pure]⟩

theorem exists_toJsonMembers : (members : List (String × Json)) → {room : Nat} →
    FitsMembers members → depthMembers members ≤ room →
    ∃ values, Document.toJsonMembers (documentMembers members) room = .ok values
  | [], _, _, _ => ⟨[], rfl⟩
  | (name, value) :: members, room, h, hdepth => by
    rw [depthMembers, Nat.max_le] at hdepth
    obtain ⟨v, hv⟩ := exists_toJson value h.1 hdepth.1
    obtain ⟨values, hvalues⟩ := exists_toJsonMembers members h.2 hdepth.2
    exact ⟨(name, v) :: values, by
      simp only [documentMembers, Document.toJsonMembers, hv, hvalues, bind, Except.bind, pure,
        Except.pure]⟩

end

end Json
end Collectors
