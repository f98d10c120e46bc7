import Collectors.Proofs.Literals
import Collectors.Proofs.Records

/-!
# The texts of ids

An id is read in 36 bytes: hyphens at four places and digits of either case everywhere else
(`CollectorId.IsSpelling`). What is read is the text of the id but for the case
(`CollectorId.parse_eq_ok_iff_chars`), since digits are read as a number exactly if the number is
written as them in lower case (`Hex.bytes?_eq_some_iff`). Elsewhere ids are also written without
hyphens, in braces and as URNs (`CollectorId.Form`); none of these has the length of the hyphenated
form. `CollectorId.read_exactly` puts this together, for texts and for JSON.
-/

namespace Collectors

/-! ### Characters and their bytes -/

/-- What holds of the first 128 characters holds of every character among them. -/
theorem forall_ascii {P : Char → Prop} (h : ∀ n, n < 128 → P (Char.ofNat n)) {c : Char}
    (hc : c.toNat < 128) : P c := by
  have := h c.toNat hc
  rwa [Char.ofNat_toNat] at this

theorem utf8EncodeChar_of_lt {c : Char} (hc : c.toNat < 128) :
    String.utf8EncodeChar c = [UInt8.ofNat c.toNat] :=
  if_pos (Nat.le_of_lt_succ hc)

/-- A character beyond the first 128 begins with a byte beyond them. -/
theorem lt_of_utf8EncodeChar {c : Char} (h : ∀ b ∈ String.utf8EncodeChar c, b < 128) :
    c.toNat < 128 := by
  have hv : c.val.toNat = c.toNat := rfl
  unfold String.utf8EncodeChar at h
  dsimp only at h
  split at h
  · omega
  · have hfirst : ∀ n, 128 ≤ n → n < 256 → ¬ UInt8.ofNat n < 128 := by
      intro n hle hlt
      rw [UInt8.lt_iff_toNat_lt, UInt8.toNat_ofNat', Nat.mod_eq_of_lt hlt]
      exact Nat.not_lt.2 hle
    split at h
    · exact absurd (h _ List.mem_cons_self) (hfirst _ (by omega) (by omega))
    · split at h
      · exact absurd (h _ List.mem_cons_self) (hfirst _ (by omega) (by omega))
      · exact absurd (h _ List.mem_cons_self) (hfirst _ (by omega) (by omega))

/-- The bytes of a text. -/
theorem toUTF8_toList (s : String) :
    s.toUTF8.data.toList = s.toList.flatMap String.utf8EncodeChar := by
  conv_lhs => rw [← String.ofList_toList (s := s)]
  rw [String.toUTF8_eq_toByteArray, String.toByteArray_ofList, List.utf8Encode,
    List.toList_data_toByteArray]

theorem length_toUTF8 (s : String) : s.toUTF8.data.toList.length = s.utf8ByteSize := by
  rw [Array.length_toList]
  exact String.size_toByteArray

theorem flatMap_utf8EncodeChar {cs : List Char} (h : ∀ c ∈ cs, c.toNat < 128) :
    cs.flatMap String.utf8EncodeChar = cs.map fun c => UInt8.ofNat c.toNat := by
  induction cs with
  | nil => rfl
  | cons c cs ih =>
    rw [List.flatMap_cons, utf8EncodeChar_of_lt (h c List.mem_cons_self),
      ih fun c hc => h c (List.mem_cons_of_mem _ hc)]
    rfl

theorem toUTF8_toList_of_lt {s : String} (h : ∀ c ∈ s.toList, c.toNat < 128) :
    s.toUTF8.data.toList = s.toList.map fun c => UInt8.ofNat c.toNat := by
  rw [toUTF8_toList, flatMap_utf8EncodeChar h]

theorem eq_hyphen_of_ofNat {c : Char} (hc : c.toNat < 128) (h : UInt8.ofNat c.toNat = 45) :
    c = '-' := by
  have heq := congrArg UInt8.toNat h
  rw [UInt8.toNat_ofNat', Nat.mod_eq_of_lt (by omega)] at heq
  rw [← Char.ofNat_toNat c, heq]
  rfl

theorem utf8ByteSize_eq_length {s : String} (h : ∀ c ∈ s.toList, c.toNat < 128) :
    s.utf8ByteSize = s.toList.length := by
  conv_lhs => rw [← String.ofList_toList (s := s)]
  exact utf8ByteSize_ofList fun c hc => if_pos (Nat.le_of_lt_succ (h c hc))

/-! ### Digits of either case -/

namespace Hex

/-- Whether a byte is a hexadecimal digit of either case. -/
def isDigitByte (b : UInt8) : Bool :=
  (48 ≤ b && b ≤ 57) || (65 ≤ b && b ≤ 70) || (97 ≤ b && b ≤ 102)

/-- A digit in lower case; any other character stays as it is. -/
def lower (c : Char) : Char := if 'A' ≤ c ∧ c ≤ 'F' then c.toLower else c

theorem value?_lt {c : Char} {n : Nat} (h : value? c = some n) : c.toNat < 128 ∧ n < 16 := by
  have hbounds : ∀ {a b : Char}, a ≤ c ∧ c ≤ b → a.toNat ≤ c.toNat ∧ c.toNat ≤ b.toNat :=
    fun h => h
  unfold value? at h
  split_ifs at h with hc hc hc
  all_goals
    have hrange := hbounds hc
    simp at hrange h
    omega

theorem toNat_lt_of_toLower {c : Char} (h : c.toLower.toNat < 128) : c.toNat < 128 := by
  unfold Char.toLower at h
  split at h
  · rename_i hc
    have h₂ : c.toNat ≤ 'Z'.toNat := hc.2
    simp at h₂
    omega
  · exact h

theorem toNat_digit_lt {n : Nat} (hn : n < 16) : (digit n).toNat < 128 := by
  have hall : ∀ n, n < 16 → (digit n).toNat < 128 := by decide
  exact hall n hn

/-- **A digit is read as a number exactly if the number is written as it**, but for the case. -/
theorem value?_eq_some_iff {c : Char} {n : Nat} :
    value? c = some n ↔ n < 16 ∧ c.toLower = digit n := by
  have hascii : ∀ k, k < 128 → ∀ n, n < 16 →
      (value? (Char.ofNat k) = some n ↔ (Char.ofNat k).toLower = digit n) := by decide +kernel
  have hall : c.toNat < 128 → n < 16 → (value? c = some n ↔ c.toLower = digit n) :=
    fun hc hn => forall_ascii (P := fun c => value? c = some n ↔ c.toLower = digit n)
      (fun k hk => hascii k hk n hn) hc
  constructor
  · intro h
    obtain ⟨hc, hn⟩ := value?_lt h
    exact ⟨hn, (hall hc hn).1 h⟩
  · rintro ⟨hn, h⟩
    exact (hall (toNat_lt_of_toLower (h ▸ toNat_digit_lt hn)) hn).2 h

/-- Two digits are read as a byte exactly if the byte is written as them, but for the case. -/
theorem byte?_eq_some_iff {high low : Char} {b : UInt8} :
    byte? high low = some b ↔ [high.toLower, low.toLower] = ofByte b := by
  have hb : b.toNat < 256 := b.toNat_lt
  simp only [byte?, bind, pure, Option.bind_eq_some_iff, Option.some.injEq, value?_eq_some_iff,
    ofByte, List.cons.injEq, and_true]
  constructor
  · rintro ⟨m, ⟨hm, hhigh⟩, n, ⟨hn, hlow⟩, rfl⟩
    have hsum : (UInt8.ofNat (16 * m + n)).toNat = 16 * m + n := by
      rw [UInt8.toNat_ofNat', Nat.mod_eq_of_lt (by omega)]
    rw [hsum, hhigh, hlow]
    exact ⟨congrArg digit (by omega), congrArg digit (by omega)⟩
  · rintro ⟨hhigh, hlow⟩
    refine ⟨b.toNat / 16, ⟨by omega, hhigh⟩, b.toNat % 16, ⟨by omega, hlow⟩, ?_⟩
    rw [Nat.div_add_mod, UInt8.ofNat_toNat]

/-- Digits are read as bytes exactly if the bytes are written as them, but for the case. -/
theorem bytes?_eq_some_iff {ds : List Char} {bytes : List UInt8} :
    bytes? ds = some bytes ↔ ds.map Char.toLower = CollectorId.digits bytes := by
  have hcons : ∀ b bs, CollectorId.digits (b :: bs) =
      digit (b.toNat / 16) :: digit (b.toNat % 16) :: CollectorId.digits bs := fun _ _ => rfl
  fun_induction bytes? ds generalizing bytes with
  | case1 =>
    cases bytes with
    | nil => exact iff_of_true rfl rfl
    | cons b bs => exact iff_of_false (by simp) (by simp [hcons])
  | case2 c =>
    cases bytes with
    | nil => exact iff_of_false (by simp) (by simp [CollectorId.digits])
    | cons b bs => exact iff_of_false (by simp) (by simp [hcons])
  | case3 high low rest ih =>
    simp only [bind, pure, Option.bind_eq_some_iff, Option.some.injEq, byte?_eq_some_iff, ih,
      List.map_cons]
    cases bytes with
    | nil => exact iff_of_false (by simp) (by simp [CollectorId.digits])
    | cons b bs =>
      rw [hcons]
      constructor
      · rintro ⟨b', hb, bs', hbs, heq⟩
        obtain ⟨rfl, rfl⟩ := List.cons.inj heq
        rw [hbs]
        exact congrArg (· ++ CollectorId.digits bs') hb
      · intro h
        simp only [List.cons.injEq] at h
        exact ⟨b, by rw [h.1, h.2.1]; rfl, bs, h.2.2, rfl⟩

/-- Pairs of digits are read, and nothing else. -/
theorem exists_bytes?_iff {ds : List Char} {n : Nat} :
    (∃ bytes, bytes? ds = some bytes ∧ bytes.length = n) ↔
      ds.length = 2 * n ∧ ∀ c ∈ ds, ∃ m, value? c = some m := by
  fun_induction bytes? ds generalizing n with
  | case1 =>
    constructor
    · rintro ⟨bytes, h, rfl⟩
      cases h
      exact ⟨rfl, by simp⟩
    · rintro ⟨h, -⟩
      exact ⟨[], rfl, by rw [List.length_nil] at h ⊢; omega⟩
  | case2 c =>
    refine iff_of_false (by simp) ?_
    rintro ⟨h, -⟩
    rw [List.length_singleton] at h
    omega
  | case3 high low rest ih =>
    simp only [bind, pure, Option.bind_eq_some_iff, Option.some.injEq, byte?]
    constructor
    · rintro ⟨_, ⟨b, ⟨m, hm, k, hk, rfl⟩, bs, hbs, rfl⟩, rfl⟩
      obtain ⟨hlength, hdigits⟩ := ih.1 ⟨bs, hbs, rfl⟩
      refine ⟨by simp only [List.length_cons]; omega, fun c hc => ?_⟩
      rcases List.mem_cons.1 hc with rfl | hc
      · exact ⟨m, hm⟩
      · rcases List.mem_cons.1 hc with rfl | hc
        · exact ⟨k, hk⟩
        · exact hdigits c hc
    · rintro ⟨hlength, hdigits⟩
      obtain ⟨m, hm⟩ := hdigits high (by simp)
      obtain ⟨k, hk⟩ := hdigits low (by simp)
      simp only [List.length_cons] at hlength
      obtain ⟨bs, hbs, hn⟩ := ih (n := n - 1) |>.2
        ⟨by omega, fun c hc => hdigits c (by simp [hc])⟩
      exact ⟨_, ⟨_, ⟨m, hm, k, hk, rfl⟩, bs, hbs, rfl⟩, by rw [List.length_cons, hn]; omega⟩

/-- A digit in lower case is what it is compared as. -/
theorem lower_of_value? {c : Char} {n : Nat} (h : value? c = some n) : lower c = c.toLower := by
  have hascii : ∀ k, k < 128 → (value? (Char.ofNat k)).isSome = true →
      lower (Char.ofNat k) = (Char.ofNat k).toLower := by decide +kernel
  exact forall_ascii (P := fun c => (value? c).isSome = true → lower c = c.toLower) hascii
    (value?_lt h).1 (by rw [h]; rfl)

/-- The digits among the bytes. -/
theorem isDigitByte_ofNat_iff {c : Char} (hc : c.toNat < 128) :
    isDigitByte (UInt8.ofNat c.toNat) = true ↔ ∃ n, value? c = some n := by
  have hascii : ∀ k, k < 128 →
      isDigitByte (UInt8.ofNat (Char.ofNat k).toNat) = (value? (Char.ofNat k)).isSome := by
    decide +kernel
  rw [forall_ascii (P := fun c => isDigitByte (UInt8.ofNat c.toNat) = (value? c).isSome) hascii hc,
    Option.isSome_iff_exists]

theorem lt_of_isDigitByte {b : UInt8} (h : isDigitByte b = true) : b < 128 := by
  simp only [isDigitByte, Bool.or_eq_true, Bool.and_eq_true, decide_eq_true_eq,
    UInt8.le_iff_toNat_le, UInt8.reduceToNat] at h
  rw [UInt8.lt_iff_toNat_lt]
  show b.toNat < 128
  omega

end Hex

namespace CollectorId

/-! ### Groups of digits -/

/-- The places of the hyphens in the text of an id. -/
def hyphens : List Nat := [8, 13, 18, 23]

/-- Digits in five groups with hyphens between them. -/
def grouped (ds : List Char) : List Char :=
  ds.take 8 ++ '-' :: ((ds.drop 8).take 4 ++ '-' :: ((ds.drop 12).take 4 ++
    '-' :: ((ds.drop 16).take 4 ++ '-' :: ds.drop 20)))

theorem exists_front {cs : List Char} {n : Nat} {c : Char} (h : cs[n]? = some c) :
    ∃ front back, front.length = n ∧ cs = front ++ c :: back := by
  obtain ⟨hlt, rfl⟩ := List.getElem?_eq_some_iff.1 h
  exact ⟨cs.take n, cs.drop (n + 1), List.length_take_of_le hlt.le,
    by rw [← List.drop_eq_getElem_cons, List.take_append_drop]⟩

/-- A text with hyphens at their places has five groups, and the digits are these. -/
theorem exists_groups {cs ds : List Char} (h : withoutHyphens cs = some ds) :
    ∃ g₁ g₂ g₃ g₄ g₅ : List Char,
      (g₁.length = 8 ∧ g₂.length = 4 ∧ g₃.length = 4 ∧ g₄.length = 4) ∧
      cs = g₁ ++ '-' :: (g₂ ++ '-' :: (g₃ ++ '-' :: (g₄ ++ '-' :: g₅))) ∧
      ds = g₁ ++ (g₂ ++ (g₃ ++ (g₄ ++ g₅))) := by
  unfold withoutHyphens at h
  split at h
  · rename_i hhyphens
    obtain ⟨h₁, h₂, h₃, h₄⟩ := hhyphens
    -- Each hyphen has its place counted from the one before it.
    obtain ⟨g₁, r₁, l₁, rfl⟩ := exists_front h₁
    have h₂ : r₁[4]? = some '-' := by simpa [List.getElem?_append, l₁] using h₂
    obtain ⟨g₂, r₂, l₂, rfl⟩ := exists_front h₂
    have h₃ : r₂[4]? = some '-' := by simpa [List.getElem?_append, l₁, l₂] using h₃
    obtain ⟨g₃, r₃, l₃, rfl⟩ := exists_front h₃
    have h₄ : r₃[4]? = some '-' := by simpa [List.getElem?_append, l₁, l₂, l₃] using h₄
    obtain ⟨g₄, g₅, l₄, rfl⟩ := exists_front h₄
    refine ⟨g₁, g₂, g₃, g₄, g₅, ⟨l₁, l₂, l₃, l₄⟩, rfl, ?_⟩
    cases h
    simp [List.drop_append, l₁, l₂, l₃, l₄, List.drop_of_length_le]
  · cases h

/-- The digits of a text with hyphens at their places, in groups again, are the text. -/
theorem grouped_withoutHyphens {cs ds : List Char} (h : withoutHyphens cs = some ds) :
    grouped ds = cs := by
  obtain ⟨g₁, g₂, g₃, g₄, g₅, ⟨l₁, l₂, l₃, l₄⟩, rfl, rfl⟩ := exists_groups h
  simp [grouped, List.drop_append, l₁, l₂, l₃, l₄, List.drop_of_length_le]

/-- What stands in a group, or behind it at the places that are left. -/
theorem mem_group_append {g r ds : List Char} {places : List Nat} {c : Char}
    (h : c ∈ ds ↔ ∃ i, i ∉ places ∧ r[i]? = some c) :
    c ∈ g ++ ds ↔ ∃ i, i ∉ g.length :: places.map (g.length + 1 + ·) ∧
      (g ++ '-' :: r)[i]? = some c := by
  rw [List.mem_append, h, List.mem_iff_getElem?]
  constructor
  · rintro (⟨i, hi⟩ | ⟨i, hplace, hi⟩)
    · obtain ⟨hlt, -⟩ := List.getElem?_eq_some_iff.1 hi
      refine ⟨i, ?_, by rw [List.getElem?_append_left hlt, hi]⟩
      simp only [List.mem_cons, List.mem_map, not_or, not_exists, not_and]
      exact ⟨by omega, fun p _ hp => by omega⟩
    · refine ⟨g.length + 1 + i, ?_, ?_⟩
      · simp only [List.mem_cons, List.mem_map, not_or, not_exists, not_and]
        refine ⟨by omega, fun p hp heq => hplace ?_⟩
        rwa [← Nat.add_left_cancel heq]
      · rw [List.getElem?_append_right (by omega),
          show g.length + 1 + i - g.length = i + 1 by omega, List.getElem?_cons_succ, hi]
  · rintro ⟨i, hplace, hi⟩
    simp only [List.mem_cons, List.mem_map, not_or, not_exists, not_and] at hplace
    obtain ⟨hne, hplace⟩ := hplace
    rcases Nat.lt_or_gt_of_ne hne with hlt | hlt
    · rw [List.getElem?_append_left hlt] at hi
      exact .inl ⟨i, hi⟩
    · refine .inr ⟨i - g.length - 1, fun hmem => hplace _ hmem (by omega), ?_⟩
      rwa [List.getElem?_append_right (by omega),
        show i - g.length = i - g.length - 1 + 1 by omega, List.getElem?_cons_succ] at hi

theorem getElem?_of_mem_hyphens {cs ds : List Char} (h : withoutHyphens cs = some ds) :
    ∀ i ∈ hyphens, cs[i]? = some '-' := by
  unfold withoutHyphens at h
  split at h
  · rename_i hhyphens
    simpa [hyphens] using hhyphens
  · cases h

theorem withoutHyphens_of_getElem? {cs : List Char} (h : ∀ i ∈ hyphens, cs[i]? = some '-') :
    ∃ ds, withoutHyphens cs = some ds :=
  ⟨_, if_pos ⟨h 8 (by decide), h 13 (by decide), h 18 (by decide), h 23 (by decide)⟩⟩

theorem length_withoutHyphens {cs ds : List Char} (h : withoutHyphens cs = some ds) :
    cs.length = ds.length + 4 := by
  obtain ⟨g₁, g₂, g₃, g₄, g₅, -, rfl, rfl⟩ := exists_groups h
  simp only [List.length_append, List.length_cons]
  omega

/-- The digits are what stands beside the hyphens. -/
theorem mem_withoutHyphens {cs ds : List Char} (h : withoutHyphens cs = some ds) {c : Char} :
    c ∈ ds ↔ ∃ i, i ∉ hyphens ∧ cs[i]? = some c := by
  obtain ⟨g₁, g₂, g₃, g₄, g₅, ⟨l₁, l₂, l₃, l₄⟩, rfl, rfl⟩ := exists_groups h
  have hlast : c ∈ g₅ ↔ ∃ i, i ∉ ([] : List Nat) ∧ g₅[i]? = some c := by
    simp [List.mem_iff_getElem?]
  have hall := mem_group_append (g := g₁) (mem_group_append (g := g₂)
    (mem_group_append (g := g₃) (mem_group_append (g := g₄) hlast)))
  rw [l₁, l₂, l₃, l₄] at hall
  exact hall

theorem toLower_eq_hyphen_iff {c : Char} : c.toLower = '-' ↔ c = '-' := by
  have hascii : ∀ k, k < 128 → ((Char.ofNat k).toLower = '-' ↔ Char.ofNat k = '-') := by
    decide +kernel
  constructor
  · intro h
    have hc : c.toNat < 128 := Hex.toNat_lt_of_toLower (by rw [h]; decide)
    exact (forall_ascii (P := fun c => c.toLower = '-' ↔ c = '-') hascii hc).1 h
  · rintro rfl
    rfl

theorem withoutHyphens_map (cs : List Char) :
    withoutHyphens (cs.map Char.toLower) = (withoutHyphens cs).map (List.map Char.toLower) := by
  have hget : ∀ i : Nat, (cs.map Char.toLower)[i]? = some '-' ↔ cs[i]? = some '-' := by
    intro i
    rw [List.getElem?_map, Option.map_eq_some_iff]
    simp only [toLower_eq_hyphen_iff, exists_eq_right]
  simp only [withoutHyphens, hget]
  split
  · simp only [Option.map_some, List.map_append, List.map_take, List.map_drop]
  · rfl

theorem chars_eq_grouped (id : CollectorId) : id.chars = grouped (digits id.bytes) :=
  (grouped_withoutHyphens (withoutHyphens_chars id).1).symm

/-- A text with hyphens at their places has hyphens and digits. -/
theorem eq_hyphen_or_mem {cs ds : List Char} (h : withoutHyphens cs = some ds) {c : Char}
    (hc : c ∈ cs) : c = '-' ∨ c ∈ ds := by
  obtain ⟨i, hi⟩ := List.mem_iff_getElem?.1 hc
  by_cases hplace : i ∈ hyphens
  · rw [getElem?_of_mem_hyphens h i hplace] at hi
    exact .inl (Option.some.inj hi).symm
  · exact .inr ((mem_withoutHyphens h).2 ⟨i, hplace, hi⟩)

/-! ### Reading ids -/

theorem parse_eq_ok_iff {s : String} {id : CollectorId} :
    parse s = .ok id ↔ s.utf8ByteSize = textLength ∧
      ∃ ds, withoutHyphens s.toList = some ds ∧ Hex.bytes? ds = some id.bytes := by
  have hof : ∀ bytes, ofBytes? bytes = some id ↔ bytes = id.bytes := by
    intro bytes
    unfold ofBytes?
    split
    · exact ⟨fun h => by cases h; rfl, fun h => by cases id; cases h; rfl⟩
    · rename_i hlength
      exact iff_of_false (by simp) fun h => hlength (h ▸ id.length_bytes)
  have hread : ((withoutHyphens s.toList).bind fun ds => (Hex.bytes? ds).bind ofBytes?) =
      some id ↔ ∃ ds, withoutHyphens s.toList = some ds ∧ Hex.bytes? ds = some id.bytes := by
    simp only [Option.bind_eq_some_iff, hof, exists_eq_right]
  rw [← hread, parse]
  split
  · rename_i hsize
    cases hfound : (withoutHyphens s.toList).bind fun ds => (Hex.bytes? ds).bind ofBytes? with
    | none => exact iff_of_false (by simp) (by simp)
    | some id' => simp [hsize]
  · rename_i hsize
    exact iff_of_false (by simp) fun h => hsize h.1

theorem toNat_lt_of_mem_digits {bytes : List UInt8} {c : Char} (hc : c ∈ digits bytes) :
    c.toNat < 128 :=
  Nat.lt_succ_of_le (Char.utf8Size_eq_one_iff.1 (utf8Size_of_mem_digits hc))

theorem toNat_lt_of_mem_chars {id : CollectorId} {c : Char} (hc : c ∈ id.chars) :
    c.toNat < 128 :=
  Nat.lt_succ_of_le (Char.utf8Size_eq_one_iff.1 (utf8Size_of_mem_chars hc))

/-- What is ASCII in lower case is ASCII. -/
theorem toNat_lt_of_map_toLower {cs ds : List Char} (h : cs.map Char.toLower = ds)
    (hds : ∀ c ∈ ds, c.toNat < 128) : ∀ c ∈ cs, c.toNat < 128 :=
  fun _ hc => Hex.toNat_lt_of_toLower (hds _ (h ▸ List.mem_map_of_mem hc))

/-- **A text is read as an id exactly if it is the text of the id**, but for the case. -/
theorem parse_eq_ok_iff_chars {s : String} {id : CollectorId} :
    parse s = .ok id ↔ s.toList.map Char.toLower = id.chars := by
  rw [parse_eq_ok_iff]
  simp only [Hex.bytes?_eq_some_iff]
  constructor
  · rintro ⟨-, ds, hds, hdigits⟩
    rw [chars_eq_grouped]
    refine (grouped_withoutHyphens ?_).symm
    rw [withoutHyphens_map, hds, Option.map_some, hdigits]
  · intro h
    have hwithout : withoutHyphens (s.toList.map Char.toLower) = some (digits id.bytes) := by
      rw [h, (withoutHyphens_chars id).1]
    rw [withoutHyphens_map, Option.map_eq_some_iff] at hwithout
    refine ⟨?_, hwithout⟩
    rw [utf8ByteSize_eq_length (toNat_lt_of_map_toLower h fun c => toNat_lt_of_mem_chars),
      ← List.length_map Char.toLower, h, (withoutHyphens_chars id).2]

/-! ### The bytes of a text -/

/-- Whether some bytes spell an id: hyphens stand at their places and digits everywhere else. -/
structure IsSpelling (bytes : List UInt8) : Prop where
  length : bytes.length = 36
  hyphen : ∀ i ∈ hyphens, bytes[i]? = some 45
  digit : ∀ i b, i ∉ hyphens → bytes[i]? = some b → Hex.isDigitByte b = true

theorem IsSpelling.lt {bytes : List UInt8} (h : IsSpelling bytes) {b : UInt8} (hb : b ∈ bytes) :
    b < 128 := by
  obtain ⟨i, hi⟩ := List.mem_iff_getElem?.1 hb
  by_cases hplace : i ∈ hyphens
  · rw [h.hyphen i hplace] at hi
    cases hi
    decide
  · exact Hex.lt_of_isDigitByte (h.digit i b hplace hi)

/-- What is read has digits of either case beside its hyphens. -/
theorem exists_parse_iff {s : String} :
    (∃ id, parse s = .ok id) ↔ s.utf8ByteSize = textLength ∧
      ∃ ds, withoutHyphens s.toList = some ds ∧ ds.length = 32 ∧
        ∀ c ∈ ds, ∃ n, Hex.value? c = some n := by
  simp only [parse_eq_ok_iff]
  constructor
  · rintro ⟨id, hsize, ds, hds, hbytes⟩
    exact ⟨hsize, ds, hds, Hex.exists_bytes?_iff.1 ⟨_, hbytes, id.length_bytes⟩⟩
  · rintro ⟨hsize, ds, hds, hdigits⟩
    obtain ⟨bytes, hbytes, hlength⟩ := (Hex.exists_bytes?_iff (n := 16)).2 hdigits
    exact ⟨⟨bytes, hlength⟩, hsize, ds, hds, hbytes⟩

/-- Hyphens at their places and digits beside them make up a spelling. -/
theorem isSpelling_of_withoutHyphens {s : String} {ds : List Char}
    (hlength : s.utf8ByteSize = textLength) (hds : withoutHyphens s.toList = some ds)
    (hdigits : ∀ c ∈ ds, ∃ n, Hex.value? c = some n) : IsSpelling s.toUTF8.data.toList := by
  have hascii : ∀ c ∈ s.toList, c.toNat < 128 := by
    intro c hc
    rcases eq_hyphen_or_mem hds hc with rfl | hc
    · decide
    · obtain ⟨n, hn⟩ := hdigits c hc
      exact (Hex.value?_lt hn).1
  refine ⟨(length_toUTF8 s).trans hlength, ?_, ?_⟩ <;> rw [toUTF8_toList_of_lt hascii]
  · intro i hplace
    rw [List.getElem?_map, getElem?_of_mem_hyphens hds i hplace]
    rfl
  · intro i b hplace hi
    obtain ⟨c, hc, rfl⟩ := Option.map_eq_some_iff.1 (List.getElem?_map ▸ hi)
    exact (Hex.isDigitByte_ofNat_iff (hascii c (List.mem_of_getElem? hc))).2
      (hdigits c ((mem_withoutHyphens hds).2 ⟨i, hplace, hc⟩))

/-- A spelling has hyphens at their places and digits beside them. -/
theorem IsSpelling.withoutHyphens {s : String} (h : IsSpelling s.toUTF8.data.toList) :
    ∃ ds, withoutHyphens s.toList = some ds ∧ ds.length = 32 ∧
      ∀ c ∈ ds, ∃ n, Hex.value? c = some n := by
  have hascii : ∀ c ∈ s.toList, c.toNat < 128 := fun c hc => lt_of_utf8EncodeChar fun b hb =>
    h.lt (toUTF8_toList s ▸ List.mem_flatMap.2 ⟨c, hc, hb⟩)
  rw [toUTF8_toList_of_lt hascii] at h
  have hhyphen : ∀ i ∈ hyphens, s.toList[i]? = some '-' := by
    intro i hplace
    have hi := h.hyphen i hplace
    rw [List.getElem?_map, Option.map_eq_some_iff] at hi
    obtain ⟨c, hc, hbyte⟩ := hi
    rw [hc, eq_hyphen_of_ofNat (hascii c (List.mem_of_getElem? hc)) hbyte]
  obtain ⟨ds, hds⟩ := withoutHyphens_of_getElem? hhyphen
  refine ⟨ds, hds, ?_, fun c hc => ?_⟩
  · have hlength : s.toList.length = 36 := by
      rw [← h.length, List.length_map]
    have := length_withoutHyphens hds
    omega
  · obtain ⟨i, hplace, hi⟩ := (mem_withoutHyphens hds).1 hc
    refine (Hex.isDigitByte_ofNat_iff (hascii c (List.mem_of_getElem? hi))).1
      (h.digit i _ hplace ?_)
    rw [List.getElem?_map, hi]
    rfl

/-- **The texts that are read are the spellings of ids.** -/
theorem exists_parse_iff_isSpelling {s : String} :
    (∃ id, parse s = .ok id) ↔ IsSpelling s.toUTF8.data.toList := by
  rw [exists_parse_iff]
  constructor
  · rintro ⟨hlength, ds, hds, -, hdigits⟩
    exact isSpelling_of_withoutHyphens hlength hds hdigits
  · exact fun h => ⟨(length_toUTF8 s).symm.trans h.length, h.withoutHyphens⟩

/-! ### The forms of ids -/

/-- The forms in which ids are written. -/
inductive Form where
  | simple
  | hyphenated
  | braced
  | urn

namespace Form

/-- What stands in front of an id. -/
def front : Form → List Char
  | simple | hyphenated => []
  | braced => ['{']
  | urn => "urn:uuid:".toList

/-- What stands behind an id. -/
def back : Form → List Char
  | braced => ['}']
  | simple | hyphenated | urn => []

/-- The digits of an id, with hyphens or without. -/
def body : Form → CollectorId → List Char
  | simple, id => digits id.bytes
  | hyphenated, id | braced, id | urn, id => id.chars

/-- Whether some characters are an id in a form, with digits of either case. -/
def Writes (form : Form) (cs : List Char) (id : CollectorId) : Prop :=
  ∃ written, cs = form.front ++ (written ++ form.back) ∧
    written.map Char.toLower = form.body id

theorem writes_hyphenated_iff {cs : List Char} {id : CollectorId} :
    hyphenated.Writes cs id ↔ cs.map Char.toLower = id.chars := by
  constructor
  · rintro ⟨written, rfl, h⟩
    rw [back, List.append_nil]
    exact h
  · exact fun h => ⟨cs, (List.append_nil cs).symm, h⟩

theorem length_digits (bytes : List UInt8) : (digits bytes).length = 2 * bytes.length := by
  rw [digits, List.length_flatMap]
  simp [Hex.ofByte, Nat.mul_comm]

theorem toNat_lt_of_mem_frame (form : Form) : ∀ c ∈ form.front ++ form.back, c.toNat < 128 := by
  have hall : (form.front ++ form.back).all (fun c => c.toNat < 128) = true := by
    cases form <;> rfl
  simpa only [decide_eq_true_eq] using List.all_eq_true.1 hall

/-- Only the hyphenated form has the length of the text of an id. -/
theorem Writes.eq_hyphenated {form : Form} {s : String} {id : CollectorId}
    (h : form.Writes s.toList id) (hsize : s.utf8ByteSize = textLength) : form = hyphenated := by
  obtain ⟨written, hs, hwritten⟩ := h
  have hascii : ∀ c ∈ s.toList, c.toNat < 128 := by
    intro c hc
    rw [hs, List.mem_append, List.mem_append] at hc
    rcases hc with hc | hc | hc
    · exact toNat_lt_of_mem_frame form c (List.mem_append_left _ hc)
    · refine toNat_lt_of_map_toLower hwritten (fun c hc => ?_) c hc
      cases form with
      | simple => exact toNat_lt_of_mem_digits hc
      | hyphenated | braced | urn => exact toNat_lt_of_mem_chars hc
    · exact toNat_lt_of_mem_frame form c (List.mem_append_right _ hc)
  have hchars : id.chars.length = 36 := (withoutHyphens_chars id).2
  have hlength : written.length = (form.body id).length := by
    rw [← hwritten, List.length_map]
  rw [utf8ByteSize_eq_length hascii, hs, List.length_append, List.length_append, hlength] at hsize
  cases form with
  | hyphenated => rfl
  | simple =>
    rw [body, length_digits, id.length_bytes] at hsize
    cases hsize
  | braced | urn =>
    rw [body, hchars] at hsize
    cases hsize

end Form

/-- **Of the forms of ids only the hyphenated one is read.** -/
theorem parse_eq_ok_iff_writes {s : String} {id : CollectorId} :
    parse s = .ok id ↔ s.utf8ByteSize = textLength ∧ ∃ form : Form, form.Writes s.toList id := by
  constructor
  · intro h
    exact ⟨(parse_eq_ok_iff.1 h).1, .hyphenated,
      Form.writes_hyphenated_iff.2 (parse_eq_ok_iff_chars.1 h)⟩
  · rintro ⟨hsize, form, h⟩
    rw [h.eq_hyphenated hsize] at h
    exact parse_eq_ok_iff_chars.2 (Form.writes_hyphenated_iff.1 h)

/-! ### The text of what is read -/

/-- The text of what is read is what was read, in lower case. -/
theorem text_of_parse {s : String} {id : CollectorId} (h : parse s = .ok id) :
    id.text = s.map Hex.lower := by
  obtain ⟨-, ds, hds, -, hdigits⟩ := exists_parse_iff.1 ⟨id, h⟩
  have hlower : ∀ c ∈ s.toList, Hex.lower c = c.toLower := by
    intro c hc
    rcases eq_hyphen_or_mem hds hc with rfl | hc
    · rfl
    · obtain ⟨n, hn⟩ := hdigits c hc
      exact Hex.lower_of_value? hn
  rw [← String.toList_inj, String.toList_map, List.map_congr_left hlower,
    parse_eq_ok_iff_chars.1 h, text, String.toList_ofList]

theorem chars_injective {a b : CollectorId} (h : a.chars = b.chars) : a = b := by
  have hparse : parse a.text = parse b.text := by rw [text, h, ← text]
  rw [parse_text, parse_text] at hparse
  exact Except.ok.inj hparse

/-- Texts of one id differ in case only. -/
theorem eq_iff_toLower {s t : String} {a b : CollectorId} (ha : parse s = .ok a)
    (hb : parse t = .ok b) : a = b ↔ s.toLower = t.toLower := by
  have hlower : ∀ u : String, u.toLower.toList = u.toList.map Char.toLower :=
    fun u => String.toList_map
  rw [← String.toList_inj, hlower, hlower, parse_eq_ok_iff_chars.1 ha, parse_eq_ok_iff_chars.1 hb]
  exact ⟨congrArg chars, chars_injective⟩

/-! ### Errors and messages -/

theorem ofText_eq_ok_iff {s : String} {id : CollectorId} :
    ofText s = .ok id ↔ parse s = .ok id := by
  unfold ofText
  cases parse s <;> simp

theorem toString_injective {m n : Nat} (h : toString m = toString n) : m = n := by
  have hdigits : ∀ k : Nat, Nat.ofDigitChars 10 (toString k).toList 0 = k := by
    intro k
    rw [Nat.toString_eq_ofList_toDigits, String.toList_ofList, Nat.ofDigitChars_ten_toDigits]
  rw [← hdigits m, h, hdigits n]

theorem parse_eq_length_iff {s : String} {n : Nat} :
    parse s = .error (.length n) ↔ s.utf8ByteSize = n ∧ n ≠ 36 := by
  unfold parse
  by_cases hsize : s.utf8ByteSize = textLength
  · rw [if_pos hsize]
    refine iff_of_false ?_ fun h => h.2 (h.1.symm.trans hsize)
    cases (withoutHyphens s.toList).bind fun ds => (Hex.bytes? ds).bind ofBytes? <;> simp
  · rw [if_neg hsize]
    constructor
    · intro h
      cases h
      exact ⟨rfl, hsize⟩
    · rintro ⟨rfl, -⟩
      rfl

/-- Every reason for which a text names no collector has a wording of its own. -/
theorem ParseError.message_eq_iff {e : ParseError} {n : Nat} :
    e.message = "expected 36 characters, got " ++ toString n ↔ e = .length n := by
  constructor
  · intro h
    cases e with
    | length found =>
      have htext : "expected 36 characters, got " ++ toString found =
          "expected 36 characters, got " ++ toString n := h
      rw [toString_injective ((String.append_right_inj _).1 htext)]
    | form =>
      have := congrArg (fun s : String => s.toList.head?) h
      simp [message] at this
  · rintro rfl
    rfl

/-- A text is said to have the wrong length exactly if it has. -/
theorem ofText_eq_length_iff {s : String} {n : Nat} :
    ofText s = .error (.invalidCollectorId ("expected 36 characters, got " ++ toString n)) ↔
      s.utf8ByteSize = n ∧ n ≠ 36 := by
  rw [← parse_eq_length_iff, ofText]
  cases parse s with
  | ok id => simp
  | error e => simp only [Except.error.injEq, Error.invalidCollectorId.injEq,
      ParseError.message_eq_iff]

theorem decode_eq_ok_iff {room : Nat} {d : Json.Document} {id : CollectorId} :
    codec.decode room d = .ok id ↔
      ∃ content, d = .string (some content) ∧ ofText content = .ok id := by
  have hmake : ∀ content, (parse content).toOption = some id ↔ parse content = .ok id := by
    intro content
    cases parse content <;> simp [Except.toOption]
  simp only [codec, Json.Codec.via_eq_ok_iff, hmake, ofText_eq_ok_iff]
  constructor
  · rintro ⟨content, hdecode, h⟩
    refine ⟨content, ?_, h⟩
    unfold Json.Codec.text at hdecode
    dsimp only at hdecode
    split at hdecode <;> cases hdecode
    rfl
  · rintro ⟨content, rfl, h⟩
    exact ⟨content, rfl, h⟩

theorem read_eq_ok_iff {s : String} {id : CollectorId} :
    codec.read s = .ok id ↔ ∃ content, Json.IsLiteral s content ∧ ofText content = .ok id := by
  simp only [Json.Codec.read_eq_ok_iff, decode_eq_ok_iff, ← Json.ofText_eq_string_iff]
  constructor
  · rintro ⟨_, hread, content, rfl, h⟩
    exact ⟨content, hread, h⟩
  · rintro ⟨content, hread, h⟩
    exact ⟨_, hread, content, rfl, h⟩

/-- How a text is read as the id of a collector. -/
structure ReadExactly (s : String) : Prop where
  accepted : (∃ id, ofText s = .ok id) ↔ IsSpelling s.toUTF8.data.toList
  length : ∀ n, ofText s = .error
      (.invalidCollectorId ("expected 36 characters, got " ++ toString n)) ↔
    s.utf8ByteSize = n ∧ n ≠ 36
  /-- Of the texts in any form of ids, those of 36 bytes are read, -/
  inForm : ∀ id, ofText s = .ok id ↔
    s.utf8ByteSize = 36 ∧ ∃ form : Form, form.Writes s.toList id
  /-- which are the hyphenated ones. -/
  hyphenated : ∀ id (form : Form), ofText s = .ok id → form.Writes s.toList id →
    form = .hyphenated
  text : ∀ id, ofText s = .ok id → id.text = s.map Hex.lower
  same : ∀ t a b, ofText s = .ok a → ofText t = .ok b → (a = b ↔ s.toLower = t.toLower)
  /-- As JSON, a text is read as what it is a literal of. -/
  json : ∀ id, codec.read s = .ok id ↔
    ∃ content, Json.IsLiteral s content ∧ ofText content = .ok id

/-- **Texts are read as ids exactly if they spell them**, and what an id is written as is read as
it. -/
theorem read_exactly : (∀ s, ReadExactly s) ∧
    ∀ id, ofText id.text = .ok id ∧ codec.read (codec.write id) = .ok id := by
  refine ⟨fun s => ?_, fun id => ⟨ofText_eq_ok_iff.2 (parse_text id), (reads_codec id).read⟩⟩
  refine ⟨?_, fun n => ofText_eq_length_iff, ?_, ?_, ?_, ?_, fun id => read_eq_ok_iff⟩ <;>
    simp only [ofText_eq_ok_iff]
  · exact exists_parse_iff_isSpelling
  · exact fun id => parse_eq_ok_iff_writes
  · exact fun id form h hform => hform.eq_hyphenated (parse_eq_ok_iff.1 h).1
  · exact fun id h => text_of_parse h
  · exact fun t a b => eq_iff_toLower

/-- An id in both cases, and without its hyphens. -/
theorem read_exactly_mixed : ∃ id, ofText "550E8400-e29b-41D4-a716-44665544000F" = .ok id ∧
    id.text = "550e8400-e29b-41d4-a716-44665544000f" ∧
    codec.read (codec.write id) = .ok id ∧
    ofText "550E8400e29b41D4a71644665544000F" =
      .error (.invalidCollectorId "expected 36 characters, got 32") := by
  let id : CollectorId := ⟨[0x55, 0x0E, 0x84, 0x00, 0xE2, 0x9B, 0x41, 0xD4, 0xA7, 0x16, 0x44, 0x66,
    0x55, 0x44, 0x00, 0x0F], rfl⟩
  have hid : ofText "550E8400-e29b-41D4-a716-44665544000F" = .ok id :=
    ((read_exactly.1 _).inForm id).2 ⟨rfl, .hyphenated, Form.writes_hyphenated_iff.2 (by decide)⟩
  have hlower : "550E8400-e29b-41D4-a716-44665544000F".map Hex.lower =
      "550e8400-e29b-41d4-a716-44665544000f" := by
    rw [← String.toList_inj, String.toList_map]
    decide
  exact ⟨id, hid, ((read_exactly.1 _).text id hid).trans hlower, (read_exactly.2 id).2,
    ((read_exactly.1 _).length 32).2 ⟨rfl, by decide⟩⟩

end CollectorId
end Collectors
