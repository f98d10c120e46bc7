import Collectors.Proofs.Identifiers

/-!
# Ids are sorted as their texts are

The text of an id keeps the order of its bytes, because each step on the way does: a byte is
compared as its two digits are (`CollectorId.digits_lt_iff`), a hyphen at one place of both texts
makes no difference (`CollectorId.hyphenAt_lt_iff`), and characters below 128 are compared as their
bytes are (`bytes_lt_iff`). So ids may be sorted before they are written or after
(`CollectorId.sorted_as_written`).
-/

namespace Collectors

/-! ### Texts by their bytes -/

/-- Lists are compared as their images are if the elements are. -/
theorem map_lt_map_iff {α β : Type} [LT α] [LT β] {f : α → β} {as bs : List α}
    (hlt : ∀ a ∈ as, ∀ b ∈ bs, (f a < f b ↔ a < b)) (heq : ∀ a ∈ as, ∀ b ∈ bs, f a = f b → a = b) :
    as.map f < bs.map f ↔ as < bs := by
  induction as generalizing bs with
  | nil => cases bs <;> simp
  | cons a as ih =>
    cases bs with
    | nil => simp
    | cons b bs =>
      simp only [List.forall_mem_cons] at hlt heq
      rw [List.map_cons, List.map_cons, List.cons_lt_cons_iff, List.cons_lt_cons_iff, hlt.1.1,
        ih (fun a ha => (hlt.2 a ha).2) fun a ha => (heq.2 a ha).2]
      have hhead : f a = f b ↔ a = b := ⟨heq.1.1, congrArg f⟩
      rw [hhead]

theorem byte_lt_iff {c d : Char} (hc : c.toNat < 128) (hd : d.toNat < 128) :
    UInt8.ofNat c.toNat < UInt8.ofNat d.toNat ↔ c < d := by
  rw [UInt8.lt_iff_toNat_lt, UInt8.toNat_ofNat', UInt8.toNat_ofNat', Nat.mod_eq_of_lt (by omega),
    Nat.mod_eq_of_lt (by omega)]
  exact Iff.rfl

/-- Texts of the first 128 characters are compared as their bytes are. -/
theorem bytes_lt_iff {s t : String} (hs : ∀ c ∈ s.toList, c.toNat < 128)
    (ht : ∀ c ∈ t.toList, c.toNat < 128) :
    s.toUTF8.data.toList < t.toUTF8.data.toList ↔ s < t := by
  rw [toUTF8_toList_of_lt hs, toUTF8_toList_of_lt ht, String.lt_iff]
  refine map_lt_map_iff (fun c hc d hd => byte_lt_iff (hs c hc) (ht d hd)) fun c hc d hd h => ?_
  have heq := congrArg UInt8.toNat h
  have hc := hs c hc
  have hd := ht d hd
  rw [UInt8.toNat_ofNat', UInt8.toNat_ofNat', Nat.mod_eq_of_lt (by omega),
    Nat.mod_eq_of_lt (by omega)] at heq
  exact Char.toNat_inj.1 heq

/-! ### Digits -/

theorem Hex.digit_lt_iff {m n : Nat} (hm : m < 16) (hn : n < 16) : digit m < digit n ↔ m < n := by
  have hall : ∀ m, m < 16 → ∀ n, n < 16 → (digit m < digit n ↔ m < n) := by decide
  exact hall m hm n hn

theorem Hex.digit_inj {m n : Nat} (hm : m < 16) (hn : n < 16) : digit m = digit n ↔ m = n := by
  have hall : ∀ m, m < 16 → ∀ n, n < 16 → (digit m = digit n ↔ m = n) := by decide
  exact hall m hm n hn

namespace CollectorId

/-- Two digits and what is behind them are compared as a byte and what is behind it: the higher
half decides, then the lower one. -/
theorem ofByte_append_lt_iff {a b : UInt8} {cs ds : List Char} :
    Hex.ofByte a ++ cs < Hex.ofByte b ++ ds ↔ a < b ∨ a = b ∧ cs < ds := by
  have ha := a.toNat_lt
  have hb := b.toNat_lt
  simp only [Hex.ofByte, List.cons_append, List.nil_append, List.cons_lt_cons_iff]
  rw [Hex.digit_lt_iff (by omega) (by omega), Hex.digit_lt_iff (by omega) (by omega),
    Hex.digit_inj (by omega) (by omega), Hex.digit_inj (by omega) (by omega),
    UInt8.lt_iff_toNat_lt, ← UInt8.toNat_inj]
  by_cases hrest : cs < ds
  · simp only [hrest, and_true]
    omega
  · simp only [hrest, and_false, or_false]
    omega

/-- **The digits of some bytes are in the order of the bytes.** -/
theorem digits_lt_iff {as bs : List UInt8} : digits as < digits bs ↔ as < bs := by
  induction as generalizing bs with
  | nil =>
    cases bs with
    | nil => simp [digits]
    | cons b bs => simp [digits, Hex.ofByte]
  | cons a as ih =>
    cases bs with
    | nil => simp [digits]
    | cons b bs =>
      rw [digits, digits, List.flatMap_cons, List.flatMap_cons, ofByte_append_lt_iff,
        List.cons_lt_cons_iff]
      exact or_congr_right (and_congr_right fun _ => ih)

/-! ### Hyphens -/

/-- A text with a hyphen in front of what is behind its first `n` characters. -/
def hyphenAt (n : Nat) (cs : List Char) : List Char := cs.take n ++ '-' :: cs.drop n

theorem length_hyphenAt (n : Nat) (cs : List Char) : (hyphenAt n cs).length = cs.length + 1 := by
  rw [hyphenAt, List.length_append, List.length_cons, List.length_take, List.length_drop]
  omega

/-- A hyphen at one place of two texts leaves them in their order. -/
theorem hyphenAt_lt_iff {n : Nat} {cs ds : List Char} (hc : n ≤ cs.length) (hd : n ≤ ds.length) :
    hyphenAt n cs < hyphenAt n ds ↔ cs < ds := by
  induction n generalizing cs ds with
  | zero => simp [hyphenAt]
  | succ n ih =>
    cases cs with
    | nil => cases hc
    | cons c cs =>
      cases ds with
      | nil => cases hd
      | cons d ds =>
        have hfront : ∀ (c : Char) (cs : List Char),
            hyphenAt (n + 1) (c :: cs) = c :: hyphenAt n cs := fun _ _ => rfl
        rw [hfront, hfront, List.cons_lt_cons_iff, List.cons_lt_cons_iff,
          ih (Nat.le_of_succ_le_succ hc) (Nat.le_of_succ_le_succ hd)]

/-- A hyphen behind a part of what is in front. -/
theorem hyphenAt_take_append {m n : Nat} {ds : List Char} (hmn : m ≤ n) (hn : n ≤ ds.length)
    (back : List Char) :
    hyphenAt m (ds.take n ++ back) = ds.take m ++ '-' :: ((ds.drop m).take (n - m) ++ back) := by
  have hlength : m ≤ (ds.take n).length := by
    rw [List.length_take_of_le hn]
    exact hmn
  rw [hyphenAt, List.take_append_of_le_length hlength, List.drop_append_of_le_length hlength,
    List.take_take, Nat.min_eq_left hmn, List.drop_take]

/-- The hyphens of an id come one after another, the last one first. -/
theorem chars_eq_hyphenAt (id : CollectorId) :
    id.chars = hyphenAt 8 (hyphenAt 12 (hyphenAt 16 (hyphenAt 20 (digits id.bytes)))) := by
  have hlength : (digits id.bytes).length = 32 := by rw [Form.length_digits, id.length_bytes]
  rw [chars_eq_grouped, grouped, hyphenAt.eq_def 20, hyphenAt_take_append, hyphenAt_take_append,
    hyphenAt_take_append]
  all_goals omega

/-- **Ids are in the order of their texts.** -/
theorem bytes_lt_iff_text_lt {a b : CollectorId} : a.bytes < b.bytes ↔ a.text < b.text := by
  have hlength : ∀ id : CollectorId, (digits id.bytes).length = 32 := fun id => by
    rw [Form.length_digits, id.length_bytes]
  rw [String.lt_iff, text, text, String.toList_ofList, String.toList_ofList, chars_eq_hyphenAt,
    chars_eq_hyphenAt, hyphenAt_lt_iff, hyphenAt_lt_iff, hyphenAt_lt_iff, hyphenAt_lt_iff,
    digits_lt_iff]
  all_goals simp only [length_hyphenAt, hlength]
  all_goals omega

theorem text_lt_iff_bytes {a b : CollectorId} :
    a.text.toUTF8.data.toList < b.text.toUTF8.data.toList ↔ a.text < b.text := by
  have hascii : ∀ id : CollectorId, ∀ c ∈ id.text.toList, c.toNat < 128 := fun id c hc => by
    rw [text, String.toList_ofList] at hc
    exact toNat_lt_of_mem_chars hc
  exact bytes_lt_iff (hascii a) (hascii b)

/-! ### Sorting -/

/-- Whether a text comes before another byte by byte, or is equal to it. -/
def textLe (s t : String) : Bool := s.toUTF8.data.toList ≤ t.toUTF8.data.toList

theorem le_eq_textLe (a b : CollectorId) : a.le b = textLe a.text b.text := by
  have hlt : a.text.toUTF8.data.toList ≤ b.text.toUTF8.data.toList ↔ a.bytes ≤ b.bytes := by
    rw [← List.not_lt, ← List.not_lt, text_lt_iff_bytes, bytes_lt_iff_text_lt]
  exact (decide_eq_decide.2 hlt).symm

/-- **Ids are sorted as their texts are**: an id comes before another exactly if its text does, and
no two ids have one text, so that ids which are sorted and then written are their texts sorted. -/
theorem sorted_as_written :
    (∀ a b : CollectorId, (a.bytes < b.bytes ↔ a.text < b.text) ∧
      a.le b = textLe a.text b.text ∧ (a.text = b.text ↔ a = b)) ∧
    ∀ ids : List CollectorId, (ids.mergeSort le).map text = (ids.map text).mergeSort textLe := by
  refine ⟨fun a b => ⟨bytes_lt_iff_text_lt, le_eq_textLe a b, ?_⟩, fun ids => ?_⟩
  · exact ⟨fun h => chars_injective (String.ofList_injective h), congrArg text⟩
  · exact List.map_mergeSort fun a _ b _ => le_eq_textLe a b

end CollectorId
end Collectors
