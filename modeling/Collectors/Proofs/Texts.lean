import Mathlib.Data.List.TakeWhile
import Collectors.CollectorId
import Collectors.Http.Route
import Collectors.Json.Bytes

/-!
# Texts

What is written as hexadecimal digits, as UTF-8, as the text of an id or as a path is read back:
`CollectorId.parse_text`, `fromUTF8?_toUTF8`, `Http.Route.ofTarget?_path` and
`Http.providerId?_toDigits`.
-/

namespace Collectors

theorem isDigit_toDigits (n : Nat) : ∀ c ∈ Nat.toDigits 10 n, c.isDigit = true :=
  fun _ hc => Nat.isDigit_of_mem_toDigits (by decide) (by decide) hc

/-! ### Hexadecimal digits -/

namespace Hex

theorem value?_digit {n : Nat} (hn : n < 16) : value? (digit n) = some n := by
  have hall : ∀ n, n < 16 → value? (digit n) = some n := by decide
  exact hall n hn

theorem utf8Size_digit {n : Nat} (hn : n < 16) : (digit n).utf8Size = 1 := by
  have hall : ∀ n, n < 16 → (digit n).utf8Size = 1 := by decide
  exact hall n hn

theorem byte?_digits (b : UInt8) :
    byte? (digit (b.toNat / 16)) (digit (b.toNat % 16)) = some b := by
  have hb : b.toNat < 256 := b.toNat_lt
  have hsum : 16 * (b.toNat / 16) + b.toNat % 16 = b.toNat := Nat.div_add_mod b.toNat 16
  simp only [byte?, value?_digit (show b.toNat / 16 < 16 by omega),
    value?_digit (show b.toNat % 16 < 16 by omega), bind, Option.bind_some, pure, hsum,
    UInt8.ofNat_toNat]

/-- The digits of some bytes are read as the bytes. -/
theorem bytes?_digits (bytes : List UInt8) :
    bytes? (CollectorId.digits bytes) = some bytes := by
  induction bytes with
  | nil => rfl
  | cons b bytes ih =>
    show bytes? (digit (b.toNat / 16) :: digit (b.toNat % 16) :: CollectorId.digits bytes) = _
    rw [bytes?, byte?_digits, ih]
    rfl

end Hex

/-! ### UTF-8 -/

theorem fromUTF8?_toUTF8 (s : String) : String.fromUTF8? s.toUTF8 = some s :=
  dif_pos s.isValidUTF8

theorem Json.textOf_toUTF8 (s : String) : Json.textOf s.toUTF8 = s := by
  rw [Json.textOf, fromUTF8?_toUTF8]

theorem utf8ByteSize_ofList {cs : List Char} (h : ∀ c ∈ cs, c.utf8Size = 1) :
    (String.ofList cs).utf8ByteSize = cs.length := by
  induction cs with
  | nil => rfl
  | cons c cs ih =>
    rw [String.ofList_cons, String.utf8ByteSize_append, String.utf8ByteSize_singleton,
      h c List.mem_cons_self, ih fun c hc => h c (List.mem_cons_of_mem _ hc), List.length_cons,
      Nat.add_comm]

/-! ### Ids of collectors -/

namespace CollectorId

theorem utf8Size_of_mem_digits {bytes : List UInt8} {c : Char} (hc : c ∈ digits bytes) :
    c.utf8Size = 1 := by
  obtain ⟨b, -, hb⟩ := List.mem_flatMap.1 hc
  have hlt : b.toNat < 256 := b.toNat_lt
  rcases List.mem_cons.1 hb with rfl | hb
  · exact Hex.utf8Size_digit (by omega)
  · rw [List.mem_singleton.1 hb]
    exact Hex.utf8Size_digit (by omega)

/-- The groups of the text of an id make up its digits. -/
theorem withoutHyphens_chars : (id : CollectorId) →
    withoutHyphens id.chars = some (digits id.bytes) ∧ id.chars.length = textLength
  | ⟨[_, _, _, _, _, _, _, _, _, _, _, _, _, _, _, _], _⟩ => ⟨rfl, rfl⟩

theorem utf8Size_of_mem_chars {id : CollectorId} {c : Char} (hc : c ∈ id.chars) :
    c.utf8Size = 1 := by
  simp only [chars, List.mem_append, List.mem_cons] at hc
  rcases hc with ((((hc | rfl | hc) | rfl | hc) | rfl | hc) | rfl | hc) <;>
    first | rfl | exact utf8Size_of_mem_digits hc

/-- **The text of an id is read as the id.** -/
theorem parse_text (id : CollectorId) : parse id.text = .ok id := by
  have hsize : id.text.utf8ByteSize = textLength := by
    rw [text, utf8ByteSize_ofList fun c hc => utf8Size_of_mem_chars hc]
    exact (withoutHyphens_chars id).2
  have hbytes : ofBytes? id.bytes = some id := dif_pos id.length_bytes
  have hread : ((withoutHyphens id.text.toList).bind fun ds =>
      (Hex.bytes? ds).bind ofBytes?) = some id := by
    rw [text, String.toList_ofList, (withoutHyphens_chars id).1, Option.bind_some,
      Hex.bytes?_digits, Option.bind_some, hbytes]
  rw [parse, if_pos hsize, hread]

end CollectorId

/-! ### Paths -/

theorem pieces_self {sep : Char} {cs : List Char} (h : sep ∉ cs) : pieces sep cs = [cs] := by
  induction cs with
  | nil => rfl
  | cons c cs ih =>
    rw [List.mem_cons, not_or] at h
    rw [pieces, if_neg fun heq => h.1 heq.symm, ih h.2]

theorem pieces_append {sep : Char} {cs : List Char} (rest : List Char) (h : sep ∉ cs) :
    pieces sep (cs ++ sep :: rest) = cs :: pieces sep rest := by
  induction cs with
  | nil => rw [List.nil_append, pieces, if_pos rfl]
  | cons c cs ih =>
    rw [List.mem_cons, not_or] at h
    rw [List.cons_append, pieces, if_neg fun heq => h.1 heq.symm, ih h.2]

/-- The decimal digits of a number are read as the number. -/
theorem unsigned?_toDigits {limit n : Nat} (hn : n ≤ limit) :
    Decimal.unsigned? limit (Nat.toDigits 10 n) = some n := by
  have hdigit : (Nat.toDigits 10 n).all Char.isDigit = true :=
    List.all_eq_true.2 (isDigit_toDigits n)
  have hne : (Nat.toDigits 10 n).isEmpty = false := by simp
  have hread : Decimal.digits? (Nat.toDigits 10 n) = some n := by
    rw [Decimal.digits?, hne, hdigit, Nat.ofDigitChars_ten_toDigits]
    rfl
  unfold Decimal.unsigned?
  split
  · rename_i heq
    rw [heq] at hdigit
    cases hdigit
  · show (Decimal.digits? (Nat.toDigits 10 n)).filter _ = _
    rw [hread, Option.filter_some, if_pos (by simpa using hn)]

theorem Rpc.ofName?_name (rpc : Rpc) : ofName? rpc.name = some rpc := by
  cases rpc <;> rfl

theorem toList_toString (id : ProviderId) : (toString id).toList = Nat.toDigits 10 id.toNat := by
  show (toString id.toNat).toList = _
  rw [Nat.toString_eq_ofList_toDigits, String.toList_ofList]

namespace Http

/-- Whether a character of a path separates nothing. -/
def isPlain (c : Char) : Bool := c ≠ '/' && c ≠ '?' && c ≠ '#' && c ≠ '%'

theorem isPlain_of_isDigit {c : Char} (hc : c.isDigit = true) : isPlain c = true := by
  have hne : ∀ d : Char, d.isDigit = false → c ≠ d := by
    rintro d hd rfl
    rw [hc] at hd
    cases hd
  simp [isPlain, hne '/' rfl, hne '?' rfl, hne '#' rfl, hne '%' rfl]

theorem notMem_of_isPlain {cs : List Char} (h : ∀ c ∈ cs, isPlain c = true) : '/' ∉ cs :=
  fun hc => absurd (h _ hc) (by decide)

theorem isPlain_providers : ∀ c ∈ "providers".toList, isPlain c = true := List.all_eq_true.1 rfl

theorem isPlain_name (rpc : Rpc) : ∀ c ∈ rpc.name.toList, isPlain c = true :=
  List.all_eq_true.1 (by cases rpc <;> rfl)

theorem isPlain_toDigits (n : Nat) : ∀ c ∈ Nat.toDigits 10 n, isPlain c = true :=
  fun c hc => isPlain_of_isDigit (isDigit_toDigits n c hc)

theorem toList_path (id : ProviderId) (rpc : Rpc) :
    (Rpc.path id rpc.name).toList = '/' :: 'v' :: '1' :: '/' :: ("providers".toList ++ '/' ::
      (Nat.toDigits 10 id.toNat ++ '/' :: rpc.name.toList)) := by
  simp only [Rpc.path, String.toList_append, toList_toString, List.append_assoc]
  rfl

/-- There is neither a query nor a fragment behind the path of a call. -/
theorem pathOf_path (id : ProviderId) (rpc : Rpc) :
    pathOf (Rpc.path id rpc.name) = (Rpc.path id rpc.name).toList := by
  rw [pathOf, List.takeWhile_eq_self_iff, toList_path]
  intro c hc
  have hplain : isPlain c = true ∨ c = '/' := by
    simp only [List.mem_cons, List.mem_append] at hc
    rcases hc with rfl | rfl | rfl | rfl | hc | rfl | hc | rfl | hc
    · exact .inr rfl
    · exact .inl rfl
    · exact .inl rfl
    · exact .inr rfl
    · exact .inl (isPlain_providers c hc)
    · exact .inr rfl
    · exact .inl (isPlain_toDigits _ c hc)
    · exact .inr rfl
    · exact .inl (isPlain_name rpc c hc)
  rcases hplain with h | rfl
  · simp only [isPlain, Bool.and_eq_true] at h
    simp only [Bool.and_eq_true]
    exact ⟨h.1.1.2, h.1.2⟩
  · rfl

theorem pieces_path (id : ProviderId) (rpc : Rpc) :
    pieces '/' (Rpc.path id rpc.name).toList =
      [[], ['v', '1'], "providers".toList, Nat.toDigits 10 id.toNat, rpc.name.toList] := by
  rw [toList_path, pieces, if_pos rfl]
  show [] :: pieces '/' (['v', '1'] ++ '/' :: _) = _
  rw [pieces_append _ (by decide), pieces_append _ (notMem_of_isPlain isPlain_providers),
    pieces_append _ (notMem_of_isPlain (isPlain_toDigits _)),
    pieces_self (notMem_of_isPlain (isPlain_name rpc))]

/-- **The path of a call is routed to the call**, with the id as it is written. -/
theorem Route.ofTarget?_path (id : ProviderId) (rpc : Rpc) :
    Route.ofTarget? (Rpc.path id rpc.name) = some (.rpc rpc (Nat.toDigits 10 id.toNat)) := by
  rw [Route.ofTarget?, pathOf_path, pieces_path]
  simp only [List.map_cons, List.map_nil, String.ofList_toList]
  show (Rpc.ofName? rpc.name).map _ = _
  rw [Rpc.ofName?_name, Option.map_some, String.toList_ofList]

/-- Characters other than the percent sign stand for themselves. -/
theorem percentDecoded_of_ne {cs : List Char} (h : ∀ c ∈ cs, c ≠ '%' ∧ c.utf8Size = 1) :
    percentDecoded cs = cs.flatMap String.utf8EncodeChar := by
  induction cs with
  | nil => rw [percentDecoded]; rfl
  | cons c cs ih =>
    obtain ⟨hne, hsize⟩ := h c List.mem_cons_self
    have hbyte : c.toString.toUTF8.toList = String.utf8EncodeChar c := by
      rw [String.utf8EncodeChar_eq_singleton hsize, Char.toString, String.toUTF8_eq_toByteArray,
        String.toByteArray_singleton, List.utf8Encode_singleton,
        String.utf8EncodeChar_eq_singleton hsize]
      simp [ByteArray.toList, ByteArray.toList.loop]
      rfl
    rw [List.flatMap_cons, ← ih fun c hc => h c (List.mem_cons_of_mem _ hc), ← hbyte]
    rw [percentDecoded.eq_def]
    split
    · rename_i heq
      cases heq
    · rename_i heq
      exact absurd (List.cons.inj heq).1 hne
    · rename_i heq
      obtain ⟨rfl, rfl⟩ := List.cons.inj heq
      rfl

theorem utf8Size_of_isDigit {c : Char} (hc : c.isDigit = true) : c.utf8Size = 1 := by
  simp only [Char.isDigit, Bool.and_eq_true, decide_eq_true_eq] at hc
  have hle : c.val ≤ 127 := UInt32.le_trans hc.2 (by decide)
  exact if_pos hle

/-- **The path segment of an id is read as the id.** -/
theorem providerId?_toDigits (id : ProviderId) :
    providerId? (Nat.toDigits 10 id.toNat) = some id := by
  have hdigit := isDigit_toDigits id.toNat
  have hdecoded : percentDecoded (Nat.toDigits 10 id.toNat) =
      (Nat.toDigits 10 id.toNat).flatMap String.utf8EncodeChar := by
    refine percentDecoded_of_ne fun c hc => ⟨?_, utf8Size_of_isDigit (hdigit c hc)⟩
    rintro rfl
    exact absurd (hdigit _ hc) (by decide)
  have hbytes : (⟨(percentDecoded (Nat.toDigits 10 id.toNat)).toArray⟩ : ByteArray) =
      (String.ofList (Nat.toDigits 10 id.toNat)).toUTF8 := by
    rw [hdecoded, String.toUTF8_eq_toByteArray, String.toByteArray_ofList, List.utf8Encode]
    apply ByteArray.ext
    rw [← Array.toList_inj, List.toList_data_toByteArray]
  have hread : Decimal.unsigned? 0xFFFF (Nat.toDigits 10 id.toNat) = some id.toNat :=
    unsigned?_toDigits (Nat.le_of_lt_succ id.toNat_lt)
  rw [providerId?, hbytes, fromUTF8?_toUTF8]
  simp only [bind, Option.bind_some, String.toList_ofList, hread, pure, UInt16.ofNat_toNat]

end Http
end Collectors
