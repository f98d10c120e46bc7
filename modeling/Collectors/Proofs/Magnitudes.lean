import Collectors.Proofs.Numerals
import Collectors.Proofs.Rounding

/-!
# Every number is read

The text of a number that fits 64 bits is read as some number, though not always as the same one
(`Number.isSome_value`). Integers are, and so is every numeral below a limit
(`Numeral.isSome_value`). The decimal of a word is not above the numbers that round to the word
(`shortest_le`), which puts all finite words below the limit but for the few next to `2 ^ 1024`;
those are looked at one by one.
-/

namespace Collectors
namespace Json

open Token (values)

namespace Numeral

/-! ### Gathered digits -/

theorem le_ofDigits (n : Nat) (ds : List Nat) : n * 10 ^ ds.length ≤ ofDigits n ds := by
  induction ds generalizing n with
  | nil => exact Nat.le_of_eq (Nat.mul_one n)
  | cons d ds ih =>
    calc n * 10 ^ (ds.length + 1) = 10 * n * 10 ^ ds.length := by rw [Nat.pow_succ]; ac_rfl
      _ ≤ (10 * n + d) * 10 ^ ds.length := Nat.mul_le_mul_right _ (Nat.le_add_right _ _)
      _ ≤ ofDigits (10 * n + d) ds := ih _

/-- Digits that fit 64 bits are all gathered. -/
theorem gather_of_le {n : Nat} {ds : List Nat} (h : ofDigits n ds ≤ maxWord) :
    gather n ds = (ofDigits n ds, []) := by
  induction ds generalizing n with
  | nil => rfl
  | cons d ds ih =>
    have hfirst : 10 * n + d ≤ maxWord := by
      calc 10 * n + d ≤ (10 * n + d) * 10 ^ ds.length :=
            Nat.le_mul_of_pos_right _ (Nat.pow_pos (by decide))
        _ ≤ ofDigits (10 * n + d) ds := le_ofDigits _ _
        _ ≤ maxWord := h
    rw [gather, if_pos hfirst]
    exact ih h

/-- What is gathered of some digits. -/
theorem gather_spec {n : Nat} (hn : n ≤ maxWord) (ds : List Nat) :
    ∃ taken, ds = taken ++ (gather n ds).2 ∧ (gather n ds).1 = ofDigits n taken ∧
      (gather n ds).1 ≤ maxWord := by
  induction ds generalizing n with
  | nil => exact ⟨[], rfl, rfl, hn⟩
  | cons d ds ih =>
    by_cases hfits : 10 * n + d ≤ maxWord
    · rw [gather, if_pos hfits]
      obtain ⟨taken, hds, hlead, hle⟩ := ih hfits
      exact ⟨d :: taken, by rw [List.cons_append, ← hds], hlead, hle⟩
    · rw [gather, if_neg hfits]
      exact ⟨[], rfl, rfl, hn⟩

/-- **A numeral below the limit has a value.** -/
theorem isSome_value {m : Numeral} {n : Nat} {k : Int} (h : Writes m n k)
    (hlimit : (n : ℚ) * 10 ^ k ≤ Binary64.limit) : m.value.isSome = true := by
  obtain ⟨zeros, hdigits, hpower⟩ := h.digits
  rw [ofDigits_append] at hdigits
  have hwhole := gather_of_le h.whole
  obtain ⟨taken, hfraction, hlead, hfits⟩ := gather_spec h.whole m.fraction
  generalize hg : gather (ofDigits 0 m.whole) m.fraction = g at hfraction hlead hfits
  -- The digits that are dropped only make the number less.
  have hkept : m.fraction.length = taken.length + g.2.length := by
    rw [hfraction, List.length_append]
  have hless : g.1 * 10 ^ g.2.length ≤ n * 10 ^ zeros := by
    rw [← hdigits, hfraction, ofDigits_append, ← hlead]
    exact le_ofDigits _ _
  let e : Int := 0 - taken.length + m.exponent.getD 0
  have hscale : ((scale (UInt64.ofNat g.1).toFloat e)).isSome = true := by
    refine Binary64.isSome_scale hfits fun _ => le_trans ?_ hlimit
    have hcast : (g.1 : ℚ) * 10 ^ g.2.length ≤ n * 10 ^ zeros := by exact_mod_cast hless
    have he : e = k - zeros + g.2.length := by omega
    calc (g.1 : ℚ) * 10 ^ e = g.1 * 10 ^ g.2.length * 10 ^ (k - zeros) := by
          rw [he, zpow_add₀ (by norm_num), zpow_natCast]
          ring
      _ ≤ n * 10 ^ zeros * 10 ^ (k - zeros) := by gcongr
      _ = n * 10 ^ k := by
          rw [zpow_sub₀ (by norm_num), zpow_natCast]
          field_simp
  have hreal : m.real.isSome = true := by
    simp only [real, hwhole, hg, List.length_nil, Option.isSome_map]
    rw [show ((0 : Nat) : Int) - ((m.fraction.length - g.2.length : Nat) : Int) +
      m.exponent.getD 0 = e by omega]
    exact hscale
  simp only [value, if_pos h.real, Option.isSome_map, hreal]

end Numeral

/-! ### Shortest decimals -/

open Binary64 (Interval scaled onGrid trim shortest significand exponent)

theorem le_high_of_holds {v : Interval} {x : Nat} (h : v.holds x = true) : x ≤ v.high := by
  unfold Interval.holds at h
  split at h <;> simp only [Bool.and_eq_true, decide_eq_true_eq] at h <;> omega

/-- A point of a grid that rounds to a word is not above its interval. -/
theorem onGrid_le {bits : UInt64} {k : Int} {n : Nat} (h : onGrid bits k = some n) :
    n * (scaled bits k).2 ≤ (scaled bits k).1.high := by
  unfold onGrid at h
  simp only at h
  split at h
  · rename_i hbelow
    cases h
    exact le_high_of_holds hbelow.1.2
  · split at h
    · rename_i habove
      cases h
      exact le_high_of_holds habove
    · cases h

theorem two_zpow_split (q : Int) : (2 : ℚ) ^ q * 2 ^ (-q).toNat = 2 ^ q.toNat := by
  rw [← zpow_natCast, ← zpow_natCast, ← zpow_add₀ two_ne_zero]
  congr 1
  omega

theorem ten_zpow_split (k : Int) : (10 : ℚ) ^ k * 10 ^ (-k).toNat = 10 ^ k.toNat := by
  rw [← zpow_natCast, ← zpow_natCast, ← zpow_add₀ (by norm_num)]
  congr 1
  omega

theorem grid_le {bits : UInt64} {k : Int} {n : Nat} (h : onGrid bits k = some n) :
    (n : ℚ) * 10 ^ k ≤ (4 * significand bits + 2) * 2 ^ (exponent bits - 2) := by
  have hnat := onGrid_le h
  simp only [scaled, Binary64.interval] at hnat
  generalize exponent bits - 2 = q at hnat ⊢
  have hrat : (n : ℚ) * (2 ^ (-q).toNat * 10 ^ k.toNat) ≤
      (4 * significand bits + 2) * (2 ^ q.toNat * 10 ^ (-k).toNat) := by exact_mod_cast hnat
  rw [← two_zpow_split q, ← ten_zpow_split k] at hrat
  have hpos : (0 : ℚ) < 2 ^ (-q).toNat * 10 ^ (-k).toNat := by positivity
  refine le_of_mul_le_mul_right ?_ hpos
  calc (n : ℚ) * 10 ^ k * (2 ^ (-q).toNat * 10 ^ (-k).toNat) =
        n * (2 ^ (-q).toNat * (10 ^ k * 10 ^ (-k).toNat)) := by ring
    _ ≤ (4 * significand bits + 2) * (2 ^ q * 2 ^ (-q).toNat * 10 ^ (-k).toNat) := hrat
    _ = (4 * significand bits + 2) * 2 ^ q * (2 ^ (-q).toNat * 10 ^ (-k).toNat) := by ring

/-- Zeros at the end of a decimal count as powers of ten. -/
theorem ofDigits_trim (digits : List Char) (k : Int) :
    (Numeral.ofDigits 0 (values (trim digits k).1) : ℚ) * 10 ^ (trim digits k).2 =
      Numeral.ofDigits 0 (values digits) * 10 ^ k := by
  let zeros := digits.reverse.takeWhile (· = '0')
  have hzeros : zeros.reverse = List.replicate zeros.length '0' := by
    rw [List.eq_replicate_iff]
    refine ⟨List.length_reverse, fun c hc => ?_⟩
    have := List.mem_takeWhile_imp (List.mem_reverse.1 hc)
    simpa using this
  let front := (digits.reverse.dropWhile (· = '0')).reverse
  have hall : digits = front ++ zeros.reverse := by
    rw [← List.reverse_append, List.takeWhile_append_dropWhile, List.reverse_reverse]
  have hlength : digits.length - zeros.length = front.length := by
    have hboth := congrArg List.length hall
    have hback : zeros.reverse.length = zeros.length := List.length_reverse
    rw [List.length_append] at hboth
    omega
  have hfront : (trim digits k).1 = front := by
    show digits.take (digits.length - zeros.length) = front
    rw [hlength]
    conv_lhs => rw [hall]
    exact List.take_left
  have hdigits : Numeral.ofDigits 0 (values digits) =
      Numeral.ofDigits 0 (values (trim digits k).1) * 10 ^ zeros.length := by
    rw [hfront]
    conv_lhs => rw [hall, hzeros]
    rw [values_append, ofDigits_append, ofDigits_zeros]
  rw [hdigits]
  show (Numeral.ofDigits 0 (values (trim digits k).1) : ℚ) * 10 ^ (k + zeros.length : Int) = _
  rw [zpow_add₀ (by norm_num), zpow_natCast]
  push_cast
  ring

/-- **The shortest decimal of a word** is not above the numbers that round to the word. -/
theorem shortest_le (bits : UInt64) :
    (Numeral.ofDigits 0 (values (shortest bits).1) : ℚ) * 10 ^ (shortest bits).2 ≤
      (4 * significand bits + 2) * 2 ^ (exponent bits - 2) := by
  have hgetD : ∀ found : Option (List Char × Int), (∀ d ∈ found,
      (Numeral.ofDigits 0 (values d.1) : ℚ) * 10 ^ d.2 ≤
        (4 * significand bits + 2) * 2 ^ (exponent bits - 2)) →
      (Numeral.ofDigits 0 (values (found.getD (['0'], 0)).1) : ℚ) *
        10 ^ (found.getD (['0'], 0)).2 ≤
          (4 * significand bits + 2) * 2 ^ (exponent bits - 2) := by
    intro found h
    cases found with
    | none =>
      have hzero : Numeral.ofDigits 0 (values ['0']) = 0 := rfl
      rw [Option.getD_none, hzero, Nat.cast_zero, zero_mul]
      positivity
    | some d => exact h d rfl
  refine hgetD _ fun d hd => ?_
  obtain ⟨i, -, hi⟩ := List.exists_of_findSome?_eq_some hd
  obtain ⟨n, hn, rfl⟩ := Option.map_eq_some_iff.1 hi
  rw [ofDigits_trim, Token.ofDigits_values]
  exact grid_le hn

/-! ### Words -/

namespace Number

open Binary64 (field fraction negative)

theorem fraction_lt (bits : UInt64) : fraction bits < 2 ^ 52 := by
  rw [fraction, UInt64.toNat_and]
  exact Nat.lt_of_le_of_lt Nat.and_le_right (by decide)

theorem field_lt (bits : UInt64) : field bits < 2 ^ 11 := by
  rw [field, UInt64.toNat_and]
  exact Nat.lt_of_le_of_lt Nat.and_le_right (by decide)

/-- The words whose decimals come close to `2 ^ 1024`, but for their sign. -/
def nearLimit (bits : UInt64) : Prop := field bits = 2046 ∧ 2 ^ 52 - 8 ≤ fraction bits

theorem limit_eq : Binary64.limit = (2 ^ 55 - 2 ^ 5) * 2 ^ 969 := by
  have hsplit : (2 : ℚ) ^ 1024 = 2 ^ 969 * 2 ^ 55 := by rw [← pow_add]
  have hrest : (2 : ℚ) ^ 55 * (1 - 1 / 2 ^ 50) = 2 ^ 55 - 2 ^ 5 := by norm_num
  rw [Binary64.limit, hsplit, mul_assoc, hrest, mul_comm]

/-- What rounds to a word far from `2 ^ 1024` is below the limit. -/
theorem interval_le_limit {bits : UInt64} (hfinite : field bits ≠ 2047) (h : ¬ nearLimit bits) :
    (4 * significand bits + 2 : ℚ) * 2 ^ (exponent bits - 2) ≤ Binary64.limit := by
  have hfield := field_lt bits
  have hfraction := fraction_lt bits
  have hsignificand : significand bits ≤ 2 ^ 52 + fraction bits := by
    unfold significand
    split <;> omega
  rw [limit_eq]
  by_cases htop : field bits = 2046
  · have hfar : fraction bits < 2 ^ 52 - 8 := by
      by_contra hnear
      exact h ⟨htop, Nat.not_lt.1 hnear⟩
    have hexponent : exponent bits - 2 = (969 : ℕ) := by
      rw [exponent, htop]
      rfl
    have hnat : 4 * significand bits + 2 + 2 ^ 5 ≤ 2 ^ 55 := by omega
    have hrat : (4 * significand bits + 2 + 2 ^ 5 : ℚ) ≤ 2 ^ 55 := by exact_mod_cast hnat
    rw [hexponent, zpow_natCast]
    gcongr
    linarith
  · have hexponent : exponent bits - 2 ≤ (968 : ℕ) := by
      rw [exponent]
      omega
    have hpow : (2 : ℚ) ^ (exponent bits - 2) ≤ 2 ^ 968 := by
      rw [← zpow_natCast]
      exact zpow_le_zpow_right₀ one_le_two hexponent
    have hnat : 4 * significand bits + 2 ≤ 2 ^ 55 := by omega
    have hrat : (4 * significand bits + 2 : ℚ) ≤ 2 ^ 55 := by exact_mod_cast hnat
    calc (4 * significand bits + 2 : ℚ) * 2 ^ (exponent bits - 2) ≤ 2 ^ 55 * 2 ^ 968 := by gcongr
      _ ≤ (2 ^ 55 - 2 ^ 5) * 2 * 2 ^ 968 := by
          gcongr
          norm_num
      _ = (2 ^ 55 - 2 ^ 5) * 2 ^ 969 := by
          rw [mul_assoc, ← pow_succ']

theorem isSome_value_of_not_nearLimit {bits : UInt64} (hfinite : field bits ≠ 2047)
    (h : ¬ nearLimit bits) : (real bits).numeral.value.isSome = true := by
  have hpos : (0 : ℚ) ≤ (4 * significand bits + 2) * 2 ^ (exponent bits - 2) := by positivity
  have hinterval := interval_le_limit hfinite h
  rcases writes_real bits with hzero | hwrites
  · have hvalue : ((0 : ℕ) : ℚ) * 10 ^ (0 : ℤ) = 0 := by norm_num
    exact Numeral.isSome_value hzero (hvalue.le.trans (hpos.trans hinterval))
  · exact Numeral.isSome_value hwrites ((shortest_le bits).trans hinterval)

/-- Whether a numeral is read by one product that is finite. -/
def readsByProduct (m : Numeral) : Bool :=
  let lead := (Numeral.gather 0 m.whole).1
  let (lead, dropped) := Numeral.gather lead m.fraction
  let e := 0 - ((m.fraction.length - dropped.length : Nat) : Int) + m.exponent.getD 0
  m.exponent.isSome && (Numeral.gather 0 m.whole).2.isEmpty && decide (0 ≤ e ∧ e ≤ 308) &&
    !((UInt64.ofNat lead).toFloat * Numeral.power e.toNat).isInf

/-- The words next to `2 ^ 1024` are read as well. -/
theorem readsByProduct_nearLimit : ∀ i < 8,
    readsByProduct (real (0x7FEFFFFFFFFFFFFF - UInt64.ofNat i)).numeral = true ∧
      readsByProduct (real (0xFFEFFFFFFFFFFFFF - UInt64.ofNat i)).numeral = true := by
  decide +kernel

theorem isSome_value_of_readsByProduct {m : Numeral} (h : readsByProduct m = true) :
    m.value.isSome = true := by
  simp only [readsByProduct, Bool.and_eq_true, decide_eq_true_eq, Bool.not_eq_true',
    List.isEmpty_iff] at h
  obtain ⟨⟨⟨hexponent, hbehind⟩, hlow, hhigh⟩, hfinite⟩ := h
  have hreal : m.real.isSome = true := by
    simp only [Numeral.real, hbehind, List.length_nil, Nat.cast_zero, Option.isSome_map]
    unfold Numeral.scale
    rw [if_neg (by omega), if_pos hlow]
    simp only [hfinite, Bool.false_eq_true, if_false, Option.isSome_some]
  simp only [Numeral.value, if_pos (Or.inr hexponent), Option.isSome_map, hreal]

theorem toNat_word (bits : UInt64) :
    bits.toNat = (bits.toNat / 2 ^ 63) * 2 ^ 63 + field bits * 2 ^ 52 + fraction bits := by
  have hfield : field bits = bits.toNat / 2 ^ 52 % 2 ^ 11 := by
    rw [field, UInt64.toNat_and, UInt64.toNat_shiftRight, ← Nat.shiftRight_eq_div_pow]
    exact Nat.and_two_pow_sub_one_eq_mod (bits.toNat >>> 52) 11
  have hfraction : fraction bits = bits.toNat % 2 ^ 52 := by
    rw [fraction, UInt64.toNat_and]
    exact Nat.and_two_pow_sub_one_eq_mod _ 52
  omega

theorem toNat_sub_ofNat {top : UInt64} {i : Nat} (h : i ≤ top.toNat) :
    (top - UInt64.ofNat i).toNat = top.toNat - i := by
  have hi : (UInt64.ofNat i).toNat = i :=
    UInt64.toNat_ofNat_of_lt' (Nat.lt_of_le_of_lt h top.toNat_lt)
  rw [UInt64.toNat_sub_of_le _ _ (by rw [UInt64.le_iff_toNat_le, hi]; exact h), hi]

/-- There are eight words next to `2 ^ 1024`, and eight next to its negative. -/
theorem eq_of_nearLimit {bits : UInt64} (h : nearLimit bits) : ∃ i < 8,
    bits = 0x7FEFFFFFFFFFFFFF - UInt64.ofNat i ∨ bits = 0xFFEFFFFFFFFFFFFF - UInt64.ofNat i := by
  obtain ⟨hfield, hfraction⟩ := h
  have hword := toNat_word bits
  have hlt := fraction_lt bits
  have hsize := bits.toNat_lt
  obtain ⟨i, hi⟩ : ∃ i, fraction bits + i + 1 = 2 ^ 52 := ⟨2 ^ 52 - 1 - fraction bits, by omega⟩
  refine ⟨i, by omega, ?_⟩
  rcases Nat.eq_zero_or_pos (bits.toNat / 2 ^ 63) with hsign | hsign
  · refine .inl (UInt64.toNat_inj.1 ?_)
    rw [toNat_sub_ofNat (by show i ≤ 0x7FEFFFFFFFFFFFFF; omega)]
    show bits.toNat = 0x7FEFFFFFFFFFFFFF - i
    omega
  · refine .inr (UInt64.toNat_inj.1 ?_)
    rw [toNat_sub_ofNat (by show i ≤ 0xFFEFFFFFFFFFFFFF; omega)]
    show bits.toNat = 0xFFEFFFFFFFFFFFFF - i
    omega

/-- **The reader refuses no finite word** that is written. -/
theorem isSome_value_real {bits : UInt64} (hfinite : field bits ≠ 2047) :
    (real bits).numeral.value.isSome = true := by
  by_cases hnear : nearLimit bits
  · obtain ⟨i, hi, heq⟩ := eq_of_nearLimit hnear
    obtain ⟨hpos, hneg⟩ := readsByProduct_nearLimit i hi
    rcases heq with rfl | rfl
    · exact isSome_value_of_readsByProduct hpos
    · exact isSome_value_of_readsByProduct hneg
  · exact isSome_value_of_not_nearLimit hfinite hnear

/-- Whether a number is an integer that fits 64 bits, with or without a sign, or a finite binary64
number. -/
def Fits : Number → Prop
  | .int i => -0x8000000000000000 ≤ i ∧ i ≤ Numeral.maxWord
  | .real bits => field bits ≠ 2047

/-- **The reader refuses no number** that is written. -/
theorem isSome_value : (n : Number) → n.Fits → n.numeral.value.isSome = true
  | .int _, h => by rw [exact_int h.1 h.2]; rfl
  | .real _, h => isSome_value_real h

end Number
end Json
end Collectors
