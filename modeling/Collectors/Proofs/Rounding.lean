import Mathlib
import Collectors.Json.Numeral

/-!
# Binary64 numbers that stay finite

What a numeral stands for is computed with binary64 numbers, and every operation rounds.
`Binary64.AtMost` bounds a number from above; what is rounded exceeds its exact value by one part
in `2 ^ 52` at most (`Binary64.atMost_round`). So a product is finite if its factors leave a little
room below `2 ^ 1024`, and a numeral is read if it leaves a little more (`Numeral.isSome_scale`).
-/

namespace Collectors
namespace Binary64

open Float.Model (Format)
open Float.Model.Format (binary64)
open Float.Model.UnpackedFloat

/-- By how much a number may grow when it is rounded. -/
def slack : ℚ := 1 + 1 / 2 ^ 52

theorem slack_pos : 0 < slack := by
  rw [slack]
  norm_num

/-- Whether a number has a significand of 53 bits and an exponent of `-52` or more, and is at most
`x` but for its sign. -/
def AtMost (x : ℚ) : Float.Model.UnpackedFloat → Prop
  | .finite _ m e _ => 2 ^ 52 ≤ m ∧ m < 2 ^ 53 ∧ -52 ≤ e ∧ (m : ℚ) * 2 ^ e ≤ x
  | _ => False

/-! ### Rounding -/

theorem mantissa_shiftRight (em : ExtendedMantissa) (k : Nat) :
    (em >>> k).mantissa = em.mantissa / 2 ^ k := by
  induction k with
  | zero => exact (Nat.div_one _).symm
  | succ k ih =>
    have hsucc : (em >>> (k + 1)).mantissa = (em >>> k).mantissa / 2 := rfl
    rw [hsucc, ih, Nat.div_div_eq_div_mul, ← Nat.pow_succ]

theorem roundedMantissa_bounds (em : ExtendedMantissa) :
    em.mantissa ≤ em.roundedMantissa ∧ em.roundedMantissa ≤ em.mantissa + 1 := by
  rcases em with ⟨m, _ | _, _ | _⟩ <;>
    simp only [ExtendedMantissa.roundedMantissa, ExtendedMantissa.accuracy,
      Accuracy.roundToNearestEven] <;> omega

theorem targetExponent_eq {m : Nat} {e : Int} (h : 0 ≤ e + m.log2) :
    binary64.targetExponent (Float.Model.totalExponent m e) = e + m.log2 - 52 := by
  simp only [Format.targetExponent, Float.Model.totalExponent, Format.mantissaBits,
    Format.minExponent]
  norm_num
  omega

theorem log2_full {m : Nat} (hlow : 2 ^ 52 ≤ m) (hhigh : m < 2 ^ 53) : m.log2 = 52 :=
  (Nat.log2_eq_iff (by omega)).2 ⟨hlow, hhigh⟩

/-- A significand that has 53 bits already stays as it is. -/
theorem shiftToTargetExponent_full {m : Nat} {e : Int} (hlow : 2 ^ 52 ≤ m) (hhigh : m < 2 ^ 53)
    (he : -52 ≤ e) : shiftToTargetExponent binary64 m e .exact = (⟨m, false, false⟩, e) := by
  have hlog := log2_full hlow hhigh
  have htarget : binary64.targetExponent (Float.Model.totalExponent m e) = e := by
    rw [targetExponent_eq (by omega)]
    omega
  rw [shiftToTargetExponent, htarget, shiftToExponent, Int.sub_self]
  simp [ExtendedMantissa.ofMantissaAndAccuracy, HShiftRight.hShiftRight, Nat.repeat]

/-- A significand that has been rounded up to 54 bits loses the last one, which is zero. -/
theorem shiftToTargetExponent_carry {e : Int} (he : -52 ≤ e) :
    shiftToTargetExponent binary64 (2 ^ 53) e .exact = (⟨2 ^ 52, false, false⟩, e + 1) := by
  have hlog : (2 ^ 53 : Nat).log2 = 53 := Nat.log2_two_pow
  have htarget : binary64.targetExponent (Float.Model.totalExponent (2 ^ 53) e) = e + 1 := by
    rw [targetExponent_eq (by omega), hlog]
    omega
  rw [shiftToTargetExponent, htarget, shiftToExponent,
    show (e + 1 - e).toNat = 1 by omega]
  simp [ExtendedMantissa.ofMantissaAndAccuracy, HShiftRight.hShiftRight, Nat.repeat,
    ExtendedMantissa.shiftRightOne]

/-- What is rounded twice, where the second time only catches a carry. -/
theorem roundWithAccuracy_eq (s : Sign) {m m' : Nat} {e e₁ e' : Int} {em : ExtendedMantissa}
    (hfirst : shiftToTargetExponent binary64 m e .exact = (em, e₁))
    (hsecond : shiftToTargetExponent binary64 em.roundedMantissa e₁ .exact =
      (⟨m', false, false⟩, e')) (hm' : 0 < m') :
    roundWithAccuracy binary64 s m e .exact = .finite s m' e' hm' := by
  simp only [roundWithAccuracy, hfirst, hsecond]
  exact dif_neg (Nat.ne_of_gt hm')

/-- One more in the last of 53 bits is one part in `2 ^ 52` at most. -/
theorem mul_le_slack {m r k : Nat} (e : Int) (hlow : 2 ^ 52 ≤ m / 2 ^ k) (hr : r ≤ m / 2 ^ k + 1) :
    (r : ℚ) * 2 ^ (e + k) ≤ m * 2 ^ e * slack := by
  have hnat : r * 2 ^ k * 2 ^ 52 ≤ m * (2 ^ 52 + 1) := by
    have h₁ : m / 2 ^ k * 2 ^ k ≤ m := Nat.div_mul_le_self _ _
    have h₂ : 2 ^ 52 * 2 ^ k ≤ m := (Nat.le_div_iff_mul_le (by positivity)).1 hlow
    calc r * 2 ^ k * 2 ^ 52 ≤ (m / 2 ^ k + 1) * 2 ^ k * 2 ^ 52 := by gcongr
      _ = m / 2 ^ k * 2 ^ k * 2 ^ 52 + 2 ^ 52 * 2 ^ k := by ring
      _ ≤ m * 2 ^ 52 + m := by gcongr
      _ = m * (2 ^ 52 + 1) := by ring
  have hrat : (r : ℚ) * 2 ^ k * 2 ^ 52 ≤ m * (2 ^ 52 + 1) := by exact_mod_cast hnat
  calc (r : ℚ) * 2 ^ (e + k) = r * 2 ^ k * 2 ^ 52 / 2 ^ 52 * 2 ^ e := by
        rw [zpow_add₀ two_ne_zero, zpow_natCast]
        field_simp
    _ ≤ m * (2 ^ 52 + 1) / 2 ^ 52 * 2 ^ e := by gcongr
    _ = m * 2 ^ e * slack := by
        rw [slack]
        field_simp

/-- **What is rounded exceeds its exact value by one part in `2 ^ 52` at most.** -/
theorem atMost_round (s : Sign) {m : Nat} {e : Int} (hm : 2 ^ 52 ≤ m) (he : 0 ≤ e + m.log2) :
    AtMost ((m : ℚ) * 2 ^ e * slack) (roundWithAccuracy binary64 s m e .exact) := by
  have hne : m ≠ 0 := by omega
  -- The last `k` bits of the significand are rounded away.
  obtain ⟨k, hk⟩ : ∃ k, m.log2 = 52 + k := ⟨m.log2 - 52, by
    have := (Nat.le_log2 hne).2 hm
    omega⟩
  have hlow : 2 ^ 52 ≤ m / 2 ^ k := by
    rw [Nat.le_div_iff_mul_le (by positivity), ← Nat.pow_add, ← hk]
    exact Nat.log2_self_le hne
  have hhigh : m / 2 ^ k < 2 ^ 53 := by
    rw [Nat.div_lt_iff_lt_mul (by positivity), ← Nat.pow_add]
    have := Nat.lt_log2_self (n := m)
    rwa [hk, show 52 + k + 1 = 53 + k by omega] at this
  have hfirst : shiftToTargetExponent binary64 m e .exact =
      ((⟨m, false, false⟩ : ExtendedMantissa) >>> k, e + k) := by
    rw [shiftToTargetExponent, targetExponent_eq he, shiftToExponent,
      show (e + m.log2 - 52 - e).toNat = k by omega]
    rfl
  let r := ((⟨m, false, false⟩ : ExtendedMantissa) >>> k).roundedMantissa
  have hr : m / 2 ^ k ≤ r ∧ r ≤ m / 2 ^ k + 1 := by
    have := roundedMantissa_bounds ((⟨m, false, false⟩ : ExtendedMantissa) >>> k)
    rwa [mantissa_shiftRight] at this
  have hvalue := mul_le_slack e hlow hr.2
  rcases Nat.lt_or_ge r (2 ^ 53) with hsmall | hlarge
  · have hsecond := shiftToTargetExponent_full (Nat.le_trans hlow hr.1) hsmall
      (show -52 ≤ e + k by omega)
    rw [roundWithAccuracy_eq s hfirst hsecond (by omega)]
    exact ⟨Nat.le_trans hlow hr.1, hsmall, by omega, hvalue⟩
  · have hcarry : r = 2 ^ 53 := by omega
    have hsecond := shiftToTargetExponent_carry (show -52 ≤ e + k by omega)
    rw [← hcarry] at hsecond
    rw [roundWithAccuracy_eq s hfirst hsecond (by norm_num)]
    refine ⟨le_refl _, by norm_num, by omega, ?_⟩
    rw [hcarry] at hvalue
    refine le_trans (le_of_eq ?_) hvalue
    rw [zpow_add₀ two_ne_zero (e + k) 1]
    push_cast
    ring

/-! ### Packing -/

theorem toNat_implicit (m : BitVec 52) : (1#1 ++ m).toNat = 2 ^ 52 + m.toNat := by
  rw [BitVec.toNat_append, ← Nat.shiftLeft_add_eq_or_of_lt m.isLt]
  rfl

theorem ofNat_ne {n : Nat} (hn : n < 2 ^ 11) {e : BitVec 11} (h : n ≠ e.toNat) :
    BitVec.ofNat 11 n ≠ e := by
  rintro rfl
  rw [BitVec.toNat_ofNat, Nat.mod_eq_of_lt hn] at h
  exact h rfl

/-- A significand of 53 bits and an exponent that fits are kept in a word. -/
theorem unpack_pack_full (s : Sign) {m : Nat} {e : Int} (hpos : 0 < m) (hlow : 2 ^ 52 ≤ m)
    (hhigh : m < 2 ^ 53) (he : -52 ≤ e) (hexp : e ≤ 971) :
    ∃ s' hpos', unpack binary64 (pack binary64 (.finite s m e hpos)) = .finite s' m e hpos' := by
  obtain ⟨n, hn⟩ : ∃ n : ℕ, e + 1023 + 52 = n := ⟨_, (Int.toNat_of_nonneg (by omega)).symm⟩
  have hbias : (binary64.exponentBias : ℤ) = 1023 := rfl
  have hbiased : (e + (binary64.exponentBias : ℤ) + (52 : ℕ)).toNat = n := by omega
  have hpack : pack binary64 (.finite s m e hpos) =
      packComponents binary64 s (BitVec.ofNat 11 n) (BitVec.ofNat 52 m) := by
    have hsmall : ¬ 2 ^ 11 ≤ n + 1 := by omega
    have hfull : m.log2 + 1 = binary64.mantissaBits := by
      rw [log2_full hlow hhigh]
      rfl
    simp only [pack, hbiased]
    rw [if_neg hsmall, if_pos hfull]
  have hones : BitVec.ofNat 11 n ≠ -1#11 := ofNat_ne (by omega) (by show n ≠ 2047; omega)
  have hzero : BitVec.ofNat 11 n ≠ 0#11 := ofNat_ne (by omega) (by show n ≠ 0; omega)
  have hexponent : ((BitVec.ofNat 11 n).toNat : ℤ) -
      ((binary64.exponentBias : ℤ) + (52 : ℕ)) = e := by
    rw [BitVec.toNat_ofNat]
    omega
  have hmantissa : (1#1 ++ BitVec.ofNat 52 m).toNat = m := by
    rw [toNat_implicit, BitVec.toNat_ofNat]
    omega
  rw [hpack]
  simp only [unpack, unpackMantissa_packComponents, unpackExponent_packComponents, if_neg hones,
    if_neg hzero, hmantissa, hexponent]
  exact ⟨_, hpos, rfl⟩

/-- A number below `2 ^ 1024` is kept in a word. -/
theorem AtMost.unpack_pack {f : Float.Model.UnpackedFloat} {x : ℚ} (h : AtMost x f)
    (hx : x < 2 ^ 1024) : AtMost x (unpack binary64 (pack binary64 f)) := by
  cases f with
  | finite s m e hpos =>
    obtain ⟨hlow, hhigh, he, hvalue⟩ := h
    -- The exponent is small enough because the significand is large.
    have hexp : e ≤ 971 := by
      by_contra hlarge
      have hpow : (2 : ℚ) ^ 972 ≤ 2 ^ e := by
        rw [← zpow_natCast]
        exact zpow_le_zpow_right₀ one_le_two (by omega)
      have hm : (2 : ℚ) ^ 52 ≤ m := by exact_mod_cast hlow
      have hover : (2 : ℚ) ^ 1024 ≤ x := by
        calc (2 : ℚ) ^ 1024 = (2 : ℚ) ^ 52 * 2 ^ 972 := by rw [← pow_add]
          _ ≤ (m : ℚ) * 2 ^ e := by gcongr
          _ ≤ x := hvalue
      exact absurd hx (not_lt.2 hover)
    obtain ⟨s', hpos', hsame⟩ := unpack_pack_full s hpos hlow hhigh he hexp
    rw [hsame]
    exact ⟨hlow, hhigh, he, hvalue⟩
  | _ => exact h.elim

/-! ### Operations -/

theorem AtMost.mono {f : Float.Model.UnpackedFloat} {x y : ℚ} (h : AtMost x f) (hxy : x ≤ y) :
    AtMost y f := by
  cases f with
  | finite s m e hpos => exact ⟨h.1, h.2.1, h.2.2.1, h.2.2.2.trans hxy⟩
  | _ => exact h.elim

theorem AtMost.pos {f : Float.Model.UnpackedFloat} {x : ℚ} (h : AtMost x f) : 0 < x := by
  cases f with
  | finite s m e hpos =>
    have hm : (0 : ℚ) < m := by exact_mod_cast hpos
    exact lt_of_lt_of_le (by positivity) h.2.2.2
  | _ => exact h.elim

theorem isInf_of_atMost {f : Float} {x : ℚ} (h : AtMost x f.toModel.unpack) : f.isInf = false := by
  unfold Float.isInf Float.Model.isInf
  cases hf : f.toModel.unpack with
  | infinity s => rw [hf] at h; exact h.elim
  | _ => rfl

/-- A product is bounded by the product of the bounds. -/
theorem AtMost.mul {f g : Float} {x y : ℚ} (hf : AtMost x f.toModel.unpack)
    (hg : AtMost y g.toModel.unpack) (hxy : x * y * slack < 2 ^ 1024) :
    AtMost (x * y * slack) (f * g).toModel.unpack := by
  refine AtMost.unpack_pack ?_ hxy
  have hx := hf.pos
  generalize f.toModel.unpack = u at hf ⊢
  generalize g.toModel.unpack = v at hg ⊢
  match u, v, hf, hg with
  | .finite s₁ m₁ e₁ h₁, .finite s₂ m₂ e₂ h₂, ⟨hlow₁, hhigh₁, he₁, hx⟩, ⟨hlow₂, hhigh₂, he₂, hy⟩ =>
    have hlow : 2 ^ 104 ≤ m₁ * m₂ := by
      calc 2 ^ 104 = 2 ^ 52 * 2 ^ 52 := by norm_num
        _ ≤ m₁ * m₂ := Nat.mul_le_mul hlow₁ hlow₂
    have hlog : 104 ≤ (m₁ * m₂).log2 := (Nat.le_log2 (by positivity)).2 hlow
    have hround := atMost_round (s₁ * s₂) (m := m₁ * m₂) (e := e₁ + e₂) (by omega) (by omega)
    refine hround.mono ?_
    have hslack := slack_pos
    have hprod : ((m₁ * m₂ : ℕ) : ℚ) * 2 ^ (e₁ + e₂) = (m₁ * 2 ^ e₁) * (m₂ * 2 ^ e₂) := by
      rw [zpow_add₀ two_ne_zero]
      push_cast
      ring
    rw [hprod]
    gcongr

/-- A whole number is rounded once, with its digits made up to 53 bits. -/
theorem ofUInt64_eq {n : UInt64} (hn : n.toNat ≠ 0) : ofUInt64 binary64 n =
    roundWithAccuracy binary64 .positive (n.toNat * 2 ^ (52 - n.toNat.log2))
      (-(52 - n.toNat.log2 : Nat)) .exact := by
  have hcompare : compare (n.toNat : ℤ) 0 = .gt := by
    rw [Int.compare_eq_gt]
    omega
  have htarget : binary64.targetExponent (Float.Model.totalExponent n.toNat 0) =
      n.toNat.log2 - 52 := by
    rw [targetExponent_eq (by omega), Int.zero_add]
  simp only [ofUInt64, ofNat, ofInt, Float.Model.UnpackedFloat.normalize, hcompare,
    Int.toNat_natCast]
  rw [Float.Model.UnpackedFloat.round, htarget, decreaseExponent,
    show ((0 : ℤ) - (n.toNat.log2 - 52)).toNat = 52 - n.toNat.log2 by omega, Nat.shiftLeft_eq,
    Int.zero_sub]

/-- A whole number is bounded by itself but for one rounding. -/
theorem atMost_toFloat {n : UInt64} (hn : n ≠ 0) :
    AtMost (n.toNat * slack) n.toFloat.toModel.unpack := by
  have hne : n.toNat ≠ 0 := fun h => hn (UInt64.toNat_inj.1 h)
  refine AtMost.unpack_pack ?_ ?_
  · obtain ⟨k, hk⟩ : ∃ k, 52 - n.toNat.log2 = k := ⟨_, rfl⟩
    have hlow : 2 ^ 52 ≤ n.toNat * 2 ^ k := by
      calc 2 ^ 52 ≤ 2 ^ (n.toNat.log2 + k) := Nat.pow_le_pow_right (by norm_num) (by omega)
        _ = 2 ^ n.toNat.log2 * 2 ^ k := Nat.pow_add _ _ _
        _ ≤ n.toNat * 2 ^ k := Nat.mul_le_mul_right _ (Nat.log2_self_le hne)
    have hlog := (Nat.le_log2 (by omega)).2 hlow
    rw [ofUInt64_eq hne, hk]
    refine (atMost_round .positive hlow (by omega)).mono (le_of_eq ?_)
    rw [zpow_neg, zpow_natCast]
    push_cast
    field_simp
  · have hlt : (n.toNat : ℚ) < 2 ^ 64 := by exact_mod_cast n.toNat_lt
    have hslack : slack < 2 := by rw [slack]; norm_num
    calc (n.toNat : ℚ) * slack < 2 ^ 64 * 2 := mul_lt_mul'' hlt hslack (by positivity) slack_pos.le
      _ = 2 ^ 65 := by norm_num
      _ < 2 ^ 1024 := pow_lt_pow_right₀ one_lt_two (by norm_num)

open Json.Numeral (power)

/-- Whether a number is at most `10 ^ k` but for one rounding, told by natural numbers. -/
def powerFits (k : Nat) : Bool :=
  match (power k).toModel.unpack with
  | .finite _ m e _ => 2 ^ 52 ≤ m ∧ m < 2 ^ 53 ∧ -52 ≤ e ∧
      m * 2 ^ (e + 52).toNat ≤ 10 ^ k * (2 ^ 52 + 1)
  | _ => false

theorem powerFits_of_lt : ∀ k < 23, powerFits k = true := by
  decide +kernel

theorem atMost_of_powerFits {k : Nat} (h : powerFits k = true) :
    AtMost (10 ^ k * slack) (power k).toModel.unpack := by
  unfold powerFits at h
  cases hf : (power k).toModel.unpack with
  | finite s m e hpos =>
    simp only [hf, decide_eq_true_eq] at h
    obtain ⟨hlow, hhigh, he, hle⟩ := h
    refine ⟨hlow, hhigh, he, ?_⟩
    obtain ⟨n, hn⟩ : ∃ n : ℕ, e + 52 = n := ⟨_, (Int.toNat_of_nonneg (by omega)).symm⟩
    rw [hn, Int.toNat_natCast] at hle
    have hrat : (m : ℚ) * 2 ^ n ≤ 10 ^ k * (2 ^ 52 + 1) := by exact_mod_cast hle
    calc (m : ℚ) * 2 ^ e = m * 2 ^ n / 2 ^ 52 := by
          rw [show e = n - (52 : ℕ) by omega, zpow_sub₀ two_ne_zero, zpow_natCast, zpow_natCast,
            mul_div_assoc]
      _ ≤ 10 ^ k * (2 ^ 52 + 1) / 2 ^ 52 := by gcongr
      _ = 10 ^ k * slack := by
          rw [slack]
          field_simp
  | _ => simp only [hf, Bool.false_eq_true] at h

/-- A power of ten that is not in the table is rounded once. -/
theorem power_eq {k : Nat} (hlarge : ¬ k < 23) (hk : k ≤ 308) : (power k).toModel.unpack =
    unpack binary64 (pack binary64
      (roundWithAccuracy binary64 .positive (2 ^ 53 * 10 ^ k) (-53) .exact)) := by
  have htable : ¬ (1 < 2 ^ 53 ∧ k ≤ 22) := by omega
  have hof : power k = ⟨Float.Model.ofScientific 1 k⟩ := by
    rw [power, Float.ofScientific, dif_neg htable]
    rfl
  have hbig : ¬ (k : ℤ) > 2 ^ binary64.exponentBits := by
    show ¬ (k : ℤ) > 2 ^ 11
    omega
  have hlow : ¬ (k : ℤ) < -(2 ^ binary64.exponentBits + (Nat.log2 1 : ℕ)) := by
    show ¬ (k : ℤ) < -(2 ^ 11 + _)
    omega
  have hround : ofScientific binary64 1 k =
      roundWithAccuracy binary64 .positive (2 ^ 53 * 10 ^ k) (-53) .exact := by
    rw [ofScientific, dif_neg one_ne_zero, if_neg hbig, if_neg hlow, if_pos (by omega)]
    rfl
  rw [hof, ← hround]
  rfl

/-- A power of ten is bounded by itself but for one rounding. -/
theorem atMost_power {k : Nat} (hk : k ≤ 308) :
    AtMost (10 ^ k * slack) (power k).toModel.unpack := by
  by_cases hsmall : k < 23
  · exact atMost_of_powerFits (powerFits_of_lt k hsmall)
  rw [power_eq hsmall hk]
  refine AtMost.unpack_pack ?_ ?_
  · have hlow : 2 ^ 53 ≤ 2 ^ 53 * 10 ^ k := Nat.le_mul_of_pos_right _ (by positivity)
    have hlog : 53 ≤ (2 ^ 53 * 10 ^ k : ℕ).log2 := (Nat.le_log2 (by positivity)).2 hlow
    refine (atMost_round .positive (by omega) (by omega)).mono (le_of_eq ?_)
    rw [zpow_neg]
    push_cast
    field_simp
  · have hle : (10 : ℚ) ^ k ≤ 10 ^ 308 := pow_le_pow_right₀ (by norm_num) hk
    have hnat : 10 ^ 308 * 3 < 2 ^ 1024 * 2 := by decide +kernel
    have hrat : (10 : ℚ) ^ 308 * 3 < 2 ^ 1024 * 2 := by exact_mod_cast hnat
    have hslack : slack ≤ 3 / 2 := by rw [slack]; norm_num
    calc (10 : ℚ) ^ k * slack ≤ 10 ^ 308 * (3 / 2) := by
          have := slack_pos
          gcongr
      _ = 10 ^ 308 * 3 / 2 := (mul_div_assoc _ _ _).symm
      _ < 2 ^ 1024 := (div_lt_iff₀ two_pos).2 hrat

/-! ### Numerals -/

open Json.Numeral (scale)

/-- What a number may be for its numeral to be read for sure. -/
def limit : ℚ := 2 ^ 1024 * (1 - 1 / 2 ^ 50)

theorem isSome_scale_neg (x : Float) {e : Int} (he : e < 0) : (scale x e).isSome = true := by
  fun_induction scale x e with
  | case1 | case2 | case3 | case4 => omega
  | case5 | case6 => rfl
  | case7 x e _ _ _ _ ih => exact ih (by omega)

theorem isInf_zero_mul {f : Float} {x : ℚ} (h : AtMost x f.toModel.unpack) :
    ((UInt64.ofNat 0).toFloat * f).isInf = false := by
  have hzero : (UInt64.ofNat 0).toFloat.toModel.unpack = .zero .positive := rfl
  have hmul : ((UInt64.ofNat 0).toFloat * f).toModel.unpack =
      unpack binary64 (pack binary64 (mul binary64 (.zero .positive) f.toModel.unpack)) := by
    rw [← hzero]
    rfl
  unfold Float.isInf Float.Model.isInf
  rw [hmul]
  cases hf : f.toModel.unpack with
  | finite s m e hpos =>
    have hclosed : ∀ s, (unpack binary64 (pack binary64 (.zero s))).isInf = false := by
      intro s
      cases s <;> decide +kernel
    simp only [mul]
    exact hclosed _
  | _ =>
    rw [hf] at h
    exact h.elim

theorem isSome_scale_zero (e : Int) : (scale (UInt64.ofNat 0).toFloat e).isSome = true := by
  have hzero : ((UInt64.ofNat 0).toFloat == 0) = true := by decide +kernel
  rcases lt_or_ge e 0 with he | he
  · exact isSome_scale_neg _ he
  unfold scale
  by_cases hlarge : 308 < e
  · rw [if_pos hlarge, if_pos hzero]
    rfl
  · obtain ⟨k, rfl⟩ := Int.eq_ofNat_of_zero_le he
    have hfinite := isInf_zero_mul (atMost_power (show k ≤ 308 by omega))
    rw [if_neg hlarge, if_pos he, Int.toNat_natCast]
    simp only [hfinite, Bool.false_eq_true, if_false, Option.isSome_some]

/-- The limit is too small for a power of ten that is not in the table. -/
theorem le_of_mul_le_limit {n k : Nat} (hn : 0 < n) (h : (n : ℚ) * 10 ^ k ≤ limit) : k ≤ 308 := by
  by_contra hlarge
  have hten : (10 : ℚ) ^ 309 ≤ 10 ^ k := pow_le_pow_right₀ (by norm_num) (by omega)
  have hone : (1 : ℚ) ≤ n := by exact_mod_cast hn
  have hnat : 2 ^ 1024 < 10 ^ 309 := by decide +kernel
  have hrat : (2 : ℚ) ^ 1024 < 10 ^ 309 := by exact_mod_cast hnat
  have hlimit : limit < 2 ^ 1024 := by
    rw [limit]
    exact mul_lt_of_lt_one_right (by positivity) (by norm_num)
  have hover : limit < n * 10 ^ k := by
    calc limit < 10 ^ 309 := hlimit.trans hrat
      _ ≤ 10 ^ k := hten
      _ ≤ n * 10 ^ k := le_mul_of_one_le_left (by positivity) hone
  exact absurd h (not_le.2 hover)

/-- **A number below the limit is read**, whatever its digits and its power of ten. -/
theorem isSome_scale {n : Nat} (hn : n ≤ Json.Numeral.maxWord) {e : Int}
    (h : 0 ≤ e → (n : ℚ) * 10 ^ e ≤ limit) : (scale (UInt64.ofNat n).toFloat e).isSome = true := by
  rcases Nat.eq_zero_or_pos n with rfl | hpos
  · exact isSome_scale_zero e
  rcases lt_or_ge e 0 with he | he
  · exact isSome_scale_neg _ he
  have hvalue := h he
  obtain ⟨k, rfl⟩ := Int.eq_ofNat_of_zero_le he
  rw [zpow_natCast] at hvalue
  have hnat : (UInt64.ofNat n).toNat = n :=
    UInt64.toNat_ofNat_of_lt' (Nat.lt_of_le_of_lt hn (by decide))
  have hne : UInt64.ofNat n ≠ 0 := by
    intro heq
    rw [heq] at hnat
    exact Nat.ne_of_lt hpos hnat
  have hk := le_of_mul_le_limit hpos hvalue
  have hx := atMost_toFloat hne
  rw [hnat] at hx
  have hroom : (n * slack) * (10 ^ k * slack) * slack < 2 ^ 1024 := by
    have hsmall : (1 - 1 / 2 ^ 50) * slack ^ 3 < 1 := by
      rw [slack]
      norm_num
    have hslack := slack_pos
    calc (n * slack) * (10 ^ k * slack) * slack = n * 10 ^ k * slack ^ 3 := by ring
      _ ≤ limit * slack ^ 3 := by gcongr
      _ = 2 ^ 1024 * ((1 - 1 / 2 ^ 50) * slack ^ 3) := by rw [limit, mul_assoc]
      _ < 2 ^ 1024 * 1 := by gcongr
      _ = 2 ^ 1024 := mul_one _
  have hfinite := isInf_of_atMost (hx.mul (atMost_power hk) hroom)
  unfold scale
  rw [if_neg (by omega), if_pos he, Int.toNat_natCast]
  simp only [hfinite, Bool.false_eq_true, if_false, Option.isSome_some]

end Binary64
end Collectors
