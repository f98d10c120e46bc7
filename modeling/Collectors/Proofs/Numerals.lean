import Mathlib.Algebra.GroupWithZero.Nat
import Mathlib.Data.List.Basic
import Collectors.Json.Document
import Collectors.Json.Printer
import Collectors.Proofs.Texts

/-!
# The texts of numbers

Every number, be it an integer or a binary64 word, is written as one numeral. `Number.numeral` is
that numeral, and `Number.spells_text` says that it is read back in front of every text that does
not go on with a number (`Token.Delimited`).

The value of the numeral of an integer is the integer, if it fits 64 bits
(`Number.value_numeral_int`). What the numeral of a binary64 word stands for may be another word:
the digits are scaled in one step. `Number.Exact` holds of the numbers that are read back as
themselves.
-/

namespace Collectors
namespace Json

namespace Token

/-! ### Digits, fractions and exponents -/

/-- The values of some digits. -/
def values (ds : List Char) : List Nat := ds.map fun c => c.toNat - '0'.toNat

/-- Whether a text does not start with a digit. -/
def NoDigit (rest : List Char) : Prop := ∀ c ∈ rest.head?, c.isDigit = false

/-- Whether a text does not go on with a number that stands in front of it. -/
def Delimited (rest : List Char) : Prop :=
  ∀ c ∈ rest.head?, c.isDigit = false ∧ c ≠ '.' ∧ c ≠ 'e' ∧ c ≠ 'E'

theorem Delimited.noDigit {rest : List Char} (h : Delimited rest) : NoDigit rest :=
  fun c hc => (h c hc).1

theorem delimited_nil : Delimited [] := fun c hc => by cases hc

theorem delimited_cons {c : Char} (rest : List Char)
    (h : c.isDigit = false ∧ c ≠ '.' ∧ c ≠ 'e' ∧ c ≠ 'E') : Delimited (c :: rest) := by
  intro d hd
  obtain rfl : c = d := Option.some.inj hd
  exact h

theorem digits_append {ds rest : List Char} (hds : ∀ c ∈ ds, c.isDigit = true)
    (hrest : NoDigit rest) : digits (ds ++ rest) = (values ds, rest) := by
  unfold digits values
  rw [List.takeWhile_append_of_pos hds, List.dropWhile_append_of_pos hds]
  cases rest with
  | nil => rw [List.takeWhile_nil, List.dropWhile_nil, List.append_nil]
  | cons c rest =>
    have hc : ¬ c.isDigit = true := by rw [hrest c rfl]; exact Bool.false_ne_true
    rw [List.takeWhile_cons_of_neg hc, List.dropWhile_cons_of_neg hc, List.append_nil]

theorem values_ne_nil {ds : List Char} (h : ds ≠ []) : values ds ≠ [] :=
  fun hnil => h (List.map_eq_nil_iff.1 hnil)

theorem fractionPart_point {ds rest : List Char} (hds : ∀ c ∈ ds, c.isDigit = true)
    (hne : ds ≠ []) (hrest : NoDigit rest) :
    fractionPart ('.' :: (ds ++ rest)) = some (true, values ds, rest) := by
  have hvalues := values_ne_nil hne
  simp only [fractionPart, digits_append hds hrest]

theorem fractionPart_none {rest : List Char} (h : ∀ c ∈ rest.head?, c ≠ '.') :
    fractionPart rest = some (false, [], rest) := by
  unfold fractionPart
  split
  · exact absurd rfl (h _ rfl)
  · rfl

theorem exponentPart_none {rest : List Char} (h : ∀ c ∈ rest.head?, c ≠ 'e' ∧ c ≠ 'E') :
    exponentPart rest = some (none, rest) := by
  cases rest with
  | nil => rfl
  | cons c rest =>
    have hc : ¬ (c = 'e' ∨ c = 'E') := not_or.2 (h c rfl)
    simp only [exponentPart, if_neg hc]

theorem exponentPart_minus {ds rest : List Char} (hds : ∀ c ∈ ds, c.isDigit = true)
    (hne : ds ≠ []) (hrest : NoDigit rest) :
    exponentPart ('e' :: '-' :: (ds ++ rest)) =
      some (some (-(Numeral.ofDigits 0 (values ds) : Int)), rest) := by
  have hvalues := values_ne_nil hne
  simp only [exponentPart, true_or, if_true, digits_append hds hrest]

theorem exponentPart_digits {ds rest : List Char} (hds : ∀ c ∈ ds, c.isDigit = true)
    (hne : ds ≠ []) (hrest : NoDigit rest) :
    exponentPart ('e' :: (ds ++ rest)) =
      some (some (Numeral.ofDigits 0 (values ds) : Int), rest) := by
  have hvalues := values_ne_nil hne
  have hdigits := digits_append hds hrest
  cases ds with
  | nil => exact absurd rfl hne
  | cons d ds =>
    have hd := hds d List.mem_cons_self
    have hplus : d ≠ '+' := by rintro rfl; exact absurd hd (by decide)
    have hminus : d ≠ '-' := by rintro rfl; exact absurd hd (by decide)
    simp only [List.cons_append] at hdigits ⊢
    simp [exponentPart, hplus, hminus, hdigits]

theorem ofDigits_values (n : Nat) : Numeral.ofDigits 0 (values (Nat.toDigits 10 n)) = n := by
  rw [Numeral.ofDigits, values, List.foldl_map, ← Nat.ofDigitChars_eq_foldl,
    Nat.ofDigitChars_ten_toDigits]

/-- The text of an exponent is read as the exponent, whatever stands behind it. -/
theorem exponentPart_text (e : Int) {rest : List Char} (hrest : NoDigit rest) :
    exponentPart ('e' :: (Binary64.exponentText e ++ rest)) = some (some e, rest) := by
  have hds := isDigit_toDigits e.natAbs
  have hne : Nat.toDigits 10 e.natAbs ≠ [] := Nat.toDigits_ne_nil
  unfold Binary64.exponentText
  by_cases he : e < 0
  · rw [if_pos he, List.cons_append, exponentPart_minus hds hne hrest, ofDigits_values,
      show -(e.natAbs : Int) = e by omega]
  · rw [if_neg he, exponentPart_digits hds hne hrest, ofDigits_values,
      show (e.natAbs : Int) = e by omega]

/-! ### Numerals -/

theorem eq_zero_of_value {c : Char} (hc : c.isDigit = true) (h : c.toNat - '0'.toNat = 0) :
    c = '0' := by
  simp only [Char.isDigit, Bool.and_eq_true, decide_eq_true_eq] at hc
  apply Char.toNat_inj.1
  have : 48 ≤ c.toNat := hc.1
  show c.toNat = 48
  simp only [show '0'.toNat = 48 from rfl] at h
  omega

/-- Digits without a zero in front of others, a fraction and an exponent make a numeral. -/
theorem unsigned_append (negative : Bool) {whole tail r rest : List Char} {p : Bool}
    {f : List Nat} {e : Option Int} (hwhole : ∀ c ∈ whole, c.isDigit = true) (hne : whole ≠ [])
    (hzero : ∀ ds, whole = '0' :: ds → ds = []) (htail : NoDigit tail)
    (hf : fractionPart tail = some (p, f, r)) (he : exponentPart r = some (e, rest)) :
    unsigned negative (whole ++ tail) =
      some ({ negative, whole := values whole, fraction := f, exponent := e, point := p },
        rest) := by
  have hvalues := values_ne_nil hne
  have hlead : ∀ n ns, values whole ≠ 0 :: n :: ns := by
    intro n ns h
    cases whole with
    | nil => exact hne rfl
    | cons c ds =>
      obtain ⟨hc, hds⟩ := List.cons.inj h
      obtain rfl := eq_zero_of_value (hwhole c List.mem_cons_self) hc
      obtain rfl := hzero ds rfl
      cases hds
  unfold unsigned
  rw [digits_append hwhole htail]
  simp only [hf, he, bind, Option.bind_some]
  rfl

/-- A digit starts an unsigned numeral. -/
theorem one?_digit {c : Char} (hc : c.isDigit = true) (rest : List Char) :
    one? (c :: rest) = (unsigned false (c :: rest)).map fun (n, r) => (.numeral n, r) := by
  unfold one?
  split <;> rename_i heq <;> first
    | (obtain ⟨rfl, rfl⟩ := List.cons.inj heq; first | rfl | exact absurd hc (by decide))
    | cases heq

/-- Whether a text is read as a numeral in front of every text that does not go on with a
number. -/
def Spells (cs : List Char) (n : Numeral) : Prop :=
  ∀ rest, Delimited rest → one? (cs ++ rest) = some (.numeral n, rest)

theorem isDigit_of_unsigned {negative : Bool} {cs r : List Char} {n : Numeral}
    (h : unsigned negative cs = some (n, r)) : ∃ c ds, cs = c :: ds ∧ c.isDigit = true := by
  cases cs with
  | nil => cases h
  | cons c ds =>
    refine ⟨c, ds, rfl, ?_⟩
    by_contra hc
    have hdigits : digits (c :: ds) = ([], c :: ds) := by
      rw [digits, List.takeWhile_cons_of_neg hc, List.dropWhile_cons_of_neg hc, List.map_nil]
    rw [unsigned, hdigits] at h
    cases h

/-- A sign goes with its numeral. -/
theorem spells_of_unsigned (negative : Bool) {cs : List Char} {n : Numeral}
    (h : ∀ rest, Delimited rest → unsigned negative (cs ++ rest) = some (n, rest)) :
    Spells (if negative then '-' :: cs else cs) n := by
  intro rest hrest
  have hread := h rest hrest
  cases negative with
  | true =>
    show (unsigned true (cs ++ rest)).map _ = _
    rw [hread]
    rfl
  | false =>
    obtain ⟨c, ds, hcs, hc⟩ := isDigit_of_unsigned hread
    show one? (cs ++ rest) = _
    rw [hcs, one?_digit hc, ← hcs, hread]
    rfl

end Token

/-! ### Integers -/

open Token

theorem toDigits_cons_ne_zero {n : Nat} (hn : n ≠ 0) :
    ∃ c ds, Nat.toDigits 10 n = c :: ds ∧ c ≠ '0' := by
  induction n using Nat.strongRecOn with
  | _ n ih =>
    by_cases h : n < 10
    · refine ⟨n.digitChar, [], Nat.toDigits_of_lt_base h, fun hc => hn ?_⟩
      exact Nat.digitChar_eq_zero.1 hc
    · obtain ⟨c, ds, hds, hc⟩ := ih (n / 10) (by omega) (by omega)
      rw [Nat.toDigits_of_base_le (by decide) (by omega), hds]
      exact ⟨c, ds ++ [(n % 10).digitChar], rfl, hc⟩

theorem eq_nil_of_toDigits {n : Nat} (ds : List Char) (h : Nat.toDigits 10 n = '0' :: ds) :
    ds = [] := by
  by_cases hn : n = 0
  · rw [hn, Nat.toDigits_zero] at h
    exact (List.cons.inj h).2.symm
  · obtain ⟨c, cs, hcs, hc⟩ := toDigits_cons_ne_zero hn
    rw [hcs] at h
    exact absurd (List.cons.inj h).1 hc

/-- The numeral of an integer. -/
def Numeral.ofNat (negative : Bool) (n : Nat) : Numeral :=
  { negative, whole := values (Nat.toDigits 10 n), fraction := [], exponent := none,
    point := false }

theorem unsigned_toDigits (negative : Bool) (n : Nat) {rest : List Char} (h : Delimited rest) :
    unsigned negative (Nat.toDigits 10 n ++ rest) = some (Numeral.ofNat negative n, rest) :=
  unsigned_append negative (isDigit_toDigits n) Nat.toDigits_ne_nil eq_nil_of_toDigits h.noDigit
    (fractionPart_none fun c hc => (h c hc).2.1) (exponentPart_none fun c hc => (h c hc).2.2)

/-- The numeral that an integer is written as. -/
def Numeral.ofInt : Int → Numeral
  | .ofNat n => ofNat false n
  | .negSucc n => ofNat true (n + 1)

theorem spells_intText : (i : Int) → Spells (intText i) (Numeral.ofInt i)
  | .ofNat n => spells_of_unsigned false fun _ h => unsigned_toDigits false n h
  | .negSucc n => spells_of_unsigned true fun _ h => unsigned_toDigits true (n + 1) h

/-- An integer that fits 64 bits, with or without a sign, is the value of its numeral. -/
theorem value_ofInt {i : Int} (hlow : -0x8000000000000000 ≤ i) (hhigh : i ≤ Numeral.maxWord) :
    (Numeral.ofInt i).value = some (.int i) := by
  have hpoint : ¬ (False ∨ (none : Option Int).isSome = true) := by simp
  cases i with
  | ofNat n =>
    have hn : n ≤ Numeral.maxWord := Int.ofNat_le.1 hhigh
    simp only [Numeral.value, Numeral.ofInt, Numeral.ofNat, ofDigits_values, Bool.false_eq_true,
      if_neg hpoint, if_false, if_pos hn]
    rfl
  | negSucc n =>
    have hn : n + 1 ≠ 0 ∧ n + 1 ≤ 0x8000000000000000 := by omega
    simp only [Numeral.value, Numeral.ofInt, Numeral.ofNat, ofDigits_values, Bool.false_eq_true,
      if_neg hpoint, if_true, if_pos hn]
    rfl

/-! ### Binary64 words -/

/-- Whether some digits and a power of ten are those of a word: there is no zero in front, or
there is nothing but a zero. -/
def Significant (ds : List Char) (k : Int) : Prop :=
  (∀ c ∈ ds, c.isDigit = true) ∧ ((∃ c cs, ds = c :: cs ∧ c ≠ '0') ∨ (ds = ['0'] ∧ k = 0))

theorem isDigit_zero : ∀ c ∈ ['0'], c.isDigit = true := List.all_eq_true.1 rfl

theorem zero_ne_nil : ['0'] ≠ [] := List.cons_ne_nil _ _

theorem significant_trim {n : Nat} (hn : n ≠ 0) (k : Int) :
    Significant (Binary64.trim (Nat.toDigits 10 n) k).1
      (Binary64.trim (Nat.toDigits 10 n) k).2 := by
  refine ⟨fun c hc => isDigit_toDigits n c (List.mem_of_mem_take hc), .inl ?_⟩
  obtain ⟨c, ds, hds, hc⟩ := toDigits_cons_ne_zero hn
  unfold Binary64.trim
  rw [hds]
  have hzeros : ((c :: ds).reverse.takeWhile (· = '0')).length ≤ ds.length := by
    rw [List.reverse_cons, List.takeWhile_append]
    split
    · rw [List.takeWhile_cons_of_neg (by simpa using hc), List.append_nil]
      exact Nat.le_of_eq List.length_reverse
    · exact Nat.le_trans (List.takeWhile_prefix _).length_le (Nat.le_of_eq List.length_reverse)
  obtain ⟨m, hm⟩ : ∃ m, (c :: ds).length - ((c :: ds).reverse.takeWhile (· = '0')).length =
      m + 1 := ⟨_, (Nat.sub_add_cancel (by rw [List.length_cons]; omega)).symm⟩
  refine ⟨c, ds.take m, ?_, hc⟩
  show (c :: ds).take _ = _
  rw [hm, List.take_succ_cons]

theorem onGrid_ne_zero {bits : UInt64} {k : Int} {n : Nat} (h : Binary64.onGrid bits k = some n) :
    n ≠ 0 := by
  unfold Binary64.onGrid at h
  simp only at h
  split at h
  · rename_i hbelow
    exact Option.some.inj h ▸ hbelow.1.1
  · split at h
    · exact Option.some.inj h ▸ Nat.succ_ne_zero _
    · cases h

theorem significant_shortest (bits : UInt64) :
    Significant (Binary64.shortest bits).1 (Binary64.shortest bits).2 := by
  have hgetD : ∀ found : Option (List Char × Int), (∀ d ∈ found, Significant d.1 d.2) →
      Significant (found.getD (['0'], 0)).1 (found.getD (['0'], 0)).2 := by
    intro found h
    cases found with
    | none => exact ⟨isDigit_zero, .inr ⟨rfl, rfl⟩⟩
    | some d => exact h d rfl
  refine hgetD _ fun d hd => ?_
  obtain ⟨i, -, hi⟩ := List.exists_of_findSome?_eq_some hd
  obtain ⟨n, hn, rfl⟩ := Option.map_eq_some_iff.1 hi
  exact significant_trim (onGrid_ne_zero hn) _

/-- Whether some digits may stand in front of a point: there is no zero in front of others, and
they fit 64 bits. -/
structure Front (whole : List Char) : Prop where
  digits : ∀ c ∈ whole, c.isDigit = true
  ne_nil : whole ≠ []
  zero : ∀ ds, whole = '0' :: ds → ds = []
  length : whole.length ≤ 16

theorem front_zero : Front ['0'] where
  digits := isDigit_zero
  ne_nil := zero_ne_nil
  zero _ h := (List.cons.inj h).2.symm
  length := by decide

theorem front_take {c : Char} {cs : List Char} (hds : ∀ d ∈ c :: cs, d.isDigit = true)
    (hc : c ≠ '0') {n : Nat} (hn : n < 16) : Front ((c :: cs).take (n + 1)) where
  digits d hd := hds d (List.mem_of_mem_take hd)
  ne_nil := List.cons_ne_nil _ _
  zero _ h := absurd (List.cons.inj h).1 hc
  length := by
    rw [List.length_take]
    omega

theorem isDigit_append {ds es : List Char} (hds : ∀ c ∈ ds, c.isDigit = true)
    (hes : ∀ c ∈ es, c.isDigit = true) : ∀ c ∈ ds ++ es, c.isDigit = true :=
  fun c hc => (List.mem_append.1 hc).elim (hds c) (hes c)

theorem isDigit_zeros (n : Nat) : ∀ c ∈ List.replicate n '0', c.isDigit = true := by
  intro c hc
  rw [List.eq_of_mem_replicate hc]
  rfl

theorem Significant.ne_nil {ds : List Char} {k : Int} (h : Significant ds k) : ds ≠ [] := by
  rcases h.2 with ⟨c, cs, rfl, -⟩ | ⟨rfl, -⟩ <;> exact List.cons_ne_nil _ _

theorem Significant.front {ds : List Char} {k : Int} (h : Significant ds k)
    (hk : 0 ≤ k ∧ ds.length + k ≤ 16) : Front (ds ++ List.replicate k.toNat '0') where
  digits := isDigit_append h.1 (isDigit_zeros _)
  ne_nil := List.append_ne_nil_of_left_ne_nil h.ne_nil _
  zero cs hcs := by
    rcases h.2 with ⟨c, cs', rfl, hc⟩ | ⟨rfl, rfl⟩
    · exact absurd (List.cons.inj hcs).1 hc
    · exact (List.cons.inj hcs).2.symm
  length := by
    rw [List.length_append, List.length_replicate]
    omega

/-- Digits, a point and digits are read as a numeral. -/
theorem unsigned_point (negative : Bool) {whole fraction : List Char} (hwhole : Front whole)
    (hfraction : ∀ c ∈ fraction, c.isDigit = true) (hfne : fraction ≠ []) {rest : List Char}
    (hrest : Delimited rest) : unsigned negative (whole ++ '.' :: fraction ++ rest) =
      some (⟨negative, values whole, values fraction, none, true⟩, rest) := by
  rw [List.append_assoc]
  exact unsigned_append negative hwhole.digits hwhole.ne_nil hwhole.zero
    (fun c hc => by cases hc; rfl) (fractionPart_point hfraction hfne hrest.noDigit)
    (exponentPart_none fun c hc => (hrest c hc).2.2)

/-- Digits, perhaps a point and more digits, and an exponent are read as a numeral. -/
theorem unsigned_exponent (negative : Bool) {whole fraction : List Char} (hwhole : Front whole)
    (hfraction : ∀ c ∈ fraction, c.isDigit = true) (e : Int) {rest : List Char}
    (hrest : Delimited rest) :
    unsigned negative (whole ++ (if fraction.isEmpty then [] else '.' :: fraction) ++
        'e' :: Binary64.exponentText e ++ rest) =
      some (⟨negative, values whole, values fraction, some e, !fraction.isEmpty⟩, rest) := by
  have hdigit : ∀ rest, NoDigit ('e' :: rest) := fun rest c hc => by cases hc; rfl
  rw [List.append_assoc, List.append_assoc]
  cases fraction with
  | nil =>
    exact unsigned_append negative hwhole.digits hwhole.ne_nil hwhole.zero (hdigit _)
      (fractionPart_none fun c hc => by cases hc; decide) (exponentPart_text e hrest.noDigit)
  | cons d ds =>
    exact unsigned_append negative hwhole.digits hwhole.ne_nil hwhole.zero
      (fun c hc => by cases hc; rfl)
      (fractionPart_point hfraction (List.cons_ne_nil d ds) (hdigit _))
      (exponentPart_text e hrest.noDigit)

theorem ofDigits_append (n : Nat) (ds es : List Nat) :
    Numeral.ofDigits n (ds ++ es) = Numeral.ofDigits (Numeral.ofDigits n ds) es :=
  List.foldl_append

theorem ofDigits_zeros (n k : Nat) :
    Numeral.ofDigits n (values (List.replicate k '0')) = n * 10 ^ k := by
  induction k generalizing n with
  | zero => exact (Nat.mul_one n).symm
  | succ k ih =>
    have hstep : Numeral.ofDigits n (values (List.replicate (k + 1) '0')) =
        Numeral.ofDigits (10 * n) (values (List.replicate k '0')) := rfl
    rw [hstep, ih, Nat.pow_succ']
    ac_rfl

theorem ofDigits_lt {ds : List Char} (hds : ∀ c ∈ ds, c.isDigit = true) (n : Nat) :
    Numeral.ofDigits n (values ds) < (n + 1) * 10 ^ ds.length := by
  induction ds generalizing n with
  | nil => simp [Numeral.ofDigits, values]
  | cons c ds ih =>
    have hc := hds c List.mem_cons_self
    simp only [Char.isDigit, Bool.and_eq_true, decide_eq_true_eq] at hc
    have hvalue : c.toNat - '0'.toNat ≤ 9 := by
      have : c.toNat ≤ 57 := hc.2
      simp only [show '0'.toNat = 48 from rfl]
      omega
    have hrest := ih (fun d hd => hds d (List.mem_cons_of_mem _ hd))
      (10 * n + (c.toNat - '0'.toNat))
    have hstep : Numeral.ofDigits n (values (c :: ds)) =
        Numeral.ofDigits (10 * n + (c.toNat - '0'.toNat)) (values ds) := rfl
    rw [hstep, List.length_cons, Nat.pow_succ', ← Nat.mul_assoc]
    exact Nat.lt_of_lt_of_le hrest (Nat.mul_le_mul_right _ (by omega))

theorem Front.ofDigits_le {ds : List Char} (h : Front ds) :
    Numeral.ofDigits 0 (values ds) ≤ Numeral.maxWord := by
  have hlt := ofDigits_lt h.digits 0
  have hpow : 10 ^ ds.length ≤ 10 ^ 16 := Nat.pow_le_pow_right (by decide) h.length
  have hmax : 10 ^ 16 ≤ Numeral.maxWord := by decide
  omega

theorem values_append (ds es : List Char) : values (ds ++ es) = values ds ++ values es :=
  List.map_append

/-- Whether a numeral writes `n * 10 ^ k` with a point or an exponent, and its digits in front of
the point fit 64 bits. -/
structure Writes (m : Numeral) (n : Nat) (k : Int) : Prop where
  real : m.point = true ∨ m.exponent.isSome = true
  whole : Numeral.ofDigits 0 m.whole ≤ Numeral.maxWord
  digits : ∃ zeros : Nat, Numeral.ofDigits 0 (m.whole ++ m.fraction) = n * 10 ^ zeros ∧
    m.exponent.getD 0 - m.fraction.length = k - zeros

/-- Whether some characters are read, behind a sign or without, as a numeral that writes
`n * 10 ^ k`. -/
def Denotes (cs : List Char) (n : Nat) (k : Int) : Prop :=
  ∀ negative, ∃ m, Writes m n k ∧ ∀ rest, Delimited rest →
    unsigned negative (cs ++ rest) = some (m, rest)

theorem denotes_point {whole fraction : List Char} (hwhole : Front whole)
    (hfraction : ∀ c ∈ fraction, c.isDigit = true) (hfne : fraction ≠ []) {n : Nat} {k : Int}
    (zeros : Nat) (hdigits : Numeral.ofDigits 0 (values (whole ++ fraction)) = n * 10 ^ zeros)
    (hk : -(fraction.length : Int) = k - zeros) : Denotes (whole ++ '.' :: fraction) n k := by
  intro negative
  refine ⟨⟨negative, values whole, values fraction, none, true⟩, ⟨.inl rfl, hwhole.ofDigits_le,
    zeros, ?_, ?_⟩, fun rest => unsigned_point negative hwhole hfraction hfne⟩
  · rw [← hdigits, values_append]
  · rw [← hk]
    simp [values]

theorem denotes_exponent {whole fraction : List Char} (hwhole : Front whole)
    (hfraction : ∀ c ∈ fraction, c.isDigit = true) {e k : Int} (hk : e - fraction.length = k) :
    Denotes (whole ++ (if fraction.isEmpty then [] else '.' :: fraction) ++
      'e' :: Binary64.exponentText e) (Numeral.ofDigits 0 (values (whole ++ fraction))) k := by
  intro negative
  refine ⟨⟨negative, values whole, values fraction, some e, !fraction.isEmpty⟩, ⟨.inr rfl,
    hwhole.ofDigits_le, 0, ?_, ?_⟩, fun rest => unsigned_exponent negative hwhole hfraction e⟩
  · rw [Nat.pow_zero, Nat.mul_one, values_append]
  · rw [← hk]
    simp [values]

/-- Digits and zeros in front of the point. -/
theorem Significant.denotes_zeros {ds : List Char} {k : Int} (h : Significant ds k)
    (hk : 0 ≤ k ∧ ds.length + k ≤ 16) :
    Denotes (ds ++ List.replicate k.toNat '0' ++ ['.', '0'])
      (Numeral.ofDigits 0 (values ds)) k := by
  have hdigits : Numeral.ofDigits 0 (values (ds ++ List.replicate k.toNat '0' ++ ['0'])) =
      Numeral.ofDigits 0 (values ds) * 10 ^ (k.toNat + 1) := by
    rw [List.append_assoc, ← List.replicate_succ', values_append, ofDigits_append, ofDigits_zeros]
  refine denotes_point (h.front hk) isDigit_zero zero_ne_nil _ hdigits ?_
  rw [List.length_singleton]
  omega

/-- Digits on both sides of the point. -/
theorem denotes_split {c : Char} {cs : List Char} (hds : ∀ d ∈ c :: cs, d.isDigit = true)
    (hc : c ≠ '0') {k : Int} (hk : k < 0) {n : Nat} (hn : ((c :: cs).length + k : Int) = n + 1)
    (hlength : n < 16) : Denotes ((c :: cs).take (n + 1) ++ '.' :: (c :: cs).drop (n + 1))
      (Numeral.ofDigits 0 (values (c :: cs))) k := by
  have hfraction : (c :: cs).drop (n + 1) ≠ [] := by
    rw [ne_eq, List.drop_eq_nil_iff]
    omega
  refine denotes_point (front_take hds hc hlength) (fun d hd => hds d (List.mem_of_mem_drop hd))
    hfraction 0 ?_ ?_
  · rw [List.take_append_drop, Nat.pow_zero, Nat.mul_one]
  · rw [List.length_drop]
    omega

/-- Zeros and digits behind the point. -/
theorem denotes_fraction {ds : List Char} (hds : ∀ c ∈ ds, c.isDigit = true) (hne : ds ≠ [])
    {k : Int} {n : Nat} (hn : (ds.length + k : Int) = -n) :
    Denotes ('0' :: '.' :: List.replicate n '0' ++ ds) (Numeral.ofDigits 0 (values ds)) k := by
  have hdigits : Numeral.ofDigits 0 (values (['0'] ++ (List.replicate n '0' ++ ds))) =
      Numeral.ofDigits 0 (values ds) * 10 ^ 0 := by
    rw [← List.append_assoc, values_append, ofDigits_append,
      show ['0'] ++ List.replicate n '0' = List.replicate (n + 1) '0' from rfl, ofDigits_zeros,
      Nat.zero_mul, Nat.pow_zero, Nat.mul_one]
  refine denotes_point front_zero (isDigit_append (isDigit_zeros n) hds)
    (List.append_ne_nil_of_right_ne_nil _ hne) 0 hdigits ?_
  rw [List.length_append, List.length_replicate]
  omega

/-- One digit in front of the point, and an exponent. -/
theorem denotes_scientific {c : Char} {cs : List Char} (hds : ∀ d ∈ c :: cs, d.isDigit = true)
    (hc : c ≠ '0') (k : Int) :
    Denotes ((c :: cs).take 1 ++ (if ((c :: cs).drop 1).isEmpty then [] else
        '.' :: (c :: cs).drop 1) ++ 'e' :: Binary64.exponentText ((c :: cs).length + k - 1))
      (Numeral.ofDigits 0 (values (c :: cs))) k := by
  have hk : ((c :: cs).length + k - 1 : Int) - ((c :: cs).drop 1).length = k := by
    rw [List.length_drop, List.length_cons]
    omega
  have h := denotes_exponent (front_take hds hc (n := 0) (by decide))
    (fun d hd => hds d (List.mem_of_mem_drop hd)) hk
  rwa [List.take_append_drop] at h

/-- What is written of a word without its sign is a numeral. -/
theorem denotes_layout {ds : List Char} {k : Int} (h : Significant ds k) :
    Denotes (Binary64.layout ds k) (Numeral.ofDigits 0 (values ds)) k := by
  unfold Binary64.layout
  simp only
  split
  · exact h.denotes_zeros ‹_›
  rename_i hlong
  -- From here on there is a digit that is no zero in front: a zero is written above.
  obtain ⟨hds, ⟨c, cs, rfl, hc⟩ | ⟨rfl, rfl⟩⟩ := h
  · split
    · obtain ⟨n, hn⟩ : ∃ n : Nat, ((c :: cs).length + k : Int) = n + 1 :=
        ⟨((c :: cs).length + k - 1).toNat, by omega⟩
      rw [hn]
      exact denotes_split hds hc (by omega) hn (by omega)
    split
    · obtain ⟨n, hn⟩ : ∃ n : Nat, ((c :: cs).length + k : Int) = -n :=
        ⟨(-((c :: cs).length + k)).toNat, by omega⟩
      rw [hn, Int.neg_neg]
      exact denotes_fraction hds (List.cons_ne_nil c cs) hn
    · exact denotes_scientific hds hc k
  · exact absurd ⟨Int.le_refl 0, by decide⟩ hlong

/-- Every word, be it a number or not, is written as a numeral: as zero, or with the digits of its
shortest decimal. -/
theorem exists_spells_text (bits : UInt64) :
    ∃ m, Spells (Binary64.text bits) m ∧ (Writes m 0 0 ∨
      Writes m (Numeral.ofDigits 0 (values (Binary64.shortest bits).1))
        (Binary64.shortest bits).2) := by
  have hlayout := denotes_layout (significant_shortest bits) (Binary64.negative bits)
  rcases hshortest : Binary64.shortest bits with ⟨ds, k⟩
  rw [hshortest] at hlayout
  obtain ⟨m, hwrites, hread⟩ := hlayout
  by_cases hsignificand : Binary64.significand bits = 0
  · have hzero : Denotes ['0', '.', '0'] 0 0 :=
      denotes_point front_zero isDigit_zero zero_ne_nil 1 rfl rfl
    obtain ⟨m, hwrites, hread⟩ := hzero (Binary64.negative bits)
    refine ⟨m, ?_, .inl hwrites⟩
    rw [Binary64.text, if_pos hsignificand]
    exact spells_of_unsigned _ hread
  · refine ⟨m, ?_, .inr hwrites⟩
    rw [Binary64.text, hshortest, if_neg hsignificand]
    exact spells_of_unsigned _ hread

/-! ### Numbers -/

namespace Number

/-- The numeral that a number is written as. -/
def numeral (n : Number) : Numeral :=
  match Token.one? n.text with
  | some (.numeral m, _) => m
  | _ => Numeral.ofNat false 0

/-- Whether a number is read back from its text as itself. -/
def Exact (n : Number) : Prop := n.numeral.value = some n

theorem numeral_of_spells {n : Number} {m : Numeral} (h : Spells n.text m) : n.numeral = m := by
  have hone := h [] delimited_nil
  rw [List.append_nil] at hone
  rw [numeral, hone]

/-- **The text of a number is a numeral.** -/
theorem spells_text (n : Number) : Spells n.text n.numeral := by
  obtain ⟨m, hm⟩ : ∃ m, Spells n.text m := by
    cases n with
    | int i => exact ⟨_, spells_intText i⟩
    | real bits =>
      obtain ⟨m, hm, -⟩ := exists_spells_text bits
      exact ⟨m, hm⟩
  rwa [numeral_of_spells hm]

/-- A word is written with the digits of its shortest decimal, if it is not zero. -/
theorem writes_real (bits : UInt64) : Writes (real bits).numeral 0 0 ∨
    Writes (real bits).numeral (Numeral.ofDigits 0 (values (Binary64.shortest bits).1))
      (Binary64.shortest bits).2 := by
  obtain ⟨m, hm, hwrites⟩ := exists_spells_text bits
  have hnumeral : (real bits).numeral = m := numeral_of_spells hm
  rwa [hnumeral]

/-- An integer that fits 64 bits, with or without a sign, is read back. -/
theorem exact_int {i : Int} (hlow : -0x8000000000000000 ≤ i) (hhigh : i ≤ Numeral.maxWord) :
    (int i).Exact := by
  have hnumeral : (int i).numeral = Numeral.ofInt i := numeral_of_spells (spells_intText i)
  rw [Exact, hnumeral]
  exact value_ofInt hlow hhigh

end Number
end Json
end Collectors
