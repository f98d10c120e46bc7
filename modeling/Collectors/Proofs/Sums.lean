import Mathlib.Data.Int.ModEq
import Collectors.Proofs.Configurations
import Collectors.Proofs.Outcomes
import Collectors.Proofs.Tokens

/-!
# Sums and lives of dummy instances

A dummy instance adds when it is asked directly, by an operation, or through the provider that has
its collector. All ways lead to one number (`Dummy.isSum_iff`), and an operation is refused exactly
if an operand is no integer of 32 bits (`Dummy.answer_sum_cases`).

Instances live on when they have been closed or destroyed: whatever has been asked of the backend
and its instances, an instance does what it did before, and only its configuration is gone once it
has ended (`Dummy.config?_run`). `Dummy.routes_agree` puts this together.
-/

namespace Collectors

variable {β ι ω β' ι' ω' : Type}

/-! ### Requests to a collector that is found -/

namespace Provider

variable {b : Behaviour β ι ω} {p : Provider β ι} {id : CollectorId} {c : Collector ι} {w w' : ω}

theorem perform_sum (hc : p.table.get? id = some c) {x y : Int32} {r : Except Error Int32}
    (hr : b.sum c.resource x y w = (some r, w')) :
    p.perform b (.sum id x y) w =
      { call := .finished (r.map .sum), provider := p, world := w' } := by
  rw [perform, Call.run_of_not_isDone rfl]
  simp only [Call.step, Call.begin, hc]
  rw [Call.run_of_not_isDone rfl]
  simp only [Call.step, hr]
  rw [Call.run_of_isDone rfl]
  rfl

theorem perform_invoke (hc : p.table.get? id = some c) {operation : String} {args v : Json}
    (hv : b.invoke c.resource operation args w = (some (.ok v), w')) :
    p.perform b (.invoke id operation args) w =
      { call := .finished (.ok (.value v)), provider := p, world := w' } := by
  rw [perform, Call.run_of_not_isDone rfl]
  simp only [Call.step, Call.begin, hc]
  rw [Call.run_of_not_isDone rfl]
  simp only [Call.step, hv]
  rw [Call.run_of_isDone rfl]
  rfl

end Provider

namespace Dummy

/-! ### Sums -/

/-- Whether `s` is the sum of two numbers modulo `2 ^ 32`, as a signed number of 32 bits. -/
def IsSum (x y : Int32) (s : Int) : Prop :=
  -2 ^ 31 ≤ s ∧ s < 2 ^ 31 ∧ s ≡ x.toInt + y.toInt [ZMOD 2 ^ 32]

/-- There is one sum, which is what instances give. -/
theorem isSum_iff {x y : Int32} {s : Int} : IsSum x y s ↔ s = (add x y).toInt := by
  have hmod : (add x y).toInt ≡ x.toInt + y.toInt [ZMOD 2 ^ 32] := by
    rw [add, Int32.toInt_add]
    exact Int.bmod_emod
  have hlow := (add x y).le_toInt
  have hhigh := (add x y).toInt_lt
  constructor
  · rintro ⟨hl, hh, h⟩
    have heq : s % 2 ^ 32 = (add x y).toInt % 2 ^ 32 := h.trans hmod.symm
    omega
  · rintro rfl
    exact ⟨hlow, hhigh, hmod⟩

/-! ### Operands -/

/-- Whether some arguments are an object whose member is the integer `n` of 32 bits. -/
structure Holds (args : Json) (name : String) (n : Int) : Prop where
  member : ∃ members, args = .object members ∧ members.lookup name = some (.int n)
  low : -2 ^ 31 ≤ n
  high : n < 2 ^ 31

theorem int?_member?_eq_some_iff {args : Json} {name : String} {n : Int} :
    (args.member? name).bind Json.int? = some n ↔
      ∃ members, args = .object members ∧ members.lookup name = some (.int n) := by
  rw [Option.bind_eq_some_iff]
  constructor
  · rintro ⟨v, hmember, hint⟩
    cases args with
    | object members =>
      refine ⟨members, rfl, ?_⟩
      rw [show members.lookup name = some v from hmember]
      unfold Json.int? at hint
      split at hint
      · cases hint
        rfl
      · cases hint
    | _ => cases hmember
  · rintro ⟨members, rfl, hlookup⟩
    exact ⟨.int n, hlookup, rfl⟩

/-- An operand is read, or it is named as the one that is missing. -/
theorem operand_cases (args : Json) (name : String) :
    (∃ x : Int32, Holds args name x.toInt ∧ operand args name = .ok x) ∨
    ((∀ n, ¬ Holds args name n) ∧
      operand args name = .error (.invalidArgs ("sum expects an i32 field `" ++ name ++ "`"))) := by
  cases hn : (args.member? name).bind Json.int? with
  | none =>
    refine .inr ⟨fun n h => ?_, by rw [operand, hn]⟩
    rw [int?_member?_eq_some_iff.2 h.member] at hn
    cases hn
  | some n =>
    have hmember := int?_member?_eq_some_iff.1 hn
    by_cases hrange : -0x80000000 ≤ n ∧ n < 0x80000000
    · refine .inl ⟨Int32.ofInt n, ?_, by rw [operand, hn]; exact if_pos hrange⟩
      rw [Int32.toInt_ofInt_of_le hrange.1 hrange.2]
      exact ⟨hmember, hrange.1, hrange.2⟩
    · refine .inr ⟨fun m h => hrange ?_, by rw [operand, hn]; exact if_neg hrange⟩
      obtain rfl : m = n := by
        rw [int?_member?_eq_some_iff.2 h.member] at hn
        exact Option.some.inj hn
      exact ⟨h.low, h.high⟩

/-- One integer at most is held. -/
theorem Holds.unique {args : Json} {name : String} {m n : Int} (hm : Holds args name m)
    (hn : Holds args name n) : m = n := by
  have heq := int?_member?_eq_some_iff.2 hm.member
  rw [int?_member?_eq_some_iff.2 hn.member] at heq
  exact (Option.some.inj heq).symm

/-- **The operation adds or names the first operand that it cannot use.** -/
theorem answer_sum_cases (config : Option Json) (args : Json) :
    (∃ x y : Int32, Holds args "x" x.toInt ∧ Holds args "y" y.toInt ∧
      answer config "sum" args = .ok (.int (add x y).toInt)) ∨
    ((∀ n, ¬ Holds args "x" n) ∧
      answer config "sum" args = .error (.invalidArgs "sum expects an i32 field `x`")) ∨
    ((∃ n, Holds args "x" n) ∧ (∀ n, ¬ Holds args "y" n) ∧
      answer config "sum" args = .error (.invalidArgs "sum expects an i32 field `y`")) := by
  have hanswer : answer config "sum" args = (do
      let x ← operand args "x"
      let y ← operand args "y"
      return .int (add x y).toInt) := by
    rw [answer, if_neg (by decide), if_pos rfl]
  rw [hanswer]
  rcases operand_cases args "x" with ⟨x, hx, hopx⟩ | ⟨hx, hopx⟩
  · rcases operand_cases args "y" with ⟨y, hy, hopy⟩ | ⟨hy, hopy⟩
    · exact .inl ⟨x, y, hx, hy, by rw [hopx, hopy]; rfl⟩
    · exact .inr (.inr ⟨⟨_, hx⟩, hy, by rw [hopx, hopy]; rfl⟩)
  · exact .inr (.inl ⟨hx, by rw [hopx]; rfl⟩)

theorem answer_sum {args : Json} {x y : Int32} (hx : Holds args "x" x.toInt)
    (hy : Holds args "y" y.toInt) (config : Option Json) :
    answer config "sum" args = .ok (.int (add x y).toInt) := by
  rcases answer_sum_cases config args with ⟨x', y', hx', hy', h⟩ | ⟨hno, -⟩ | ⟨-, hno, -⟩
  · rw [h, Int32.toInt_inj.1 (hx.unique hx'), Int32.toInt_inj.1 (hy.unique hy')]
  · exact absurd hx (hno _)
  · exact absurd hy (hno _)

/-! ### Lives -/

/-- What may be asked of the dummy backend and of its instances. -/
inductive Use where
  | make (mode : Mode) (config : Option String)
  | close (i : Nat)
  | destroy (i : Nat)
  | hello (i : Nat)
  | sum (i : Nat) (x y : Int32)
  | invoke (i : Nat) (operation : String) (args : Json)

namespace Use

/-- The store once something has been asked. -/
def after (w : Store) : Use → Store
  | make mode config => (behaviour.instantiate () mode config w).2
  | close i => (behaviour.close i w).2
  | destroy i => (behaviour.destroy i w).2
  | hello i => (behaviour.hello i w).2
  | sum i x y => (behaviour.sum i x y w).2
  | invoke i operation args => (behaviour.invoke i operation args w).2

/-- The store once one thing after another has been asked. -/
def run (w : Store) (uses : List Use) : Store := uses.foldl after w

/-- Whether an instance is closed or destroyed. -/
def ends (i : Nat) : Use → Bool
  | close j | destroy j => j = i
  | _ => false

end Use

theorem config?_release (w : Store) (i j : Nat) :
    (w.release j).config? i = if j = i then none else w.config? i := by
  split
  · rename_i h
    exact h ▸ Store.config?_release_self w j
  · rename_i h
    exact Store.config?_release_of_ne w h

/-- A configuration stays until its instance ends. -/
theorem config?_after {w : Store} {i : Nat} (hi : i < w.configs.size) (u : Use) :
    (u.after w).config? i = (if u.ends i then none else w.config? i) ∧
      i < (u.after w).configs.size := by
  cases u with
  | make mode config =>
    simp only [Use.after, behaviour, Use.ends]
    cases parseConfig config with
    | error e => exact ⟨rfl, hi⟩
    | ok v =>
      refine ⟨Store.config?_add_of_lt hi v, ?_⟩
      simp only [Store.add, Array.size_push]
      omega
  | close j | destroy j =>
    refine ⟨?_, by simpa [Use.after, behaviour, Store.release] using hi⟩
    simp only [Use.ends, decide_eq_true_eq]
    exact config?_release w i j
  | hello j | sum j x y | invoke j operation args => exact ⟨rfl, hi⟩

/-- **What is left of a configuration** tells whether its instance has ended. -/
theorem config?_run {w : Store} {i : Nat} (hi : i < w.configs.size) (uses : List Use) :
    (Use.run w uses).config? i = if uses.any (Use.ends i) then none else w.config? i := by
  induction uses generalizing w with
  | nil => rfl
  | cons u uses ih =>
    obtain ⟨hconfig, hsize⟩ := config?_after hi u
    have hrun : (Use.run w (u :: uses)).config? i = _ := ih hsize
    rw [hrun, hconfig, List.any_cons]
    cases u.ends i <;> simp

/-- What an instance does of whose configuration `left` is left. -/
structure Lives (w : Store) (i : Nat) (left : Option Json) : Prop where
  close : (behaviour.close i w).1 = some (.ok ())
  destroy : (behaviour.destroy i w).1 = some (.ok ())
  hello : behaviour.hello i w = (some (), w)
  sum : ∀ x y, behaviour.sum i x y w = (some (.ok (add x y)), w)
  greet : ∀ args, behaviour.invoke i "hello" args w = (some (.ok .null), w)
  getConfig : ∀ args, behaviour.invoke i "get_config" args w = (some (.ok (left.getD .null)), w)
  other : ∀ operation args, operation ∉ ["hello", "sum", "get_config"] →
    behaviour.invoke i operation args w = (some (.error (.opUnsupported "dummy" operation)), w)

theorem lives (w : Store) (i : Nat) : Lives w i (w.config? i) where
  close := rfl
  destroy := rfl
  hello := rfl
  sum _ _ := rfl
  greet _ := rfl
  getConfig _ := rfl
  other operation args h := by
    simp only [List.mem_cons, List.not_mem_nil, or_false, not_or] at h
    simp only [behaviour, answer, if_neg h.1, if_neg h.2.1, if_neg h.2.2]
    rfl

/-! ### The promise -/

/-- Whether the number `s` is what every dummy instance adds two numbers to, in whatever state, when
it is asked directly or through a provider, among whatever other backends. -/
structure Routes (b' : Behaviour β' ι' ω') (x y : Int32) (s : Int) : Prop where
  sum : ∀ i w, ∃ r, behaviour.sum i x y w = (some (.ok r), w) ∧ r.toInt = s
  invoke : ∀ i w args, Holds args "x" x.toInt → Holds args "y" y.toInt →
    behaviour.invoke i "sum" args w = (some (.ok (.int s)), w)
  provider : ∀ (p : Provider (Unit ⊕ β') (Nat ⊕ ι')) id c i w, p.table.get? id = some c →
    c.resource = .inl i →
    (∃ r, p.perform (behaviour.beside b') (.sum id x y) w =
      { call := .finished (.ok (.sum r)), provider := p, world := w } ∧ r.toInt = s) ∧
    ∀ args, Holds args "x" x.toInt → Holds args "y" y.toInt →
      p.perform (behaviour.beside b') (.invoke id "sum" args) w =
        { call := .finished (.ok (.value (.int s))), provider := p, world := w }

theorem routes (b' : Behaviour β' ι' ω') (x y : Int32) : Routes b' x y (add x y).toInt where
  sum i w := ⟨add x y, rfl, rfl⟩
  invoke i w args hx hy := by
    simp only [behaviour, answer_sum hx hy]
  provider p id c i w hc hi := by
    refine ⟨⟨add x y, ?_, rfl⟩, fun args hx hy => ?_⟩
    · exact Provider.perform_sum (b := behaviour.beside b') hc (by rw [hi]; rfl)
    · refine Provider.perform_invoke (b := behaviour.beside b') hc ?_
      simp only [hi, Behaviour.beside, behaviour, answer_sum hx hy]

/-- How every dummy instance, in whatever state, takes the arguments of the operation `sum`. -/
structure Takes (args : Json) : Prop where
  accepted : ∀ i w, (∃ v, (behaviour.invoke i "sum" args w).1 = some (.ok v)) ↔
    (∃ n, Holds args "x" n) ∧ ∃ n, Holds args "y" n
  first : (∀ n, ¬ Holds args "x" n) → ∀ i w, behaviour.invoke i "sum" args w =
    (some (.error (.invalidArgs "sum expects an i32 field `x`")), w)
  second : (∃ n, Holds args "x" n) → (∀ n, ¬ Holds args "y" n) → ∀ i w,
    behaviour.invoke i "sum" args w =
      (some (.error (.invalidArgs "sum expects an i32 field `y`")), w)

theorem takes (args : Json) : Takes args where
  accepted i w := by
    simp only [behaviour]
    rcases answer_sum_cases (w.config? i) args with ⟨x, y, hx, hy, h⟩ | ⟨hx, h⟩ | ⟨-, hy, h⟩ <;>
      rw [h]
    · exact iff_of_true ⟨_, rfl⟩ ⟨⟨_, hx⟩, _, hy⟩
    · exact iff_of_false (by simp) fun hall => hall.1.elim hx
    · exact iff_of_false (by simp) fun hall => hall.2.elim hy
  first hx i w := by
    simp only [behaviour]
    rcases answer_sum_cases (w.config? i) args with ⟨x, y, hx', -⟩ | ⟨-, h⟩ | ⟨⟨n, hx'⟩, -⟩
    · exact absurd hx' (hx _)
    · rw [h]
    · exact absurd hx' (hx n)
  second hx hy i w := by
    obtain ⟨n, hx⟩ := hx
    simp only [behaviour]
    rcases answer_sum_cases (w.config? i) args with ⟨x, y, -, hy', -⟩ | ⟨hx', -⟩ | ⟨-, -, h⟩
    · exact absurd hy' (hy _)
    · exact absurd hx (hx' n)
    · rw [h]

/-- Minus zero is read as a binary64 word, and not as an integer. -/
theorem read_minusZero :
    Json.Codec.free.read "-0" = .ok (.number (.real 0x8000000000000000)) := by
  let zero : Json.Numeral :=
    { negative := true, whole := [0], fraction := [], exponent := none, point := false }
  have htokens : Json.Token.ofChars "-0".toList = [.numeral zero] := by
    have hone : Json.Token.one? ['-', '0'] = some (.numeral zero, []) := rfl
    exact (Json.Token.ofChars_cons rfl hone).trans (by rw [Json.Token.ofChars_nil])
  have htree : Json.Document.ofText "-0" = (.number zero, true) := by
    rw [Json.Document.ofText, htokens]
    rfl
  have hvalue : zero.value = some (.real 0x8000000000000000) := by decide +kernel
  simp only [Json.Codec.read, htree, Json.Codec.free, Json.Document.toJson, hvalue]
  rfl

/-- **All ways to a sum agree, before and after the end of an instance.** Every dummy instance, at
any time, gives the one sum modulo `2 ^ 32` of two signed numbers of 32 bits, whichever way it is
asked, and takes exactly two such numbers as the operands of the operation; minus zero is none. From
when it is made, and whatever is asked of it and of others, it does what it did and is closed and
destroyed without fail; its configuration is what it was made with until it is closed or destroyed,
and nothing from then on. -/
theorem routes_agree (b' : Behaviour β' ι' ω') :
    (∀ x y : Int32, ∃ s, IsSum x y s ∧ (∀ s', IsSum x y s' → s' = s) ∧ Routes b' x y s) ∧
    (∀ args, Takes args) ∧
    (∃ zero, Json.Codec.free.read "-0" = .ok zero ∧ ∀ n, zero ≠ .int n) ∧
    ∀ mode config w w' i, behaviour.instantiate () mode config w = (some (.ok i), w') →
      ∃ v, parseConfig config = .ok v ∧ ∀ uses : List Use,
        Lives (Use.run w' uses) i (if uses.any (Use.ends i) then none else some v) := by
  refine ⟨fun x y => ⟨_, isSum_iff.2 rfl, fun s' => isSum_iff.1, routes b' x y⟩, takes,
    ⟨_, read_minusZero, fun n => by simp [Json.int]⟩, fun mode config w w' i hmade => ?_⟩
  simp only [behaviour] at hmade
  cases hconfig : parseConfig config with
  | error e =>
    rw [hconfig] at hmade
    cases hmade
  | ok v =>
    rw [hconfig] at hmade
    cases hmade
    refine ⟨v, rfl, fun uses => ?_⟩
    have hsize : w.configs.size < (w.add v).2.configs.size := by
      simp [Store.add]
    have hlives := lives (Use.run (w.add v).2 uses) w.configs.size
    rw [config?_run hsize, Store.config?_add_self] at hlives
    exact hlives

end Dummy
end Collectors
