import Collectors.Json.Numeral
import Collectors.Text.Hex

/-!
# Tokens of a JSON text

`Token.ofChars` cuts a text into tokens. Blanks (space, tab, line feed, carriage return) separate
them; at the first character that starts no token the cut ends with `Token.bad`.

A string token keeps its unescaped content, or `none` when an escape names half of a surrogate
pair: such a string has the form of a string but no content.
-/

namespace Collectors
namespace Json

/-- A token of a JSON text. -/
inductive Token where
  | openArray
  | closeArray
  | openObject
  | closeObject
  | comma
  | colon
  | null
  | bool (value : Bool)
  | numeral (n : Numeral)
  | string (content : Option String)
  /-- The text cannot be read from here on. -/
  | bad

namespace Token

/-- The four blanks of a JSON text. -/
def isBlank (c : Char) : Bool := c = ' ' || c = '\t' || c = '\n' || c = '\r'

/-- The value of four hexadecimal digits. -/
def unit? (a b c d : Char) : Option Nat := do
  return 4096 * (← Hex.value? a) + 256 * (← Hex.value? b) + 16 * (← Hex.value? c) + (← Hex.value? d)

/-- The characters that follow a backslash alone. -/
def simpleEscape? : Char → Option Char
  | '"' => some '"'
  | '\\' => some '\\'
  | '/' => some '/'
  | 'b' => some '\x08'
  | 'f' => some '\x0c'
  | 'n' => some '\n'
  | 'r' => some '\r'
  | 't' => some '\t'
  | _ => none

/-- Joins the units that are left over after the last character: half a pair is no content. A
character in front of `found` while `half` waits leaves it without its other half. -/
def flush (half : Option Nat) (found : Option (List Char)) : Option (List Char) :=
  if half.isSome then none else found

/-- Adds the 16-bit unit `u`, whose other half may be `half`, to the characters found so far. -/
def addUnit (half : Option Nat) (found : Option (List Char)) (u : Nat) :
    Option Nat × Option (List Char) :=
  if 0xD800 ≤ u ∧ u < 0xDC00 then (some u, flush half found)
  else if 0xDC00 ≤ u ∧ u < 0xE000 then
    match half with
    | some h => (none, found.map (Char.ofNat (0x10000 + 1024 * (h - 0xD800) + (u - 0xDC00)) :: ·))
    | none => (none, none)
  else (none, (flush half found).map (Char.ofNat u :: ·))

/-- Reads a string behind its opening quote: its content and the text behind the closing quote.
The characters found so far stand last first; `half` is a first half of a pair that waits for
the second. -/
def stringBody (half : Option Nat) (found : Option (List Char)) :
    List Char → Option (Option (List Char) × List Char)
  | [] => none
  | '"' :: rest => some ((flush half found).map List.reverse, rest)
  | '\\' :: 'u' :: a :: b :: c :: d :: rest =>
    match unit? a b c d with
    | none => none
    | some u => stringBody (addUnit half found u).1 (addUnit half found u).2 rest
  | '\\' :: c :: rest =>
    match simpleEscape? c with
    | none => none
    | some e => stringBody none ((flush half found).map (e :: ·)) rest
  | c :: rest =>
    if c.toNat < 32 then none else stringBody none ((flush half found).map (c :: ·)) rest

/-- The digits at the front of a text and what is behind them. -/
def digits (cs : List Char) : List Nat × List Char :=
  ((cs.takeWhile Char.isDigit).map fun c => c.toNat - '0'.toNat, cs.dropWhile Char.isDigit)

/-- Reads an exponent, if one is written: its value and the text behind it. -/
def exponentPart : List Char → Option (Option Int × List Char)
  | c :: rest =>
    if c = 'e' ∨ c = 'E' then
      let (negative, rest) := match rest with
        | '+' :: r => (false, r)
        | '-' :: r => (true, r)
        | r => (false, r)
      match digits rest with
      | ([], _) => none
      | (ds, r) =>
        let e : Int := Numeral.ofDigits 0 ds
        some (some (if negative then -e else e), r)
    else some (none, c :: rest)
  | [] => some (none, [])

/-- Reads a fraction, if one is written. -/
def fractionPart : List Char → Option (Bool × List Nat × List Char)
  | '.' :: rest =>
    match digits rest with
    | ([], _) => none
    | (ds, r) => some (true, ds, r)
  | cs => some (false, [], cs)

/-- Reads a number behind its sign. No digit stands behind a leading zero. -/
def unsigned (negative : Bool) (cs : List Char) : Option (Numeral × List Char) := do
  let (whole, rest) := digits cs
  match whole with
  | [] => none
  | 0 :: _ :: _ => none
  | _ =>
    let (point, fraction, rest) ← fractionPart rest
    let (exponent, rest) ← exponentPart rest
    return ({ negative, whole, fraction, exponent, point }, rest)

/-- The text behind a word that it starts with. -/
def behind? (word : List Char) (cs : List Char) : Option (List Char) :=
  if word.isPrefixOf cs then some (cs.drop word.length) else none

/-- Reads one token at the front of a text that does not start with a blank; `none` where no
token starts. -/
def one? : List Char → Option (Token × List Char)
  | [] => none
  | '[' :: rest => some (.openArray, rest)
  | ']' :: rest => some (.closeArray, rest)
  | '{' :: rest => some (.openObject, rest)
  | '}' :: rest => some (.closeObject, rest)
  | ',' :: rest => some (.comma, rest)
  | ':' :: rest => some (.colon, rest)
  | '"' :: rest =>
    (stringBody none (some []) rest).map fun (s, r) => (.string (s.map String.ofList), r)
  | '-' :: rest => (unsigned true rest).map fun (n, r) => (.numeral n, r)
  | 'n' :: rest => (behind? ['u', 'l', 'l'] rest).map fun r => (.null, r)
  | 't' :: rest => (behind? ['r', 'u', 'e'] rest).map fun r => (.bool true, r)
  | 'f' :: rest => (behind? ['a', 'l', 's', 'e'] rest).map fun r => (.bool false, r)
  | c :: rest => (unsigned false (c :: rest)).map fun (n, r) => (.numeral n, r)

/-! ### Every token shortens the text -/

theorem digits_behind_le (cs : List Char) : (digits cs).2.length ≤ cs.length :=
  (List.dropWhile_suffix _).length_le

theorem digits_behind_lt {cs : List Char} (h : (digits cs).1 ≠ []) :
    (digits cs).2.length < cs.length := by
  cases cs with
  | nil => simp [digits] at h
  | cons c rest =>
    by_cases hc : c.isDigit
    · have := (List.dropWhile_suffix (l := rest) Char.isDigit).length_le
      simp [digits, hc]
      omega
    · simp [digits, hc] at h

theorem stringBody_lt {half found cs s r} (h : stringBody half found cs = some (s, r)) :
    r.length < cs.length := by
  fun_induction stringBody half found cs with
  | case1 | case3 | case5 | case7 => cases h
  | case2 => simp only [Option.some.injEq, Prod.mk.injEq] at h; simp [← h.2]
  | case4 _ _ _ _ _ _ _ _ _ ih | case6 _ _ _ _ _ _ _ ih | case8 _ _ _ _ _ _ _ _ ih =>
    have := ih h
    simp only [List.length_cons]
    omega

theorem exponentPart_le {cs e r} (h : exponentPart cs = some (e, r)) : r.length ≤ cs.length := by
  unfold exponentPart at h
  split at h
  · rename_i c rest
    split at h
    · have key : ∀ t : List Char, t.length ≤ rest.length → (digits t).2.length ≤ rest.length + 1 :=
        fun t ht => by have := digits_behind_le t; omega
      grind
    · grind
  · grind

theorem fractionPart_le {cs p f r} (h : fractionPart cs = some (p, f, r)) :
    r.length ≤ cs.length := by
  unfold fractionPart at h
  split at h
  · rename_i rest
    have := digits_behind_le rest
    grind
  · grind

theorem unsigned_lt {negative cs n r} (h : unsigned negative cs = some (n, r)) :
    r.length < cs.length := by
  unfold unsigned at h
  have hd := @digits_behind_lt cs
  rcases hw : digits cs with ⟨whole, rest⟩
  rw [hw] at h hd
  simp only [ne_eq, bind] at h hd
  split at h
  · simp at h
  · simp at h
  · rename_i hne _
    simp only [Option.bind_eq_some_iff] at h
    obtain ⟨⟨p, f, r₁⟩, hf, ⟨e, r₂⟩, he, hr⟩ := h
    have h₁ : r₁.length ≤ rest.length := fractionPart_le hf
    have h₂ : r₂.length ≤ r₁.length := exponentPart_le he
    have h₃ := hd hne
    simp only [pure, Option.some.injEq, Prod.mk.injEq] at hr
    obtain ⟨-, rfl⟩ := hr
    omega

theorem behind?_le {word cs r : List Char} (h : behind? word cs = some r) :
    r.length ≤ cs.length := by
  unfold behind? at h
  split at h
  · simp only [Option.some.injEq] at h
    subst h
    simp
  · simp at h

theorem one?_lt {cs t r} (h : one? cs = some (t, r)) : r.length < cs.length := by
  unfold one? at h
  split at h <;> simp only [Option.map_eq_some_iff, Option.some.injEq, Prod.mk.injEq,
    reduceCtorEq] at h
  · grind
  · grind
  · grind
  · grind
  · grind
  · grind
  · obtain ⟨⟨s, r'⟩, hs, -, rfl⟩ := h
    have := stringBody_lt hs
    simp; omega
  · obtain ⟨⟨n, r'⟩, hn, -, rfl⟩ := h
    have := unsigned_lt hn
    simp; omega
  · obtain ⟨r', hr, -, rfl⟩ := h
    have := behind?_le hr
    simp; omega
  · obtain ⟨r', hr, -, rfl⟩ := h
    have := behind?_le hr
    simp; omega
  · obtain ⟨r', hr, -, rfl⟩ := h
    have := behind?_le hr
    simp; omega
  · obtain ⟨⟨n, r'⟩, hn, -, rfl⟩ := h
    exact unsigned_lt hn

/-- The tokens of a text. -/
def ofChars (cs : List Char) : List Token :=
  match _h : one? (cs.dropWhile isBlank) with
  | some (t, r) => t :: ofChars r
  | none => if (cs.dropWhile isBlank).isEmpty then [] else [.bad]
termination_by cs.length
decreasing_by
  have := one?_lt _h
  have := (List.dropWhile_suffix (l := cs) isBlank).length_le
  omega

end Token
end Json
end Collectors
