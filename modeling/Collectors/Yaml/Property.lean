import Collectors.Text.Percent
import Collectors.Yaml.Scalar

/-!
# Names, tags and directives of a YAML text

A node may be named (an anchor), and it may carry a tag that says what it is. Directives in front
of a document say for which version it is written and what the handles of its tags stand for.
-/

namespace Collectors
namespace Yaml

/-- A tag as it is written: a handle that has to be looked up, and what is behind it. A tag
without a handle stands for itself. -/
structure Tag where
  handle : List Char
  suffix : List Char
  deriving DecidableEq

/-- A directive. -/
inductive Directive where
  | version (major minor : Nat)
  | tag (handle stem : List Char)
  deriving DecidableEq

/-- Reads the name of an anchor. -/
def anchorName? (p : Position) (cs : List Char) : Option (Scanned (List Char)) :=
  let name := cs.takeWhile isWordChar
  let rest := cs.dropWhile isWordChar
  let ends := startsBlank rest || rest.head?.any ("?:,]\x7d%@\x60".toList.contains ·)
  if name.isEmpty || !ends then none
  else some { value := name, position := p.along name.length, rest }

namespace Tag

/-- Whether a character may stand in a tag; a comma and brackets only if `wide`. -/
def isUriChar (wide : Bool) (c : Char) : Bool :=
  isWordChar c || c ∈ ";/?:@&=+$.%!~*'()".toList || (wide && (c = ',' || c = '[' || c = ']'))

/-- Reads a part of a tag and undoes its percent-encoding. -/
def uri? (wide : Bool) (p : Position) (cs : List Char) : Option (Scanned (List Char)) :=
  let uri := cs.takeWhile (isUriChar wide)
  if isPercentEncoded uri then
    (String.fromUTF8? ⟨(percentDecoded uri).toArray⟩).map fun text =>
      { value := text.toList, position := p.along uri.length
        rest := cs.dropWhile (isUriChar wide) }
  else none

/-- Reads a part of a tag that is not empty. -/
def someUri? (wide : Bool) (p : Position) (cs : List Char) : Option (Scanned (List Char)) :=
  (uri? wide p cs).filter fun s => !s.value.isEmpty

/-- Reads a tag behind its exclamation mark, without a look at what follows it. -/
def body? (p : Position) (cs : List Char) : Option (Scanned Tag) :=
  match cs with
  | '<' :: rest =>
    match someUri? true (p.along 1) rest with
    | some { value, position, rest := '>' :: rest } =>
      some { value := { handle := [], suffix := value }, position := position.along 1, rest }
    | _ => none
  | _ =>
    let word := cs.takeWhile isWordChar
    match cs.dropWhile isWordChar with
    | '!' :: rest =>
      (someUri? false (p.along (word.length + 1)) rest).map fun s =>
        { s with value := { handle := '!' :: word ++ ['!'], suffix := s.value } }
    | _ =>
      (uri? false p cs).map fun s =>
        { s with
          value :=
            if s.value.isEmpty then { handle := [], suffix := ['!'] }
            else { handle := ['!'], suffix := s.value } }

/-- Reads a tag behind its exclamation mark; a blank or the end of the line is behind it, or a
comma within brackets. -/
def scan? (flow : Bool) (p : Position) (cs : List Char) : Option (Scanned Tag) :=
  (body? p cs).filter fun s => startsBlank s.rest || (flow && s.rest.head? = some ',')

end Tag

namespace Directive

/-- Reads a number of at most nine digits. -/
def number? (p : Position) (cs : List Char) : Option (Scanned Nat) :=
  let digits := cs.takeWhile Char.isDigit
  if digits.isEmpty || 9 < digits.length then none
  else some
    { value := Nat.ofDigitChars 10 digits 0, position := p.along digits.length
      rest := cs.dropWhile Char.isDigit }

/-- Skips blanks. -/
def skipBlanks (p : Position) (cs : List Char) : Position × List Char :=
  (p.along (cs.takeWhile isBlank).length, cs.dropWhile isBlank)

/-- Reads the version that a directive names. -/
def version? (p : Position) (cs : List Char) : Option (Scanned Directive) :=
  let (p, cs) := skipBlanks p cs
  match number? p cs with
  | some { value := major, position, rest := '.' :: rest } =>
    (number? (position.along 1) rest).map fun s => { s with value := version major s.value }
  | _ => none

/-- Reads the handle that a directive gives a meaning, and the meaning. -/
def tag? (p : Position) (cs : List Char) : Option (Scanned Directive) :=
  let (p, cs) := skipBlanks p cs
  match cs with
  | '!' :: rest =>
    let word := rest.takeWhile isWordChar
    let found : Option (List Char × Position × List Char) :=
      match rest.dropWhile isWordChar with
      | '!' :: rest => some ('!' :: word ++ ['!'], p.along (word.length + 2), rest)
      | rest => if word.isEmpty then some (['!'], p.along 1, rest) else none
    match found with
    | some (handle, p, c :: rest) =>
      if isBlank c then
        let (p, cs) := skipBlanks p (c :: rest)
        ((Tag.someUri? true p cs).filter fun s => startsBlank s.rest).map fun s =>
          { s with value := tag handle s.value }
      else none
    | _ => none
  | _ => none

/-- Reads a directive behind its percent sign, and the rest of its line. -/
def scan? (p : Position) (cs : List Char) : Option (Scanned Directive) :=
  let name := cs.takeWhile isWordChar
  let rest := cs.dropWhile isWordChar
  let p := p.along name.length
  let body : Option (Scanned Directive) :=
    if !startsBlank rest then none
    else if name = "YAML".toList then version? p rest
    else if name = "TAG".toList then tag? p rest
    else none
  match body with
  | none => none
  | some s =>
    (Scalar.restOfLine false s.position s.rest).map fun line => { line with value := s.value }

end Directive

/-! ### The rest of a text is no longer than the text -/

theorem dropWhile_le (f : Char → Bool) (cs : List Char) : (cs.dropWhile f).length ≤ cs.length :=
  (List.dropWhile_suffix f).length_le

theorem anchorName?_le {p cs s} (h : anchorName? p cs = some s) : s.rest.length ≤ cs.length := by
  simp only [anchorName?] at h
  split at h
  · cases h
  · simp only [Option.some.injEq] at h
    subst h
    exact dropWhile_le isWordChar cs

namespace Tag

theorem uri?_le {wide p cs s} (h : uri? wide p cs = some s) : s.rest.length ≤ cs.length := by
  simp only [uri?] at h
  split at h
  · obtain ⟨text, -, rfl⟩ := Option.map_eq_some_iff.1 h
    exact dropWhile_le (isUriChar wide) cs
  · cases h

theorem someUri?_le {wide p cs s} (h : someUri? wide p cs = some s) :
    s.rest.length ≤ cs.length :=
  uri?_le (Option.filter_eq_some_iff.1 h).1

theorem body?_le {p cs s} (h : body? p cs = some s) : s.rest.length ≤ cs.length := by
  unfold body? at h
  split at h
  · split at h
    · rename_i hs
      have := someUri?_le hs
      simp only [Option.some.injEq] at h
      subst h
      simp only [List.length_cons] at this ⊢
      omega
    · cases h
  · split at h
    · rename_i rest hr
      obtain ⟨s', hs, rfl⟩ := Option.map_eq_some_iff.1 h
      have := someUri?_le hs
      have hd := dropWhile_le isWordChar cs
      rw [hr] at hd
      simp only [List.length_cons] at hd
      simp only
      omega
    · obtain ⟨s', hs, rfl⟩ := Option.map_eq_some_iff.1 h
      exact uri?_le hs

theorem scan?_le {flow p cs s} (h : scan? flow p cs = some s) : s.rest.length ≤ cs.length :=
  body?_le (Option.filter_eq_some_iff.1 h).1

end Tag

namespace Directive

theorem number?_le {p cs s} (h : number? p cs = some s) : s.rest.length ≤ cs.length := by
  simp only [number?] at h
  split at h
  · cases h
  · simp only [Option.some.injEq] at h
    subst h
    exact dropWhile_le Char.isDigit cs

theorem version?_le {p cs s} (h : version? p cs = some s) : s.rest.length ≤ cs.length := by
  unfold version? at h
  have hd := dropWhile_le isBlank cs
  simp only [skipBlanks] at h
  split at h
  · rename_i hn
    have h₁ := number?_le hn
    obtain ⟨s', hs, rfl⟩ := Option.map_eq_some_iff.1 h
    have h₂ := number?_le hs
    simp only [List.length_cons] at h₁ ⊢
    omega
  · cases h

theorem tag?_le {p cs s} (h : tag? p cs = some s) : s.rest.length ≤ cs.length := by
  unfold tag? at h
  have hd := dropWhile_le isBlank cs
  simp only [skipBlanks] at h
  split at h
  · rename_i rest hc
    rw [hc] at hd
    split at h
    · rename_i handle q c more hf
      have hm : (c :: more).length ≤ rest.length := by
        have hw := dropWhile_le isWordChar rest
        split at hf
        · rename_i r hr
          rw [hr] at hw
          simp only [Option.some.injEq, Prod.mk.injEq] at hf
          obtain ⟨-, -, rfl⟩ := hf
          simp only [List.length_cons] at hw ⊢
          omega
        · split at hf
          · simp only [Option.some.injEq, Prod.mk.injEq] at hf
            obtain ⟨-, -, hf⟩ := hf
            exact hf ▸ hw
          · cases hf
      split at h
      · obtain ⟨s', hs, rfl⟩ := Option.map_eq_some_iff.1 h
        have h₁ := Tag.someUri?_le (Option.filter_eq_some_iff.1 hs).1
        have h₂ := dropWhile_le isBlank (c :: more)
        simp only [List.length_cons] at hd ⊢
        exact Nat.le_trans h₁ (Nat.le_trans h₂ (by omega))
      · cases h
    · cases h
  · cases h

theorem scan?_le {p cs s} (h : scan? p cs = some s) : s.rest.length ≤ cs.length := by
  unfold scan? at h
  have hd := dropWhile_le isWordChar cs
  simp only at h
  split at h
  · cases h
  · rename_i t ht
    obtain ⟨line, hl, rfl⟩ := Option.map_eq_some_iff.1 h
    have h₁ := Scalar.restOfLine_le hl
    have h₂ : t.rest.length ≤ (cs.dropWhile isWordChar).length := by
      split at ht
      · cases ht
      · split at ht
        · exact version?_le ht
        · split at ht
          · exact tag?_le ht
          · cases ht
    simp only
    omega

end Directive
end Yaml
end Collectors
