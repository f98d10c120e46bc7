import Collectors.Yaml.Property

/-!
# Tokens of a YAML text

`Token.scan?` cuts a text into tokens. Most of them are written as they are; the beginnings and
ends of block collections follow from the indentation of lines, and the token `key` in front of a
key from the colon behind it. `Layout` keeps what is needed for both: the columns of the open
block collections, and where a key may have started.

A key without a question mark has its colon on its own line and within 1024 characters.
-/

namespace Collectors
namespace Yaml

/-- A token of a YAML text. -/
inductive Token where
  | directive (d : Directive)
  | documentStart
  | documentEnd
  | blockSequence
  | blockMapping
  /-- The end of a block collection. -/
  | blockEnd
  | openSequence
  | closeSequence
  | openMapping
  | closeMapping
  /-- The dash in front of an item of a block sequence. -/
  | entry
  | comma
  | key
  | value
  | alias (name : List Char)
  | anchor (name : List Char)
  | tag (t : Tag)
  | scalar (s : Scalar)
  deriving DecidableEq

/-- A place where a key may have started. -/
structure Candidate where
  /-- The number of tokens in front of it. -/
  place : Nat
  position : Position
  /-- Whether there is no way on without a key at this place. -/
  required : Bool

namespace Candidate

/-- Whether the colon behind a key would stand too far away at the place `p`. -/
def isStale (c : Candidate) (p : Position) : Bool :=
  c.position.line < p.line || c.position.index + 1024 < p.index

end Candidate

/-- What is open at a place of a text. -/
structure Layout where
  /-- The columns of the open block collections, innermost first. -/
  indents : List Nat := []
  /-- The last place where a key may have started within the innermost brackets. -/
  candidate : Option Candidate := none
  /-- The same for what is around each open bracket, innermost first. -/
  outer : List (Option Candidate) := []
  /-- Whether a key may start at the place. -/
  keyAllowed : Bool := true
  /-- The tokens in front of the place, last first. -/
  tokens : List Token := []

namespace Layout

/-- Whether the place is within brackets. -/
def isFlow (s : Layout) : Bool := !s.outer.isEmpty

/-- The least column of what belongs to the innermost block collection. -/
def least (s : Layout) : Nat :=
  match s.indents with
  | [] => 0
  | i :: _ => i + 1

/-- Adds a token. -/
def push (t : Token) (s : Layout) : Layout := { s with tokens := t :: s.tokens }

/-- Sets whether a key may start. -/
def allowKey (allowed : Bool) (s : Layout) : Layout := { s with keyAllowed := allowed }

/-- Forgets the candidate within the innermost brackets, unless it is required. -/
def withdraw (s : Layout) : Option Layout :=
  if s.candidate.any Candidate.required then none else some { s with candidate := none }

/-- Makes the place a candidate if a key may start there. -/
def offer (p : Position) (s : Layout) : Option Layout :=
  if s.keyAllowed then
    (s.withdraw).map fun s =>
      { s with
        candidate := some
          { place := s.tokens.length, position := p
            required := !s.isFlow && s.indents.head? = some p.column } }
  else some s

/-- A candidate that is not stale. -/
def fresh (p : Position) (c : Option Candidate) : Option Candidate :=
  c.filter fun c => !c.isStale p

/-- Forgets the candidates that are stale, unless one of them is required. -/
def expire (p : Position) (s : Layout) : Option Layout :=
  let all := s.candidate :: s.outer
  if all.any fun c => c.any fun c => c.required && c.isStale p then none
  else some { s with candidate := fresh p s.candidate, outer := s.outer.map (fresh p) }

/-- Ends the block collections whose column is `bound` or more. -/
def unroll (bound : Nat) (s : Layout) : Layout :=
  if s.isFlow then s
  else
    { s with
      indents := s.indents.dropWhile (bound ≤ ·)
      tokens := (s.indents.takeWhile (bound ≤ ·)).map (fun _ => Token.blockEnd) ++ s.tokens }

/-- Whether a block collection begins where the column is `column`. -/
def begins (column : Nat) (s : Layout) : Bool := !s.isFlow && s.least ≤ column

/-- Begins a block collection, unless one with this column is open. -/
def roll (column : Nat) (t : Token) (s : Layout) : Layout :=
  if s.begins column then { s.push t with indents := column :: s.indents } else s

/-- Puts tokens, last first, in front of what comes behind the first `place` tokens. -/
def insertAt (place : Nat) (ts : List Token) (s : Layout) : Layout :=
  let behind := s.tokens.length - place
  { s with tokens := s.tokens.take behind ++ ts ++ s.tokens.drop behind }

/-- Turns a candidate into a key, and begins a block mapping there if it is the first one. -/
def confirm (c : Candidate) (s : Layout) : Layout :=
  if s.begins c.position.column then
    { s.insertAt c.place [.key, .blockMapping] with
      indents := c.position.column :: s.indents, candidate := none, keyAllowed := false }
  else { s.insertAt c.place [.key] with candidate := none, keyAllowed := false }

/-- Opens a bracket. -/
def openBracket (t : Token) (p : Position) (s : Layout) : Option Layout :=
  (s.offer p).map fun s =>
    { s.push t with outer := s.candidate :: s.outer, candidate := none, keyAllowed := true }

/-- Closes a bracket. -/
def closeBracket (t : Token) (s : Layout) : Option Layout :=
  (s.withdraw).map fun s =>
    match s.outer with
    | [] => { s.push t with keyAllowed := false }
    | c :: outer => { s.push t with candidate := c, outer, keyAllowed := false }

/-- Adds a comma. -/
def comma (s : Layout) : Option Layout :=
  (s.withdraw).map fun s => (s.allowKey true).push .comma

/-- Adds the dash in front of an item. -/
def entry (p : Position) (s : Layout) : Option Layout :=
  if !s.isFlow && !s.keyAllowed then none
  else ((s.roll p.column .blockSequence).withdraw).map fun s => (s.allowKey true).push .entry

/-- Adds the question mark in front of a key. -/
def key (p : Position) (s : Layout) : Option Layout :=
  if !s.isFlow && !s.keyAllowed then none
  else
    ((s.roll p.column .blockMapping).withdraw).map fun s => (s.allowKey (!s.isFlow)).push .key

/-- Adds the colon in front of a value. -/
def value (p : Position) (s : Layout) : Option Layout :=
  match s.candidate with
  | some c => some ((s.confirm c).push .value)
  | none =>
    if !s.isFlow && !s.keyAllowed then none
    else
      let s := s.roll p.column .blockMapping
      some ((s.allowKey (!s.isFlow)).push .value)

/-- Adds a line that marks the start or the end of a document. -/
def marker (t : Token) (s : Layout) : Option Layout :=
  ((s.unroll 0).withdraw).map fun s => (s.allowKey false).push t

/-- Adds a token that may start a key, or stand in front of one. -/
def content (p : Position) (t : Token) (s : Layout) : Option Layout :=
  (s.offer p).map fun s => (s.allowKey false).push t

/-- Adds a block scalar. -/
def blockScalar (t : Token) (s : Layout) : Option Layout :=
  (s.withdraw).map fun s => (s.allowKey true).push t

/-- The tokens of the whole text, once its end is reached. -/
def finish (s : Layout) : Option (List Token) :=
  ((s.unroll 0).withdraw).map fun s => s.tokens.reverse

end Layout

namespace Token

/-- Blanks and comments in front of a token: whether a key may start behind them, and where they
end. -/
def skip (flow allowed comment : Bool) (p : Position) : List Char → Scanned Bool
  | [] => { value := allowed, position := p, rest := [] }
  | c :: rest =>
    if isBreak c then skip flow (allowed || !flow) false (p.after c) rest
    else if comment || c = ' ' || (c = '\t' && (flow || !allowed)) ||
        (c = '\ufeff' && p.column = 0) then
      skip flow allowed comment (p.after c) rest
    else if c = '#' then skip flow allowed true (p.after c) rest
    else { value := allowed, position := p, rest := c :: rest }

/-- Whether a plain scalar starts with `c` where `rest` is behind it. -/
def startsPlain (flow : Bool) (c : Char) (rest : List Char) : Bool :=
  c ∉ "\t-?:,[]\x7b\x7d#&*!|>'\"%@\x60".toList ||
    (!startsBlank rest && (c = '-' || (!flow && (c = '?' || c = ':'))))

/-- Reads a token that consists of the character in front of `rest`. -/
def sign (p : Position) (rest : List Char) (s : Option Layout) : Option (Scanned Layout) :=
  s.map fun s => { value := s, position := p.along 1, rest }

/-- Reads a line that marks a document. -/
def markerLine (p : Position) (rest : List Char) (s : Option Layout) : Option (Scanned Layout) :=
  s.map fun s => { value := s, position := p.along 3, rest := rest.drop 2 }

/-- Adds to a layout the token that was read with its content. -/
def withContent {α : Type} (found : Option (Scanned α)) (add : α → Option Layout) :
    Option (Scanned Layout) :=
  match found with
  | none => none
  | some found => (add found.value).map fun s => { found with value := s }

/-- Reads the token that starts with `c` at the place `p`; no blank or comment stands there, and
block collections that end in front of it have been ended. -/
def one? (s : Layout) (p : Position) (c : Char) (rest : List Char) : Option (Scanned Layout) :=
  let q := p.along 1
  if p.column = 0 && c = '%' then
    withContent (Directive.scan? q rest) fun d => s.marker (.directive d)
  else if p.column = 0 && startsMarker '-' (c :: rest) then
    markerLine p rest (s.marker .documentStart)
  else if p.column = 0 && startsMarker '.' (c :: rest) then
    markerLine p rest (s.marker .documentEnd)
  else if c = '[' then sign p rest (s.openBracket .openSequence p)
  else if c = '\x7b' then sign p rest (s.openBracket .openMapping p)
  else if c = ']' then sign p rest (s.closeBracket .closeSequence)
  else if c = '\x7d' then sign p rest (s.closeBracket .closeMapping)
  else if c = ',' then sign p rest s.comma
  else if c = '-' && startsBlank rest then sign p rest (s.entry p)
  else if c = '?' && (s.isFlow || startsBlank rest) then sign p rest (s.key p)
  else if c = ':' && (s.isFlow || startsBlank rest) then sign p rest (s.value p)
  else if c = '*' then withContent (anchorName? q rest) fun name => s.content p (.alias name)
  else if c = '&' then withContent (anchorName? q rest) fun name => s.content p (.anchor name)
  else if c = '!' then withContent (Tag.scan? s.isFlow q rest) fun t => s.content p (.tag t)
  else if c = '|' && !s.isFlow then
    withContent (Scalar.block false s.least q rest) fun text =>
      s.blockScalar (.scalar { text, style := .literal })
  else if c = '>' && !s.isFlow then
    withContent (Scalar.block true s.least q rest) fun text =>
      s.blockScalar (.scalar { text, style := .folded })
  else if c = '\'' then
    withContent (Scalar.singleQuoted [] .none q rest) fun text =>
      s.content p (.scalar { text, style := .singleQuoted })
  else if c = '"' then
    withContent (Scalar.doubleQuoted [] .none q rest) fun text =>
      s.content p (.scalar { text, style := .doubleQuoted })
  else if startsPlain s.isFlow c rest then
    withContent (Scalar.plain s.isFlow s.least [c] .none q rest) fun plain =>
      (s.content p (.scalar { text := plain.text, style := .plain })).map
        fun s => if plain.endsLine then s.allowKey true else s
  else none

/-! ### Every token shortens the text -/

theorem skip_le (flow allowed comment : Bool) (p : Position) (cs : List Char) :
    (skip flow allowed comment p cs).rest.length ≤ cs.length := by
  fun_induction skip flow allowed comment p cs with
  | case1 => simp
  | case2 _ _ _ _ _ _ ih | case3 _ _ _ _ _ _ _ ih | case4 _ _ _ _ _ _ ih =>
    exact Nat.le_succ_of_le ih
  | case5 => exact Nat.le_refl _

/-- Whether what was read leaves less than the text that starts with `c`. -/
def Shortens (c : Char) (rest : List Char) (found : Option (Scanned Layout)) : Prop :=
  ∀ t, found = some t → t.rest.length < (c :: rest).length

theorem shortens_none (c : Char) (rest : List Char) : Shortens c rest none := nofun

theorem shortens_ite {c : Char} {rest : List Char} {a b : Option (Scanned Layout)} {p : Prop}
    [Decidable p] (ha : Shortens c rest a) (hb : Shortens c rest b) :
    Shortens c rest (if p then a else b) := by
  split
  · exact ha
  · exact hb

theorem shortens_sign (p : Position) (c : Char) (rest : List Char) (s : Option Layout) :
    Shortens c rest (sign p rest s) := by
  intro t h
  obtain ⟨s, -, rfl⟩ := Option.map_eq_some_iff.1 h
  simp

theorem shortens_markerLine (p : Position) (c : Char) (rest : List Char) (s : Option Layout) :
    Shortens c rest (markerLine p rest s) := by
  intro t h
  obtain ⟨s, -, rfl⟩ := Option.map_eq_some_iff.1 h
  simp only [List.length_drop, List.length_cons]
  omega

theorem shortens_withContent {α : Type} {c : Char} {rest : List Char} {found : Option (Scanned α)}
    (add : α → Option Layout) (hle : ∀ f, found = some f → f.rest.length ≤ rest.length) :
    Shortens c rest (withContent found add) := by
  intro t h
  unfold withContent at h
  split at h
  · cases h
  · rename_i f
    obtain ⟨s, -, rfl⟩ := Option.map_eq_some_iff.1 h
    exact Nat.lt_succ_of_le (hle f rfl)

theorem shortens_one? (s : Layout) (p : Position) (c : Char) (rest : List Char) :
    Shortens c rest (one? s p c rest) :=
  shortens_ite (shortens_withContent _ fun _ => Directive.scan?_le) <|
  shortens_ite (shortens_markerLine _ _ _ _) <|
  shortens_ite (shortens_markerLine _ _ _ _) <|
  shortens_ite (shortens_sign _ _ _ _) <|
  shortens_ite (shortens_sign _ _ _ _) <|
  shortens_ite (shortens_sign _ _ _ _) <|
  shortens_ite (shortens_sign _ _ _ _) <|
  shortens_ite (shortens_sign _ _ _ _) <|
  shortens_ite (shortens_sign _ _ _ _) <|
  shortens_ite (shortens_sign _ _ _ _) <|
  shortens_ite (shortens_sign _ _ _ _) <|
  shortens_ite (shortens_withContent _ fun _ => anchorName?_le) <|
  shortens_ite (shortens_withContent _ fun _ => anchorName?_le) <|
  shortens_ite (shortens_withContent _ fun _ => Tag.scan?_le) <|
  shortens_ite (shortens_withContent _ fun _ => Scalar.block_le) <|
  shortens_ite (shortens_withContent _ fun _ => Scalar.block_le) <|
  shortens_ite (shortens_withContent _ fun _ => Scalar.singleQuoted_le) <|
  shortens_ite (shortens_withContent _ fun _ => Scalar.doubleQuoted_le) <|
  shortens_ite (shortens_withContent _ fun _ => Scalar.plain_le) (shortens_none _ _)

/-- Reads tokens with what is open in front of them. -/
def scanFrom (s : Layout) (p : Position) (cs : List Char) : Option (List Token) :=
  let gap := skip s.isFlow s.keyAllowed false p cs
  match _hr : gap.rest, (s.allowKey gap.value).expire gap.position with
  | _, none => none
  | [], some s' => s'.finish
  | c :: rest, some s' =>
    match _h : one? (s'.unroll (gap.position.column + 1)) gap.position c rest with
    | none => none
    | some found => scanFrom found.value found.position found.rest
termination_by cs.length
decreasing_by
  have hlt := shortens_one? _ _ _ _ _ _h
  have hle : gap.rest.length ≤ cs.length := skip_le _ _ _ _ _
  rw [_hr] at hle
  omega

/-- The tokens of a text with unified ends of lines; `none` if it cannot be cut. -/
def scan? (cs : List Char) : Option (List Token) := scanFrom {} {} cs

end Token
end Yaml
end Collectors
