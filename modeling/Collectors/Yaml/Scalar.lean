import Collectors.Yaml.Text

/-!
# Scalars of a YAML text

A scalar is written plain, in single or double quotes, or as a block in which every line counts
(literal) or lines are folded. In the first three styles the blanks around the end of a line fold
to one blank, and empty lines to their ends (`Gap`).

* `Scalar.singleQuoted` and `Scalar.doubleQuoted` read what is behind the opening quote;
* `Scalar.plain` reads what is behind the first character;
* `Scalar.block` reads what is behind the indicator of a block.

Characters that were read stand last first while a scalar is read.
-/

namespace Collectors
namespace Yaml

/-- How a scalar is written. -/
inductive Style where
  | plain
  | singleQuoted
  | doubleQuoted
  | literal
  | folded
  deriving DecidableEq

/-- A scalar. -/
structure Scalar where
  text : List Char
  style : Style
  deriving DecidableEq

/-- The blanks and ends of lines behind the last character of a scalar. -/
inductive Gap where
  /-- Blanks on one line, last first. -/
  | blanks (cs : List Char)
  /-- At least one end of a line; `first` is missing if it was escaped. The others stand last
  first. -/
  | lines (first : Option Char) (others : List Char)

namespace Gap

/-- No gap. -/
def none : Gap := .blanks []

/-- Whether the gap reaches over the end of a line. -/
def isLines : Gap → Bool
  | blanks _ => false
  | lines _ _ => true

/-- Whether there is no gap. -/
def isNone : Gap → Bool
  | blanks cs => cs.isEmpty
  | lines _ _ => false

/-- The gap with one more blank or end of a line. -/
def add (c : Char) : Gap → Gap
  | blanks cs => if isBreak c then lines (some c) [] else blanks (c :: cs)
  | lines first others => if isBreak c then lines first (c :: others) else lines first others

/-- Puts what the gap stands for on top of what was read before it. -/
def onto (text : List Char) : Gap → List Char
  | blanks cs => cs ++ text
  | lines (some '\n') [] => ' ' :: text
  | lines (some '\n') others => others ++ text
  | lines (some c) others => others ++ c :: text
  | lines Option.none others => others ++ text

end Gap

namespace Scalar

/-! ### Quoted scalars -/

/-- Reads a single-quoted scalar; two quotes stand for one. -/
def singleQuoted (text : List Char) (gap : Gap) (p : Position) :
    List Char → Option (Scanned (List Char))
  | [] => none
  | '\'' :: '\'' :: rest => singleQuoted ('\'' :: gap.onto text) .none (p.along 2) rest
  | '\'' :: rest => some { value := (gap.onto text).reverse, position := p.along 1, rest }
  | c :: rest =>
    if isBlank c then singleQuoted text (gap.add c) (p.after c) rest
    else if isBreak c then
      if startsAnyMarker rest then none else singleQuoted text (gap.add c) (p.after c) rest
    else singleQuoted (c :: gap.onto text) .none (p.after c) rest

/-- The character that a backslash and one character stand for. -/
def escaped? : Char → Option Char
  | '0' => some '\x00'
  | 'a' => some '\x07'
  | 'b' => some '\x08'
  | 't' => some '\t'
  | '\t' => some '\t'
  | 'n' => some '\n'
  | 'v' => some '\x0b'
  | 'f' => some '\x0c'
  | 'r' => some '\r'
  | 'e' => some '\x1b'
  | ' ' => some ' '
  | '"' => some '"'
  | '/' => some '/'
  | '\\' => some '\\'
  | 'N' => some '\u0085'
  | '_' => some '\u00a0'
  | 'L' => some '\u2028'
  | 'P' => some '\u2029'
  | _ => none

/-- The character whose number some hexadecimal digits write. -/
def coded? (digits : List Char) : Option Char := do
  let n ← digits.foldlM (fun n c => (Hex.value? c).map (16 * n + ·)) 0
  if h : n.isValidChar then some (Char.ofNatAux n h) else none

/-- Reads a double-quoted scalar. A backslash in front of the end of a line takes it away. -/
def doubleQuoted (text : List Char) (gap : Gap) (p : Position) :
    List Char → Option (Scanned (List Char))
  | [] => none
  | '"' :: rest => some { value := (gap.onto text).reverse, position := p.along 1, rest }
  | '\\' :: 'x' :: a :: b :: rest =>
    match coded? [a, b] with
    | some c => doubleQuoted (c :: gap.onto text) .none (p.along 4) rest
    | none => none
  | '\\' :: 'u' :: a :: b :: c :: d :: rest =>
    match coded? [a, b, c, d] with
    | some c => doubleQuoted (c :: gap.onto text) .none (p.along 6) rest
    | none => none
  | '\\' :: 'U' :: a :: b :: c :: d :: e :: f :: g :: h :: rest =>
    match coded? [a, b, c, d, e, f, g, h] with
    | some c => doubleQuoted (c :: gap.onto text) .none (p.along 10) rest
    | none => none
  | '\\' :: c :: rest =>
    if isBreak c then
      if startsAnyMarker rest then none
      else doubleQuoted (gap.onto text) (.lines none []) ((p.along 1).after c) rest
    else
      match escaped? c with
      | some e => doubleQuoted (e :: gap.onto text) .none (p.along 2) rest
      | none => none
  | c :: rest =>
    if isBlank c then doubleQuoted text (gap.add c) (p.after c) rest
    else if isBreak c then
      if startsAnyMarker rest then none else doubleQuoted text (gap.add c) (p.after c) rest
    else if c = '\\' then none
    else doubleQuoted (c :: gap.onto text) .none (p.after c) rest

/-! ### Plain scalars -/

/-- A plain scalar, and whether the end of its line is behind it. -/
structure Plain where
  text : List Char
  endsLine : Bool

/-- Whether a plain scalar ends in front of a text that is behind a gap: at a comment, at a line
that marks a document, and, outside of brackets, at a line that is not indented by `indent`. -/
def endsBehindGap (flow : Bool) (indent : Nat) (p : Position) (cs : List Char) : Bool :=
  (!flow && p.column < indent) || (p.column = 0 && startsAnyMarker cs) || cs.head? = some '#'

/-- Whether a plain scalar ends in front of a text: at a colon with a blank behind it, and at the
signs that are special within brackets. -/
def endsPlain (flow : Bool) : List Char → Bool
  | [] => true
  | c :: rest => (c = ':' && startsBlank rest) || (flow && c ∈ [',', '[', ']', '\x7b', '\x7d'])

/-- Whether a colon stands where it is neither part of a plain scalar nor behind it. -/
def isMisplacedColon (flow : Bool) : List Char → Bool
  | ':' :: c :: _ => flow && c ∈ [',', '?', '[', ']', '\x7b', '\x7d']
  | _ => false

/-- Reads a plain scalar; `flow` tells whether it stands within brackets. -/
def plain (flow : Bool) (indent : Nat) (text : List Char) (gap : Gap) (p : Position) :
    List Char → Option (Scanned Plain)
  | [] => some
    { value := { text := text.reverse, endsLine := gap.isLines }, position := p, rest := [] }
  | c :: rest =>
    if isBlank c || isBreak c then
      if gap.isLines && c = '\t' && p.column < indent then none
      else plain flow indent text (gap.add c) (p.after c) rest
    else if (!gap.isNone && endsBehindGap flow indent p (c :: rest)) then
      some
        { value := { text := text.reverse, endsLine := gap.isLines }, position := p
          rest := c :: rest }
    else if isMisplacedColon flow (c :: rest) then none
    else if endsPlain flow (c :: rest) then
      some
        { value := { text := text.reverse, endsLine := gap.isLines }, position := p
          rest := c :: rest }
    else plain flow indent (c :: gap.onto text) .none (p.after c) rest

/-! ### Block scalars -/

/-- What becomes of the ends of lines behind a block. -/
inductive Chomping where
  | strip
  | clip
  | keep

/-- What is said behind the indicator of a block. -/
structure BlockHeader where
  chomping : Chomping
  /-- How far the block is indented against what is around it; zero if nothing is said. -/
  increment : Nat

/-- The chomping that a character asks for. -/
def chomping? : Char → Option Chomping
  | '+' => some .keep
  | '-' => some .strip
  | _ => none

/-- The digit of an indentation. Zero is none. -/
def increment? (c : Char) : Option Nat :=
  if c.isDigit ∧ c ≠ '0' then some (c.toNat - '0'.toNat) else none

/-- Takes the first character of a text if it means something. -/
def takeFirst {α : Type} (meaning? : Char → Option α) : List Char → Option α × List Char
  | [] => (none, [])
  | c :: rest =>
    match meaning? c with
    | some a => (some a, rest)
    | none => (none, c :: rest)

/-- Reads the header of a block, in which a digit and a sign come in any order. -/
def blockHeader (p : Position) (cs : List Char) : Scanned BlockHeader :=
  let (sign, cs) := takeFirst chomping? cs
  let (digit, cs) := takeFirst increment? cs
  let (late, cs) :=
    takeFirst (fun c => if sign.isNone && digit.isSome then chomping? c else none) cs
  { value := { chomping := (sign.or late).getD .clip, increment := digit.getD 0 }
    position := p.along ([sign.isSome, digit.isSome, late.isSome].count true)
    rest := cs }

/-- Reads the rest of a line on which nothing but a comment may stand, and its end. -/
def restOfLine (comment : Bool) (p : Position) : List Char → Option (Scanned Unit)
  | [] => some { value := (), position := p, rest := [] }
  | c :: rest =>
    if isBreak c then some { value := (), position := p.after c, rest }
    else if comment || isBlank c then restOfLine comment (p.after c) rest
    else if c = '#' then restOfLine true (p.after c) rest
    else none

/-- The empty lines in front of a block, last first, and the deepest column in them. -/
structure Margin where
  breaks : List Char
  deepest : Nat

/-- Reads the empty lines in front of a block whose indentation is not known, and the indentation
of the line behind them. No tab may stand there. -/
def margin (m : Margin) (p : Position) : List Char → Option (Scanned Margin)
  | [] => some { value := { m with deepest := max m.deepest p.column }, position := p, rest := [] }
  | c :: rest =>
    if c = ' ' then margin m (p.after c) rest
    else
      let m := { m with deepest := max m.deepest p.column }
      if c = '\t' then none
      else if isBreak c then margin { m with breaks := c :: m.breaks } (p.after c) rest
      else some { value := m, position := p, rest := c :: rest }

/-- The part of a block that was read. -/
structure Lines where
  /-- The lines, last character first. -/
  text : List Char := []
  /-- The end of the last line. -/
  lead : Option Char := none
  /-- The ends of the empty lines behind it, last first. -/
  breaks : List Char := []
  /-- Whether the last line starts with a blank. -/
  blank : Bool := false

namespace Lines

/-- Starts a line with the character `c`. A folded block joins two lines with a blank unless one
of them starts with a blank. -/
def start (folds : Bool) (l : Lines) (c : Char) : Lines :=
  let joined :=
    if folds && l.lead = some '\n' && !l.blank && !isBlank c then
      if l.breaks.isEmpty then ' ' :: l.text else l.text
    else l.lead.toList ++ l.text
  { text := c :: (l.breaks ++ joined), blank := isBlank c }

/-- The text of a block. -/
def finish (chomping : Chomping) (l : Lines) : List Char :=
  match chomping with
  | .strip => l.text.reverse
  | .clip => (l.lead.toList ++ l.text).reverse
  | .keep => (l.breaks ++ (l.lead.toList ++ l.text)).reverse

end Lines

/-- Reads the lines of a block that is indented by `indent`; `within` tells whether the place is
within a line. No tab may stand in the indentation. -/
def blockLines (folds : Bool) (indent : Nat) (within : Bool) (l : Lines) (p : Position) :
    List Char → Option (Scanned Lines)
  | [] => some { value := l, position := p, rest := [] }
  | c :: rest =>
    if within then
      if isBreak c then
        blockLines folds indent false { l with lead := some c } (p.after c) rest
      else blockLines folds indent true { l with text := c :: l.text } (p.after c) rest
    else if p.column < indent && c = ' ' then blockLines folds indent false l (p.after c) rest
    else if p.column < indent && c = '\t' then none
    else if isBreak c then
      blockLines folds indent false { l with breaks := c :: l.breaks } (p.after c) rest
    else if p.column = indent then blockLines folds indent true (l.start folds c) (p.after c) rest
    else some { value := l, position := p, rest := c :: rest }

/-- Reads the lines of a block from its first line on. Without an increment the block is indented
like the first of its lines that is not empty, or like a deeper empty line in front of it, and at
least by `least`. -/
def blockBody (folds : Bool) (least increment : Nat) (p : Position) (cs : List Char) :
    Option (Scanned Lines) :=
  if increment = 0 then
    match margin { breaks := [], deepest := 0 } p cs with
    | none => none
    | some m =>
      blockLines folds (max m.value.deepest (max least 1)) false { breaks := m.value.breaks }
        m.position m.rest
  else blockLines folds (least - 1 + increment) false {} p cs

/-- Reads a block whose lines are indented by `least` or more. -/
def block (folds : Bool) (least : Nat) (p : Position) (cs : List Char) :
    Option (Scanned (List Char)) :=
  let header := blockHeader p cs
  match restOfLine false header.position header.rest with
  | none => none
  | some line =>
    (blockBody folds least header.value.increment line.position line.rest).map fun found =>
      { found with value := found.value.finish header.value.chomping }

/-! ### The rest of a text is no longer than the text -/

theorem singleQuoted_le {text gap p cs s} (h : singleQuoted text gap p cs = some s) :
    s.rest.length ≤ cs.length := by
  fun_induction singleQuoted text gap p cs <;> grind

theorem doubleQuoted_le {text gap p cs s} (h : doubleQuoted text gap p cs = some s) :
    s.rest.length ≤ cs.length := by
  fun_induction doubleQuoted text gap p cs <;> (try simp only [List.length_cons]) <;> grind

theorem plain_le {flow indent text gap p cs s} (h : plain flow indent text gap p cs = some s) :
    s.rest.length ≤ cs.length := by
  fun_induction plain flow indent text gap p cs <;> grind

theorem takeFirst_le {α : Type} (meaning? : Char → Option α) (cs : List Char) :
    (takeFirst meaning? cs).2.length ≤ cs.length := by
  unfold takeFirst
  grind

theorem blockHeader_le (p : Position) (cs : List Char) :
    (blockHeader p cs).rest.length ≤ cs.length :=
  Nat.le_trans (takeFirst_le _ _) (Nat.le_trans (takeFirst_le _ _) (takeFirst_le _ _))

theorem restOfLine_le {comment p cs s} (h : restOfLine comment p cs = some s) :
    s.rest.length ≤ cs.length := by
  fun_induction restOfLine comment p cs <;> grind

theorem margin_le {m p cs s} (h : margin m p cs = some s) : s.rest.length ≤ cs.length := by
  fun_induction margin m p cs <;> grind

theorem blockLines_le {folds indent within l p cs s}
    (h : blockLines folds indent within l p cs = some s) : s.rest.length ≤ cs.length := by
  fun_induction blockLines folds indent within l p cs <;> grind

theorem blockBody_le {folds least increment p cs s}
    (h : blockBody folds least increment p cs = some s) : s.rest.length ≤ cs.length := by
  unfold blockBody at h
  split at h
  · split at h
    · cases h
    · rename_i m hm
      exact Nat.le_trans (blockLines_le h) (margin_le hm)
  · exact blockLines_le h

theorem block_le {folds least p cs s} (h : block folds least p cs = some s) :
    s.rest.length ≤ cs.length := by
  unfold block at h
  simp only at h
  split at h
  · cases h
  · rename_i line hl
    obtain ⟨found, hf, rfl⟩ := Option.map_eq_some_iff.1 h
    exact Nat.le_trans (blockBody_le hf) (Nat.le_trans (restOfLine_le hl) (blockHeader_le p cs))

end Scalar
end Yaml
end Collectors
