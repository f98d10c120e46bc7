import Collectors.Text.Hex

/-!
# Characters of a YAML text

A YAML text is read as a list of characters in which every end of a line is one character
(`unified?`). A `Position` counts the characters and lines in front of a place and the characters
in front of it on its line.
-/

namespace Collectors
namespace Yaml

/-- Whether a character is a blank. -/
def isBlank (c : Char) : Bool := c = ' ' || c = '\t'

/-- Whether a character ends a line. -/
def isBreak (c : Char) : Bool := c = '\n' || c = '\u2028' || c = '\u2029'

/-- Whether a text starts with a blank or the end of a line, or is at its end. -/
def startsBlank : List Char → Bool
  | [] => true
  | c :: _ => isBlank c || isBreak c

/-- Whether a character may stand in names. -/
def isWordChar (c : Char) : Bool := c.isAlphanum || c = '_' || c = '-'

/-- Whether a character may stand in a text. -/
def isAllowed (c : Char) : Bool :=
  c = '\t' || c = '\n' || c = '\r' || (' ' ≤ c && c ≤ '~') || c = '\u0085' ||
    ('\u00a0' ≤ c && c.toNat ≤ 0xfffd) || 0x10000 ≤ c.toNat

/-- The text with a line feed at the end of every line. The two separators of lines and
paragraphs are kept. -/
def unify : List Char → List Char
  | [] => []
  | '\r' :: '\n' :: rest => '\n' :: unify rest
  | c :: rest => (if c = '\r' ∨ c = '\u0085' then '\n' else c) :: unify rest

/-- The text with unified ends of lines; `none` if a character is not allowed. -/
def unified? (text : String) : Option (List Char) :=
  if text.toList.all isAllowed then some (unify text.toList) else none

/-- Whether a line that marks the start or the end of a document starts a text. -/
def startsMarker (mark : Char) : List Char → Bool
  | a :: b :: c :: rest => a = mark && b = mark && c = mark && startsBlank rest
  | _ => false

/-- Whether a line that marks either starts a text. -/
def startsAnyMarker (cs : List Char) : Bool := startsMarker '-' cs || startsMarker '.' cs

/-- A place in a text. -/
structure Position where
  index : Nat := 0
  line : Nat := 0
  column : Nat := 0
  deriving DecidableEq

namespace Position

/-- The place behind some characters of the same line. -/
def along (p : Position) (n : Nat) : Position :=
  { p with index := p.index + n, column := p.column + n }

/-- The place behind a character. -/
def after (p : Position) (c : Char) : Position :=
  if isBreak c then { index := p.index + 1, line := p.line + 1, column := 0 } else p.along 1

end Position

/-- What was read from a text, the place behind it and the text from there on. -/
structure Scanned (α : Type) where
  value : α
  position : Position
  rest : List Char

end Yaml
end Collectors
