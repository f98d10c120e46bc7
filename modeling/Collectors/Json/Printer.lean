import Collectors.Binary64
import Collectors.Json.Basic
import Collectors.Text.Hex

/-!
# Written JSON

`Json.emit` writes a value in front of a text that follows it, without blanks and with the
members of an object in their order. Strings escape the quote, the backslash and the control
characters below the blank, and nothing else.
-/

namespace Collectors
namespace Json

/-- How one character of a string is written. -/
def escape (c : Char) : List Char :=
  if c = '"' then ['\\', '"']
  else if c = '\\' then ['\\', '\\']
  else if c = '\x08' then ['\\', 'b']
  else if c = '\x0c' then ['\\', 'f']
  else if c = '\n' then ['\\', 'n']
  else if c = '\r' then ['\\', 'r']
  else if c = '\t' then ['\\', 't']
  else if c.toNat < 32 then
    ['\\', 'u', '0', '0', Hex.digit (c.toNat / 16), Hex.digit (c.toNat % 16)]
  else [c]

/-- A quoted string in front of `rest`. -/
def emitString (s : String) (rest : List Char) : List Char :=
  '"' :: s.toList.flatMap escape ++ '"' :: rest

/-- The text of an integer. -/
def intText : Int → List Char
  | .ofNat n => Nat.toDigits 10 n
  | .negSucc n => '-' :: Nat.toDigits 10 (n + 1)

/-- The text of a number. -/
def Number.text : Number → List Char
  | .int i => intText i
  | .real bits => Binary64.text bits

mutual

/-- A value in front of `rest`. -/
def emit : Json → List Char → List Char
  | .null, rest => 'n' :: 'u' :: 'l' :: 'l' :: rest
  | .bool true, rest => 't' :: 'r' :: 'u' :: 'e' :: rest
  | .bool false, rest => 'f' :: 'a' :: 'l' :: 's' :: 'e' :: rest
  | .number n, rest => n.text ++ rest
  | .string s, rest => emitString s rest
  | .array [], rest => '[' :: ']' :: rest
  | .array (item :: items), rest => '[' :: item.emit (emitItems items (']' :: rest))
  | .object [], rest => '{' :: '}' :: rest
  | .object ((name, value) :: members), rest =>
    '{' :: emitString name (':' :: value.emit (emitMembers members ('}' :: rest)))

/-- Items after the first, each behind a comma. -/
def emitItems : List Json → List Char → List Char
  | [], rest => rest
  | item :: items, rest => ',' :: item.emit (emitItems items rest)

/-- Members after the first, each behind a comma. -/
def emitMembers : List (String × Json) → List Char → List Char
  | [], rest => rest
  | (name, value) :: members, rest =>
    ',' :: emitString name (':' :: value.emit (emitMembers members rest))

end

/-- The text of a value. -/
def render (v : Json) : String := String.ofList (v.emit [])

end Json
end Collectors
