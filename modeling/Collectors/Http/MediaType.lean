import Collectors.Text.Blank

/-!
# Media types of bodies

A body is declared to be JSON by a media type `application/json` or `application/…+json`, in any
case, with or without parameters. A declaration that is no media type declares nothing.
-/

namespace Collectors
namespace Http

/-- A media type without its parameters, in lower case. -/
structure MediaType where
  type : List Char
  /-- What is behind the slash, up to the last plus sign. -/
  subtype : List Char
  /-- What is behind the last plus sign. -/
  suffix : Option (List Char)
  deriving DecidableEq

namespace MediaType

/-- The characters of names and values. -/
def isTokenChar (c : Char) : Bool := c.isAlphanum || c ∈ "!#$%&'*+-.^_`|~".toList

/-- The characters between the quotes of a quoted value. -/
def isQuotedChar (c : Char) : Bool := c.toNat > 31 && c ≠ '\x7f'

/-- Whether the text behind the semicolon or the blank after a subtype is a list of parameters.
Blanks may stand in front of a name and behind a quoted value. -/
def areParameters (cs : List Char) : Bool :=
  go cs.length cs
where
  /-- Reads one parameter after another; every one shortens the text. -/
  go : Nat → List Char → Bool
    | 0, cs => cs.isEmpty
    | n + 1, cs =>
      if cs.isEmpty then true
      else
        let named := cs.dropWhile (· = ' ')
        let name := named.takeWhile isTokenChar
        match named.dropWhile isTokenChar with
        | '=' :: '"' :: value =>
          let content := value.takeWhile fun c => c ≠ '"' && isQuotedChar c
          match value.drop content.length with
          | '"' :: rest =>
            !name.isEmpty && !content.isEmpty &&
              match rest.dropWhile (· = ' ') with
              | ';' :: more => go n more
              | more => more.isEmpty
          | _ => false
        | '=' :: value =>
          let content := value.takeWhile isTokenChar
          match value.dropWhile isTokenChar with
          | ';' :: more => !name.isEmpty && !content.isEmpty && go n more
          | more => !name.isEmpty && more.isEmpty
        | _ => false

/-- The place of the last plus sign that has something in front of it. -/
def lastPlus? (cs : List Char) : Option Nat :=
  (List.range cs.length).reverse.find? fun i => 0 < i && cs[i]? = some '+'

/-- Reads a media type. -/
def parse? (text : String) : Option MediaType :=
  let cs := text.toList
  let type := cs.takeWhile isTokenChar
  match cs.dropWhile isTokenChar with
  | '/' :: rest =>
    let subtype := rest.takeWhile isTokenChar
    let parameters :=
      match rest.dropWhile isTokenChar with
      | [] => true
      | ';' :: more => !subtype.isEmpty && areParameters more
      | ' ' :: more => !subtype.isEmpty && areParameters more
      | _ => false
    if type.isEmpty || !parameters then none
    else
      let type := type.map Char.toLower
      let subtype := subtype.map Char.toLower
      match lastPlus? subtype with
      | none => some { type, subtype, suffix := none }
      | some i => some { type, subtype := subtype.take i, suffix := some (subtype.drop (i + 1)) }
  | _ => none

/-- Whether bodies of a media type are JSON. -/
def isJson (m : MediaType) : Bool :=
  m.type = "application".toList &&
    (m.subtype = "json".toList || m.suffix = some "json".toList)

end MediaType

/-- Whether a header declares a body to be JSON. -/
def declaresJson (contentType : Option String) : Bool :=
  match contentType.bind MediaType.parse? with
  | some m => m.isJson
  | none => false

end Http
end Collectors
