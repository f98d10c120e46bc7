import Collectors.Json.Token

/-!
# Documents: JSON texts as far as they can be read

A `Document` is the tree of a JSON text up to the first place where the text breaks off its
form. `Document.broken` marks a value that cannot be read, and a container knows whether its end
was reached. What a text means to a reader that expects a certain type is then a function on the
tree that visits it in the order of the text: the first thing it meets, a value of the wrong kind
or the end of the readable part, decides.

`Document.ofTokens` builds the tree with a list of open containers, so that its depth costs no
recursion.
-/

namespace Collectors
namespace Json

/-- How an object ends. -/
inductive Ending where
  | closed
  /-- The text breaks off its form where a name, a comma or the end is due. -/
  | cut
  /-- A value that is no string stands where a name is due. -/
  | misfit
  deriving DecidableEq

/-- A JSON text as far as it can be read. -/
inductive Document where
  | null
  | bool (value : Bool)
  | number (n : Numeral)
  /-- A string; without content if half of a surrogate pair is missing. -/
  | string (content : Option String)
  | array (items : List Document) (closed : Bool)
  | object (members : List (Option String × Document)) (ending : Ending)
  | broken

namespace Document

/-- A container that is open while the text is read; the last thing read stands first. -/
inductive Frame where
  | array (items : List Document)
  | object (members : List (Option String × Document)) (name : Option String)

/-- What is due next. -/
inductive Due where
  | value
  /-- The first item of an array, or its end. -/
  | item
  /-- The first name of an object, or its end. -/
  | name
  /-- A name, behind a comma. -/
  | nextName (members : List (Option String × Document))
  | colon
  /-- A comma or the end of the innermost container, behind a complete value. -/
  | separator (last : Document)

/-- The tree when the text breaks off: `last` is the innermost value, and every container that is
open stays without its end. -/
def breakOff (last : Document) : List Frame → Document
  | [] => last
  | .array items :: frames => breakOff (.array (last :: items).reverse false) frames
  | .object members name :: frames =>
    breakOff (.object ((name, last) :: members).reverse .cut) frames

/-- Whether a token starts a value. -/
def startsValue : Token → Bool
  | .openArray | .openObject | .null | .bool _ | .numeral _ | .string _ => true
  | _ => false

/-- The ending of an object whose next name is due where `t` stands. -/
def endingAt (t : Token) : Ending := if startsValue t then .misfit else .cut

/-- Reads tokens with the open containers `frames`, innermost first. The answer is the tree of
the first complete value, or of what there is of it, and the tokens behind it. -/
def read : List Token → Due → List Frame → Document × List Token
  | ts, .separator last, [] => (last, ts)
  | [], .separator last, .array items :: frames =>
    (breakOff (.array (last :: items).reverse false) frames, [])
  | [], .separator last, .object members name :: frames =>
    (breakOff (.object ((name, last) :: members).reverse .cut) frames, [])
  | [], .nextName members, frames => (breakOff (.object members.reverse .cut) frames, [])
  | [], .item, frames => (breakOff (.array [] false) frames, [])
  | [], .name, frames => (breakOff (.object [] .cut) frames, [])
  | [], .value, frames => (breakOff .broken frames, [])
  | [], .colon, frames => (breakOff .broken frames, [])
  | t :: ts, .separator last, .array items :: frames =>
    match t with
    | .comma => read ts .value (.array (last :: items) :: frames)
    | .closeArray => read ts (.separator (.array (last :: items).reverse true)) frames
    | _ => (breakOff (.array (last :: items).reverse false) frames, t :: ts)
  | t :: ts, .separator last, .object members name :: frames =>
    match t with
    | .comma => read ts (.nextName ((name, last) :: members)) frames
    | .closeObject => read ts (.separator (.object ((name, last) :: members).reverse .closed)) frames
    | _ => (breakOff (.object ((name, last) :: members).reverse .cut) frames, t :: ts)
  | t :: ts, .nextName members, frames =>
    match t with
    | .string name => read ts .colon (.object members name :: frames)
    | _ => (breakOff (.object members.reverse .cut) frames, t :: ts)
  | t :: ts, .name, frames =>
    match t with
    | .string name => read ts .colon (.object [] name :: frames)
    | .closeObject => read ts (.separator (.object [] .closed)) frames
    | _ => (breakOff (.object [] (endingAt t)) frames, t :: ts)
  | t :: ts, .colon, frames =>
    match t with
    | .colon => read ts .value frames
    | _ => (breakOff .broken frames, t :: ts)
  | t :: ts, .item, frames =>
    match t with
    | .closeArray => read ts (.separator (.array [] true)) frames
    | .openArray => read ts .item (.array [] :: frames)
    | .openObject => read ts .name (.array [] :: frames)
    | .null => read ts (.separator .null) (.array [] :: frames)
    | .bool b => read ts (.separator (.bool b)) (.array [] :: frames)
    | .numeral n => read ts (.separator (.number n)) (.array [] :: frames)
    | .string s => read ts (.separator (.string s)) (.array [] :: frames)
    | _ => (breakOff (.array [] false) frames, t :: ts)
  | t :: ts, .value, frames =>
    match t with
    | .openArray => read ts .item frames
    | .openObject => read ts .name frames
    | .null => read ts (.separator .null) frames
    | .bool b => read ts (.separator (.bool b)) frames
    | .numeral n => read ts (.separator (.number n)) frames
    | .string s => read ts (.separator (.string s)) frames
    | _ => (breakOff .broken frames, t :: ts)

/-- The tree of a text and whether nothing but blanks is behind its first value. -/
def ofText (text : String) : Document × Bool :=
  let (tree, behind) := read (Token.ofChars text.toList) .value []
  (tree, behind.isEmpty)

end Document
end Json
end Collectors
