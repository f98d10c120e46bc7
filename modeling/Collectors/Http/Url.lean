import Collectors.Http.IpAddress
import Collectors.Text.Blank
import Collectors.Text.Percent

/-!
# URLs of endpoints

`Url.isValid` tells which texts behind `http://` or `https://` a request can be sent to. The host
ends at the first slash, backslash, question mark or number sign, and before it the port. A host
is a name, an IPv4 address if its last label is a number, or an IPv6 address in brackets.
-/

namespace Collectors
namespace Http
namespace Url

/-- The number that a label of an IPv4 address writes: hexadecimal behind `0x`, octal behind `0`,
else decimal. -/
def ipv4Number? (cs : List Char) : Option Nat :=
  let (base, digits) := match cs with
    | '0' :: x :: rest => if x = 'x' ∨ x = 'X' then (16, rest) else (8, x :: rest)
    | cs => (10, cs)
  if cs.isEmpty then none
  else digits.foldlM (fun n c => do
    let d ← Hex.value? c
    if d < base then some (base * n + d) else none) 0

/-- The labels of a name, without the empty one behind a last dot. -/
def labels (host : List Char) : List (List Char) :=
  let all := pieces '.' host
  if 1 < all.length ∧ all.getLast? = some [] then all.dropLast else all

/-- Whether a host has to be an IPv4 address. -/
def endsInNumber (host : List Char) : Bool :=
  match (labels host).getLast? with
  | some label => (!label.isEmpty && label.all Char.isDigit) || (ipv4Number? label).isSome
  | none => false

/-- Whether a host is an IPv4 address: at most four numbers, of which the last fills the bytes
that the others leave. -/
def isIpv4 (host : List Char) : Bool :=
  match (labels host).mapM ipv4Number? with
  | some numbers =>
    numbers.length ≤ 4 && numbers.dropLast.all (· < 256) &&
      (numbers.getLast?.getD 0) < Nat.pow 256 (5 - numbers.length)
  | none => false

/-- Whether a character cannot stand in a name. -/
def isForbidden (c : Char) : Bool :=
  c.toNat ≤ 32 || (127 ≤ c.toNat && c.toNat < 160) || isBlank c || c ∈ "#%/:<>?@[\\]^|".toList

/-- Whether a text is a host. Bytes that a name writes with a percent sign count as themselves. -/
def isHost (cs : List Char) : Bool :=
  match cs with
  | '[' :: rest => rest.getLast? = some ']' && IpAddress.isEightGroups rest.dropLast
  | cs =>
    match String.fromUTF8? ⟨(percentDecoded cs).toArray⟩ with
    | some name =>
      let name := name.toList
      !name.isEmpty && !name.any isForbidden && (!endsInNumber name || isIpv4 name)
    | none => false

/-- Whether a text is a port; none is written as nothing. -/
def isPort (cs : List Char) : Bool :=
  cs.isEmpty || (Decimal.digits? cs).any (· < 0x10000)

/-- The host in front of the first colon that stands in no brackets, and what is behind it. -/
def hostAndPort (bracketed : Bool) : List Char → List Char × List Char
  | [] => ([], [])
  | c :: rest =>
    if c = ':' ∧ ¬ bracketed then ([], rest)
    else
      let (host, port) := hostAndPort (if c = '[' then true else if c = ']' then false else bracketed) rest
      (c :: host, port)

/-- What is behind the scheme of a URL. -/
def behindScheme? (cs : List Char) : Option (List Char) :=
  if "http:".toList.isPrefixOf cs then some (cs.drop 5)
  else if "https:".toList.isPrefixOf cs then some (cs.drop 6)
  else none

/-- Whether a request can be sent to a URL. Tabs and line ends in it do not count. -/
def isValid (url : String) : Bool :=
  match behindScheme? (url.toList.filter fun c => c ≠ '\t' ∧ c ≠ '\n' ∧ c ≠ '\r') with
  | none => false
  | some rest =>
    let rest := rest.dropWhile fun c => c = '/' || c = '\\'
    let authority := rest.takeWhile fun c => c ≠ '/' && c ≠ '\\' && c ≠ '?' && c ≠ '#'
    let place := ((pieces '@' authority).getLast?).getD []
    let (host, port) := hostAndPort false place
    isHost host && isPort port

end Url
end Http
end Collectors
