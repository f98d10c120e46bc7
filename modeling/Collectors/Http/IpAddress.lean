import Collectors.Text.Decimal
import Collectors.Text.Hex
import Collectors.Text.Split

/-!
# IP addresses

The two forms in which the address of a host is written out: four bytes in decimal, and eight
groups of hexadecimal digits, of which two colons in a row leave some out.
-/

namespace Collectors
namespace Http
namespace IpAddress

/-- Whether a text is a byte in decimal, without a zero in front. -/
def isByte (cs : List Char) : Bool :=
  cs.length ≤ 3 && (Decimal.digits? cs).any (· < 256) && (cs.length = 1 || cs.head? ≠ some '0')

/-- Whether a text is four bytes with dots between them. -/
def isFourBytes (cs : List Char) : Bool :=
  let bytes := pieces '.' cs
  bytes.length = 4 && bytes.all isByte

/-- Whether a text is a group of hexadecimal digits. -/
def isGroup (cs : List Char) : Bool :=
  !cs.isEmpty && cs.length ≤ 4 && cs.all fun c => (Hex.value? c).isSome

/-- How many groups some parts make; four bytes at the end make two. -/
def groups? (parts : List (List Char)) (atEnd : Bool) : Option Nat :=
  if parts.all isGroup then some parts.length
  else if atEnd && parts.dropLast.all isGroup && parts.getLast?.any isFourBytes then
    some (parts.length + 1)
  else none

/-- The texts on both sides of the first two colons in a row, if there are any. -/
def halves : List Char → List Char × Option (List Char)
  | ':' :: ':' :: rest => ([], some rest)
  | c :: rest => let (front, back) := halves rest; (c :: front, back)
  | [] => ([], none)

/-- The groups of one side. -/
def parts (cs : List Char) : List (List Char) := if cs.isEmpty then [] else pieces ':' cs

/-- Whether a text is eight groups, or fewer with two colons for the others. -/
def isEightGroups (cs : List Char) : Bool :=
  match halves cs with
  | (front, none) => groups? (parts front) true = some 8
  | (front, some back) =>
    match groups? (parts front) false, groups? (parts back) true with
    | some m, some n => m + n ≤ 7
    | _, _ => false

end IpAddress

/-- Whether a text is an address to listen at: the address of a host, in brackets if it consists
of groups, and behind a colon a port. Groups may be followed by the number of a zone. -/
def isSocketAddress (text : String) : Bool :=
  let cs := text.toList
  let port := (cs.reverse.takeWhile (· ≠ ':')).reverse
  let host := cs.take (cs.length - port.length - 1)
  let isHost := match host with
    | '[' :: rest =>
      let (address, zone) := (rest.dropLast.takeWhile (· ≠ '%'), rest.dropLast.dropWhile (· ≠ '%'))
      rest.getLast? = some ']' && IpAddress.isEightGroups address &&
        (zone.isEmpty || (Decimal.digits? (zone.drop 1)).any (· < 0x100000000))
    | host => IpAddress.isFourBytes host
  port.length < cs.length && isHost && (Decimal.digits? port).any (· < 0x10000)

end Http
end Collectors
