/-!
# JSON in bytes

A message comes as bytes. Outside of strings they have to be ASCII; in a string, bytes that belong
to no character only matter to whoever asks for the string. `textOf` is the text to read in place
of such bytes: for every one of them it has `stray`, which is no JSON outside of strings and makes
a string one that cannot be asked for, like half of a pair.
-/

namespace Collectors
namespace Json

/-- What stands for a byte that belongs to no character. The letter spoils an escape that the byte
is part of; the two halves of pairs spoil the string, whatever half stands beside them. -/
def stray : List Char := "x\\uD800\\uD800".toList

/-- The characters in some bytes, of which the first `rest` belong to a character in front. -/
def charsIn : (rest : Nat) → List UInt8 → List Char
  | _, [] => []
  | rest + 1, _ :: bytes => charsIn rest bytes
  | 0, b :: bytes =>
    match ByteArray.utf8DecodeChar? ⟨(b :: bytes.take 3).toArray⟩ 0 with
    | some c => c :: charsIn (c.utf8Size - 1) bytes
    | none => stray ++ charsIn 0 bytes

/-- The text to read in some bytes. -/
def textOf (bytes : ByteArray) : String :=
  match String.fromUTF8? bytes with
  | some text => text
  | none => String.ofList (charsIn 0 bytes.data.toList)

end Json
end Collectors
