/-!
# White space

`isBlank` is the White_Space property of characters. `trimBlank` removes it from both ends of a
text, and `trimEnd` removes from the end the characters that satisfy a test.
-/

namespace Collectors

/-- Whether a character is white space. -/
def isBlank (c : Char) : Bool :=
  ('\t' ≤ c && c ≤ '\r') || c = ' ' || c = '\u0085' || c = '\u00a0' || c = '\u1680' ||
    ('\u2000' ≤ c && c ≤ '\u200a') || c = '\u2028' || c = '\u2029' || c = '\u202f' ||
    c = '\u205f' || c = '\u3000'

/-- What is left of a text when the characters at its end that satisfy `p` are removed. -/
def trimEnd (p : Char → Bool) (cs : List Char) : List Char := (cs.reverse.dropWhile p).reverse

/-- What is left of a text when the white space at both ends is removed. -/
def trimBlank (cs : List Char) : List Char := trimEnd isBlank (cs.dropWhile isBlank)

end Collectors
