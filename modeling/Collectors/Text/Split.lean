/-!
# Splitting texts

`pieces sep cs` are the parts of `cs` between the occurrences of `sep`; there is one more of them
than there are occurrences.
-/

namespace Collectors

/-- The parts of a text between the occurrences of a separator. -/
def pieces (sep : Char) : List Char → List (List Char)
  | [] => [[]]
  | c :: cs =>
    if c = sep then [] :: pieces sep cs
    else
      match pieces sep cs with
      | s :: rest => (c :: s) :: rest
      | [] => [[c]]

end Collectors
