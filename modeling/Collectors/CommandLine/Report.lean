import Collectors.Error

/-!
# Reports of failures

What the command line says when a command fails: what went wrong, and the causes of it, each
behind the one it is the cause of. Several causes are numbered.
-/

namespace Collectors

/-- What an error was caused by, where that has a wording of its own. -/
def Error.cause? : Error → Option String
  | .io text | .jsonParse _ text | .yamlParse text => some text
  | .transport failure => some failure.text
  | _ => none

namespace CommandLine

/-- What went wrong and why. -/
structure Report where
  message : String
  causes : List String := []

namespace Report

/-- The report of an error. -/
def ofError (e : Error) : Report := { message := e.message, causes := e.cause?.toList }

/-- The report of something that an error is the cause of. -/
def caused (message : String) (e : Error) : Report :=
  { message, causes := e.message :: e.cause?.toList }

/-- The lines of a text behind `head`, the first, and behind blanks as long, the others. -/
def indent (head text : String) : String :=
  head ++ ("\n" ++ String.ofList (head.toList.map fun _ => ' ')).intercalate
    ((text.toList.splitOn '\n').map String.ofList)

/-- One cause in its place among the others. -/
def causeText (numbered : Bool) (place : Nat) (text : String) : String :=
  if numbered then
    let number := toString place
    indent (String.ofList (List.replicate (5 - number.length) ' ') ++ number ++ ": ") text
  else indent "    " text

/-- The text of a report. -/
def text (r : Report) : String :=
  let numbered := 1 < r.causes.length
  let causes := r.causes.zipIdx.map fun (cause, i) => "\n" ++ causeText numbered i cause
  "Error: " ++ r.message ++
    if r.causes.isEmpty then "" else "\n\nCaused by:" ++ String.join causes

end Report
end CommandLine
end Collectors
