/-!
# JSON values

`Json` is the free value that travels in arguments, configurations and results. Numbers are
either integers or binary64 words (`Json.Number`); an object keeps its members in the order in
which they are written.
-/

namespace Collectors

/-- A JSON number: an integer, or the bits of a binary64 word. -/
inductive Json.Number where
  | int (value : Int)
  | real (bits : UInt64)
  deriving DecidableEq

/-- A JSON value. -/
inductive Json where
  | null
  | bool (value : Bool)
  | number (value : Json.Number)
  | string (value : String)
  | array (items : List Json)
  | object (members : List (String × Json))

namespace Json

/-- An integer as a value. -/
def int (i : Int) : Json := .number (.int i)

/-- The member of an object under a name; `none` for other values and other names. -/
def member? (name : String) : Json → Option Json
  | .object members => members.lookup name
  | _ => none

/-- The integer a value holds, if it holds one. -/
def int? : Json → Option Int
  | .number (.int i) => some i
  | _ => none

mutual

/-- How many arrays and objects are open at once at the deepest place of a value. -/
def depth : Json → Nat
  | .array items => depthItems items + 1
  | .object members => depthMembers members + 1
  | _ => 0

/-- The largest depth of some items. -/
def depthItems : List Json → Nat
  | [] => 0
  | item :: rest => max item.depth (depthItems rest)

/-- The largest depth of some members. -/
def depthMembers : List (String × Json) → Nat
  | [] => 0
  | (_, value) :: rest => max value.depth (depthMembers rest)

end

/-- Puts a member into a list sorted by name, replacing one of the same name. -/
def insertMember (name : String) (value : Json) :
    List (String × Json) → List (String × Json)
  | [] => [(name, value)]
  | (n, v) :: rest =>
    if name < n then (name, value) :: (n, v) :: rest
    else if name = n then (name, value) :: rest
    else (n, v) :: insertMember name value rest

/-- The members sorted by name; the last of several with one name is kept. -/
def sortMembers (members : List (String × Json)) : List (String × Json) :=
  members.foldl (fun sorted (name, value) => insertMember name value sorted) []

end Json
end Collectors
