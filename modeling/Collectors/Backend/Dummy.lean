import Collectors.Backend

/-!
# The dummy backend

The built-in backend of every provider. Its instances hold nothing but the JSON value that they
were configured with, until they are closed or destroyed. They add, greet, and answer three
operations:

* `hello` greets and answers nothing;
* `sum` adds the members `x` and `y` of its arguments;
* `get_config` answers the configuration, or nothing once the instance has ended.
-/

namespace Collectors
namespace Dummy

/-- The name of the dummy backend. -/
def backendName : String := "dummy"

/-- The configuration that a text gives; no text gives the empty object. -/
def parseConfig : Option String → Except Error Json
  | none => .ok (.object [])
  | some text =>
    match Json.Codec.free.read text with
    | .ok value => .ok value
    | .error fault => .error (.invalidConfig backendName fault.message)

/-- The member of some arguments that is a signed 32-bit integer. -/
def operand (args : Json) (name : String) : Except Error Int32 :=
  match (args.member? name).bind Json.int? with
  | some i =>
    if -0x80000000 ≤ i ∧ i < 0x80000000 then .ok (Int32.ofInt i)
    else .error (.invalidArgs ("sum expects an i32 field `" ++ name ++ "`"))
  | none => .error (.invalidArgs ("sum expects an i32 field `" ++ name ++ "`"))

/-- The sum of two numbers, modulo `2 ^ 32`. -/
def add (x y : Int32) : Int32 := x + y

/-- The answer to an operation when `config` is what is left of the configuration. -/
def answer (config : Option Json) (operation : String) (args : Json) : Except Error Json :=
  if operation = "hello" then .ok .null
  else if operation = "sum" then do
    let x ← operand args "x"
    let y ← operand args "y"
    return .int (add x y).toInt
  else if operation = "get_config" then .ok (config.getD .null)
  else .error (.opUnsupported backendName operation)

/-- The configurations of all dummy instances, in the order in which they were made; `none` for
one that has ended. An instance is its place in the list. -/
structure Store where
  configs : Array (Option Json) := #[]

namespace Store

/-- Adds an instance with a configuration. -/
def add (s : Store) (config : Json) : Nat × Store :=
  (s.configs.size, { configs := s.configs.push (some config) })

/-- What is left of the configuration of an instance. -/
def config? (s : Store) (i : Nat) : Option Json := s.configs[i]?.join

/-- Releases the configuration of an instance. -/
def release (s : Store) (i : Nat) : Store := { configs := s.configs.setIfInBounds i none }

end Store

/-- What the dummy backend does. -/
def behaviour : Behaviour Unit Nat Store where
  instantiate _ _ config s :=
    match parseConfig config with
    | .ok value => let (i, s) := s.add value; (some (.ok i), s)
    | .error e => (some (.error e), s)
  close i s := (some (.ok ()), s.release i)
  destroy i s := (some (.ok ()), s.release i)
  hello _ s := (some (), s)
  sum _ x y s := (some (.ok (add x y)), s)
  invoke i operation args s := (some (answer (s.config? i) operation args), s)

end Dummy

/-- The names of the backends that every provider starts with. -/
def builtinNames : List String := [Dummy.backendName]

/-- The name of the built-in backend with a name, if there is one. -/
def builtin? (name : String) : Option String := builtinNames.find? (· = name)

end Collectors
