/-!
# Arguments of a command line

A `Grammar` says which options and operands a command takes and which commands come below it. An
option is written `--name`, with its value in the next argument or behind an equals sign; behind
`--` every argument is an operand. `Grammar.read` sorts the arguments of a command line into one
`Level` for every command that is named. An option that was not given may be set by a variable of
the environment.
-/

namespace Collectors
namespace CommandLine

/-- How often an option is given, and whether with a value. -/
inductive Arity where
  | flag
  | single
  | repeated
  deriving DecidableEq

/-- An option of a command. -/
structure Opt where
  name : String
  arity : Arity := .single
  /-- The variable of the environment that sets the option where it is not given. -/
  env : Option String := none

/-- What a command takes. -/
structure Grammar where
  /-- The name of the command. -/
  name : String
  options : List Opt := []
  /-- How many operands the command takes at most. -/
  operands : Nat := 0
  /-- Whether a minus sign and digits are an operand. -/
  negatives : Bool := false
  /-- The commands below it; one of them has to be named. -/
  commands : List Grammar := []

/-- Why a command line is not carried out. -/
inductive Refusal where
  /-- It is none that the program takes. -/
  | usage
  /-- It asks how the program is used. -/
  | help
  /-- It asks which program this is. -/
  | version
  deriving DecidableEq

/-- What is given to one command. -/
structure Level where
  command : String
  /-- The options with their values, in the order in which they were given. -/
  given : List (String × Option String) := []
  operands : List String := []

namespace Grammar

/-- The name of an option and the value behind the equals sign. -/
def splitOption (arg : String) : String × Option String :=
  let cs := arg.toList.drop 2
  let name := cs.takeWhile (· ≠ '=')
  (String.ofList name,
    if name.length < cs.length then some (String.ofList (cs.drop (name.length + 1))) else none)

/-- Whether an argument starts with a minus sign and more. -/
def isDashed (arg : String) : Bool := arg.toList.head? = some '-' && arg ≠ "-"

/-- Whether an argument is a minus sign and digits. -/
def isNegative (arg : String) : Bool :=
  match arg.toList with
  | '-' :: digits => !digits.isEmpty && digits.all Char.isDigit
  | _ => false

/-- Adds an option, unless it was given before and is not to be repeated. -/
def give (o : Opt) (value : Option String) (l : Level) : Except Refusal Level :=
  if o.arity ≠ .repeated ∧ (l.given.lookup o.name).isSome then .error .usage
  else .ok { l with given := l.given ++ [(o.name, value)] }

/-- Adds an operand. -/
def operand (x : Grammar) (arg : String) (l : Level) : Except Refusal Level :=
  if l.operands.length < x.operands then .ok { l with operands := l.operands ++ [arg] }
  else .error .usage

/-- What an argument that starts with one minus sign asks for. -/
def short (atTop : Bool) (arg : String) : Refusal :=
  if arg.toList[1]? = some 'h' then .help
  else if atTop && arg.toList[1]? = some 'V' then .version
  else .usage

/-- Reads the arguments behind the name of a command; `everywhere` are the options that every
command takes, and `l` is what was read for this one. -/
def readFrom (everywhere : List Opt) (atTop : Bool) (x : Grammar) (l : Level) :
    List String → Except Refusal (List Level)
  | [] => if x.commands.isEmpty then .ok [l] else .error .usage
  | "--" :: rest =>
    if x.commands.isEmpty then do
      let l ← rest.foldlM (fun l arg => x.operand arg l) l
      return [l]
    else .error .usage
  | arg :: rest =>
    match x.commands.find? fun c => c.name = arg with
    | some c => do
      let levels ← readFrom everywhere false c { command := c.name } rest
      return l :: levels
    | none =>
      if !x.commands.isEmpty ∧ arg = "help" then .error .help
      else if "--".toList.isPrefixOf arg.toList then
        let (name, value) := splitOption arg
        match (x.options ++ everywhere).find? fun o => o.name = name with
        | none =>
          .error
            (if value.isSome then .usage
              else if name = "help" then .help
              else if atTop ∧ name = "version" then .version
              else .usage)
        | some o =>
          match o.arity, value, rest with
          | .flag, none, rest => do readFrom everywhere atTop x (← give o none l) rest
          | .flag, some _, _ => .error .usage
          | _, some v, rest => do readFrom everywhere atTop x (← give o (some v) l) rest
          | _, none, v :: rest =>
            if isDashed v then .error .usage
            else do readFrom everywhere atTop x (← give o (some v) l) rest
          | _, none, [] => .error .usage
      else if isDashed arg ∧ ¬ (x.negatives ∧ isNegative arg) then .error (short atTop arg)
      else do readFrom everywhere atTop x (← x.operand arg l) rest

/-- Reads the arguments of a command line. -/
def read (everywhere : List Opt) (x : Grammar) (args : List String) :
    Except Refusal (List Level) :=
  x.readFrom everywhere true { command := x.name } args

end Grammar

namespace Level

/-- The values that an option has on one of some levels, else the one in the environment. -/
def values (environment : List (String × String)) (levels : List Level) (o : Opt) :
    List (Option String) :=
  match levels.flatMap fun l => (l.given.filter fun g => g.1 = o.name).map Prod.snd with
  | [] => ((o.env.bind fun v => environment.lookup v).map some).toList
  | given => given

/-- The value of an option, the last of several. -/
def value? (environment : List (String × String)) (levels : List Level) (o : Opt) :
    Option String :=
  (values environment levels o).getLast?.join

end Level
end CommandLine
end Collectors
