import Collectors.CommandLine.Grammar
import Collectors.Config
import Collectors.CollectorId
import Collectors.Text.Decimal

/-!
# Commands

What the command line is asked to do: to host providers (`serve`), to make, end and list
collectors (`admin`), or to call one collector (`client`). `Command.read` reads it from the
arguments and the environment.
-/

namespace Collectors
namespace CommandLine

/-- What is given to `serve`. -/
structure ServeArgs where
  address : String
  token : Option String
  poolSize : UInt64
  providerIds : List ProviderId
  config : Option String
  deriving DecidableEq

/-- The provider that a command goes to. -/
structure Target where
  address : String
  providerId : ProviderId
  deriving DecidableEq

/-- What an administrator asks for. -/
inductive AdminAction where
  | create (backend : String) (config : Option String)
  | open (backend : String) (config : Option String)
  | close (id : CollectorId)
  | destroy (id : CollectorId)
  | list (limit : UInt64)
  deriving DecidableEq

/-- What is asked of a collector. -/
inductive ClientAction where
  | hello
  | sum (x y : Int32)
  | invoke (operation args : String)
  deriving DecidableEq

/-- What the command line is asked to do. -/
inductive Command where
  | serve (args : ServeArgs)
  | admin (target : Target) (token : Option String) (action : AdminAction)
  | client (target : Target) (id : CollectorId) (action : ClientAction)
  deriving DecidableEq

namespace Opt

/-- How much is logged. -/
def logLevel : Opt := { name := "log-level", env := some "LOG_LEVEL" }

/-- Whether the log is written as JSON. -/
def logJson : Opt := { name := "log-json", arity := .flag, env := some "LOG_JSON" }

/-- Where to listen. -/
def listenAddress : Opt := { name := "addr", env := some "COLLECTOR_ADDR" }

/-- The admin token. -/
def token : Opt := { name := "token", env := some "COLLECTOR_TOKEN" }

/-- How many workers a provider has. -/
def poolSize : Opt := { name := "pool-size", env := some "COLLECTOR_POOL_SIZE" }

/-- The ids of providers to host. -/
def providerIds : Opt := { name := "provider-id", arity := .repeated }

/-- The configuration file. -/
def configFile : Opt := { name := "config", env := some "COLLECTOR_CONFIG" }

/-- The endpoint to call. -/
def endpoint : Opt := { name := "address", env := some "COLLECTOR_ENDPOINT" }

/-- The provider on the endpoint. -/
def providerId : Opt := { name := "provider-id" }

/-- The backend of a new collector. -/
def backend : Opt := { name := "type" }

/-- The configuration of a new collector. -/
def config : Opt := { name := "config" }

/-- How many ids are listed. -/
def limit : Opt := { name := "max" }

end Opt

/-- The options that every command takes. -/
def everywhere : List Opt := [.logLevel, .logJson]

/-- The commands and what they take. -/
def grammar : Grammar where
  name := "collector-provider"
  commands :=
    [{ name := "serve"
       options := [.listenAddress, .token, .poolSize, .providerIds, .configFile] },
      { name := "admin"
        options := [.endpoint, .providerId, .token]
        commands :=
          [{ name := "create", options := [.backend, .config] },
            { name := "open", options := [.backend, .config] },
            { name := "close", operands := 1 },
            { name := "destroy", operands := 1 },
            { name := "list", options := [.limit] }] },
      { name := "client"
        options := [.endpoint, .providerId]
        operands := 1
        commands :=
          [{ name := "hello" },
            { name := "sum", operands := 2, negatives := true },
            { name := "invoke", operands := 2 }] }]

namespace Command

/-- A provider id. -/
def readProviderId (text : String) : Option ProviderId :=
  (Decimal.signed? 0 0xFFFF text.toList).map fun n => UInt16.ofNat n.toNat

/-- A number of workers or ids. -/
def readSize (text : String) : Option UInt64 :=
  (Decimal.unsigned? 0xFFFFFFFFFFFFFFFF text.toList).map UInt64.ofNat

/-- A number to add. -/
def readOperand (text : String) : Option Int32 :=
  (Decimal.signed? (-0x80000000) 0x7FFFFFFF text.toList).map Int32.ofInt

/-- The value of an option read with `read`, or `default` if it has none. -/
def valueOr {α : Type} (read : String → Option α) (default : α) (value : Option String) :
    Option α :=
  match value with
  | none => some default
  | some text => read text

/-- A file name, which is not empty. -/
def readFileName (text : String) : Option (Option String) :=
  if text.isEmpty then none else some (some text)

/-- What the options of all commands have to be: the log is written as JSON or it is not. -/
def logIsClear (value : Opt → Option String) : Bool :=
  match value .logJson with
  | none => true
  | some text => text = "true" || text = "false"

/-- The provider that the options name. -/
def target? (value : Opt → Option String) : Option Target := do
  let providerId ← valueOr readProviderId 0 (value .providerId)
  return { address := (value .endpoint).getD "127.0.0.1:8090", providerId }

/-- What the options of `serve` say. -/
def serve? (value : Opt → Option String) (ids : List (Option String)) : Option ServeArgs := do
  let poolSize ← valueOr readSize defaultPoolSize (value .poolSize)
  let providerIds ← ids.mapM fun id => id.bind readProviderId
  let config ← valueOr readFileName none (value .configFile)
  let address := (value .listenAddress).getD ({} : ListenConfig).address
  return { address, token := value .token, poolSize, providerIds, config }

/-- What an administrator asks for. -/
def adminAction? (value : Opt → Option String) (l : Level) : Option AdminAction :=
  let backend := (value .backend).getD "dummy"
  let id? := match l.operands with
    | [id] => (CollectorId.parse id).toOption
    | _ => none
  if l.command = "create" then some (.create backend (value .config))
  else if l.command = "open" then some (.open backend (value .config))
  else if l.command = "close" then id?.map .close
  else if l.command = "destroy" then id?.map .destroy
  else if l.command = "list" then (valueOr readSize 64 (value .limit)).map .list
  else none

/-- What is asked of a collector. -/
def clientAction? (l : Level) : Option ClientAction :=
  if l.command = "hello" then some .hello
  else if l.command = "sum" then
    match l.operands with
    | [x, y] => do return .sum (← readOperand x) (← readOperand y)
    | _ => none
  else if l.command = "invoke" then
    match l.operands with
    | [operation] => some (.invoke operation "null")
    | [operation, args] => some (.invoke operation args)
    | _ => none
  else none

/-- What some levels ask for. -/
def ofLevels? (environment : List (String × String)) (levels : List Level) : Option Command :=
  let value := Level.value? environment levels
  if !logIsClear value then none
  else
    match levels with
    | [_, below] =>
      if below.command = "serve" then
        (serve? value (Level.values environment levels .providerIds)).map .serve
      else none
    | [_, above, below] => do
      let target ← target? value
      if above.command = "admin" then
        return .admin target (value .token) (← adminAction? value below)
      else
        match above.operands with
        | [id] => return .client target (← (CollectorId.parse id).toOption) (← clientAction? below)
        | _ => none
    | _ => none

/-- Reads the arguments of a command line. -/
def read (environment : List (String × String)) (args : List String) :
    Except Refusal Command := do
  let levels ← grammar.read everywhere args
  match ofLevels? environment levels with
  | some c => return c
  | none => .error .usage

end Command
end CommandLine
end Collectors
