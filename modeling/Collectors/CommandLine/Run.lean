import Collectors.Admin
import Collectors.Client.Remote
import Collectors.CommandLine.Command
import Collectors.CommandLine.Report
import Collectors.Config.File
import Collectors.Host

/-!
# Carrying out commands

A command ends with an `Outcome`: the exit code, what it prints and, if it fails, a report. The
commands of administrators and clients go through a network (`Command.run`). What `serve` hosts,
and whether it starts at all, is told by `ServeArgs.plan`.
-/

namespace Collectors
namespace CommandLine

/-- How a command ends. -/
structure Outcome where
  code : Nat
  /-- What it prints. -/
  output : String := ""
  report : Option Report := none

namespace Outcome

/-- The end of a command that prints some lines, or fails. -/
def ofLines : Except Report (List String) → Outcome
  | .ok lines => { code := 0, output := String.join (lines.map (· ++ "\n")) }
  | .error r => { code := 1, report := some r }

/-- The end of a command that is not carried out. -/
def ofRefusal : Refusal → Outcome
  | .usage => { code := 2 }
  | .help => { code := 0 }
  | .version => { code := 0, output := "collector-provider 0.1.0\n" }

/-- The end of a command that broke down. -/
def broken : Outcome := { code := 101 }

end Outcome

namespace Target

/-- The address of the provider that a command goes to. -/
def toAddress (t : Target) : Address := .new t.address t.providerId

end Target

namespace AdminAction

variable {σ : Type}

/-- What an administrator is told. -/
def run (net : Network σ) (a : Address) (token : Option String) (action : AdminAction) (s : σ) :
    Except Error (List String) × σ :=
  match action with
  | .create backend config =>
    let (r, s) := Admin.create net a { backend, config, token } s
    (r.map fun id => [id.text], s)
  | .open backend config =>
    let (r, s) := Admin.openExisting net a { backend, config, token } s
    (r.map fun id => [id.text], s)
  | .close id =>
    let (r, s) := Admin.close net a { id, token } s
    (r.map fun _ => [], s)
  | .destroy id =>
    let (r, s) := Admin.destroy net a { id, token } s
    (r.map fun _ => [], s)
  | .list limit =>
    let (r, s) := Admin.list net a { token, maxIds := limit } s
    (r.map fun ids => ids.map CollectorId.text, s)

end AdminAction

namespace ClientAction

variable {σ : Type}

/-- What is told to whoever asks something of a collector. Arguments that are no JSON are not
sent. -/
def run (net : Network σ) (h : Handle) (action : ClientAction) (s : σ) :
    Except Report (List String) × σ :=
  match action with
  | .hello =>
    let (r, s) := h.hello net s
    ((r.map fun _ => []).mapError .ofError, s)
  | .sum x y =>
    let (r, s) := h.sum net x y s
    ((r.map fun sum => [toString sum]).mapError .ofError, s)
  | .invoke operation args =>
    match Json.Codec.free.read args with
    | .ok value =>
      let (r, s) := h.invoke net operation value s
      ((r.map fun result => [result.render]).mapError .ofError, s)
    | .error fault =>
      (.error { message := "invoke arguments must be JSON", causes := [fault.message] }, s)

end ClientAction

/-- What a call through a handle of its own leads to. -/
structure Errand (σ : Type) where
  result : Except Report (List String)
  client : Client
  network : σ
  warnings : List Warning

/-- Opens a handle on a collector, asks something through it, and releases it whatever the answer
is; the client is finalized at last. -/
def ClientAction.runOnce {σ : Type} (net : Network σ) (target : Address) (id : CollectorId)
    (action : ClientAction) (s : σ) : Errand σ :=
  let (place, c) := Client.openHandle {} target id
  let handle : Handle := { collector := id, target := some target }
  let (result, s) := action.run net handle s
  let released := c.release place
  match released.result with
  | .error e =>
    { result := .error (.ofError e), client := released.client, network := s
      warnings := released.warnings }
  | .ok () =>
    let last := released.client.finalize
    { result, client := last.client, network := s, warnings := released.warnings ++ last.warnings }

namespace ServeArgs

/-- The configuration of a provider that is named on the command line, or of the only one. -/
def provider (args : ServeArgs) (id : ProviderId) : ProviderConfig :=
  { providerId := id, token := args.token, poolSize := args.poolSize }

/-- The providers to host: those of the file, then those of the command line; one with the id
zero if there are none. -/
def merge (args : ServeArgs) (file : ServerConfig) : ServerConfig :=
  let providers := file.providers ++ args.providerIds.map args.provider
  { providers := if providers.isEmpty then [args.provider 0] else providers }

/-- What is hosted when the configuration file was read with the result `file`. -/
def plan (args : ServeArgs) (file : Except Error ServerConfig) : Except Report ServerConfig := do
  let file ← file.mapError (.caused ("loading " ++ args.config.getD ""))
  let config := args.merge file
  config.validate.mapError .ofError
  if Http.isSocketAddress args.address then return config
  else
    .error
      { message := "invalid bind address " ++ args.address
        causes := ["invalid socket address syntax"] }

/-- The configuration in the file that is named, where `content` tells what files hold. -/
def file (args : ServeArgs) (content : String → Except FileFailure ByteArray) :
    Except Error ServerConfig :=
  match args.config with
  | some path => ServerConfig.ofFile path (content path)
  | none => .ok {}

end ServeArgs

/-- What the command line leads to: an end, or providers to host at an address. -/
inductive Start (σ : Type) where
  | ended (outcome : Outcome) (network : σ)
  | hosting (address : String) (config : ServerConfig)

/-- Carries out a command up to the point where it starts to listen. -/
def Command.run {σ : Type} (net : Network σ) (content : String → Except FileFailure ByteArray)
    (c : Command) (s : σ) : Start σ :=
  match c with
  | .serve args =>
    match args.plan (args.file content) with
    | .ok config => .hosting args.address config
    | .error r => .ended (.ofLines (.error r)) s
  | .admin target token action =>
    let (r, s) := action.run net target.toAddress token s
    .ended (.ofLines (r.mapError .ofError)) s
  | .client target id action =>
    let errand := action.runOnce net target.toAddress id s
    .ended (.ofLines errand.result) errand.network

/-- Carries out a command line. -/
def run {σ : Type} (net : Network σ) (content : String → Except FileFailure ByteArray)
    (environment : List (String × String)) (args : List String) (s : σ) : Start σ :=
  match Command.read environment args with
  | .ok c => c.run net content s
  | .error refusal => .ended (.ofRefusal refusal) s

end CommandLine
end Collectors
