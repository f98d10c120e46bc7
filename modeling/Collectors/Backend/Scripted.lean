import Collectors.Backend

/-!
# Scripted backends

A scripted backend fails where its script says so and counts what is asked of it, for trials of a
provider. Backends that share a counter name share their counts.
-/

namespace Collectors
namespace Scripted

/-- What a scripted backend does. An error is what the call fails with. -/
structure Script where
  counter : String
  failCreate : Option Error := none
  failOpen : Option Error := none
  failClose : Option Error := none
  failDestroy : Option Error := none
  failSum : Option Error := none
  failInvoke : Option Error := none
  /-- Whether the operations `echo`, `fail` and `panic` are known. -/
  hasVerbs : Bool := false
  /-- Whether the provider is shut down while the backend makes an instance. -/
  shutsDown : Bool := false

/-- How often the backends of one counter were asked to do something. -/
structure Counts where
  created : Nat := 0
  opened : Nat := 0
  closed : Nat := 0
  destroyed : Nat := 0
  hello : Nat := 0
  /-- The configuration of the last request for an instance. -/
  lastConfig : Option String := none

/-- The counts by name. -/
structure Ledger where
  counts : List (String × Counts) := []

namespace Ledger

/-- The counts under a name. -/
def get? (l : Ledger) (name : String) : Option Counts := l.counts.lookup name

/-- Opens the counts under a name. -/
def enter (l : Ledger) (name : String) : Ledger :=
  if (l.get? name).isSome then l else { counts := (name, {}) :: l.counts }

/-- Changes the counts under a name. -/
def update (l : Ledger) (name : String) (f : Counts → Counts) : Ledger :=
  { counts := l.counts.map fun (n, c) => if n = name then (n, f c) else (n, c) }

end Ledger

/-- The end of a call that fails with `e` or gives `a`. -/
def orFail {α : Type} (e : Option Error) (a : α) : Except Error α :=
  match e with
  | some e => .error e
  | none => .ok a

/-- The answer to an operation; `none` if it breaks down. -/
def answer (s : Script) (operation : String) (args : Json) : Option (Except Error Json) :=
  if ¬ s.hasVerbs then some (.error (.opUnsupported "unknown" operation))
  else if operation = "echo" then some (.ok args)
  else if operation = "fail" then some (orFail s.failInvoke .null)
  else if operation = "panic" then none
  else some (.error (.opUnsupported "inner" operation))

/-- What scripted backends do. An instance is the script of its backend. -/
def behaviour : Behaviour Script Script Ledger where
  instantiate s mode config l :=
    let l := l.update s.counter fun c => { c with lastConfig := config }
    match mode with
    | .create =>
      match s.failCreate with
      | some e => (some (.error e), l)
      | none => (some (.ok s), l.update s.counter fun c => { c with created := c.created + 1 })
    | .open =>
      match s.failOpen with
      | some e => (some (.error e), l)
      | none => (some (.ok s), l.update s.counter fun c => { c with opened := c.opened + 1 })
  close s l :=
    (some (orFail s.failClose ()), l.update s.counter fun c => { c with closed := c.closed + 1 })
  destroy s l :=
    (some (orFail s.failDestroy ()),
      l.update s.counter fun c => { c with destroyed := c.destroyed + 1 })
  hello s l := (some (), l.update s.counter fun c => { c with hello := c.hello + 1 })
  sum s x y l := (some (orFail s.failSum (x * y)), l)
  invoke s operation args l := (answer s operation args, l)

end Scripted
end Collectors
