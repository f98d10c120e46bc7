import Collectors.Backend

/-!
# Traced backends

`Behaviour.traced` makes any behaviour observable: it gives every instance that is made a number
of its own, and keeps beside the state of the backends a `Trace` of how many instances were made
and of the calls that ended one. A number is never given twice, so the trace tells instances
apart even where the backends themselves do not.

`Behaviour.counted` counts the calls into the backends, whatever they are, `Behaviour.labelled`
keeps with every instance the configuration that it was made with, and `Behaviour.signed` the
backend that made it.
-/

namespace Collectors

/-- The call that ended an instance. -/
inductive Parting where
  | closed
  | destroyed
  deriving DecidableEq

/-- What was asked of traced backends so far. -/
structure Trace where
  /-- The number of instances that were made; the next one gets it as its number. -/
  made : Nat := 0
  /-- The instances that were called to an end, by number, in the order of these calls. -/
  ended : List (Nat × Parting) := []

namespace Trace

/-- Counts one more instance. -/
def make (t : Trace) : Trace := { t with made := t.made + 1 }

/-- Records a call that ends the instance numbered `k`. -/
def part (t : Trace) (k : Nat) (how : Parting) : Trace := { t with ended := t.ended ++ [(k, how)] }

/-- The calls that ended the instance numbered `k`. -/
def partings (t : Trace) (k : Nat) : List Parting :=
  (t.ended.filter fun e => e.1 = k).map Prod.snd

end Trace

variable {β ι ω : Type}

/-- The same behaviour with numbered instances and a trace of what was asked. -/
def Behaviour.traced (b : Behaviour β ι ω) : Behaviour β (Nat × ι) (Trace × ω) where
  instantiate k mode config s :=
    match b.instantiate k mode config s.2 with
    | (some (.ok i), w) => (some (.ok (s.1.made, i)), (s.1.make, w))
    | (some (.error e), w) => (some (.error e), (s.1, w))
    | (none, w) => (none, (s.1, w))
  close i s := let (r, w) := b.close i.2 s.2; (r, (s.1.part i.1 .closed, w))
  destroy i s := let (r, w) := b.destroy i.2 s.2; (r, (s.1.part i.1 .destroyed, w))
  hello i s := let (r, w) := b.hello i.2 s.2; (r, (s.1, w))
  sum i x y s := let (r, w) := b.sum i.2 x y s.2; (r, (s.1, w))
  invoke i operation args s := let (r, w) := b.invoke i.2 operation args s.2; (r, (s.1, w))

/-- The same behaviour with a count of all calls that were made, into backends and instances. -/
def Behaviour.counted (b : Behaviour β ι ω) : Behaviour β ι (Nat × ω) where
  instantiate k mode config s :=
    let (r, w) := b.instantiate k mode config s.2
    (r, (s.1 + 1, w))
  close i s := let (r, w) := b.close i s.2; (r, (s.1 + 1, w))
  destroy i s := let (r, w) := b.destroy i s.2; (r, (s.1 + 1, w))
  hello i s := let (r, w) := b.hello i s.2; (r, (s.1 + 1, w))
  sum i x y s := let (r, w) := b.sum i x y s.2; (r, (s.1 + 1, w))
  invoke i operation args s := let (r, w) := b.invoke i operation args s.2; (r, (s.1 + 1, w))

/-- The same behaviour with the configuration that an instance was made with in front of it. -/
def Behaviour.labelled (b : Behaviour β ι ω) : Behaviour β (Option String × ι) ω where
  instantiate k mode config w :=
    let (r, w) := b.instantiate k mode config w
    (r.map fun r => r.map fun i => (config, i), w)
  close i w := b.close i.2 w
  destroy i w := b.destroy i.2 w
  hello i w := b.hello i.2 w
  sum i x y w := b.sum i.2 x y w
  invoke i operation args w := b.invoke i.2 operation args w

/-- The same behaviour with the backend that made an instance in front of it. -/
def Behaviour.signed (b : Behaviour β ι ω) : Behaviour β (β × ι) ω where
  instantiate k mode config w :=
    let (r, w) := b.instantiate k mode config w
    (r.map fun r => r.map fun i => (k, i), w)
  close i w := b.close i.2 w
  destroy i w := b.destroy i.2 w
  hello i w := b.hello i.2 w
  sum i x y w := b.sum i.2 x y w
  invoke i operation args w := b.invoke i.2 operation args w

/-- Whether every close of an instance gives an answer, be it an error. -/
def Behaviour.Closes (b : Behaviour β ι ω) : Prop := ∀ i w, (b.close i w).1 ≠ none

end Collectors
