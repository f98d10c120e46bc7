import Mathlib.Logic.Function.Basic
import Collectors.Backend

/-!
# Backends with states of their own

`Behaviour.each` puts any number of backends side by side, each with a state of its own. A backend,
and whatever it made, acts on the state of this backend and sees no other.
-/

namespace Collectors

variable {β ι ω α : Type} [DecidableEq β]

/-- Has something act on the state of one backend. -/
def actAt (k : β) (act : ω → α × ω) (w : β → ω) : α × (β → ω) :=
  ((act (w k)).1, Function.update w k (act (w k)).2)

/-- What backends do that have states of their own; an instance is known together with the backend
that made it. -/
def Behaviour.each (b : β → Behaviour Unit ι ω) : Behaviour β (β × ι) (β → ω) where
  instantiate k mode config w :=
    let (r, w) := actAt k ((b k).instantiate () mode config) w
    (r.map fun r => r.map fun i => (k, i), w)
  close i := actAt i.1 ((b i.1).close i.2)
  destroy i := actAt i.1 ((b i.1).destroy i.2)
  hello i := actAt i.1 ((b i.1).hello i.2)
  sum i x y := actAt i.1 ((b i.1).sum i.2 x y)
  invoke i operation args := actAt i.1 ((b i.1).invoke i.2 operation args)

end Collectors
