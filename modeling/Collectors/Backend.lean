import Collectors.Error

/-!
# Backends

A backend makes collectors, either from nothing (`Mode.create`) or on state that exists already
(`Mode.open`). A provider knows a backend by a value of a type `β` and what it made by a value of
a type `ι`, the *instance*; what these values do is told by a `Behaviour`, whose functions act on
a state `ω` that the backends keep for themselves.

A call into a backend may break down without an answer. Its result is `none` then, and the call
that made it is abandoned where it stands.
-/

namespace Collectors

/-- How a backend makes an instance. -/
inductive Mode where
  | create
  | open
  deriving DecidableEq

/-- What backends and instances do. -/
structure Behaviour (β ι ω : Type) where
  /-- Makes an instance from a configuration. -/
  instantiate : β → Mode → Option String → ω → Option (Except Error ι) × ω
  /-- Releases what an instance holds in memory. -/
  close : ι → ω → Option (Except Error Unit) × ω
  /-- Releases what an instance holds in memory and erases what it keeps elsewhere. -/
  destroy : ι → ω → Option (Except Error Unit) × ω
  /-- Has an instance greet. -/
  hello : ι → ω → Option Unit × ω
  /-- Has an instance add two numbers. -/
  sum : ι → Int32 → Int32 → ω → Option (Except Error Int32) × ω
  /-- Has an instance run an operation of its own. -/
  invoke : ι → String → Json → ω → Option (Except Error Json) × ω

namespace Behaviour

variable {β ι ω β' ι' ω' : Type}

/-- Two kinds of backends side by side, each with a state of its own. -/
def beside (b : Behaviour β ι ω) (b' : Behaviour β' ι' ω') :
    Behaviour (β ⊕ β') (ι ⊕ ι') (ω × ω') where
  instantiate
    | .inl k, mode, config, (w, w') =>
      let (r, w) := b.instantiate k mode config w
      (r.map fun r => r.map .inl, (w, w'))
    | .inr k, mode, config, (w, w') =>
      let (r, w') := b'.instantiate k mode config w'
      (r.map fun r => r.map .inr, (w, w'))
  close
    | .inl i, (w, w') => let (r, w) := b.close i w; (r, (w, w'))
    | .inr i, (w, w') => let (r, w') := b'.close i w'; (r, (w, w'))
  destroy
    | .inl i, (w, w') => let (r, w) := b.destroy i w; (r, (w, w'))
    | .inr i, (w, w') => let (r, w') := b'.destroy i w'; (r, (w, w'))
  hello
    | .inl i, (w, w') => let (r, w) := b.hello i w; (r, (w, w'))
    | .inr i, (w, w') => let (r, w') := b'.hello i w'; (r, (w, w'))
  sum
    | .inl i, x, y, (w, w') => let (r, w) := b.sum i x y w; (r, (w, w'))
    | .inr i, x, y, (w, w') => let (r, w') := b'.sum i x y w'; (r, (w, w'))
  invoke
    | .inl i, operation, args, (w, w') => let (r, w) := b.invoke i operation args w; (r, (w, w'))
    | .inr i, operation, args, (w, w') => let (r, w') := b'.invoke i operation args w'; (r, (w, w'))

end Behaviour
end Collectors
