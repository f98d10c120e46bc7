import Collectors.Backend

/-!
# Instances that keep to themselves

`Methods` tells what backends and instances do whose instances have nothing to do with each other:
an instance acts on a state of its own, which a backend makes for it, and the backends act on a
state that no instance sees. `Methods.behaviour` is the behaviour, where an instance is known by
the number of its state among the `Cells`.
-/

namespace Collectors

/-- What backends do on the state `τ`, and instances on states `σ` of their own. -/
structure Methods (β σ τ : Type) where
  instantiate : β → Mode → Option String → τ → Option (Except Error σ) × τ
  close : σ → Option (Except Error Unit) × σ
  destroy : σ → Option (Except Error Unit) × σ
  hello : σ → Option Unit × σ
  sum : Int32 → Int32 → σ → Option (Except Error Int32) × σ
  invoke : String → Json → σ → Option (Except Error Json) × σ

/-- The states of all instances that were made, in the order in which they were made, and the state
of the backends. -/
structure Cells (σ τ : Type) where
  states : List σ := []
  backends : τ

variable {β σ τ α : Type}

/-- Has the instance with a number act on its state. -/
def Cells.act (w : Cells σ τ) (i : Nat) (act : σ → Option α × σ) : Option α × Cells σ τ :=
  match w.states[i]? with
  | some s => ((act s).1, { w with states := w.states.set i (act s).2 })
  | none => (none, w)

/-- The behaviour of backends and instances with these methods. -/
def Methods.behaviour (m : Methods β σ τ) : Behaviour β Nat (Cells σ τ) where
  instantiate made mode config w :=
    match m.instantiate made mode config w.backends with
    | (some (.ok s), backends) =>
      (some (.ok w.states.length), { states := w.states ++ [s], backends })
    | (some (.error e), backends) => (some (.error e), { w with backends })
    | (none, backends) => (none, { w with backends })
  close i w := w.act i m.close
  destroy i w := w.act i m.destroy
  hello i w := w.act i m.hello
  sum i x y w := w.act i (m.sum x y)
  invoke i operation args w := w.act i (m.invoke operation args)

namespace Methods

variable (m : Methods β σ τ) (i : Nat) (w : Cells σ τ)

@[simp] theorem close_behaviour : m.behaviour.close i w = w.act i m.close := rfl

@[simp] theorem destroy_behaviour : m.behaviour.destroy i w = w.act i m.destroy := rfl

@[simp] theorem hello_behaviour : m.behaviour.hello i w = w.act i m.hello := rfl

@[simp] theorem sum_behaviour (x y : Int32) :
    m.behaviour.sum i x y w = w.act i (m.sum x y) := rfl

@[simp] theorem invoke_behaviour (operation : String) (args : Json) :
    m.behaviour.invoke i operation args w = w.act i (m.invoke operation args) := rfl

end Methods
end Collectors
