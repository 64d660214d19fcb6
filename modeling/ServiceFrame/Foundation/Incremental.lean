import Mathlib.Computability.StateTransition
import ServiceFrame.Foundation.Run

/-! # Machines that are fed piece by piece

A machine advances on its own while it can, and is fed between its steps. Where a step
that can be taken can still be taken, to the same effect, once there is more input, what
the machine comes to does not depend on how its input is cut; nor does what a component
comes to that does the steps of the machine whenever it is fed.
-/

namespace ServiceFrame.Foundation

open StateTransition

universe uState uInput uImpl

section Machine

variable {State : Type uState} {Input : Type uInput} {advance : State → Option State}
  {eat : State → Input → State}

/-- More input takes no step away and changes none. -/
def Extends (advance : State → Option State) (eat : State → Input → State) : Prop :=
  ∀ state next input, advance state = some next →
    advance (eat state input) = some (eat next input)

theorem reaches_eat (hextends : Extends advance eat) {state next : State} (input : Input)
    (hreaches : Reaches advance state next) :
    Reaches advance (eat state input) (eat next input) :=
  Relation.ReflTransGen.lift (fun state => eat state input)
    (fun state next hstep => hextends state next input hstep) state next hreaches

theorem reaches_eatAll (hextends : Extends advance eat) {state next : State} (inputs : List Input)
    (hreaches : Reaches advance state next) :
    Reaches advance (inputs.foldl eat state) (inputs.foldl eat next) := by
  induction inputs generalizing state next with
  | nil => exact hreaches
  | cons input rest ih => exact ih (reaches_eat hextends input hreaches)

end Machine

section Component

variable {State : Type uState} {Input : Type uInput} {Impl : Type uImpl}
  {advance : State → Option State} {eat : State → Input → State}
  {step : Impl → Input → Option Impl} {abs : Impl → State} {good : Impl → Prop}
  {cond : Impl → Input → Prop}

/-- A component that, whenever it is fed, does steps of the machine has done, in the end,
steps of the machine that was given everything at once. -/
theorem reaches_of_run (hextends : Extends advance eat)
    (hstep : ∀ impl input next, good impl → cond impl input → step impl input = some next →
      good next ∧ Reaches advance (eat (abs impl) input) (abs next))
    {inputs : List Input} {impl final : Impl} (hgood : good impl)
    (hcond : Along step cond impl inputs) (hrun : run step impl inputs = some final) :
    good final ∧ Reaches advance (inputs.foldl eat (abs impl)) (abs final) := by
  induction inputs generalizing impl with
  | nil =>
      simp only [run_nil, Option.some.injEq] at hrun
      subst hrun
      exact ⟨hgood, Relation.ReflTransGen.refl⟩
  | cons input rest ih =>
      obtain ⟨next, hnext, hrest⟩ := Option.bind_eq_some_iff.mp hrun
      obtain ⟨hgoodNext, hreaches⟩ := hstep impl input next hgood hcond.1 hnext
      obtain ⟨hgoodFinal, hmore⟩ := ih hgoodNext (hcond.2 next hnext) hrest
      exact ⟨hgoodFinal, (reaches_eatAll hextends rest hreaches).trans hmore⟩

end Component

end ServiceFrame.Foundation
