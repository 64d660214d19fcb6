import Mathlib.Data.List.Basic

/-! # Runs of a partial step function

A component is a step function that either answers the next state or has no
step at all: an exception leaves the call, or the behaviour is undefined. The
rules below carry a property from one step to every state of every run, with
or without a condition on the steps taken.
-/

namespace ServiceFrame.Foundation

universe uState uEvent

variable {State : Type uState} {Event : Type uEvent}

/-- Take the events in order; there is no result once an event has no step. -/
def run (step : State → Event → Option State) : State → List Event → Option State
  | state, [] => some state
  | state, event :: rest => (step state event).bind fun next => run step next rest

/-- Every event taken meets `cond` in the state in which it is taken. -/
def Along (step : State → Event → Option State) (cond : State → Event → Prop) :
    State → List Event → Prop
  | _, [] => True
  | state, event :: rest =>
      cond state event ∧ ∀ next, step state event = some next → Along step cond next rest

/-- Every state the run reaches, the first and the last included, is `good`. -/
def Throughout (step : State → Event → Option State) (good : State → Prop) :
    State → List Event → Prop
  | state, [] => good state
  | state, event :: rest =>
      good state ∧ ∀ next, step state event = some next → Throughout step good next rest

variable {step : State → Event → Option State}

@[simp] theorem run_nil (state : State) : run step state [] = some state := rfl

@[simp] theorem run_cons (state : State) (event : Event) (rest : List Event) :
    run step state (event :: rest) = (step state event).bind (fun next => run step next rest) := rfl

theorem run_append (state : State) (first second : List Event) :
    run step state (first ++ second) =
      (run step state first).bind (fun middle => run step middle second) := by
  induction first generalizing state with
  | nil => rfl
  | cons event rest ih =>
      simp only [List.cons_append, run_cons]
      cases step state event with
      | none => rfl
      | some next => simpa only [Option.bind_some] using ih next

/-- A view that each step commutes with turns a run into one of the other step function. -/
theorem run_map {View : Type*} (view : State → View) {step' : View → Event → Option View}
    (hview : ∀ state event, (step state event).map view = step' (view state) event)
    (state : State) (events : List Event) :
    (run step state events).map view = run step' (view state) events := by
  induction events generalizing state with
  | nil => rfl
  | cons event rest ih =>
      rw [run_cons, run_cons, ← hview]
      cases step state event with
      | none => rfl
      | some next => exact ih next

/-- A run that succeeds has a middle state after each of its prefixes. -/
theorem run_split {state final : State} {first second : List Event}
    (hrun : run step state (first ++ second) = some final) :
    ∃ middle, run step state first = some middle ∧ run step middle second = some final := by
  rw [run_append] at hrun
  exact Option.bind_eq_some_iff.mp hrun

/-- A property kept by every step whose event meets `cond` holds after every
run that meets `cond` throughout. -/
theorem run_invariant_along {inv : State → Prop} {cond : State → Event → Prop}
    (hstep : ∀ state event next, inv state → cond state event →
      step state event = some next → inv next)
    {events : List Event} {state final : State} (hinv : inv state)
    (hcond : Along step cond state events) (hrun : run step state events = some final) :
    inv final := by
  induction events generalizing state with
  | nil =>
      simp only [run_nil, Option.some.injEq] at hrun
      exact hrun ▸ hinv
  | cons event rest ih =>
      obtain ⟨next, hnext, hrest⟩ := Option.bind_eq_some_iff.mp hrun
      exact ih (hstep state event next hinv hcond.1 hnext) (hcond.2 next hnext) hrest

theorem along_trivial (state : State) (events : List Event) :
    Along step (fun _ _ => True) state events := by
  induction events generalizing state with
  | nil => trivial
  | cons event rest ih => exact ⟨trivial, fun next _ => ih next⟩

/-- A condition on events alone holds along a run of events that meet it. -/
theorem along_of_mem {cond : Event → Prop} {state : State} {events : List Event}
    (hall : ∀ event ∈ events, cond event) :
    Along step (fun _ event => cond event) state events := by
  induction events generalizing state with
  | nil => trivial
  | cons event rest ih =>
      exact ⟨hall event List.mem_cons_self, fun next _ =>
        ih fun other hother => hall other (List.mem_cons_of_mem event hother)⟩

theorem along_and {first second : State → Event → Prop} {state : State} {events : List Event} :
    Along step (fun state event => first state event ∧ second state event) state events ↔
      Along step first state events ∧ Along step second state events := by
  induction events generalizing state with
  | nil => exact (and_self_iff).symm
  | cons event rest ih =>
      simp only [Along, ih]
      constructor
      · rintro ⟨⟨hfirst, hsecond⟩, hrest⟩
        exact ⟨⟨hfirst, fun next hnext => (hrest next hnext).1⟩, hsecond,
          fun next hnext => (hrest next hnext).2⟩
      · rintro ⟨⟨hfirst, hrest⟩, hsecond, hrest'⟩
        exact ⟨⟨hfirst, hsecond⟩, fun next hnext => ⟨hrest next hnext, hrest' next hnext⟩⟩

/-- Two conditions that agree on the steps of a run hold along it or not together. -/
theorem along_congr {inv : State → Prop} {cond first second : State → Event → Prop}
    (hinv : ∀ state event next, inv state → cond state event →
      step state event = some next → inv next)
    (hiff : ∀ state event, inv state → cond state event → (first state event ↔ second state event))
    {state : State} (hstate : inv state) {events : List Event}
    (hcond : Along step cond state events) :
    Along step first state events ↔ Along step second state events := by
  induction events generalizing state with
  | nil => exact Iff.rfl
  | cons event rest ih =>
      exact and_congr (hiff state event hstate hcond.1) (forall_congr' fun next =>
        imp_congr_right fun hnext =>
          ih (hinv state event next hstate hcond.1 hnext) (hcond.2 next hnext))

/-- A property kept by every step holds after every run. -/
theorem run_invariant {inv : State → Prop}
    (hstep : ∀ state event next, inv state → step state event = some next → inv next)
    {events : List Event} {state final : State} (hinv : inv state)
    (hrun : run step state events = some final) : inv final :=
  run_invariant_along (fun state event next hstate _ hnext => hstep state event next hstate hnext)
    hinv (along_trivial state events) hrun

/-- A condition on the steps of a run is one on those of its two parts. -/
theorem Along.split {cond : State → Event → Prop} {state middle : State}
    {first second : List Event} (hall : Along step cond state (first ++ second))
    (hrun : run step state first = some middle) :
    Along step cond state first ∧ Along step cond middle second := by
  induction first generalizing state with
  | nil =>
      cases hrun
      exact ⟨trivial, hall⟩
  | cons event rest ih =>
      obtain ⟨next, hnext, hrest⟩ := Option.bind_eq_some_iff.mp hrun
      obtain ⟨hfirst, hsecond⟩ := ih (hall.2 next hnext) hrest
      refine ⟨⟨hall.1, fun other hother => ?_⟩, hsecond⟩
      cases hnext.symm.trans hother
      exact hfirst

theorem Along.append {cond : State → Event → Prop} {state middle : State}
    {first second : List Event} (hfirst : Along step cond state first)
    (hrun : run step state first = some middle) (hsecond : Along step cond middle second) :
    Along step cond state (first ++ second) := by
  induction first generalizing state with
  | nil =>
      cases hrun
      exact hsecond
  | cons event rest ih =>
      obtain ⟨next, hnext, hrest⟩ := Option.bind_eq_some_iff.mp hrun
      refine ⟨hfirst.1, fun other hother => ?_⟩
      cases hnext.symm.trans hother
      exact ih (hfirst.2 next hnext) hrest

theorem Throughout.head {good : State → Prop} {state : State} {events : List Event}
    (hgood : Throughout step good state events) : good state := by
  cases events with
  | nil => exact hgood
  | cons event rest => exact hgood.1

theorem Throughout.final {good : State → Prop} {state final : State} {events : List Event}
    (hgood : Throughout step good state events) (hrun : run step state events = some final) :
    good final := by
  induction events generalizing state with
  | nil =>
      simp only [run_nil, Option.some.injEq] at hrun
      exact hrun ▸ hgood
  | cons event rest ih =>
      obtain ⟨next, hnext, hrest⟩ := Option.bind_eq_some_iff.mp hrun
      exact ih (hgood.2 next hnext) hrest

/-- The states before and after each step of the run are good. -/
theorem Throughout.along {good : State → Prop} {state : State} {events : List Event}
    (hgood : Throughout step good state events) :
    Along step (fun state event => good state ∧ ∀ next, step state event = some next → good next)
      state events := by
  induction events generalizing state with
  | nil => trivial
  | cons event rest ih =>
      exact ⟨⟨hgood.1, fun next hnext => (hgood.2 next hnext).head⟩,
        fun next hnext => ih (hgood.2 next hnext)⟩

/-- A property kept by every step whose event meets `cond` holds in every state
of a run that meets `cond` throughout. -/
theorem throughout_of_along {inv good : State → Prop} {cond : State → Event → Prop}
    (hinv : ∀ state event next, inv state → cond state event →
      step state event = some next → inv next)
    (hgood : ∀ state, inv state → good state)
    {state : State} (hstate : inv state) {events : List Event}
    (hcond : Along step cond state events) : Throughout step good state events := by
  induction events generalizing state with
  | nil => exact hgood state hstate
  | cons event rest ih =>
      exact ⟨hgood state hstate, fun next hnext =>
        ih (hinv state event next hstate hcond.1 hnext) (hcond.2 next hnext)⟩

/-- What an invariant and `cond` promise of a step holds of every step of a run that
meets `cond` throughout. -/
theorem along_of_along {inv : State → Prop} {cond good : State → Event → Prop}
    (hinv : ∀ state event next, inv state → cond state event →
      step state event = some next → inv next)
    (hgood : ∀ state event, inv state → cond state event → good state event)
    {state : State} (hstate : inv state) {events : List Event}
    (hcond : Along step cond state events) : Along step good state events := by
  induction events generalizing state with
  | nil => trivial
  | cons event rest ih =>
      exact ⟨hgood state event hstate hcond.1, fun next hnext =>
        ih (hinv state event next hstate hcond.1 hnext) (hcond.2 next hnext)⟩

/-- When `cond` decides, of each step within `within`, whether a good state leads to a good
state, a run within `within` stays good exactly when each of its events meets `cond`. -/
theorem throughout_iff_along_within (inv : State → Prop) {good : State → Prop}
    {within cond : State → Event → Prop}
    (hinv : ∀ state event next, inv state → within state event → cond state event →
      step state event = some next → inv next)
    (hgood : ∀ state, inv state → good state)
    (hexact : ∀ state event, inv state → within state event →
      ((∀ next, step state event = some next → good next) ↔ cond state event))
    {state : State} (hstate : inv state) {events : List Event}
    (hwithin : Along step within state events) :
    Throughout step good state events ↔ Along step cond state events := by
  induction events generalizing state with
  | nil => exact iff_of_true (hgood state hstate) trivial
  | cons event rest ih =>
      constructor
      · intro hall
        have hcond : cond state event :=
          (hexact state event hstate hwithin.1).mp fun next hnext => (hall.2 next hnext).head
        exact ⟨hcond, fun next hnext =>
          (ih (hinv state event next hstate hwithin.1 hcond hnext) (hwithin.2 next hnext)).mp
            (hall.2 next hnext)⟩
      · intro hall
        exact ⟨hgood state hstate, fun next hnext =>
          (ih (hinv state event next hstate hwithin.1 hall.1 hnext) (hwithin.2 next hnext)).mpr
            (hall.2 next hnext)⟩

/-- When `cond` decides, step by step, whether a good state leads to a good
state, a run stays good exactly when each of its events meets `cond`. -/
theorem throughout_iff_along (inv : State → Prop) {good : State → Prop}
    {cond : State → Event → Prop}
    (hinv : ∀ state event next, inv state → cond state event →
      step state event = some next → inv next)
    (hgood : ∀ state, inv state → good state)
    (hexact : ∀ state event, inv state →
      ((∀ next, step state event = some next → good next) ↔ cond state event))
    {state : State} (hstate : inv state) (events : List Event) :
    Throughout step good state events ↔ Along step cond state events :=
  throughout_iff_along_within inv (fun state event next hstate _ => hinv state event next hstate)
    hgood (fun state event hstate _ => hexact state event hstate) hstate
    (along_trivial state events)

/-- Whether a run meets a decidable condition is found out by taking it. -/
instance decidableAlong {cond : State → Event → Prop}
    [∀ state event, Decidable (cond state event)] :
    (state : State) → (events : List Event) → Decidable (Along step cond state events)
  | _, [] => isTrue trivial
  | state, event :: rest =>
      match hstep : step state event with
      | none =>
          decidable_of_iff (cond state event)
            ⟨fun hcond => ⟨hcond, fun next hnext => by simp [hstep] at hnext⟩, fun hall => hall.1⟩
      | some next =>
          have : Decidable (Along step cond next rest) := decidableAlong next rest
          decidable_of_iff (cond state event ∧ Along step cond next rest)
            ⟨fun hall => ⟨hall.1, fun other hother => by
              rw [hstep] at hother
              cases hother
              exact hall.2⟩, fun hall => ⟨hall.1, hall.2 next hstep⟩⟩

/-! ## Loops

A loop over a list whose body has no result once something goes wrong is a run of its body.
-/

section Loops

variable {state final : State} {events : List Event}

theorem foldlM_eq_run (state : State) (events : List Event) :
    events.foldlM step state = run step state events := by
  induction events generalizing state with
  | nil => rfl
  | cons event rest ih =>
      rw [List.foldlM_cons, run_cons, Option.bind_eq_bind]
      congr 1
      funext next
      exact ih next

theorem foldlM_invariant (inv : State → Prop)
    (hstep : ∀ state event next, inv state → step state event = some next → inv next)
    (hinv : inv state) (hloop : events.foldlM step state = some final) : inv final := by
  rw [foldlM_eq_run] at hloop
  exact run_invariant hstep hinv hloop

/-- What relates the states around each turn relates those around the loop. -/
theorem foldlM_related {rel : State → State → Prop} (hrefl : ∀ state, rel state state)
    (htrans : ∀ {first second third}, rel first second → rel second third → rel first third)
    (hstep : ∀ state event next, step state event = some next → rel state next)
    (hloop : events.foldlM step state = some final) : rel state final :=
  foldlM_invariant (rel state) (fun middle event next hmiddle hnext =>
    htrans hmiddle (hstep middle event next hnext)) (hrefl state) hloop

/-- A loop goes through when each turn does, and keeps what the next one needs. -/
theorem foldlM_total (inv : State → Prop)
    (hstep : ∀ state event, inv state → ∃ next, step state event = some next ∧ inv next)
    (hinv : inv state) (events : List Event) :
    ∃ final, events.foldlM step state = some final ∧ inv final := by
  induction events generalizing state with
  | nil => exact ⟨state, rfl, hinv⟩
  | cons event rest ih =>
      obtain ⟨next, hnext, hinv⟩ := hstep state event hinv
      obtain ⟨final, hrest, hfinal⟩ := ih hinv
      refine ⟨final, ?_, hfinal⟩
      rw [List.foldlM_cons, hnext]
      exact hrest

end Loops

/-! ## Runs with a history

What a property says of the past of a run need not be in its states: a history is kept
beside them, from which no step reads. -/

section History

universe uHistory

variable {History : Type uHistory} (record : History → State → Event → History)

/-- A step, and the history after it. -/
def recorded (step : State → Event → Option State) :
    State × History → Event → Option (State × History)
  | (state, history), event =>
      (step state event).map fun next => (next, record history state event)

/-- Without its history a recorded run is the run. -/
theorem run_recorded (state : State) (history : History) (events : List Event) :
    (run (recorded record step) (state, history) events).map Prod.fst = run step state events := by
  refine run_map Prod.fst (fun past event => ?_) (state, history) events
  rw [recorded, Option.map_map]
  exact Option.map_id_apply

/-- What says nothing of the history holds along a run or along the recorded run. -/
theorem along_recorded (history : History) {cond : State → Event → Prop} {state : State}
    {events : List Event} :
    Along (recorded record step) (fun past event => cond past.1 event) (state, history) events ↔
      Along step cond state events := by
  induction events generalizing state history with
  | nil => exact Iff.rfl
  | cons event rest ih =>
      refine and_congr_right fun _ => ?_
      constructor
      · intro hall next hnext
        exact (ih _).mp (hall (next, record history state event) (by rw [recorded, hnext]; rfl))
      · rintro hall ⟨next, past⟩ hpast
        obtain ⟨other, hnext, hsame⟩ := Option.map_eq_some_iff.mp hpast
        cases hsame
        exact (ih _).mpr (hall next hnext)

end History

end ServiceFrame.Foundation
