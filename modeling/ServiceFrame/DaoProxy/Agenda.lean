import Mathlib.Data.List.Basic
import ServiceFrame.DaoProxy.XTimer

/-! # What a timer container is for

An agenda has the timers that are set, by id, and a tick. A timer fires when it is
due, and is set again when it has an interval; the tick does not end before all
that is due has fired. Whatever else is done between, a timer then fires at its
own ticks, until it is cancelled.
-/

namespace ServiceFrame

open TimerContainer (Event)

structure Agenda where
  armed : Nat → Option Timer
  tick : Nat
  firings : List Firing
  serials : Nat

namespace Agenda

/-- What an event may do. A cancelled id need not be set. -/
inductive Step (agenda : Agenda) : Event → Agenda → Prop
  | quiet (event : Event) (hevent : ∀ id, event ≠ .cancel id) : Step agenda event agenda
  | schedule (id handler param : Nat) (futureTime interval : Int)
      (hfree : agenda.armed id = none) :
      Step agenda (.schedule handler param futureTime interval)
        { agenda with
          armed := Function.update agenda.armed id
            (some ⟨handler, param, futureTime + agenda.tick, interval, agenda.serials⟩)
          serials := agenda.serials + 1 }
  | cancel (id : Nat) :
      Step agenda (.cancel id) { agenda with armed := Function.update agenda.armed id none }
  | fire (id : Nat) (timer : Timer) (harmed : agenda.armed id = some timer)
      (hdue : timer.expires ≤ agenda.tick) :
      Step agenda .advance
        { agenda with
          armed := Function.update agenda.armed id
            (if 0 < timer.interval
              then some { timer with expires := timer.interval + agenda.tick } else none)
          firings := agenda.firings ++ [⟨timer.serial, timer.handler, timer.param, agenda.tick⟩] }
  | tick (hlater : ∀ id timer, agenda.armed id = some timer → agenda.tick < timer.expires) :
      Step agenda .advance { agenda with tick := agenda.tick + 1 }

/-- The firings of the timer that a schedule call set. -/
def fired (agenda : Agenda) (serial : Nat) : List Firing :=
  agenda.firings.filter fun firing => firing.serial = serial

/-- Every timer is of a call of its own. -/
structure Distinct (agenda : Agenda) : Prop where
  armed_lt : ∀ id timer, agenda.armed id = some timer → timer.serial < agenda.serials
  firings_lt : ∀ firing ∈ agenda.firings, firing.serial < agenda.serials
  serial_inj : ∀ id other timer timer', agenda.armed id = some timer →
    agenda.armed other = some timer' → timer.serial = timer'.serial → id = other

/-- The timer of a call is not set any more. -/
structure Gone (agenda : Agenda) (serial : Nat) : Prop where
  serial_lt : serial < agenda.serials
  unarmed : ∀ id timer, agenda.armed id = some timer → timer.serial ≠ serial

/-- A timer set to `expires` has fired `count` times, each time when it was due,
and is set for the next time; or it has no interval, and has fired. -/
structure OnTime (agenda : Agenda) (id : Nat) (timer : Timer) (count : Nat) : Prop where
  ticks : (agenda.fired timer.serial).map (fun firing => (firing.tick : Int)) =
    (List.range count).map fun k : Nat => timer.expires + (k : Int) * timer.interval
  calls : ∀ firing ∈ agenda.fired timer.serial,
    firing.handler = timer.handler ∧ firing.param = timer.param
  next : (agenda.armed id =
        some { timer with expires := timer.expires + count * timer.interval } ∧
      (agenda.tick : Int) ≤ timer.expires + count * timer.interval ∧
      (timer.interval ≤ 0 → count = 0)) ∨
    (timer.interval ≤ 0 ∧ count = 1 ∧ agenda.Gone timer.serial)

variable {agenda next : Agenda} {event : Event}

/-- What is found after an update is what was put in, or what was there. -/
theorem update_eq_some {armed : Nat → Option Timer} {id other : Nat} {put : Option Timer}
    {timer : Timer} (hfound : Function.update armed id put other = some timer) :
    (other = id ∧ put = some timer) ∨ (other ≠ id ∧ armed other = some timer) := by
  by_cases hsame : other = id
  · subst hsame
    rw [Function.update_self] at hfound
    exact Or.inl ⟨rfl, hfound⟩
  · rw [Function.update_of_ne hsame] at hfound
    exact Or.inr ⟨hsame, hfound⟩

/-- A timer that fires keeps its number, if it is set again. -/
theorem update_fire {id other : Nat} {timer after : Timer} (harmed : agenda.armed id = some timer)
    (hfound : Function.update agenda.armed id
      (if 0 < timer.interval
        then some { timer with expires := timer.interval + agenda.tick } else none) other =
          some after) :
    ∃ before, agenda.armed other = some before ∧ before.serial = after.serial := by
  rcases update_eq_some hfound with ⟨rfl, hput⟩ | ⟨-, hold⟩
  · split at hput
    · cases hput
      exact ⟨timer, harmed, rfl⟩
    · cases hput
  · exact ⟨after, hold, rfl⟩

theorem Distinct.step (hdistinct : agenda.Distinct) (hstep : agenda.Step event next) :
    next.Distinct := by
  cases hstep with
  | quiet event hevent => exact hdistinct
  | schedule id handler param futureTime interval hfree =>
      refine ⟨?_, ?_, ?_⟩
      · intro other timer hother
        rcases update_eq_some hother with ⟨-, hput⟩ | ⟨-, hold⟩
        · cases hput
          exact Nat.lt_succ_self _
        · exact Nat.lt_succ_of_lt (hdistinct.armed_lt other timer hold)
      · intro firing hfiring
        exact Nat.lt_succ_of_lt (hdistinct.firings_lt firing hfiring)
      · -- The number of the new timer is above all others.
        intro first second timer timer' hfirst hsecond hserial
        rcases update_eq_some hfirst with ⟨hone, hput⟩ | ⟨-, hold⟩
        · rcases update_eq_some hsecond with ⟨htwo, -⟩ | ⟨-, hold'⟩
          · rw [hone, htwo]
          · cases hput
            exact absurd hserial (Nat.ne_of_gt (hdistinct.armed_lt second timer' hold'))
        · rcases update_eq_some hsecond with ⟨-, hput'⟩ | ⟨-, hold'⟩
          · cases hput'
            exact absurd hserial (Nat.ne_of_lt (hdistinct.armed_lt first timer hold))
          · exact hdistinct.serial_inj first second timer timer' hold hold' hserial
  | cancel id =>
      have hkept : ∀ other timer, Function.update agenda.armed id none other = some timer →
          agenda.armed other = some timer := by
        intro other timer hother
        rcases update_eq_some hother with ⟨-, hput⟩ | ⟨-, hold⟩
        · cases hput
        · exact hold
      exact ⟨fun other timer hother => hdistinct.armed_lt other timer (hkept other timer hother),
        hdistinct.firings_lt, fun first second timer timer' hfirst hsecond =>
          hdistinct.serial_inj first second timer timer' (hkept first timer hfirst)
            (hkept second timer' hsecond)⟩
  | fire id timer harmed hdue =>
      refine ⟨?_, ?_, ?_⟩
      · intro other after hother
        obtain ⟨before, hbefore, hserial⟩ := update_fire harmed hother
        rw [← hserial]
        exact hdistinct.armed_lt other before hbefore
      · intro firing hfiring
        rcases List.mem_append.mp hfiring with hold | hnew
        · exact hdistinct.firings_lt firing hold
        · rw [List.mem_singleton] at hnew
          subst hnew
          exact hdistinct.armed_lt id timer harmed
      · intro first second after after' hfirst hsecond hserial
        obtain ⟨before, hbefore, hsame⟩ := update_fire harmed hfirst
        obtain ⟨before', hbefore', hsame'⟩ := update_fire harmed hsecond
        exact hdistinct.serial_inj first second before before' hbefore hbefore'
          (hsame.trans (hserial.trans hsame'.symm))
  | tick hlater => exact ⟨hdistinct.armed_lt, hdistinct.firings_lt, hdistinct.serial_inj⟩

/-- A timer that is gone stays so, and does not fire. -/
theorem Gone.step {serial : Nat} (hgone : agenda.Gone serial) (hstep : agenda.Step event next) :
    next.Gone serial ∧ next.fired serial = agenda.fired serial := by
  cases hstep with
  | quiet event hevent => exact ⟨hgone, rfl⟩
  | schedule id handler param futureTime interval hfree =>
      refine ⟨⟨Nat.lt_succ_of_lt hgone.serial_lt, ?_⟩, rfl⟩
      intro other timer hother
      rcases update_eq_some hother with ⟨-, hput⟩ | ⟨-, hold⟩
      · cases hput
        exact Nat.ne_of_gt hgone.serial_lt
      · exact hgone.unarmed other timer hold
  | cancel id =>
      refine ⟨⟨hgone.serial_lt, ?_⟩, rfl⟩
      intro other timer hother
      rcases update_eq_some hother with ⟨-, hput⟩ | ⟨-, hold⟩
      · cases hput
      · exact hgone.unarmed other timer hold
  | fire id timer harmed hdue =>
      refine ⟨⟨hgone.serial_lt, ?_⟩, ?_⟩
      · intro other after hafter
        obtain ⟨before, hbefore, hserial⟩ := update_fire harmed hafter
        rw [← hserial]
        exact hgone.unarmed other before hbefore
      · have hother := hgone.unarmed id timer harmed
        simp [fired, List.filter_append, hother]
  | tick hlater => exact ⟨⟨hgone.serial_lt, hgone.unarmed⟩, rfl⟩

variable {id : Nat} {timer : Timer} {count : Nat}

/-- A timer is on time when it is set. -/
theorem Distinct.scheduled (hdistinct : agenda.Distinct) (id handler param : Nat)
    (interval : Int) {futureTime : Int} (hnonneg : 0 ≤ futureTime) :
    OnTime { agenda with
      armed := Function.update agenda.armed id
        (some ⟨handler, param, futureTime + agenda.tick, interval, agenda.serials⟩)
      serials := agenda.serials + 1 } id
      ⟨handler, param, futureTime + agenda.tick, interval, agenda.serials⟩ 0 := by
  have hnone : agenda.firings.filter (fun firing => firing.serial = agenda.serials) = [] := by
    rw [List.filter_eq_nil_iff]
    intro firing hfiring
    have hless := hdistinct.firings_lt firing hfiring
    simp only [decide_eq_true_eq]
    exact Nat.ne_of_lt hless
  refine ⟨?_, ?_, Or.inl ⟨?_, ?_, fun _ => rfl⟩⟩
  · dsimp only [fired]
    rw [hnone]
    rfl
  · dsimp only [fired]
    rw [hnone]
    simp
  · simp
  · dsimp only
    omega

/-- A timer that is on time and fires does so when it is due, and is on time after that. -/
theorem OnTime.fire (hdistinct : agenda.Distinct) (htime : agenda.OnTime id timer count)
    (harmed : agenda.armed id =
      some { timer with expires := timer.expires + count * timer.interval })
    (hnow : (agenda.tick : Int) = timer.expires + count * timer.interval)
    (honce : timer.interval ≤ 0 → count = 0) :
    OnTime { agenda with
      armed := Function.update agenda.armed id
        (if 0 < timer.interval then some { timer with expires := timer.interval + agenda.tick }
          else none)
      firings := agenda.firings ++
        [⟨timer.serial, timer.handler, timer.param, agenda.tick⟩] } id timer (count + 1) := by
  have hfired : (agenda.firings ++
        [Firing.mk timer.serial timer.handler timer.param agenda.tick]).filter
        (fun firing => firing.serial = timer.serial) =
      agenda.fired timer.serial ++
        [Firing.mk timer.serial timer.handler timer.param agenda.tick] := by
    rw [List.filter_append, fired]
    simp
  refine ⟨?_, ?_, ?_⟩
  · rw [fired, hfired, List.map_append, List.range_succ, List.map_append]
    exact congrArg₂ _ htime.ticks (by simp [hnow])
  · intro firing hfiring
    rw [fired, hfired, List.mem_append, List.mem_singleton] at hfiring
    rcases hfiring with hold | rfl
    · exact htime.calls firing hold
    · exact ⟨rfl, rfl⟩
  · by_cases hperiodic : 0 < timer.interval
    · have hnext : timer.interval + (agenda.tick : Int) =
          timer.expires + ((count + 1 : Nat) : Int) * timer.interval := by
        rw [hnow, Int.natCast_add, Int.add_mul, Int.natCast_one, Int.one_mul]
        omega
      refine Or.inl ⟨?_, ?_, fun hle => absurd hperiodic (Int.not_lt.mpr hle)⟩
      · dsimp only
        rw [Function.update_self, if_pos hperiodic, hnext]
      · dsimp only
        omega
    · -- Without an interval the timer is set no more, and no other has its number.
      refine Or.inr ⟨Int.not_lt.mp hperiodic, ?_, ?_, ?_⟩
      · rw [honce (Int.not_lt.mp hperiodic)]
      · have hless := hdistinct.armed_lt id _ harmed
        exact hless
      · intro other after hafter hserial
        rcases update_eq_some hafter with ⟨-, hput⟩ | ⟨hother, hold⟩
        · rw [if_neg hperiodic] at hput
          cases hput
        · exact hother (hdistinct.serial_inj other id after _ hold harmed hserial)

/-- Unless it is cancelled, a timer stays on time. -/
theorem OnTime.step (hdistinct : agenda.Distinct) (htime : agenda.OnTime id timer count)
    (hstep : agenda.Step event next) (hkept : event ≠ .cancel id) :
    ∃ count, next.OnTime id timer count := by
  rcases htime.next with ⟨harmed, htick, honce⟩ | ⟨hsingle, hone, hgone⟩
  · cases hstep with
    | quiet event hevent => exact ⟨count, htime⟩
    | schedule other handler param futureTime interval hfree =>
        have hother : id ≠ other := by
          rintro rfl
          rw [hfree] at harmed
          cases harmed
        refine ⟨count, htime.ticks, htime.calls, Or.inl ⟨?_, htick, honce⟩⟩
        dsimp only
        rw [Function.update_of_ne hother]
        exact harmed
    | cancel other =>
        have hother : id ≠ other := by
          rintro rfl
          exact hkept rfl
        refine ⟨count, htime.ticks, htime.calls, Or.inl ⟨?_, htick, honce⟩⟩
        dsimp only
        rw [Function.update_of_ne hother]
        exact harmed
    | fire other fires hfires hdue =>
        by_cases hother : other = id
        · -- It is due, and not late.
          subst hother
          rw [harmed] at hfires
          cases hfires
          dsimp only at hdue
          exact ⟨count + 1, htime.fire hdistinct harmed (by omega) honce⟩
        · have hserial : fires.serial ≠ timer.serial := by
            intro hsame
            exact hother (hdistinct.serial_inj other id fires _ hfires harmed hsame)
          have hsame : fired { agenda with
              armed := Function.update agenda.armed other
                (if 0 < fires.interval
                  then some { fires with expires := fires.interval + agenda.tick } else none)
              firings := agenda.firings ++
                [⟨fires.serial, fires.handler, fires.param, agenda.tick⟩] } timer.serial =
              agenda.fired timer.serial := by
            simp [fired, List.filter_append, hserial]
          refine ⟨count, ?_, ?_, Or.inl ⟨?_, htick, honce⟩⟩
          · rw [hsame]
            exact htime.ticks
          · rw [hsame]
            exact htime.calls
          · dsimp only
            rw [Function.update_of_ne (Ne.symm hother)]
            exact harmed
    | tick hlater =>
        have hless := hlater id _ harmed
        dsimp only at hless
        refine ⟨count, htime.ticks, htime.calls, Or.inl ⟨harmed, ?_, honce⟩⟩
        push_cast
        omega
  · obtain ⟨hstill, hsame⟩ := hgone.step hstep
    exact ⟨count, by rw [hsame]; exact htime.ticks, by rw [hsame]; exact htime.calls,
      Or.inr ⟨hsingle, hone, hstill⟩⟩

theorem OnTime.count_le_one (htime : agenda.OnTime id timer count)
    (hsingle : timer.interval ≤ 0) : count ≤ 1 := by
  rcases htime.next with ⟨-, -, honce⟩ | ⟨-, hone, -⟩
  · rw [honce hsingle]
    exact Nat.zero_le 1
  · exact Nat.le_of_eq hone

/-- A timer that is to fire again has not been missed. -/
theorem OnTime.tick_le (htime : agenda.OnTime id timer count)
    (hmore : 0 < timer.interval ∨ count = 0) :
    (agenda.tick : Int) ≤ timer.expires + count * timer.interval := by
  rcases htime.next with ⟨-, htick, -⟩ | ⟨hsingle, hone, -⟩
  · exact htick
  · rcases hmore with hperiodic | hzero
    · exact absurd hperiodic (Int.not_lt.mpr hsingle)
    · rw [hone] at hzero
      cases hzero

/-- A cancelled timer is gone. -/
theorem OnTime.cancel (hdistinct : agenda.Distinct) (htime : agenda.OnTime id timer count)
    (hstep : agenda.Step (.cancel id) next) :
    next.Gone timer.serial ∧ next.fired timer.serial = agenda.fired timer.serial := by
  rcases htime.next with ⟨harmed, -, -⟩ | ⟨-, -, hgone⟩
  · cases hstep with
    | quiet event hevent => exact absurd rfl (hevent id)
    | cancel =>
        have hless := hdistinct.armed_lt id _ harmed
        refine ⟨⟨hless, ?_⟩, rfl⟩
        intro other after hafter hserial
        rcases update_eq_some hafter with ⟨-, hput⟩ | ⟨hother, hold⟩
        · cases hput
        · exact hother (hdistinct.serial_inj other id after _ hold harmed hserial)
  · exact hgone.step hstep

end Agenda

end ServiceFrame
