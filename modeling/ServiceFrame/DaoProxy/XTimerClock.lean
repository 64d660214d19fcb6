import ServiceFrame.DaoProxy.XTimerRun

/-! # The clock of the timer wheel

`TimerContainer::poll` moves a time line of its own by what the clock reads, ten seconds
at most, and expires the timers up to it. The line should follow every second that goes
by, and no jump of the clock.
-/

namespace ServiceFrame

open Foundation

/-- A container with the fields that `poll` uses besides. -/
structure PolledContainer (ids : IdMap) where
  container : TimerContainer ids
  baseTime : Int
  lastGetTime : Int
  fakeTimeLine : Int

namespace PolledContainer

open TimerContainer

variable {ids : IdMap}

/-- The constructors, at the clock's `tvSec`, and `init()`. The one without a base time
takes `tvSec` for it. -/
def init (ids : IdMap) (capacity : Nat) (timers : Nat → Timer) (links : Links Nat)
    (baseTime tvSec : Int) : PolledContainer ids where
  container := TimerContainer.init ids capacity timers links
  baseTime := baseTime
  lastGetTime := tvSec
  fakeTimeLine := baseTime

/-- What `poll()` makes of the clock's `tvSec`: the line moves, by ten seconds at most. -/
def readClock (c : PolledContainer ids) (tvSec : Int) : PolledContainer ids :=
  let diffJiffies := tvSec - c.lastGetTime
  let diffJiffies := if diffJiffies > 10 then 10 else diffJiffies
  if diffJiffies ≠ 0 then
    { c with lastGetTime := tvSec, fakeTimeLine := c.fakeTimeLine + diffJiffies }
  else c

def jiffiesInner (c : PolledContainer ids) : Int := c.fakeTimeLine - c.baseTime

/-- `poll()`, when the clock reads `tvSec`; there is no result when a `time_t` overflows. -/
def poll (c : PolledContainer ids) (tvSec : Int) : Option (PolledContainer ids) :=
  if TimeT (tvSec - c.lastGetTime) then
    let c := c.readClock tvSec
    if TimeT c.fakeTimeLine ∧ TimeT c.jiffiesInner then
      if c.jiffiesInner ≥ c.container.timerJiffies then
        some { c with container := c.container.withExpiring (.tick c.jiffiesInner) }
      else some c
    else none
  else none

inductive Event where
  | poll (tvSec : Int)
  | schedule (handler param : Nat) (futureTime interval : Int)
  | cancel (timerId : Nat)
  | advance
deriving DecidableEq

/-- The calls of the container, and the turns of its loops. -/
def Event.inner : Event → Option TimerContainer.Event
  | poll _ => none
  | schedule handler param futureTime interval =>
      some (.schedule handler param futureTime interval)
  | cancel timerId => some (.cancel timerId)
  | advance => some .advance

def step (c : PolledContainer ids) : Event → Option (PolledContainer ids)
  | .poll tvSec => if c.container.expiring = .idle then c.poll tvSec else none
  | event => do
      let inner ← event.inner
      let container ← c.container.step inner
      some { c with container := container }

/-! ## What is promised -/

/-- The line does not go back, and not by more than ten seconds at once. -/
def Steady (c : PolledContainer ids) : Event → Prop
  | .poll tvSec => ∀ next, c.step (.poll tvSec) = some next →
      c.fakeTimeLine ≤ next.fakeTimeLine ∧ next.fakeTimeLine ≤ c.fakeTimeLine + 10
  | _ => True

/-- The ticks that are done once a poll is over: all up to the line, and one more for each
second that the clock has gone on, up to ten. -/
def CatchesUp (c : PolledContainer ids) (tvSec : Int) (next : PolledContainer ids) : Prop :=
  next.container.timerJiffies = next.jiffiesInner + 1 ∧
    c.container.timerJiffies + min (tvSec - c.lastGetTime) 10 ≤ next.container.timerJiffies

/-- The clock keeps time in a run. -/
structure KeepsTime (start : PolledContainer ids) (events : List Event) : Prop where
  steady : Along step Steady start events
  catchesUp : ∀ before tvSec during rest c next,
    events = before ++ .poll tvSec :: (during ++ rest) → (∀ reading, .poll reading ∉ during) →
    run step start before = some c → run step c (.poll tvSec :: during) = some next →
    next.container.expiring = .idle → c.CatchesUp tvSec next

/-- The clock does not read less than the last time. -/
def NotBack (c : PolledContainer ids) : Event → Prop
  | .poll tvSec => (c.step (.poll tvSec)).isSome → c.lastGetTime ≤ tvSec
  | _ => True

end PolledContainer

/-! ## The ticks -/

namespace TimerContainer

variable {ids : IdMap} {c next : TimerContainer ids}

theorem cascadeLoop_timerJiffies {thisNodId fuel curNodeId : Nat}
    (hloop : cascadeLoop thisNodId fuel curNodeId c = some next) :
    next.timerJiffies = c.timerJiffies := by
  induction fuel generalizing c curNodeId with
  | zero => cases hloop
  | succ fuel ih =>
      unfold cascadeLoop at hloop
      split at hloop
      · cases hloop
        rfl
      · exact ih (c := c.scheduleI curNodeId) hloop

theorem cascade_timerJiffies {tv index : Nat} (hcascade : c.cascade tv index = some next) :
    next.timerJiffies = c.timerJiffies := by
  unfold cascade at hcascade
  rw [cascadeLoop_timerJiffies hcascade]
  rfl

theorem cascadeFrom_timerJiffies {n levels : Nat} (hcascade : c.cascadeFrom n levels = some next) :
    next.timerJiffies = c.timerJiffies := by
  induction levels generalizing c n with
  | zero =>
      cases hcascade
      rfl
  | succ levels ih =>
      obtain ⟨middle, hmiddle, hrest⟩ := Option.bind_eq_some_iff.mp hcascade
      split at hrest
      · rw [ih hrest, cascade_timerJiffies hmiddle]
      · cases hrest
        exact cascade_timerJiffies hmiddle

theorem cascadeTimers_timerJiffies (hcascade : c.cascadeTimers = some next) :
    next.timerJiffies = c.timerJiffies := by
  unfold cascadeTimers at hcascade
  split at hcascade
  · exact cascadeFrom_timerJiffies hcascade
  · cases hcascade
    rfl

theorem fire_timerJiffies (hfire : c.fire = some next) : next.timerJiffies = c.timerJiffies := by
  simp only [fire] at hfire
  split at hfire
  · split at hfire
    · cases hfire
      rfl
    · cases hfire
  · cases hfire
    rfl

/-- Where `expire(jiffiesInner)` is when it has done the ticks below `timerJiffies`; it is
idle when it has done them all. -/
def Toward (jiffiesInner : Int) (timerJiffies : Nat) : Expiring → Prop
  | .idle => timerJiffies = jiffiesInner + 1
  | .tick inner => inner = jiffiesInner ∧ timerJiffies ≤ jiffiesInner + 1
  | .slot inner => inner = jiffiesInner ∧ timerJiffies ≤ jiffiesInner
  | .callback inner => inner = jiffiesInner ∧ timerJiffies ≤ jiffiesInner

/-- A turn of `expire` brings it on. -/
theorem advance_toward {jiffiesInner : Int}
    (htoward : Toward jiffiesInner c.timerJiffies c.expiring) (hadvance : c.advance = some next) :
    Toward jiffiesInner next.timerJiffies next.expiring := by
  cases hexpiring : c.expiring with
  | idle => simp [advance, hexpiring] at hadvance
  | tick inner =>
      rw [hexpiring] at htoward
      obtain ⟨rfl, hbound⟩ := htoward
      simp only [advance, hexpiring] at hadvance
      split at hadvance
      next hdue =>
        obtain ⟨cascaded, hcascade, rfl⟩ := Option.map_eq_some_iff.mp hadvance
        refine ⟨rfl, ?_⟩
        change (cascaded.timerJiffies : Int) ≤ inner
        rw [cascadeTimers_timerJiffies hcascade]
        exact hdue
      next hdone =>
        cases hadvance
        change (c.timerJiffies : Int) = inner + 1
        omega
  | slot inner =>
      rw [hexpiring] at htoward
      obtain ⟨rfl, hbound⟩ := htoward
      simp only [advance, hexpiring] at hadvance
      split at hadvance
      · obtain ⟨fired, hfire, rfl⟩ := Option.map_eq_some_iff.mp hadvance
        refine ⟨rfl, ?_⟩
        change (fired.timerJiffies : Int) ≤ inner
        rw [fire_timerJiffies hfire]
        exact hbound
      · split at hadvance
        · cases hadvance
          refine ⟨rfl, ?_⟩
          push_cast
          omega
        · cases hadvance
  | callback inner =>
      rw [hexpiring] at htoward
      simp only [advance, hexpiring] at hadvance
      cases hadvance
      exact htoward

theorem schedule_ticks {handler param : Nat} {futureTime interval : Int} {answer : Option Nat}
    (hschedule : c.schedule handler param futureTime interval = some (next, answer)) :
    next.timerJiffies = c.timerJiffies ∧ next.expiring = c.expiring := by
  unfold schedule at hschedule
  split at hschedule
  · cases hschedule
    exact ⟨rfl, rfl⟩
  · split at hschedule
    · cases hschedule
      exact ⟨rfl, rfl⟩
    · split at hschedule
      · cases hschedule
        exact ⟨rfl, rfl⟩
      · cases hschedule

theorem cancel_ticks (timerId : Nat) : (c.cancel timerId).timerJiffies = c.timerJiffies ∧
    (c.cancel timerId).expiring = c.expiring := by
  unfold cancel
  split
  · exact ⟨rfl, rfl⟩
  · exact ⟨rfl, rfl⟩

end TimerContainer

namespace PolledContainer

open TimerContainer

variable {ids : IdMap} {c next : PolledContainer ids}

theorem readClock_eq (c : PolledContainer ids) (tvSec : Int) : c.readClock tvSec =
    { c with
      lastGetTime := tvSec
      fakeTimeLine := c.fakeTimeLine + min (tvSec - c.lastGetTime) 10 } := by
  have hclamp : (if tvSec - c.lastGetTime > 10 then 10 else tvSec - c.lastGetTime) =
      min (tvSec - c.lastGetTime) 10 := by
    split <;> omega
  simp only [readClock, hclamp]
  split
  next => rfl
  next hzero =>
    have hline : c.fakeTimeLine + min (tvSec - c.lastGetTime) 10 = c.fakeTimeLine := by omega
    have hlast : tvSec = c.lastGetTime := by omega
    rw [hline, hlast]

/-- What a poll does: the line moves, and `expire` is called when a tick is due. -/
structure Polled (c : PolledContainer ids) (tvSec : Int) (next : PolledContainer ids) :
    Prop where
  baseTime : next.baseTime = c.baseTime
  lastGetTime : next.lastGetTime = tvSec
  line : next.fakeTimeLine = c.fakeTimeLine + min (tvSec - c.lastGetTime) 10
  jiffies : next.container.timerJiffies = c.container.timerJiffies
  expiring : next.container.expiring =
    if next.jiffiesInner ≥ c.container.timerJiffies then .tick next.jiffiesInner
    else c.container.expiring

theorem poll_spec {tvSec : Int} (hpoll : c.poll tvSec = some next) : Polled c tvSec next := by
  simp only [poll, readClock_eq] at hpoll
  split at hpoll
  · split at hpoll
    · split at hpoll
      next hdue =>
        cases hpoll
        exact ⟨rfl, rfl, rfl, rfl, (if_pos hdue).symm⟩
      next hdone =>
        cases hpoll
        exact ⟨rfl, rfl, rfl, rfl, (if_neg hdone).symm⟩
    · cases hpoll
  · cases hpoll

/-- The ticks are done up to the line, or are being done. -/
def OnLine (c : PolledContainer ids) : Prop :=
  Toward c.jiffiesInner c.container.timerJiffies c.container.expiring

/-- A container that has not been polled. -/
def Unpolled (c : PolledContainer ids) : Prop :=
  c.container.expiring = .idle ∧ c.container.timerJiffies = 0 ∧ c.fakeTimeLine = c.baseTime

theorem idle_jiffies_le (hinv : c.OnLine ∨ c.Unpolled) (hidle : c.container.expiring = .idle) :
    (c.container.timerJiffies : Int) ≤ c.jiffiesInner + 1 := by
  rcases hinv with honLine | ⟨-, hzero, hline⟩
  · unfold OnLine at honLine
    rw [hidle] at honLine
    exact Int.le_of_eq honLine
  · rw [hzero, jiffiesInner, hline]
    omega

/-- A clock that goes on brings the container to its line. -/
theorem poll_onLine {tvSec : Int} (hinv : c.OnLine ∨ c.Unpolled)
    (hidle : c.container.expiring = .idle) (hclock : c.lastGetTime ≤ tvSec)
    (hpolled : Polled c tvSec next) : next.OnLine := by
  have hbound := idle_jiffies_le hinv hidle
  have hline := hpolled.line
  have hbase := hpolled.baseTime
  unfold OnLine
  rw [hpolled.expiring, hpolled.jiffies]
  unfold jiffiesInner at hbound ⊢
  split
  next hdue => exact ⟨rfl, by omega⟩
  next hdone =>
    rw [hidle]
    change (c.container.timerJiffies : Int) = next.fakeTimeLine - next.baseTime + 1
    omega

theorem step_poll {tvSec : Int} (hstep : c.step (.poll tvSec) = some next) :
    c.container.expiring = .idle ∧ Polled c tvSec next := by
  simp only [step] at hstep
  split at hstep
  next hidle => exact ⟨hidle, poll_spec hstep⟩
  next => cases hstep

/-- The other events leave the clock as it is. -/
structure Quiet (c next : PolledContainer ids) : Prop where
  baseTime : next.baseTime = c.baseTime
  lastGetTime : next.lastGetTime = c.lastGetTime
  line : next.fakeTimeLine = c.fakeTimeLine
  onLine : c.OnLine → next.OnLine
  unpolled : c.Unpolled → next.Unpolled

theorem quiet_of_ticks {container : TimerContainer ids}
    (hticks : container.timerJiffies = c.container.timerJiffies ∧
      container.expiring = c.container.expiring) :
    Quiet c { c with container := container } := by
  refine ⟨rfl, rfl, rfl, ?_, ?_⟩
  · unfold OnLine
    dsimp only
    rw [hticks.1, hticks.2]
    exact id
  · unfold Unpolled
    dsimp only
    rw [hticks.1, hticks.2]
    exact id

theorem step_quiet {event : Event} (hevent : ∀ tvSec, event ≠ .poll tvSec)
    (hstep : c.step event = some next) : Quiet c next := by
  cases event with
  | poll tvSec => exact absurd rfl (hevent tvSec)
  | schedule handler param futureTime interval =>
      obtain ⟨container, hinner, hsame⟩ := Option.bind_eq_some_iff.mp hstep
      cases hsame
      simp only [TimerContainer.step] at hinner
      split at hinner
      · obtain ⟨⟨called, answer⟩, hschedule, rfl⟩ := Option.map_eq_some_iff.mp hinner
        exact quiet_of_ticks (schedule_ticks hschedule)
      · cases hinner
  | cancel timerId =>
      obtain ⟨container, hinner, hsame⟩ := Option.bind_eq_some_iff.mp hstep
      cases hsame
      simp only [TimerContainer.step] at hinner
      split at hinner
      · cases hinner
        exact quiet_of_ticks (cancel_ticks timerId)
      · cases hinner
  | advance =>
      obtain ⟨container, hinner, hsame⟩ := Option.bind_eq_some_iff.mp hstep
      cases hsame
      refine ⟨rfl, rfl, rfl, fun honLine => advance_toward honLine hinner, ?_⟩
      rintro ⟨hidle, -, -⟩
      simp [TimerContainer.step, TimerContainer.advance, hidle] at hinner

/-! ## Runs -/

theorem step_inv {event : Event} (hinv : c.OnLine ∨ c.Unpolled) (hclock : c.NotBack event)
    (hstep : c.step event = some next) : next.OnLine ∨ next.Unpolled := by
  by_cases hevent : ∀ tvSec, event ≠ .poll tvSec
  · have hquiet := step_quiet hevent hstep
    exact hinv.imp hquiet.onLine hquiet.unpolled
  · obtain ⟨tvSec, rfl⟩ : ∃ tvSec, event = .poll tvSec := by simpa using hevent
    obtain ⟨hidle, hpolled⟩ := step_poll hstep
    exact Or.inl (poll_onLine hinv hidle (hclock (hstep ▸ rfl)) hpolled)

/-- Until the next poll the container stays on its line, which stays where it is. -/
theorem run_quiet {during : List Event} (hduring : ∀ reading, .poll reading ∉ during)
    (hrun : run step c during = some next) (honLine : c.OnLine) :
    next.OnLine ∧ next.jiffiesInner = c.jiffiesInner := by
  induction during generalizing c with
  | nil =>
      cases hrun
      exact ⟨honLine, rfl⟩
  | cons event rest ih =>
      obtain ⟨middle, hmiddle, hrest⟩ := Option.bind_eq_some_iff.mp hrun
      have hquiet := step_quiet (fun tvSec hpoll =>
        hduring tvSec (hpoll ▸ List.mem_cons_self)) hmiddle
      obtain ⟨hnext, hline⟩ :=
        ih (fun reading hmem => hduring reading (List.mem_cons_of_mem _ hmem)) hrest
          (hquiet.onLine honLine)
      refine ⟨hnext, hline.trans ?_⟩
      rw [jiffiesInner, hquiet.line, hquiet.baseTime, jiffiesInner]

theorem notBack_of_steady {event : Event} (hsteady : c.Steady event) : c.NotBack event := by
  cases event with
  | poll tvSec =>
      intro hsome
      obtain ⟨next, hstep⟩ := Option.isSome_iff_exists.mp hsome
      have hforward := (hsteady next hstep).1
      have hline := (step_poll hstep).2.line
      omega
  | _ => trivial

theorem steady_of_notBack {event : Event} (hclock : c.NotBack event) : c.Steady event := by
  cases event with
  | poll tvSec =>
      intro next hstep
      have hforward := hclock (hstep ▸ rfl)
      have hline := (step_poll hstep).2.line
      omega
  | _ => trivial

/-- The time line follows the clock, and the ticks follow the line, exactly in those runs in
which the clock never reads less than the time before. -/
theorem keepsTime_iff (ids : IdMap) (capacity : Nat) (timers : Nat → Timer) (links : Links Nat)
    (baseTime tvSec : Int) (events : List Event) :
    KeepsTime (init ids capacity timers links baseTime tvSec) events ↔
      Along step NotBack (init ids capacity timers links baseTime tvSec) events := by
  have hstart : (init ids capacity timers links baseTime tvSec).Unpolled := ⟨rfl, rfl, rfl⟩
  generalize init ids capacity timers links baseTime tvSec = start at hstart
  constructor
  · intro hkeeps
    have hsame : @NotBack ids = Steady := by
      funext c event
      exact propext ⟨steady_of_notBack, notBack_of_steady⟩
    exact hsame ▸ hkeeps.steady
  · intro hclock
    refine ⟨?_, ?_⟩
    · exact along_of_along (fun _ _ _ (_ : True) _ _ => trivial)
        (fun _ _ _ => steady_of_notBack) trivial hclock
    · rintro before tvSec during rest c next rfl hduring hbefore hrun hidle
      obtain ⟨hfirst, hbehind⟩ := hclock.split hbefore
      have hinv : c.OnLine ∨ c.Unpolled :=
        run_invariant_along (fun _ _ _ => step_inv) (Or.inr hstart) hfirst hbefore
      obtain ⟨polled, hpoll, hrest⟩ := Option.bind_eq_some_iff.mp hrun
      obtain ⟨hquiet, hpolled⟩ := step_poll hpoll
      have honLine := poll_onLine hinv hquiet (hbehind.1 (hpoll ▸ rfl)) hpolled
      obtain ⟨hnext, hline⟩ := run_quiet hduring hrest honLine
      have hbound := idle_jiffies_le hinv hquiet
      unfold OnLine at hnext
      rw [hidle] at hnext
      have hticks : (next.container.timerJiffies : Int) = next.jiffiesInner + 1 := hnext
      refine ⟨hticks, ?_⟩
      have hmoved : polled.jiffiesInner = c.jiffiesInner + min (tvSec - c.lastGetTime) 10 := by
        rw [jiffiesInner, hpolled.line, hpolled.baseTime, jiffiesInner]
        omega
      omega

/-- The clock is put back by ten seconds before the first poll. -/
theorem clock_put_back : ¬ KeepsTime
    (init freshIds 8 (fun _ => ⟨0, 0, 0, 0, 0⟩) ⟨id, id⟩ 100 100) [.poll 90] := by
  intro hkeeps
  have hforward : (100 : Int) ≤ 90 := (hkeeps.steady.1 _ rfl).1
  omega

end PolledContainer

end ServiceFrame
