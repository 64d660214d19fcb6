import ServiceFrame.Foundation.Run
import ServiceFrame.Sox.Countdown

/-! # The rounds of the event loop

`Selector_epoll::mainloop` collects events before it notifies any of them: first what
epoll reports, then the timeouts that are over. The addresses of the handlers that are
destroyed meanwhile stand in `m_removed` until the round ends.

A handler may do anything while it is notified, so its calls are events of their own,
between `notify` and `done`. A pointer carries, beside its address, which of the handlers
created there it was taken of; the code compares addresses only. There is no next state
where a handler that is gone is used.
-/

namespace ServiceFrame

open Foundation

def SEL_READ : Nat := 1

def SEL_WRITE : Nat := 2

def SEL_TIMEOUT : Nat := 8

def EPOLLIN : Nat := 1

def EPOLLOUT : Nat := 4

def EPOLLERR : Nat := 8

def EPOLLHUP : Nat := 16

/-- A `Handler *`. -/
structure HandlerPtr where
  address : Nat
  /-- How many handlers had been created at the address. -/
  nth : Nat
deriving DecidableEq

/-- An event that is collected and not notified yet. -/
structure Notice where
  handler : HandlerPtr
  event : Nat
deriving DecidableEq

/-- `epoll_event`: `data.ptr` and `events`. -/
structure EpollEvent where
  socket : Nat
  events : Nat

/-- Where `mainloop` is: before `epoll_wait`, in the loop over `events`, in `timout_run`, or
before `clearRemoved`. -/
inductive Place where
  | wait
  | sockets
  | timeouts
  | clear
deriving DecidableEq

structure EventLoop where
  countdown : Countdown
  removed : List Nat
  elapsed : Int
  interruptHandler : Option HandlerPtr
  /-- The members of `Selector_epoll::sockets`. -/
  sockets : Nat → Bool
  currentHandler : Option Nat
  /-- Whether a handler is at an address, and how many have been created there. -/
  living : Nat → Bool
  created : Nat → Nat
  place : Place
  /-- What the loop over `events` or over `result` has before it. -/
  collected : List Notice

/-- What the program calls. -/
inductive Action where
  | create (s : Nat)
  | destroy (s : Nat)
  | selectTimeout (s : Nat) (timeout : Int)
  | select (s : Nat)
  | remove (s : Nat)
  | setInterruptHandler (handler : Option Nat)

namespace EventLoop

def new : EventLoop where
  countdown := .init
  removed := []
  elapsed := 0
  interruptHandler := none
  sockets _ := false
  currentHandler := none
  living _ := false
  created _ := 0
  place := .wait
  collected := []

/-! ## What handlers do -/

/-- A pointer to the handler that is at `s`. -/
def ptr (loop : EventLoop) (s : Nat) : HandlerPtr := ⟨s, loop.created s⟩

/-- The handler that a pointer was taken of is still there. -/
def Lives (loop : EventLoop) (handler : HandlerPtr) : Prop :=
  loop.living handler.address = true ∧ loop.created handler.address = handler.nth

instance (loop : EventLoop) (handler : HandlerPtr) : Decidable (loop.Lives handler) :=
  inferInstanceAs (Decidable (_ ∧ _))

def isRemoved (loop : EventLoop) (s : Nat) : Bool := loop.removed.contains s

/-- A constructor; `m_iter_timo` of a new handler is `null_iter()`. -/
def create (loop : EventLoop) (s : Nat) : EventLoop :=
  { loop with
    countdown := loop.countdown.setIter s none
    living := Function.update loop.living s true
    created := Function.update loop.created s (loop.created s + 1) }

/-- `destroy()`, which runs `~Socket` if the handler is one, and `~Handler`. -/
def destroy (loop : EventLoop) (s : Nat) : EventLoop :=
  { loop with
    sockets := Function.update loop.sockets s false
    countdown := loop.countdown.selectTimeout s (-1)
    removed := loop.removed ++ [s]
    living := Function.update loop.living s false }

def setInterruptHandler (loop : EventLoop) (handler : Option Nat) : EventLoop :=
  let next :=
    match loop.interruptHandler with
    | some old => loop.destroy old.address
    | none => loop
  { next with interruptHandler := handler.map loop.ptr }

/-- A call of the program, which needs the handlers that it is about. -/
def act (loop : EventLoop) : Action → Option EventLoop
  | .create s => if loop.living s then none else some (loop.create s)
  | .destroy s => if loop.living s then some (loop.destroy s) else none
  | .selectTimeout s timeout =>
      if loop.living s then
        some { loop with countdown := loop.countdown.selectTimeout s timeout }
      else none
  | .select s =>
      if loop.living s then
        some { loop with sockets := Function.update loop.sockets s true }
      else none
  | .remove s =>
      if loop.living s then
        some { loop with sockets := Function.update loop.sockets s false }
      else none
  | .setInterruptHandler handler =>
      if (∀ old ∈ loop.interruptHandler, loop.Lives old) ∧ ∀ s ∈ handler, loop.living s = true
      then some (loop.setInterruptHandler handler)
      else none

/-! ## The main loop -/

/-- `notify_event(s, event)`, until it calls `s->handle(event)` or returns. -/
def notifyEvent (loop : EventLoop) (s : Nat) : EventLoop :=
  if loop.isRemoved s then loop -- DESTROY IN LOOP FOUND
  else { loop with currentHandler := some s }

/-- What one element of `events` is notified as. -/
def notices (loop : EventLoop) (ev : EpollEvent) : List Notice :=
  (if ev.events &&& (EPOLLIN ||| EPOLLERR ||| EPOLLHUP) ≠ 0 then
      [⟨loop.ptr ev.socket, SEL_READ⟩]
    else []) ++
  if ev.events &&& EPOLLOUT ≠ 0 then [⟨loop.ptr ev.socket, SEL_WRITE⟩] else []

def timoutRun (loop : EventLoop) (elapsed : Int) : EventLoop :=
  let (countdown, result) := loop.countdown.clickElapse elapsed
  { loop with
    countdown := countdown
    collected := result.map fun s => ⟨loop.ptr s, SEL_TIMEOUT⟩ }

def checkTimoutRun (loop : EventLoop) : EventLoop :=
  let elapsed := loop.elapsed -- get_and_reset_elapsed
  let loop := { loop with elapsed := 0 }
  if 0 < elapsed then loop.timoutRun elapsed else loop

def interrupt (loop : EventLoop) : EventLoop :=
  match loop.interruptHandler with
  | some handler => loop.notifyEvent handler.address
  | none => loop

/-- `mainloop` is done with a place, and no handler is running. -/
def Past (loop : EventLoop) (place : Place) : Prop :=
  loop.place = place ∧ loop.collected = [] ∧ loop.currentHandler = none

instance (loop : EventLoop) (place : Place) : Decidable (loop.Past place) :=
  inferInstanceAs (Decidable (_ ∧ _ ∧ _))

inductive Event where
  /-- The timer's signal. -/
  | tick
  | act (action : Action)
  /-- `epoll_wait` returns, with events of sockets that were added and not deleted. -/
  | wait (ready : List EpollEvent)
  | notify
  /-- The handler returns, or `notify_event` catches what it throws. -/
  | done
  | checkTimoutRun
  | interrupt
  | clearRemoved

def step (loop : EventLoop) : Event → Option EventLoop
  | .tick => some { loop with elapsed := loop.elapsed + Countdown.timeClick }
  | .act action =>
      -- before the loop, or in a handler
      if loop.place = .wait ∨ loop.currentHandler ≠ none then loop.act action else none
  | .wait ready =>
      if loop.place = .wait ∧ ∀ ev ∈ ready, loop.sockets ev.socket = true then
        some { loop with place := .sockets, collected := ready.flatMap loop.notices }
      else none
  | .notify =>
      if loop.currentHandler = none then
        match loop.collected with
        | notice :: rest =>
          some ({ loop with collected := rest }.notifyEvent notice.handler.address)
        | [] => none
      else none
  | .done =>
      if loop.currentHandler = none then none else some { loop with currentHandler := none }
  | .checkTimoutRun =>
      if loop.Past .sockets then some { loop.checkTimoutRun with place := .timeouts } else none
  | .interrupt =>
      if loop.Past .timeouts then some { loop.interrupt with place := .clear } else none
  | .clearRemoved =>
      if loop.Past .clear then some { loop with removed := [], place := .wait } else none

/-! ## Whom an event reaches -/

/-- The handler whose turn it is when an event is notified. -/
def turn (loop : EventLoop) : Event → Option HandlerPtr
  | .notify =>
      if loop.currentHandler = none then loop.collected.head?.map Notice.handler else none
  | .interrupt => if loop.Past .timeouts then loop.interruptHandler else none
  | _ => none

/-- `handle` is called in the turn of a handler that lives, and of no other. -/
def ReachesLiving (loop : EventLoop) (event : Event) : Prop :=
  ∀ handler next, loop.turn event = some handler → loop.step event = some next →
    (next.currentHandler = some handler.address ↔ loop.Lives handler)

variable {loop next : EventLoop} {event : Event} {handler : HandlerPtr}

theorem notifyEvent_eq (loop : EventLoop) (s : Nat) :
    loop.notifyEvent s =
      { loop with
        currentHandler := if loop.isRemoved s then loop.currentHandler else some s } := by
  unfold notifyEvent
  split <;> rfl

theorem notifyEvent_currentHandler (hidle : loop.currentHandler = none) (s : Nat) :
    (loop.notifyEvent s).currentHandler = some s ↔ loop.isRemoved s = false := by
  rw [notifyEvent_eq]
  cases hremoved : loop.isRemoved s with
  | true => simp [hidle]
  | false => simp

theorem mem_removed_iff {s : Nat} : loop.isRemoved s = true ↔ s ∈ loop.removed :=
  List.contains_iff_mem

/-- A turn calls `handle` unless the address was recorded. -/
theorem turn_step (hturn : loop.turn event = some handler) :
    ∃ next, loop.step event = some next ∧
      (next.currentHandler = some handler.address ↔ handler.address ∉ loop.removed) := by
  rw [← mem_removed_iff, Bool.not_eq_true]
  cases event with
  | notify =>
      simp only [turn] at hturn
      split at hturn
      next hidle =>
        obtain ⟨notice, hhead, rfl⟩ := Option.map_eq_some_iff.mp hturn
        obtain ⟨rest, hcollected⟩ := List.head?_eq_some_iff.mp hhead
        refine ⟨{ loop with collected := rest }.notifyEvent notice.handler.address, ?_, ?_⟩
        · simp only [step, if_pos hidle, hcollected]
        · have hpopped : { loop with collected := rest }.currentHandler = none := hidle
          exact notifyEvent_currentHandler hpopped _
      next => cases hturn
  | interrupt =>
      simp only [turn] at hturn
      split at hturn
      next hpast =>
        refine ⟨{ loop.interrupt with place := .clear }, ?_, ?_⟩
        · simp only [step, if_pos hpast]
        · rw [← notifyEvent_currentHandler hpast.2.2]
          simp only [interrupt, hturn]
      next => cases hturn
  | _ => cases hturn

theorem reachesLiving_iff (hturn : loop.turn event = some handler) :
    loop.ReachesLiving event ↔ (handler.address ∉ loop.removed ↔ loop.Lives handler) := by
  obtain ⟨next, hstep, hcalled⟩ := turn_step hturn
  rw [← hcalled]
  constructor
  · intro hreaches
    exact hreaches handler next hturn hstep
  · intro hiff other another hother hanother
    rw [hturn] at hother
    cases hother
    rw [hstep] at hanother
    cases hanother
    exact hiff

/-! ## What a run keeps -/

/-- The countdown and the selector know living handlers only, and an event waits for a
handler that lives or was recorded. -/
structure Coherent (loop : EventLoop) : Prop where
  linked : loop.countdown.Linked
  timers : ∀ s i, loop.countdown.iterTimo s = some i → loop.living s = true
  sockets : ∀ s, loop.sockets s = true → loop.living s = true
  collected : ∀ notice ∈ loop.collected,
    loop.Lives notice.handler ∨ notice.handler.address ∈ loop.removed
  resting : loop.place = .wait ∨ loop.place = .clear → loop.collected = []

theorem new_coherent : new.Coherent where
  linked := Countdown.init_linked
  timers := fun _ _ hiter => by cases hiter
  sockets := fun _ hsocket => by cases hsocket
  collected := fun _ hmem => by cases hmem
  resting := fun _ => rfl

/-- A handler that is created finds no timeout registered. -/
theorem Coherent.countdown_create (hcoherent : loop.Coherent) {s : Nat}
    (hfree : loop.living s = false) : (loop.create s).countdown = loop.countdown := by
  have hnone : loop.countdown.iterTimo s = none := by
    cases hiter : loop.countdown.iterTimo s with
    | none => rfl
    | some i =>
        have hliving := hcoherent.timers s i hiter
        rw [hfree] at hliving
        cases hliving
  change loop.countdown.setIter s none = loop.countdown
  unfold Countdown.setIter
  rw [Function.update_eq_self_iff.mpr hnone.symm]

theorem Coherent.create (hcoherent : loop.Coherent) {s : Nat} (hfree : loop.living s = false) :
    (loop.create s).Coherent := by
  have hsame := hcoherent.countdown_create hfree
  have hgrows : ∀ t, loop.living t = true → Function.update loop.living s true t = true := by
    intro t hliving
    by_cases ht : t = s
    · rw [ht, Function.update_self]
    · rw [Function.update_of_ne ht, hliving]
  refine ⟨?_, ?_, ?_, ?_, hcoherent.resting⟩
  · rw [hsame]
    exact hcoherent.linked
  · intro t i hiter
    rw [hsame] at hiter
    exact hgrows t (hcoherent.timers t i hiter)
  · intro t hsocket
    exact hgrows t (hcoherent.sockets t hsocket)
  · -- what waits at a free address is for a handler that was recorded
    intro notice hmem
    rcases hcoherent.collected notice hmem with ⟨hliving, hnth⟩ | hremoved
    · have hne : notice.handler.address ≠ s := by
        intro hs
        rw [hs, hfree] at hliving
        cases hliving
      refine Or.inl ⟨hgrows _ hliving, ?_⟩
      change Function.update loop.created s _ notice.handler.address = _
      rw [Function.update_of_ne hne, hnth]
    · exact Or.inr hremoved

theorem Coherent.destroy (hcoherent : loop.Coherent) (s : Nat) : (loop.destroy s).Coherent := by
  have hkept : ∀ t, t ≠ s → loop.living t = true →
      Function.update loop.living s false t = true := by
    intro t ht hliving
    rw [Function.update_of_ne ht, hliving]
  refine ⟨?_, ?_, ?_, ?_, hcoherent.resting⟩
  · change (loop.countdown.selectTimeout s (-1)).Linked
    exact (Countdown.selectTimeout_spec hcoherent.linked s (-1)).1
  · intro t i hiter
    change (loop.countdown.selectTimeout s (-1)).iterTimo t = some i at hiter
    rw [Countdown.iterTimo_selectTimeout, if_pos (by decide)] at hiter
    by_cases ht : t = s
    · rw [ht, Function.update_self] at hiter
      cases hiter
    · rw [Function.update_of_ne ht] at hiter
      exact hkept t ht (hcoherent.timers t i hiter)
  · intro t hsocket
    change Function.update loop.sockets s false t = true at hsocket
    by_cases ht : t = s
    · rw [ht, Function.update_self] at hsocket
      cases hsocket
    · rw [Function.update_of_ne ht] at hsocket
      exact hkept t ht (hcoherent.sockets t hsocket)
  · intro notice hmem
    change _ ∨ notice.handler.address ∈ loop.removed ++ [s]
    rw [List.mem_append, List.mem_singleton]
    by_cases hs : notice.handler.address = s
    · exact Or.inr (Or.inr hs)
    · rcases hcoherent.collected notice hmem with ⟨hliving, hnth⟩ | hremoved
      · exact Or.inl ⟨hkept _ hs hliving, hnth⟩
      · exact Or.inr (Or.inl hremoved)

theorem Coherent.selectTimeout (hcoherent : loop.Coherent) {s : Nat}
    (hliving : loop.living s = true) (timeout : Int) :
    { loop with countdown := loop.countdown.selectTimeout s timeout }.Coherent := by
  refine ⟨(Countdown.selectTimeout_spec hcoherent.linked s timeout).1, ?_, hcoherent.sockets,
    hcoherent.collected, hcoherent.resting⟩
  intro t i hiter
  by_cases ht : t = s
  · rw [ht]
    exact hliving
  · change (loop.countdown.selectTimeout s timeout).iterTimo t = some i at hiter
    rw [Countdown.iterTimo_selectTimeout, Function.update_of_ne ht] at hiter
    exact hcoherent.timers t i hiter

theorem Coherent.setSocket (hcoherent : loop.Coherent) {s : Nat} (hliving : loop.living s = true)
    (selected : Bool) :
    { loop with sockets := Function.update loop.sockets s selected }.Coherent := by
  refine ⟨hcoherent.linked, hcoherent.timers, ?_, hcoherent.collected, hcoherent.resting⟩
  intro t hsocket
  by_cases ht : t = s
  · rw [ht]
    exact hliving
  · apply hcoherent.sockets t
    simpa [ht] using hsocket

theorem act_coherent (hcoherent : loop.Coherent) {action : Action}
    (hact : loop.act action = some next) : next.Coherent := by
  cases action with
  | create s =>
      obtain ⟨hfree, hnext⟩ := Option.ite_none_left_eq_some.mp hact
      cases hnext
      exact hcoherent.create (Bool.not_eq_true _ ▸ hfree)
  | destroy s =>
      obtain ⟨-, hnext⟩ := Option.ite_none_right_eq_some.mp hact
      cases hnext
      exact hcoherent.destroy s
  | selectTimeout s timeout =>
      obtain ⟨hliving, hnext⟩ := Option.ite_none_right_eq_some.mp hact
      cases hnext
      exact hcoherent.selectTimeout hliving timeout
  | select s =>
      obtain ⟨hliving, hnext⟩ := Option.ite_none_right_eq_some.mp hact
      cases hnext
      exact hcoherent.setSocket hliving true
  | remove s =>
      obtain ⟨hliving, hnext⟩ := Option.ite_none_right_eq_some.mp hact
      cases hnext
      exact hcoherent.setSocket hliving false
  | setInterruptHandler handler =>
      obtain ⟨-, hnext⟩ := Option.ite_none_right_eq_some.mp hact
      cases hnext
      unfold setInterruptHandler
      cases loop.interruptHandler with
      | none =>
          exact ⟨hcoherent.linked, hcoherent.timers, hcoherent.sockets, hcoherent.collected,
            hcoherent.resting⟩
      | some old =>
          obtain ⟨hlinked, htimers, hsockets, hcollected, hresting⟩ :=
            hcoherent.destroy old.address
          exact ⟨hlinked, htimers, hsockets, hcollected, hresting⟩

theorem mem_notices {notice : Notice} {ev : EpollEvent} (hmem : notice ∈ loop.notices ev) :
    notice.handler = loop.ptr ev.socket ∧ notice.event ≠ SEL_TIMEOUT := by
  unfold notices at hmem
  rcases List.mem_append.mp hmem with hread | hwrite
  · split at hread
    · rw [List.mem_singleton] at hread
      rw [hread]
      exact ⟨rfl, by simp [SEL_READ, SEL_TIMEOUT]⟩
    · cases hread
  · split at hwrite
    · rw [List.mem_singleton] at hwrite
      rw [hwrite]
      exact ⟨rfl, by simp [SEL_WRITE, SEL_TIMEOUT]⟩
    · cases hwrite

theorem notifyEvent_coherent (hcoherent : loop.Coherent) (s : Nat) :
    (loop.notifyEvent s).Coherent := by
  rw [notifyEvent_eq]
  exact ⟨hcoherent.linked, hcoherent.timers, hcoherent.sockets, hcoherent.collected,
    hcoherent.resting⟩

theorem wait_coherent (hcoherent : loop.Coherent) {ready : List EpollEvent}
    (hready : ∀ ev ∈ ready, loop.sockets ev.socket = true) :
    { loop with place := .sockets, collected := ready.flatMap loop.notices }.Coherent := by
  refine ⟨hcoherent.linked, hcoherent.timers, hcoherent.sockets, ?_, ?_⟩
  · intro notice hmem
    obtain ⟨ev, hev, hnotice⟩ := List.mem_flatMap.mp hmem
    rw [(mem_notices hnotice).1]
    exact Or.inl ⟨hcoherent.sockets _ (hready ev hev), rfl⟩
  · rintro (hwait | hclear)
    · cases hwait
    · cases hclear

/-- A timeout that is over is of a handler that lives. -/
theorem checkTimoutRun_coherent (hcoherent : loop.Coherent) (hempty : loop.collected = []) :
    { loop.checkTimoutRun with place := .timeouts }.Coherent := by
  have hplace : Place.timeouts = .wait ∨ Place.timeouts = .clear → False := by
    rintro (hwait | hclear)
    · cases hwait
    · cases hclear
  unfold checkTimoutRun
  dsimp only
  split
  · obtain ⟨hlinked, -, hiters⟩ := Countdown.clickElapse_spec hcoherent.linked loop.elapsed
    refine ⟨hlinked, ?_, hcoherent.sockets, ?_, fun hrest => (hplace hrest).elim⟩
    · intro s i hiter
      exact hcoherent.timers s i (hiters s i hiter)
    · intro notice hmem
      obtain ⟨s, hs, rfl⟩ := List.mem_map.mp hmem
      obtain ⟨⟨i, hiter⟩, -⟩ :=
        (Countdown.clickElapse_delivers hcoherent.linked loop.elapsed).2 s hs
      exact Or.inl ⟨hcoherent.timers s i hiter, rfl⟩
  · refine ⟨hcoherent.linked, hcoherent.timers, hcoherent.sockets, ?_,
      fun hrest => (hplace hrest).elim⟩
    intro notice hmem
    change notice ∈ loop.collected at hmem
    rw [hempty] at hmem
    cases hmem

/-- What comes first in what was collected is notified. -/
theorem step_notify (hstep : loop.step .notify = some next) :
    ∃ notice rest, loop.currentHandler = none ∧ loop.collected = notice :: rest ∧
      next = { loop with collected := rest }.notifyEvent notice.handler.address := by
  obtain ⟨hidle, hnext⟩ := Option.ite_none_right_eq_some.mp hstep
  split at hnext
  next notice rest hcollected =>
    cases hnext
    exact ⟨notice, rest, hidle, hcollected, rfl⟩
  · cases hnext

theorem interrupt_coherent (hcoherent : loop.Coherent) :
    loop.interrupt.Coherent ∧ loop.interrupt.collected = loop.collected := by
  unfold interrupt
  split
  · refine ⟨notifyEvent_coherent hcoherent _, ?_⟩
    rw [notifyEvent_eq]
  · exact ⟨hcoherent, rfl⟩

theorem step_coherent (hcoherent : loop.Coherent) (hstep : loop.step event = some next) :
    next.Coherent := by
  cases event with
  | tick =>
      cases hstep
      exact ⟨hcoherent.linked, hcoherent.timers, hcoherent.sockets, hcoherent.collected,
        hcoherent.resting⟩
  | act action =>
      obtain ⟨-, hact⟩ := Option.ite_none_right_eq_some.mp hstep
      exact act_coherent hcoherent hact
  | wait ready =>
      obtain ⟨hready, hnext⟩ := Option.ite_none_right_eq_some.mp hstep
      cases hnext
      exact wait_coherent hcoherent hready.2
  | notify =>
      obtain ⟨notice, rest, -, hcollected, rfl⟩ := step_notify hstep
      have hpopped : { loop with collected := rest }.Coherent := by
        refine ⟨hcoherent.linked, hcoherent.timers, hcoherent.sockets, ?_, ?_⟩
        · intro other hmem
          exact hcoherent.collected other (hcollected ▸ List.mem_cons_of_mem notice hmem)
        · intro hrest
          have hempty := hcoherent.resting hrest
          rw [hcollected] at hempty
          cases hempty
      exact notifyEvent_coherent hpopped _
  | done =>
      obtain ⟨-, hnext⟩ := Option.ite_none_left_eq_some.mp hstep
      cases hnext
      exact ⟨hcoherent.linked, hcoherent.timers, hcoherent.sockets, hcoherent.collected,
        hcoherent.resting⟩
  | checkTimoutRun =>
      obtain ⟨hpast, hnext⟩ := Option.ite_none_right_eq_some.mp hstep
      cases hnext
      exact checkTimoutRun_coherent hcoherent hpast.2.1
  | interrupt =>
      obtain ⟨hpast, hnext⟩ := Option.ite_none_right_eq_some.mp hstep
      cases hnext
      obtain ⟨⟨hlinked, htimers, hsockets, hcollected, -⟩, hsame⟩ := interrupt_coherent hcoherent
      exact ⟨hlinked, htimers, hsockets, hcollected, fun _ => hsame.trans hpast.2.1⟩
  | clearRemoved =>
      obtain ⟨hpast, hnext⟩ := Option.ite_none_right_eq_some.mp hstep
      cases hnext
      -- nothing waits any more, so the addresses can be forgotten
      refine ⟨hcoherent.linked, hcoherent.timers, hcoherent.sockets, ?_, fun _ => hpast.2.1⟩
      intro notice hmem
      change notice ∈ loop.collected at hmem
      rw [hpast.2.1] at hmem
      cases hmem

/-! ## Addresses that are used again -/

/-- The addresses of the handlers created where one was destroyed earlier in the round. -/
def reused (past : List Nat) (loop : EventLoop) : Event → List Nat
  | .act (.create s) => if loop.isRemoved s then s :: past else past
  | .clearRemoved => []
  | _ => past

/-- The handler whose turn it is was not created in the round, at the address of one destroyed
in it, unless it is gone too; and if it is the interrupt handler it is not one that is gone
since an earlier round. -/
def InPlace (state : EventLoop × List Nat) (event : Event) : Prop :=
  ∀ handler, state.1.turn event = some handler →
    (state.1.Lives handler → handler.address ∉ state.2) ∧
      (event = .interrupt → state.1.Lives handler ∨ handler.address ∈ state.1.removed)

/-- An address is recorded while a handler lives there just when it is used again. -/
def Reuse (loop : EventLoop) (past : List Nat) : Prop :=
  ∀ s, (s ∈ past → s ∈ loop.removed) ∧ (loop.living s = true → s ∈ loop.removed → s ∈ past)

theorem destroy_reuse {past : List Nat} (hreuse : loop.Reuse past) (s : Nat) :
    (loop.destroy s).Reuse past := by
  intro t
  change (t ∈ past → t ∈ loop.removed ++ [s]) ∧
    (Function.update loop.living s false t = true → t ∈ loop.removed ++ [s] → t ∈ past)
  rw [List.mem_append, List.mem_singleton]
  refine ⟨fun hpast => Or.inl ((hreuse t).1 hpast), ?_⟩
  rintro hliving (hremoved | rfl)
  · by_cases ht : t = s
    · rw [ht, Function.update_self] at hliving
      cases hliving
    · rw [Function.update_of_ne ht] at hliving
      exact (hreuse t).2 hliving hremoved
  · rw [Function.update_self] at hliving
    cases hliving

theorem create_reuse {past : List Nat} (hreuse : loop.Reuse past) (s : Nat) :
    (loop.create s).Reuse (loop.reused past (.act (.create s))) := by
  intro t
  change (t ∈ (if loop.isRemoved s then s :: past else past) → t ∈ loop.removed) ∧
    (Function.update loop.living s true t = true → t ∈ loop.removed →
      t ∈ (if loop.isRemoved s then s :: past else past))
  split
  next hs =>
    refine ⟨?_, ?_⟩
    · intro hpast
      rcases List.mem_cons.mp hpast with rfl | hpast
      · exact mem_removed_iff.mp hs
      · exact (hreuse t).1 hpast
    · intro hliving hremoved
      by_cases ht : t = s
      · rw [ht]
        exact List.mem_cons_self
      · rw [Function.update_of_ne ht] at hliving
        exact List.mem_cons_of_mem s ((hreuse t).2 hliving hremoved)
  next hs =>
    refine ⟨(hreuse t).1, ?_⟩
    intro hliving hremoved
    have ht : t ≠ s := by
      rintro rfl
      exact hs (mem_removed_iff.mpr hremoved)
    rw [Function.update_of_ne ht] at hliving
    exact (hreuse t).2 hliving hremoved

theorem act_reuse {past : List Nat} (hreuse : loop.Reuse past) {action : Action}
    (hact : loop.act action = some next) : next.Reuse (loop.reused past (.act action)) := by
  cases action with
  | create s =>
      obtain ⟨-, hnext⟩ := Option.ite_none_left_eq_some.mp hact
      cases hnext
      exact create_reuse hreuse s
  | destroy s =>
      obtain ⟨-, hnext⟩ := Option.ite_none_right_eq_some.mp hact
      cases hnext
      exact destroy_reuse hreuse s
  | setInterruptHandler handler =>
      obtain ⟨-, hnext⟩ := Option.ite_none_right_eq_some.mp hact
      cases hnext
      unfold setInterruptHandler
      cases loop.interruptHandler with
      | none => exact hreuse
      | some old => exact destroy_reuse hreuse old.address
  | _ =>
      obtain ⟨-, hnext⟩ := Option.ite_none_right_eq_some.mp hact
      cases hnext
      exact hreuse

/-- Only calls of the program, and the end of the round, change who lives or what is recorded. -/
theorem step_frame (hact : ∀ action, event ≠ .act action) (hclear : event ≠ .clearRemoved)
    (hstep : loop.step event = some next) :
    next.removed = loop.removed ∧ next.living = loop.living := by
  cases event with
  | tick =>
      cases hstep
      exact ⟨rfl, rfl⟩
  | act action => exact absurd rfl (hact action)
  | wait ready =>
      obtain ⟨-, hnext⟩ := Option.ite_none_right_eq_some.mp hstep
      cases hnext
      exact ⟨rfl, rfl⟩
  | notify =>
      obtain ⟨notice, rest, -, -, rfl⟩ := step_notify hstep
      rw [notifyEvent_eq]
      exact ⟨rfl, rfl⟩
  | done =>
      obtain ⟨-, hnext⟩ := Option.ite_none_left_eq_some.mp hstep
      cases hnext
      exact ⟨rfl, rfl⟩
  | checkTimoutRun =>
      obtain ⟨-, hnext⟩ := Option.ite_none_right_eq_some.mp hstep
      cases hnext
      unfold checkTimoutRun
      dsimp only
      split <;> exact ⟨rfl, rfl⟩
  | interrupt =>
      obtain ⟨-, hnext⟩ := Option.ite_none_right_eq_some.mp hstep
      cases hnext
      unfold interrupt
      split
      · rw [notifyEvent_eq]
        exact ⟨rfl, rfl⟩
      · exact ⟨rfl, rfl⟩
  | clearRemoved => exact absurd rfl hclear

theorem step_reuse {past : List Nat} (hreuse : loop.Reuse past)
    (hstep : loop.step event = some next) : next.Reuse (loop.reused past event) := by
  have hframe : (∀ action, event ≠ .act action) → event ≠ .clearRemoved →
      next.Reuse past := by
    intro hact hclear s
    obtain ⟨hremoved, hliving⟩ := step_frame hact hclear hstep
    rw [hremoved, hliving]
    exact hreuse s
  cases event with
  | act action =>
      obtain ⟨-, hact⟩ := Option.ite_none_right_eq_some.mp hstep
      exact act_reuse hreuse hact
  | clearRemoved =>
      obtain ⟨-, hnext⟩ := Option.ite_none_right_eq_some.mp hstep
      cases hnext
      intro s
      exact ⟨fun hpast => (List.not_mem_nil hpast).elim,
        fun _ hremoved => (List.not_mem_nil hremoved).elim⟩
  | _ => exact hframe (fun _ hact => by cases hact) (fun hclear => by cases hclear)

/-- In a state of a run an event reaches the living just when its handler is in place. -/
theorem reachesLiving_iff_inPlace (hcoherent : loop.Coherent) {past : List Nat}
    (hreuse : loop.Reuse past) (event : Event) :
    loop.ReachesLiving event ↔ InPlace (loop, past) event := by
  cases hturn : loop.turn event with
  | none =>
      refine ⟨fun _ handler hsome => ?_, fun _ handler next hsome => ?_⟩
      · rw [hturn] at hsome
        cases hsome
      · rw [hturn] at hsome
        cases hsome
  | some handler =>
      have hone : InPlace (loop, past) event ↔
          (loop.Lives handler → handler.address ∉ past) ∧
            (event = .interrupt → loop.Lives handler ∨ handler.address ∈ loop.removed) := by
        unfold InPlace
        rw [hturn]
        simp only [Option.some.injEq, forall_eq']
      obtain ⟨hpast, hliving⟩ := hreuse handler.address
      rw [reachesLiving_iff hturn, hone]
      constructor
      · intro hiff
        refine ⟨fun hlives hmem => hiff.mpr hlives (hpast hmem), fun _ => ?_⟩
        by_cases hremoved : handler.address ∈ loop.removed
        · exact Or.inr hremoved
        · exact Or.inl (hiff.mp hremoved)
      · rintro ⟨hplace, hinterrupt⟩
        refine ⟨fun hkept => ?_, fun hlives hremoved => hplace hlives (hliving hlives.1 hremoved)⟩
        cases event with
        | notify =>
            simp only [turn] at hturn
            split at hturn
            · obtain ⟨notice, hhead, rfl⟩ := Option.map_eq_some_iff.mp hturn
              exact (hcoherent.collected notice (List.mem_of_head? hhead)).resolve_right hkept
            · cases hturn
        | interrupt => exact (hinterrupt rfl).resolve_right hkept
        | _ => cases hturn

/-- Along every run events reach the living and only them, just when no handler is passed over
that was created in the round at the address of one destroyed in it, and the interrupt
handler is not one that is gone since an earlier round. -/
theorem reachesLiving_iff_inPlace_along (events : List Event) :
    Along step ReachesLiving new events ↔
      Along (recorded reused step) InPlace (new, []) events := by
  have hkept : ∀ (state : EventLoop × List Nat) (event : Event) (next : EventLoop × List Nat),
      state.1.Coherent ∧ state.1.Reuse state.2 → True →
        recorded reused step state event = some next →
          next.1.Coherent ∧ next.1.Reuse next.2 := by
    rintro ⟨loop, past⟩ event next ⟨hcoherent, hreuse⟩ - hnext
    obtain ⟨after, hstep, rfl⟩ := Option.map_eq_some_iff.mp hnext
    exact ⟨step_coherent hcoherent hstep, step_reuse hreuse hstep⟩
  have hnew : new.Coherent ∧ new.Reuse [] :=
    ⟨new_coherent, fun _ => ⟨fun hpast => (List.not_mem_nil hpast).elim,
      fun _ hremoved => (List.not_mem_nil hremoved).elim⟩⟩
  apply (along_recorded reused []).symm.trans
  exact along_congr hkept
    (fun state event hinv _ => reachesLiving_iff_inPlace hinv.1 hinv.2 event) hnew
    (along_trivial _ events)

instance (loop : EventLoop) (event : Event) : Decidable (loop.ReachesLiving event) :=
  match hturn : loop.turn event with
  | none => isTrue fun handler next hsome => by
      rw [hturn] at hsome
      cases hsome
  | some handler =>
      decidable_of_iff (handler.address ∉ loop.removed ↔ loop.Lives handler)
        (reachesLiving_iff hturn).symm

/-- A connection that is readable destroys itself, and a handler created at its address waits
for the next click. The click collects its timeout, and `m_removed` still has the address. -/
theorem reused_unreached :
    ¬ Along step ReachesLiving new
      [.act (.create 1), .act (.select 1), .wait [⟨1, EPOLLIN⟩], .notify, .act (.destroy 1),
        .act (.create 1), .act (.selectTimeout 1 0), .done, .tick, .checkTimoutRun, .notify] := by
  decide +kernel

end EventLoop

end ServiceFrame
