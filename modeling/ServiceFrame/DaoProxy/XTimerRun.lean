import ServiceFrame.DaoProxy.Agenda
import ServiceFrame.DaoProxy.Wheel

/-! # Timers fire at their ticks

Each event of a timer container is a step of its agenda, and keeps the wheel. So a
timer fires at the ticks it was set for, in every run, whatever callbacks do.
-/

namespace ServiceFrame

open Foundation

namespace TimerContainer

/-! ## The agenda of a container -/

/-- The timer that an id stands for. -/
def armedBy (ids : IdMap) (holder : Nat → Option Nat) (timers : Nat → Timer) (id : Nat) :
    Option Timer :=
  if holder (ids.divide id) = some id then some (timers (ids.divide id)) else none

section ArmedBy

variable {ids : IdMap} {holder : Nat → Option Nat} {timers : Nat → Timer} {id : Nat}

theorem armedBy_eq_some {timer : Timer} :
    armedBy ids holder timers id = some timer ↔
      holder (ids.divide id) = some id ∧ timers (ids.divide id) = timer := by
  unfold armedBy
  split
  next hsome => simp [hsome]
  next hnone => simp [hnone]

theorem armedBy_set (hfree : ∀ other, holder (ids.divide id) = some other → other = id)
    (timers : Nat → Timer) (timer : Timer) :
    armedBy ids (Function.update holder (ids.divide id) (some id))
        (Function.update timers (ids.divide id) timer) =
      Function.update (armedBy ids holder timers) id (some timer) := by
  funext other
  by_cases hother : other = id
  · subst hother
    simp [armedBy]
  · rw [Function.update_of_ne hother]
    by_cases hoffset : ids.divide other = ids.divide id
    · have hleft : ¬ some id = some other := by simp [Ne.symm hother]
      have hright : ¬ holder (ids.divide id) = some other := fun hheld => hother (hfree other hheld)
      rw [armedBy, armedBy, hoffset, Function.update_self, if_neg hleft, if_neg hright]
    · rw [armedBy, armedBy, Function.update_of_ne hoffset, Function.update_of_ne hoffset]

theorem armedBy_drop (hheld : holder (ids.divide id) = some id) (timers : Nat → Timer) :
    armedBy ids (Function.update holder (ids.divide id) none) timers =
      Function.update (armedBy ids holder timers) id none := by
  funext other
  by_cases hother : other = id
  · subst hother
    simp [armedBy]
  · rw [Function.update_of_ne hother]
    by_cases hoffset : ids.divide other = ids.divide id
    · have hright : ¬ some id = some other := by simp [Ne.symm hother]
      rw [armedBy, armedBy, hoffset, Function.update_self, hheld, if_neg hright]
      simp
    · rw [armedBy, armedBy, Function.update_of_ne hoffset]

end ArmedBy

variable {ids : IdMap}

def agenda (c : TimerContainer ids) : Agenda where
  armed := armedBy ids (ids.holder c.datas) c.timers
  tick := c.timerJiffies
  firings := c.firings
  serials := c.serials

theorem scheduleI_agenda (c : TimerContainer ids) (nodeId : Nat) :
    (c.scheduleI nodeId).agenda = c.agenda := rfl

/-- The level up to which the lists of the tick are cascaded. -/
def cascaded : Expiring → Nat
  | .idle => 0
  | .tick _ => 0
  | .slot _ => 4
  | .callback _ => 4

/-- What holds between the events. -/
structure Inv (c : TimerContainer ids) : Prop where
  wheel : ∃ slots, c.Wheel slots [] (doneTo (cascaded c.expiring) c.timerJiffies)
  distinct : c.agenda.Distinct

variable {c next : TimerContainer ids} {slots : Nat → List Nat} {work : List Nat}
  {bound : Nat → Nat}

/-- The wheel is of the storage, the links and the count alone. -/
theorem Wheel.unread (hwheel : c.Wheel slots work bound) (expiring : Expiring) (serials : Nat)
    (firings : List Firing) :
    Wheel { c with expiring := expiring, serials := serials, firings := firings }
      slots work bound :=
  { rings := hwheel.rings
    working := hwheel.working
    work_nodup := hwheel.work_nodup
    held := hwheel.held
    placed := hwheel.placed
    expires_lt := hwheel.expires_lt
    count := hwheel.count
    jiffies_lt := hwheel.jiffies_lt }

theorem init_inv (ids : IdMap) (capacity : Nat) (timers : Nat → Timer) (links : Links Nat) :
    (init ids capacity timers links).Inv := by
  have hnone : ∀ offset, (init ids capacity timers links).holder offset = none := ids.holder_init
  have hheads : ∀ head, IsHead head → head ∈ List.range headSize := by
    intro head hhead
    rw [List.mem_range]
    exact hhead
  have hrings := Links.rings_resetAll hheads links
  refine ⟨⟨fun _ => [], ?_, ?_, List.nodup_nil, ?_, ?_, ?_, ?_, ?_⟩, ?_, ?_, ?_⟩
  · dsimp only [init]
    exact hrings
  · simp
  · intro offset
    simp [hnone offset]
  · simp
  · intro offset hheld
    rw [hnone offset] at hheld
    cases hheld
  · simp [init]
  · simp [init]
  · intro id timer harmed
    have hheld := (armedBy_eq_some.mp harmed).1
    rw [show ids.holder (init ids capacity timers links).datas (ids.divide id) = none from
      hnone _] at hheld
    cases hheld
  · simp [agenda, init]
  · intro first second timer timer' hfirst
    have hheld := (armedBy_eq_some.mp hfirst).1
    rw [show ids.holder (init ids capacity timers links).datas (ids.divide first) = none from
      hnone _] at hheld
    cases hheld

/-! ## Calls -/

/-- A call of `schedule` that has an answer sets a timer that was not set. -/
theorem schedule_spec (hwheel : c.Wheel slots [] bound)
    (hbound : ∀ level, level < 4 → bound level ≤ c.timerJiffies + 1)
    {handler param : Nat} {futureTime interval : Int} {answer : Option Nat}
    (hschedule : c.schedule handler param futureTime interval = some (next, answer)) :
    next.expiring = c.expiring ∧ next.timerJiffies = c.timerJiffies ∧
      (∃ after, next.Wheel after [] bound) ∧
      ((answer = none ∧ next.agenda = c.agenda) ∨
        ∃ id, answer = some id ∧ c.agenda.armed id = none ∧
          next.agenda = { c.agenda with
            armed := Function.update c.agenda.armed id
              (some ⟨handler, param, futureTime + c.timerJiffies, interval, c.serials⟩)
            serials := c.serials + 1 }) := by
  unfold schedule at hschedule
  split at hschedule
  next hfull =>
    cases hschedule
    exact ⟨rfl, rfl, ⟨slots, hwheel⟩, Or.inl ⟨rfl, rfl⟩⟩
  next hroom =>
    split at hschedule
    next hnew =>
      cases hschedule
      exact ⟨rfl, rfl, ⟨slots, hwheel⟩, Or.inl ⟨rfl, rfl⟩⟩
    next id datas hnew =>
      split at hschedule
      next htimes =>
        obtain ⟨hfree, hdatas⟩ := ids.newId_some _ _ _ hnew
        obtain ⟨hfuture, -, hexpires⟩ := htimes
        have hentered := hwheel.enter hfree hdatas
          (show (Timer.mk handler param (futureTime + c.timerJiffies) interval c.serials).expires <
            2 ^ 63 from hexpires.2) (c.serials + 1)
        -- the new node is in no list yet: `scheduleI` puts it into one
        obtain ⟨head, -, -, hafter⟩ := hentered.scheduleI
          (by
            dsimp only [getTimer]
            rw [Nat.add_sub_cancel_left, Function.update_self, Int.add_sub_cancel]
            exact hfuture.1) hbound
        have hnone : ∀ other, ids.holder c.datas (ids.divide id) = some other → other = id := by
          intro other hheld
          rw [show ids.holder c.datas (ids.divide id) = none from hfree] at hheld
          cases hheld
        cases hschedule
        refine ⟨rfl, rfl, ⟨_, hafter⟩, Or.inr ⟨id, rfl, ?_, ?_⟩⟩
        · unfold agenda armedBy
          dsimp only
          rw [hfree]
          simp
        · have harmed := armedBy_set hnone c.timers
            (Timer.mk handler param (futureTime + c.timerJiffies) interval c.serials)
          rw [← hdatas] at harmed
          unfold agenda
          dsimp only
          rw [← harmed]
          rfl
      next => cases hschedule

/-- `cancel` answers an id that stands for no timer with -1, and leaves all as it is. -/
theorem cancel_spec (hwheel : c.Wheel slots [] bound) (timerId : Nat) :
    (∃ after, (c.cancel timerId).Wheel after [] bound) ∧
      (c.cancel timerId).agenda =
        { c.agenda with armed := Function.update c.agenda.armed timerId none } := by
  unfold cancel
  split
  next hstale =>
    have hunheld : c.agenda.armed timerId = none := if_neg (ids.deleteId_none _ _ hstale)
    have hsame : Function.update c.agenda.armed timerId none = c.agenda.armed := by
      rw [← hunheld, Function.update_eq_self]
    rw [hsame]
    exact ⟨⟨slots, hwheel⟩, rfl⟩
  next datas hdelete =>
    obtain ⟨hheld, hdatas⟩ := ids.deleteId_some _ _ _ hdelete
    -- the id map holds the id, so its node is linked behind one of the heads
    have hlinked : ∃ head, IsHead head ∧ headSize + ids.divide timerId ∈ slots head := by
      have hin := (hwheel.held (ids.divide timerId)).mp (by rw [holder, hheld]; rfl)
      simpa using hin
    obtain ⟨head, hhead, hin⟩ := hlinked
    obtain ⟨front, back, hsplit⟩ := List.append_of_mem hin
    have hdeleted := (hwheel.unlink hhead hsplit).delete
      (show ids.holder datas = Function.update (ids.holder c.datas)
        (headSize + ids.divide timerId - headSize) none by rw [hdatas, Nat.add_sub_cancel_left])
    refine ⟨⟨_, hdeleted⟩, ?_⟩
    have harmed := armedBy_drop hheld c.timers
    rw [← hdatas] at harmed
    unfold agenda
    dsimp only
    rw [← harmed]

/-- The list of the tick begins with a timer that is due. -/
theorem first_due (hwheel : c.Wheel slots [] (doneTo 4 c.timerJiffies))
    (hnext : c.links.next (c.timerJiffies &&& tvrMask) ≠ c.timerJiffies &&& tvrMask) :
    IsHead (c.timerJiffies &&& tvrMask) ∧ ∃ node rest id,
      slots (c.timerJiffies &&& tvrMask) = node :: rest ∧
      ids.divide id = node - headSize ∧ ids.holder c.datas (ids.divide id) = some id ∧
      (c.getTimer node).expires ≤ c.timerJiffies := by
  have hhead : IsHead (c.timerJiffies &&& tvrMask) := by
    unfold IsHead
    rw [and_tvrMask, show headSize = 512 from rfl]
    omega
  have hring := hwheel.rings.ring _ hhead
  obtain ⟨node, rest, hslot⟩ : ∃ node rest, slots (c.timerJiffies &&& tvrMask) = node :: rest := by
    cases hempty : slots (c.timerJiffies &&& tvrMask) with
    | nil =>
        rw [hempty] at hring
        exact absurd hring.path.1 hnext
    | cons node rest => exact ⟨node, rest, rfl⟩
  have hin : node ∈ slots (c.timerJiffies &&& tvrMask) := by rw [hslot]; exact List.mem_cons_self
  obtain ⟨id, hid⟩ := Option.isSome_iff_exists.mp (hwheel.slot_held hhead hin)
  have hdivide : ids.divide id = node - headSize := ids.holder_divide _ _ _ hid
  refine ⟨hhead, node, rest, id, hslot, hdivide, by rw [hdivide]; exact hid, ?_⟩
  have hplaced := hwheel.placed _ hhead node hin
  rw [and_tvrMask] at hplaced
  exact hplaced.due

/-- What `fire` does with the first timer of the list. -/
theorem fire_eq (hwheel : c.Wheel slots [] (doneTo 4 c.timerJiffies)) {node : Nat} {rest : List Nat}
    (hhead : IsHead (c.timerJiffies &&& tvrMask))
    (hslot : slots (c.timerJiffies &&& tvrMask) = node :: rest) :
    c.fire =
      if 0 < (c.getTimer node).interval then
        if TimeT ((c.getTimer node).interval + c.timerJiffies) then
          some (TimerContainer.scheduleI { c with
            links := c.links.unlink node
            firings := c.firings ++ [Firing.mk (c.getTimer node).serial (c.getTimer node).handler
              (c.getTimer node).param c.timerJiffies]
            timers := Function.update c.timers (node - headSize) { c.getTimer node with
              expires := (c.getTimer node).interval + c.timerJiffies } } node)
        else none
      else
        some { c with
          links := c.links.unlink node
          firings := c.firings ++ [Firing.mk (c.getTimer node).serial (c.getTimer node).handler
            (c.getTimer node).param c.timerJiffies]
          datas := ids.rawDelete c.datas (node - headSize)
          timerCount := c.timerCount - 1 } := by
  have hring := hwheel.rings.ring _ hhead
  rw [hslot] at hring
  obtain ⟨⟨hfirst, hback⟩, -⟩ := hring.path
  have hunlink : (c.links.setPrev (c.links.next node) (c.timerJiffies &&& tvrMask)).setNext
      (c.timerJiffies &&& tvrMask) (c.links.next node) = c.links.unlink node := by
    rw [Links.unlink, hback]
    rfl
  unfold fire
  dsimp only [Links.setPrev_next]
  rw [hfirst, hunlink]

/-- The first timer of the tick's list fires, and it is due. -/
theorem fire_spec (hwheel : c.Wheel slots [] (doneTo 4 c.timerJiffies))
    (hnext : c.links.next (c.timerJiffies &&& tvrMask) ≠ c.timerJiffies &&& tvrMask) :
    ∃ id timer, c.agenda.armed id = some timer ∧ timer.expires ≤ c.timerJiffies ∧
      (c.fire = none → ¬ TimeT (timer.interval + c.timerJiffies)) ∧
      ∀ next, c.fire = some next →
        next.expiring = c.expiring ∧ next.timerJiffies = c.timerJiffies ∧
        (∃ after, next.Wheel after [] (doneTo 4 c.timerJiffies)) ∧
        next.agenda = { c.agenda with
          armed := Function.update c.agenda.armed id
            (if 0 < timer.interval
              then some { timer with expires := timer.interval + c.timerJiffies } else none)
          firings := c.agenda.firings ++
            [Firing.mk timer.serial timer.handler timer.param c.timerJiffies] } := by
  obtain ⟨hhead, node, rest, id, hslot, hdivide, hheld, hdue⟩ := first_due hwheel hnext
  have hfire := fire_eq hwheel hhead hslot
  have hunlinked := (hwheel.unlink hhead (show slots _ = [] ++ node :: rest from hslot)).unread
    c.expiring c.serials (c.firings ++ [Firing.mk (c.getTimer node).serial
      (c.getTimer node).handler (c.getTimer node).param c.timerJiffies])
  refine ⟨id, c.getTimer node, ?_, hdue, ?_, ?_⟩
  · exact armedBy_eq_some.mpr ⟨hheld, by rw [hdivide]; rfl⟩
  · intro hnone htime
    rw [hfire] at hnone
    split_ifs at hnone
  · intro next hsome
    rw [hfire] at hsome
    by_cases hperiodic : 0 < (c.getTimer node).interval
    · -- A periodic timer keeps its id, and goes back into the wheel with a later tick.
      rw [if_pos hperiodic] at hsome
      split_ifs at hsome with htime
      obtain ⟨head, -, -, hafter⟩ := (hunlinked.retime
        (show (Timer.mk (c.getTimer node).handler (c.getTimer node).param
          ((c.getTimer node).interval + c.timerJiffies) (c.getTimer node).interval
            (c.getTimer node).serial).expires < 2 ^ 63 from htime.2)).scheduleI
        (by
          dsimp only [getTimer, withLinks]
          rw [Function.update_self]
          dsimp only
          have hpositive : 0 < (c.timers (node - headSize)).interval := hperiodic
          omega)
        (fun level _ => doneTo_le 4 c.timerJiffies level)
      have hown : ∀ other, ids.holder c.datas (ids.divide id) = some other → other = id := by
        intro other hother
        rw [hheld] at hother
        cases hother
        rfl
      have harmed := armedBy_set hown c.timers { c.getTimer node with
        expires := (c.getTimer node).interval + c.timerJiffies }
      rw [← hheld, Function.update_eq_self, hdivide] at harmed
      cases hsome
      refine ⟨rfl, rfl, ⟨_, hafter⟩, ?_⟩
      rw [if_pos hperiodic, scheduleI_agenda]
      unfold agenda
      dsimp only
      rw [← harmed]
    · -- A timer without an interval gives its id back.
      rw [if_neg hperiodic] at hsome
      cases hsome
      refine ⟨rfl, rfl, ⟨_, hunlinked.delete (ids.rawDelete_holder c.datas (node - headSize))⟩, ?_⟩
      have harmed := armedBy_drop hheld c.timers
      rw [hdivide, ← ids.rawDelete_holder] at harmed
      rw [if_neg hperiodic]
      unfold agenda
      dsimp only
      rw [← harmed]

/-- When the tick's list is empty, nothing is due, and the wheel can turn. -/
theorem turn_spec (hwheel : c.Wheel slots [] (doneTo 4 c.timerJiffies))
    (hempty : c.links.next (c.timerJiffies &&& tvrMask) = c.timerJiffies &&& tvrMask)
    (htime : TimeT (c.timerJiffies + 1)) :
    Wheel { c with timerJiffies := c.timerJiffies + 1 } slots [] (doneTo 0 (c.timerJiffies + 1)) ∧
      ∀ id timer, c.agenda.armed id = some timer → (c.timerJiffies : Int) < timer.expires := by
  have hindex : c.timerJiffies &&& tvrMask = c.timerJiffies % 256 := and_tvrMask c.timerJiffies
  rw [hindex] at hempty
  have hhead : IsHead (c.timerJiffies % 256) := by
    unfold IsHead
    rw [show headSize = 512 from rfl]
    omega
  have hring := hwheel.rings.ring _ hhead
  have hnil : slots (c.timerJiffies % 256) = [] := by
    cases hslot : slots (c.timerJiffies % 256) with
    | nil => rfl
    | cons node rest =>
        rw [hslot] at hring
        have hsame : node = c.timerJiffies % 256 := hring.path.1.1.symm.trans hempty
        exact absurd (hsame ▸ List.mem_cons_self) (List.nodup_cons.mp hring.nodup).1
  -- every other head's timers are for later ticks
  have hwait : ∀ head, IsHead head → ∀ node ∈ slots head,
      (c.timerJiffies : Int) < (c.getTimer node).expires ∧
        Placed (c.timerJiffies + 1) (doneTo 0 (c.timerJiffies + 1))
          (c.getTimer node).expires head := by
    intro head hhead node hnode
    apply (hwheel.placed head hhead node hnode).wait
    rintro rfl
    rw [hnil] at hnode
    cases hnode
  refine ⟨{ rings := hwheel.rings
            working := hwheel.working
            work_nodup := hwheel.work_nodup
            held := hwheel.held
            placed := fun head hhead node hnode => (hwait head hhead node hnode).2
            expires_lt := hwheel.expires_lt
            count := hwheel.count
            jiffies_lt := ?_ }, ?_⟩
  · obtain ⟨-, hless⟩ := htime
    dsimp only
    omega
  · intro id timer harmed
    obtain ⟨hheld, rfl⟩ := armedBy_eq_some.mp harmed
    have hlinked := (hwheel.held (ids.divide id)).mp (by rw [holder, hheld]; rfl)
    rcases hlinked with hwork | ⟨head, hhead, hin⟩
    · cases hwork
    · have hless := (hwait head hhead _ hin).1
      rw [getTimer, Nat.add_sub_cancel_left] at hless
      exact hless

/-- A turn of `expire` keeps the wheel and is a step of the agenda, and there is one
unless a `time_t` overflows. -/
structure Advances (c : TimerContainer ids) : Prop where
  stuck : c.advance = none → c.expiring = .idle ∨ ¬ TimeT (c.timerJiffies + 1) ∨
    ∃ id timer, c.agenda.armed id = some timer ∧ ¬ TimeT (timer.interval + c.timerJiffies)
  step : ∀ next, c.advance = some next →
    (∃ after, next.Wheel after [] (doneTo (cascaded next.expiring) next.timerJiffies)) ∧
      c.agenda.Step .advance next.agenda

theorem advance_quiet (agenda : Agenda) : agenda.Step .advance agenda :=
  .quiet .advance (fun _ hcancel => by cases hcancel)

/-- The lists of the tick are cascaded, or all ticks are done. -/
theorem Wheel.advance_tick {jiffiesInner : Int} (hexpiring : c.expiring = .tick jiffiesInner)
    (hwheel : c.Wheel slots [] (doneTo 0 c.timerJiffies)) : c.Advances := by
  obtain ⟨links, after, hcascade, hafter⟩ := cascadeTimers_spec hwheel
  have hadvance : c.advance = if jiffiesInner ≥ c.timerJiffies then
      some ((c.withLinks links).withExpiring (.slot jiffiesInner))
      else some (c.withExpiring .idle) := by
    simp only [advance, hexpiring, hcascade, Option.map_some]
  refine ⟨?_, ?_⟩
  · intro hnone
    rw [hadvance] at hnone
    split_ifs at hnone
  · intro next hnext
    rw [hadvance] at hnext
    split_ifs at hnext
    · cases hnext
      exact ⟨⟨after, hafter.unread (.slot jiffiesInner) c.serials c.firings⟩, advance_quiet _⟩
    · cases hnext
      exact ⟨⟨slots, hwheel.unread .idle c.serials c.firings⟩, advance_quiet _⟩

/-- While the tick's list has timers, the first of them fires. -/
theorem Wheel.advance_fire {jiffiesInner : Int} (hexpiring : c.expiring = .slot jiffiesInner)
    (hwheel : c.Wheel slots [] (doneTo 4 c.timerJiffies))
    (hnext : c.links.next (c.timerJiffies &&& tvrMask) ≠ c.timerJiffies &&& tvrMask) :
    c.Advances := by
  obtain ⟨id, timer, harmed, hdue, hstuck, hfire⟩ := fire_spec hwheel hnext
  have hadvance : c.advance = c.fire.map fun c => c.withExpiring (.callback jiffiesInner) := by
    simp only [advance, hexpiring, if_pos hnext]
  refine ⟨?_, ?_⟩
  · intro hnone
    rw [hadvance, Option.map_eq_none_iff] at hnone
    exact Or.inr (Or.inr ⟨id, timer, harmed, hstuck hnone⟩)
  · intro next hsome
    rw [hadvance] at hsome
    obtain ⟨fired, hfired, hnext⟩ := Option.map_eq_some_iff.mp hsome
    obtain ⟨-, hjiffies, ⟨after, hafter⟩, hagenda⟩ := hfire fired hfired
    rw [← hjiffies] at hafter
    have hsame : next.agenda = fired.agenda := by rw [← hnext]; rfl
    refine ⟨⟨after, ?_⟩, ?_⟩
    · rw [← hnext]
      exact hafter.unread (.callback jiffiesInner) fired.serials fired.firings
    · rw [hsame, hagenda]
      exact .fire id timer harmed hdue

/-- When the list is empty, the tick is over. -/
theorem Wheel.advance_turn {jiffiesInner : Int} (hexpiring : c.expiring = .slot jiffiesInner)
    (hwheel : c.Wheel slots [] (doneTo 4 c.timerJiffies))
    (hempty : c.links.next (c.timerJiffies &&& tvrMask) = c.timerJiffies &&& tvrMask) :
    c.Advances := by
  have hadvance : c.advance = if TimeT (c.timerJiffies + 1) then
      some { c with timerJiffies := c.timerJiffies + 1, expiring := .tick jiffiesInner }
      else none := by
    simp only [advance, hexpiring, if_neg (not_not.mpr hempty)]
  refine ⟨?_, ?_⟩
  · intro hnone
    rw [hadvance] at hnone
    split_ifs at hnone with htime
    exact Or.inr (Or.inl htime)
  · intro next hsome
    rw [hadvance] at hsome
    split_ifs at hsome with htime
    cases hsome
    obtain ⟨hnextWheel, hlater⟩ := turn_spec hwheel hempty htime
    exact ⟨⟨slots, hnextWheel.unread (.tick jiffiesInner) c.serials c.firings⟩, .tick hlater⟩

/-- The callback has returned. -/
theorem Wheel.advance_callback {jiffiesInner : Int}
    (hexpiring : c.expiring = .callback jiffiesInner)
    (hwheel : c.Wheel slots [] (doneTo 4 c.timerJiffies)) : c.Advances := by
  have hadvance : c.advance = some (c.withExpiring (.slot jiffiesInner)) := by
    simp only [advance, hexpiring]
  refine ⟨?_, ?_⟩
  · intro hnone
    rw [hadvance] at hnone
    cases hnone
  · intro next hsome
    rw [hadvance] at hsome
    cases hsome
    exact ⟨⟨slots, hwheel.unread (.slot jiffiesInner) c.serials c.firings⟩, advance_quiet _⟩

theorem advance_spec (hinv : c.Inv) : c.Advances := by
  obtain ⟨slots, hwheel⟩ := hinv.wheel
  cases hexpiring : c.expiring with
  | idle => exact ⟨fun _ => Or.inl hexpiring, by simp [advance, hexpiring]⟩
  | tick jiffiesInner =>
      rw [hexpiring] at hwheel
      exact hwheel.advance_tick hexpiring
  | slot jiffiesInner =>
      rw [hexpiring] at hwheel
      by_cases hempty : c.links.next (c.timerJiffies &&& tvrMask) = c.timerJiffies &&& tvrMask
      · exact hwheel.advance_turn hexpiring hempty
      · exact hwheel.advance_fire hexpiring hempty
  | callback jiffiesInner =>
      rw [hexpiring] at hwheel
      exact hwheel.advance_callback hexpiring

/-! ## Runs -/

/-- Each event is a step of the agenda, and the wheel stays what it is. -/
theorem step_spec {event : Event} (hinv : c.Inv) (hstep : c.step event = some next) :
    next.Inv ∧ c.agenda.Step event next.agenda := by
  obtain ⟨slots, hwheel⟩ := hinv.wheel
  suffices hspec : (∃ after, next.Wheel after []
      (doneTo (cascaded next.expiring) next.timerJiffies)) ∧ c.agenda.Step event next.agenda by
    exact ⟨⟨hspec.1, hinv.distinct.step hspec.2⟩, hspec.2⟩
  cases event with
  | schedule handler param futureTime interval =>
      simp only [step] at hstep
      split_ifs at hstep
      obtain ⟨⟨called, answer⟩, hschedule, hnext⟩ := Option.map_eq_some_iff.mp hstep
      have hsame : called = next := hnext
      subst hsame
      obtain ⟨hexpiring, hjiffies, hwheel, hagenda⟩ := schedule_spec hwheel
        (fun level _ => doneTo_le _ c.timerJiffies level) hschedule
      rw [hexpiring, hjiffies]
      refine ⟨hwheel, ?_⟩
      rcases hagenda with ⟨-, hsame⟩ | ⟨id, -, hfree, hset⟩
      · rw [hsame]
        exact .quiet _ (fun id => by simp)
      · rw [hset]
        exact .schedule id handler param futureTime interval hfree
  | cancel timerId =>
      simp only [step] at hstep
      split_ifs at hstep
      cases hstep
      obtain ⟨hwheel, hagenda⟩ := cancel_spec hwheel timerId
      have hsame : (c.cancel timerId).expiring = c.expiring ∧
          (c.cancel timerId).timerJiffies = c.timerJiffies := by
        unfold cancel
        split <;> exact ⟨rfl, rfl⟩
      rw [hsame.1, hsame.2, hagenda]
      exact ⟨hwheel, .cancel timerId⟩
  | expire jiffiesInner =>
      simp only [step] at hstep
      split_ifs at hstep with hidle
      cases hstep
      rw [hidle] at hwheel
      exact ⟨⟨slots, hwheel.unread (.tick jiffiesInner) c.serials c.firings⟩,
        .quiet _ (fun id => by simp)⟩
  | advance => exact (advance_spec hinv).step next hstep

theorem run_inv (hinv : c.Inv) {events : List Event} (hrun : run step c events = some next) :
    next.Inv :=
  run_invariant (fun _ _ _ hstate hstep => (step_spec hstate hstep).1) hinv hrun

/-- Until it is cancelled, a timer stays on time. -/
theorem run_onTime {id count : Nat} {timer : Timer} (hinv : c.Inv)
    (htime : c.agenda.OnTime id timer count) {events : List Event}
    (hkept : .cancel id ∉ events) (hrun : run step c events = some next) :
    ∃ count, next.agenda.OnTime id timer count := by
  induction events generalizing c count with
  | nil =>
      cases hrun
      exact ⟨count, htime⟩
  | cons event rest ih =>
      obtain ⟨middle, hmiddle, hrest⟩ := Option.bind_eq_some_iff.mp hrun
      obtain ⟨hmiddleInv, hstep⟩ := step_spec hinv hmiddle
      have hevent : event ≠ .cancel id := by
        rintro rfl
        exact hkept List.mem_cons_self
      obtain ⟨count, hmiddleTime⟩ := htime.step hinv.distinct hstep hevent
      exact ih hmiddleInv hmiddleTime (fun hmem => hkept (List.mem_cons_of_mem event hmem)) hrest

/-- A timer that is scheduled is on time, and has not fired. -/
theorem schedule_onTime (hinv : c.Inv) (haccepting : c.accepting = true) {handler param id : Nat}
    {futureTime interval : Int} (hnonneg : 0 ≤ futureTime)
    (hschedule : c.schedule handler param futureTime interval = some (next, some id)) :
    next.Inv ∧ next.agenda.OnTime id
      ⟨handler, param, futureTime + c.timerJiffies, interval, c.serials⟩ 0 := by
  have hstep : c.step (.schedule handler param futureTime interval) = some next := by
    rw [step, if_pos haccepting, hschedule]
    rfl
  refine ⟨(step_spec hinv hstep).1, ?_⟩
  obtain ⟨slots, hwheel⟩ := hinv.wheel
  obtain ⟨-, -, -, hset⟩ := schedule_spec hwheel
    (fun level _ => doneTo_le _ c.timerJiffies level) hschedule
  rcases hset with ⟨hanswer, -⟩ | ⟨other, hanswer, -, hset⟩
  · cases hanswer
  · cases hanswer
    rw [hset]
    exact hinv.distinct.scheduled id handler param interval hnonneg

/-- The calls of a timer's handler. -/
def fired (c : TimerContainer ids) (serial : Nat) : List Firing :=
  c.firings.filter fun firing => firing.serial = serial

/-- What is gone does not fire. -/
theorem run_gone {serial : Nat} (hinv : c.Inv) (hgone : c.agenda.Gone serial)
    {events : List Event} (hrun : run step c events = some next) :
    next.fired serial = c.fired serial := by
  have hkept : ∀ (state : TimerContainer ids) (event : Event) (after : TimerContainer ids),
      state.Inv ∧ state.agenda.Gone serial ∧ state.fired serial = c.fired serial →
      step state event = some after →
      after.Inv ∧ after.agenda.Gone serial ∧ after.fired serial = c.fired serial := by
    rintro state event after ⟨hstate, hstill, hfired⟩ hevent
    obtain ⟨hafter, hstep⟩ := step_spec hstate hevent
    obtain ⟨hnow, hsame⟩ := hstill.step hstep
    exact ⟨hafter, hnow, hsame.trans hfired⟩
  exact (run_invariant hkept ⟨hinv, hgone, rfl⟩ hrun).2.2

/-- In every state that a container comes to: the timers that its id map holds are
those linked behind the heads, and `timerCount` is their number; a call of `expire`
goes on unless a `time_t` overflows; and a timer that is scheduled fires when
`timerJiffies` is `futureTime` further and, if it has an interval, at each interval
after that, and not again once it is cancelled. -/
theorem timers_exact (ids : IdMap) (capacity : Nat) (timers : Nat → Timer) (links : Links Nat)
    (past : List Event) (c : TimerContainer ids)
    (hrun : run step (init ids capacity timers links) past = some c) :
    (∃ slots, c.links.Rings IsHead slots ∧
      (∀ offset, (ids.holder c.datas offset).isSome = true ↔
        ∃ head, IsHead head ∧ headSize + offset ∈ slots head) ∧
      c.timerCount = ∑ head ∈ Finset.range headSize, (slots head).length) ∧
    (c.advance = none → c.expiring = .idle ∨ ¬ TimeT (c.timerJiffies + 1) ∨
      ∃ offset, (ids.holder c.datas offset).isSome = true ∧
        ¬ TimeT ((c.timers offset).interval + c.timerJiffies)) ∧
    ∀ handler param futureTime interval next id, c.accepting = true →
      c.schedule handler param futureTime interval = some (next, some id) → 0 ≤ futureTime →
      (∀ later final, .cancel id ∉ later → run step next later = some final →
        ∃ count : Nat,
          (final.fired c.serials).map (fun firing => (firing.tick : Int)) =
            (List.range count).map (fun k : Nat => futureTime + c.timerJiffies + k * interval) ∧
          (∀ firing ∈ final.fired c.serials, firing.handler = handler ∧ firing.param = param) ∧
          (interval ≤ 0 → count ≤ 1) ∧
          (0 < interval ∨ count = 0 →
            (final.timerJiffies : Int) ≤ futureTime + c.timerJiffies + count * interval)) ∧
      ∀ later middle tail final, .cancel id ∉ later → run step next later = some middle →
        run step middle (.cancel id :: tail) = some final →
        final.fired c.serials = middle.fired c.serials := by
  have hinv : c.Inv := run_inv (init_inv ids capacity timers links) hrun
  refine ⟨?_, ?_, ?_⟩
  · obtain ⟨slots, hwheel⟩ := hinv.wheel
    have hcount := hwheel.count
    rw [List.length_nil, Nat.add_zero] at hcount
    refine ⟨slots, hwheel.rings, ?_, hcount⟩
    intro offset
    apply (hwheel.held offset).trans
    -- no node is in work between the events
    simp
  · intro hnone
    rcases (advance_spec hinv).stuck hnone with hidle | hjiffies | ⟨id, timer, harmed, hinterval⟩
    · exact Or.inl hidle
    · exact Or.inr (Or.inl hjiffies)
    · obtain ⟨hheld, rfl⟩ := armedBy_eq_some.mp harmed
      exact Or.inr (Or.inr ⟨ids.divide id, by rw [hheld]; rfl, hinterval⟩)
  · intro handler param futureTime interval next id haccepting hschedule hnonneg
    obtain ⟨hnext, hstart⟩ := schedule_onTime hinv haccepting hnonneg hschedule
    refine ⟨?_, ?_⟩
    · intro later final hkept hlater
      obtain ⟨count, htime⟩ := run_onTime hnext hstart hkept hlater
      exact ⟨count, htime.ticks, htime.calls, htime.count_le_one, htime.tick_le⟩
    · intro later middle tail final hkept hlater htail
      obtain ⟨count, htime⟩ := run_onTime hnext hstart hkept hlater
      have hmiddle := run_inv hnext hlater
      -- the cancelled timer is gone, and what is gone does not come back
      obtain ⟨cancelled, hcancelled, hrest⟩ := Option.bind_eq_some_iff.mp htail
      obtain ⟨hcancelledInv, hcancel⟩ := step_spec hmiddle hcancelled
      obtain ⟨hgone, hsame⟩ := htime.cancel hmiddle.distinct hcancel
      exact (run_gone hcancelledInv hgone hrest).trans hsame

/-- An id map that gives every id an offset of its own. -/
structure FreshIds where
  held : List Nat
  fresh : Nat
  held_lt : ∀ offset ∈ held, offset < fresh

def FreshIds.drop (datas : FreshIds) (offset : Nat) : FreshIds where
  held := datas.held.filter fun other => other ≠ offset
  fresh := datas.fresh
  held_lt := fun other hother => datas.held_lt other (List.mem_filter.mp hother).1

def FreshIds.holder (datas : FreshIds) (offset : Nat) : Option Nat :=
  if offset ∈ datas.held then some (offset + 1) else none

theorem FreshIds.drop_holder (datas : FreshIds) (offset : Nat) :
    (datas.drop offset).holder = Function.update datas.holder offset none := by
  funext other
  by_cases hother : other = offset
  · subst hother
    simp [holder, drop]
  · simp [holder, drop, hother]

def freshIds : IdMap where
  State := FreshIds
  init := ⟨[], 0, fun _ hoffset => by cases hoffset⟩
  divide id := id - 1
  holder := FreshIds.holder
  newId datas := some (datas.fresh + 1,
    ⟨datas.fresh :: datas.held, datas.fresh + 1, by
      intro offset hoffset
      rcases List.mem_cons.mp hoffset with rfl | hheld
      · exact Nat.lt_succ_self _
      · exact Nat.lt_succ_of_lt (datas.held_lt offset hheld)⟩)
  deleteId datas id := if datas.holder (id - 1) = some id then some (datas.drop (id - 1)) else none
  rawDelete := FreshIds.drop
  holder_init := fun _ => rfl
  holder_divide := by
    intro datas offset id hheld
    unfold FreshIds.holder at hheld
    split_ifs at hheld
    cases hheld
    rfl
  newId_some := by
    intro datas id next hnew
    cases hnew
    have hfresh : datas.fresh ∉ datas.held := fun hheld =>
      Nat.lt_irrefl _ (datas.held_lt _ hheld)
    refine ⟨by simp [FreshIds.holder, hfresh], ?_⟩
    funext other
    by_cases hother : other = datas.fresh
    · subst hother
      simp [FreshIds.holder]
    · simp [FreshIds.holder, hother]
  deleteId_some := by
    intro datas id next hdelete
    split_ifs at hdelete with hheld
    cases hdelete
    exact ⟨hheld, datas.drop_holder (id - 1)⟩
  deleteId_none := by
    intro datas id hdelete
    split_ifs at hdelete with hheld
    exact hheld
  rawDelete_holder := FreshIds.drop_holder

/-- A timer of interval 3 that is set for tick 2, after another was cancelled, has fired
by tick 3, and at its ticks only. -/
theorem timers_exact_periodic :
    ∃ c next final, run step (init freshIds 8 (fun _ => ⟨0, 0, 0, 0, 0⟩) ⟨id, id⟩)
        [.schedule 5 6 1 0, .cancel 1] = some c ∧
      c.schedule 7 9 2 3 = some (next, some 2) ∧
      run step next (.expire 2 :: List.replicate 9 .advance) = some final ∧
      ∃ count : Nat, 0 < count ∧ (final.fired c.serials).map (fun firing => (firing.tick : Int)) =
        (List.range count).map fun k : Nat => 2 + (k : Int) * 3 := by
  have heval : (run step (init freshIds 8 (fun _ => ⟨0, 0, 0, 0, 0⟩) ⟨id, id⟩)
        [.schedule 5 6 1 0, .cancel 1]).bind (fun c => (c.schedule 7 9 2 3).bind fun answer =>
      (run step answer.1 (.expire 2 :: List.replicate 9 .advance)).map fun final =>
        (answer.2, c.accepting, c.timerJiffies, final.timerJiffies)) =
      some (some 2, true, 0, 3) := by decide +kernel
  obtain ⟨c, hpast, heval⟩ := Option.bind_eq_some_iff.mp heval
  obtain ⟨⟨next, answer⟩, hschedule, heval⟩ := Option.bind_eq_some_iff.mp heval
  obtain ⟨final, hlater, heval⟩ := Option.map_eq_some_iff.mp heval
  obtain ⟨rfl, haccepting, hjiffies, hfinal⟩ : answer = some 2 ∧ c.accepting = true ∧
      c.timerJiffies = 0 ∧ final.timerJiffies = 3 := by simpa using heval
  obtain ⟨-, -, hexact⟩ := timers_exact freshIds 8 (fun _ => ⟨0, 0, 0, 0, 0⟩) ⟨id, id⟩ _ c hpast
  obtain ⟨hfires, -⟩ := hexact 7 9 2 3 next 2 haccepting hschedule (by decide)
  obtain ⟨count, hticks, -, -, hpassed⟩ := hfires _ final (by simp) hlater
  have hreached := hpassed (Or.inl (by decide))
  rw [hjiffies] at hticks hreached
  rw [hfinal] at hreached
  exact ⟨c, next, final, hpast, hschedule, hlater, count, by omega, hticks⟩

end TimerContainer

end ServiceFrame
