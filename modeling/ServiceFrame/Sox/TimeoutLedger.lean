import ServiceFrame.Sox.Selector

/-! # On what account a timeout is notified

`select_timeout` sets the timeout of a handler, or takes it back. A click takes what is over
out of the slot lists before it notifies any of it, and from then on `select_timeout` does
not find it.

A ledger counts the calls, and keeps which of them each element was set by and which one a
handler waits on. No step of the loop reads it.
-/

namespace ServiceFrame

open Foundation

namespace EventLoop

/-- The handlers of the elements of `result` that are not notified yet. -/
def awaiting (loop : EventLoop) : List Nat :=
  (loop.collected.filter fun notice => notice.event = SEL_TIMEOUT).map fun notice =>
    notice.handler.address

/-- The handler whose timeout has its turn. -/
def timeoutTurn (loop : EventLoop) : Event → Option Nat
  | .notify =>
      if loop.currentHandler = none then
        match loop.collected with
        | notice :: _ => if notice.event = SEL_TIMEOUT then some notice.handler.address else none
        | [] => none
      else none
  | _ => none

end EventLoop

structure Ledger where
  /-- How many calls of `select_timeout` there were. -/
  calls : Nat
  /-- The call that set the element at an address. -/
  setBy : Nat → Nat
  /-- The call that a handler waits on. -/
  inForce : Nat → Option Nat
  /-- The call that the element of a handler was set by when it was moved to `result`. -/
  account : Nat → Option Nat
  /-- The handlers selected while their elements waited in `result`. -/
  overtaken : List Nat

namespace Ledger

open EventLoop

def new : Ledger where
  calls := 0
  setBy _ := 0
  inForce _ := none
  account _ := none
  overtaken := []

def select (ledger : Ledger) (loop : EventLoop) (s : Nat) (timeout : Int) : Ledger :=
  { ledger with
    calls := ledger.calls + 1
    setBy := fun i =>
      if (loop.countdown.selectTimeout s timeout).iterTimo s = some i then ledger.calls
      else ledger.setBy i
    inForce := Function.update ledger.inForce s (if timeout < 0 then none else some ledger.calls)
    overtaken := if s ∈ loop.awaiting then s :: ledger.overtaken else ledger.overtaken }

def takeBack (ledger : Ledger) (s : Nat) : Ledger :=
  { ledger with inForce := Function.update ledger.inForce s none }

/-- A destructor takes the timeout back, and a notification on the account of the call that
is in force uses it up. -/
def enter (ledger : Ledger) (loop : EventLoop) : Event → Ledger
  | .act (.selectTimeout s timeout) => ledger.select loop s timeout
  | .act (.destroy s) => ledger.takeBack s
  | .act (.setInterruptHandler _) =>
      match loop.interruptHandler with
      | some old => ledger.takeBack old.address
      | none => ledger
  | .notify =>
      match loop.timeoutTurn .notify with
      | some s =>
          if s ∉ loop.removed ∧ ledger.inForce s = ledger.account s then ledger.takeBack s
          else ledger
      | none => ledger
  | .checkTimoutRun =>
      { ledger with
        account := fun s => (loop.countdown.iterTimo s).map ledger.setBy
        overtaken := [] }
  | _ => ledger

/-- A handler is notified of a timeout on the account of the call that it waits on. -/
def OnAccount (state : EventLoop × Ledger) (event : Event) : Prop :=
  ∀ s next, state.1.timeoutTurn event = some s → state.1.step event = some next →
    next.currentHandler = some s →
      ∃ call ∈ state.2.account s, state.2.inForce s = some call

/-- The timeout that has its turn was not cancelled or set anew since the click, unless its
handler was destroyed. -/
def NotOvertaken (state : EventLoop × Ledger) (event : Event) : Prop :=
  ∀ s, state.1.timeoutTurn event = some s → s ∉ state.2.overtaken ∨ s ∈ state.1.removed

/-- An element in `result` stands for the call in force until its handler is selected; then it
does not. -/
def Awaits (ledger : Ledger) (loop : EventLoop) (s : Nat) : Prop :=
  ∃ call, ledger.account s = some call ∧ call < ledger.calls ∧
    (s ∉ loop.removed →
      (s ∉ ledger.overtaken → ledger.inForce s = some call ∧ loop.countdown.iterTimo s = none) ∧
        (s ∈ ledger.overtaken → ledger.inForce s ≠ some call))

/-- What is registered was set by the call in force. -/
structure Keeps (ledger : Ledger) (loop : EventLoop) : Prop where
  registered : ∀ s i, loop.countdown.iterTimo s = some i →
    ledger.inForce s = some (ledger.setBy i)
  counted : ∀ s call, ledger.inForce s = some call → call < ledger.calls
  awaits : ∀ s ∈ loop.awaiting, ledger.Awaits loop s
  once : loop.awaiting.Nodup

variable {ledger : Ledger} {loop next : EventLoop} {event : Event}

@[simp] theorem takeBack_inForce (ledger : Ledger) (s : Nat) :
    (ledger.takeBack s).inForce = Function.update ledger.inForce s none := rfl

@[simp] theorem select_inForce (ledger : Ledger) (loop : EventLoop) (s : Nat) (timeout : Int) :
    (ledger.select loop s timeout).inForce =
      Function.update ledger.inForce s (if timeout < 0 then none else some ledger.calls) := rfl

theorem select_overtaken (ledger : Ledger) (loop : EventLoop) (s t : Nat) (timeout : Int) :
    t ∈ (ledger.select loop s timeout).overtaken ↔
      (t = s ∧ s ∈ loop.awaiting) ∨ t ∈ ledger.overtaken := by
  unfold select
  dsimp only
  split
  next hs => simp [hs]
  next hs => simp [hs]

theorem new_keeps : Ledger.new.Keeps EventLoop.new where
  registered := fun _ _ hiter => by cases hiter
  counted := fun _ _ hcall => by cases hcall
  awaits := fun _ hmem => by cases hmem
  once := List.nodup_nil

/-- A step that leaves the timeouts registered, and sets none off. -/
theorem Keeps.frame (hkeeps : ledger.Keeps loop)
    (hiter : next.countdown.iterTimo = loop.countdown.iterTimo)
    (hremoved : ∀ s ∈ next.awaiting, s ∈ loop.removed → s ∈ next.removed)
    (hawaiting : next.awaiting.Sublist loop.awaiting) : ledger.Keeps next := by
  refine ⟨?_, hkeeps.counted, ?_, hkeeps.once.sublist hawaiting⟩
  · rw [hiter]
    exact hkeeps.registered
  · intro s hs
    obtain ⟨call, haccount, hcall, hforce⟩ := hkeeps.awaits s (hawaiting.subset hs)
    refine ⟨call, haccount, hcall, fun hkept => ?_⟩
    rw [hiter]
    exact hforce fun hold => hkept (hremoved s hs hold)

theorem Keeps.unchanged (hkeeps : ledger.Keeps loop)
    (hiter : next.countdown.iterTimo = loop.countdown.iterTimo)
    (hremoved : next.removed = loop.removed) (hcollected : next.collected = loop.collected) :
    ledger.Keeps next := by
  apply hkeeps.frame hiter (fun s _ hold => hremoved ▸ hold)
  unfold awaiting
  rw [hcollected]

/-- The call that a handler waits on is taken back. No element of its is registered then, and
the one in `result` has its turn or is passed over. -/
theorem Keeps.takeBack (hkeeps : ledger.Keeps loop) {s : Nat}
    (hnone : next.countdown.iterTimo s = none)
    (hother : ∀ t, t ≠ s → next.countdown.iterTimo t = loop.countdown.iterTimo t)
    (hremoved : ∀ t ∈ loop.removed, t ∈ next.removed)
    (hawaiting : next.awaiting.Sublist loop.awaiting)
    (hself : s ∈ next.awaiting → s ∈ next.removed) : (ledger.takeBack s).Keeps next := by
  have hforce : ∀ t, t ≠ s → (ledger.takeBack s).inForce t = ledger.inForce t := by
    intro t ht
    rw [takeBack_inForce, Function.update_of_ne ht]
  refine ⟨?_, ?_, ?_, hkeeps.once.sublist hawaiting⟩
  · intro t i hiter
    by_cases ht : t = s
    · rw [ht, hnone] at hiter
      cases hiter
    · rw [hother t ht] at hiter
      rw [hforce t ht]
      exact hkeeps.registered t i hiter
  · intro t call hcall
    by_cases ht : t = s
    · rw [ht, takeBack_inForce, Function.update_self] at hcall
      cases hcall
    · rw [hforce t ht] at hcall
      exact hkeeps.counted t call hcall
  · intro t hmem
    obtain ⟨call, haccount, hcall, hinForce⟩ := hkeeps.awaits t (hawaiting.subset hmem)
    refine ⟨call, haccount, hcall, fun hkept => ?_⟩
    have ht : t ≠ s := by
      rintro rfl
      exact hkept (hself hmem)
    rw [hforce t ht, hother t ht]
    exact hinForce fun hold => hkept (hremoved t hold)

/-- A call of `select_timeout` sets the element of its handler and no other. -/
theorem Keeps.select (hkeeps : ledger.Keeps loop) (hlinked : loop.countdown.Linked) (s : Nat)
    (timeout : Int) :
    (ledger.select loop s timeout).Keeps
      { loop with countdown := loop.countdown.selectTimeout s timeout } := by
  have hnext := (Countdown.selectTimeout_spec hlinked s timeout).1
  have hiters := Countdown.iterTimo_selectTimeout loop.countdown s timeout
  have hother : ∀ t, t ≠ s →
      (loop.countdown.selectTimeout s timeout).iterTimo t = loop.countdown.iterTimo t := by
    intro t ht
    rw [hiters, Function.update_of_ne ht]
  refine ⟨?_, ?_, ?_, hkeeps.once⟩
  · intro t i hiter
    change (loop.countdown.selectTimeout s timeout).iterTimo t = some i at hiter
    by_cases ht : t = s
    · subst ht
      have hnonneg : ¬ timeout < 0 := by
        intro hnegative
        rw [hiters, Function.update_self, if_pos hnegative] at hiter
        cases hiter
      rw [select_inForce, Function.update_self, if_neg hnonneg]
      exact congrArg some (if_pos hiter).symm
    · -- the element of another handler is another
      have hset : (ledger.select loop s timeout).setBy i = ledger.setBy i := by
        refine if_neg fun hs => ht ?_
        exact (hnext.handler_eq t i hiter).symm.trans (hnext.handler_eq s i hs)
      rw [hset, select_inForce, Function.update_of_ne ht]
      rw [hother t ht] at hiter
      exact hkeeps.registered t i hiter
  · intro t call hcall
    rw [select_inForce] at hcall
    change call < ledger.calls + 1
    by_cases ht : t = s
    · rw [ht, Function.update_self] at hcall
      split at hcall
      · cases hcall
      · cases hcall
        exact Nat.lt_succ_self _
    · rw [Function.update_of_ne ht] at hcall
      exact Nat.lt_succ_of_lt (hkeeps.counted t call hcall)
  · intro t hmem
    obtain ⟨call, haccount, hcall, hforce⟩ := hkeeps.awaits t hmem
    refine ⟨call, haccount, Nat.lt_succ_of_lt hcall, fun hkept => ?_⟩
    by_cases ht : t = s
    · -- its element is in `result`: what stands in force now is a later call, or none
      subst ht
      have hovertaken := (ledger.select_overtaken loop t t timeout).mpr (Or.inl ⟨rfl, hmem⟩)
      refine ⟨fun hno => (hno hovertaken).elim, fun _ hsame => ?_⟩
      rw [select_inForce, Function.update_self] at hsame
      split at hsame
      · cases hsame
      · cases hsame
        exact Nat.lt_irrefl _ hcall
    · rw [select_overtaken, or_iff_right fun hself => ht hself.1, select_inForce,
        Function.update_of_ne ht]
      dsimp only
      rw [hother t ht]
      exact hforce hkept

theorem awaiting_cons {notice : Notice} {rest : List Notice}
    (hcollected : loop.collected = notice :: rest) :
    loop.awaiting =
      (if notice.event = SEL_TIMEOUT then [notice.handler.address] else []) ++
        { loop with collected := rest }.awaiting := by
  unfold awaiting
  rw [hcollected]
  by_cases htimeout : notice.event = SEL_TIMEOUT <;> simp [htimeout]

theorem act_keeps (hcoherent : loop.Coherent) (hkeeps : ledger.Keeps loop) {action : Action}
    (hact : loop.act action = some next) : (ledger.enter loop (.act action)).Keeps next := by
  have hdestroy : ∀ s, (ledger.takeBack s).Keeps (loop.destroy s) := by
    intro s
    have hiters : (loop.destroy s).countdown.iterTimo =
        Function.update loop.countdown.iterTimo s none :=
      Countdown.iterTimo_selectTimeout loop.countdown s (-1)
    refine hkeeps.takeBack ?_ ?_ ?_ (List.Sublist.refl _) ?_
    · rw [hiters, Function.update_self]
    · intro t ht
      rw [hiters, Function.update_of_ne ht]
    · intro t hremoved
      exact List.mem_append_left _ hremoved
    · intro _
      exact List.mem_append_right _ (List.mem_singleton.mpr rfl)
  cases action with
  | create s =>
      obtain ⟨hfree, hnext⟩ := Option.ite_none_left_eq_some.mp hact
      cases hnext
      refine hkeeps.frame ?_ (fun _ _ hremoved => hremoved) (List.Sublist.refl _)
      rw [hcoherent.countdown_create (Bool.not_eq_true _ ▸ hfree)]
  | destroy s =>
      obtain ⟨-, hnext⟩ := Option.ite_none_right_eq_some.mp hact
      cases hnext
      exact hdestroy s
  | selectTimeout s timeout =>
      obtain ⟨-, hnext⟩ := Option.ite_none_right_eq_some.mp hact
      cases hnext
      exact hkeeps.select hcoherent.linked s timeout
  | setInterruptHandler handler =>
      obtain ⟨-, hnext⟩ := Option.ite_none_right_eq_some.mp hact
      cases hnext
      unfold setInterruptHandler enter
      cases loop.interruptHandler with
      | none => exact hkeeps.unchanged rfl rfl rfl
      | some old => exact (hdestroy old.address).unchanged rfl rfl rfl
  | _ =>
      obtain ⟨-, hnext⟩ := Option.ite_none_right_eq_some.mp hact
      cases hnext
      exact hkeeps.unchanged rfl rfl rfl

/-- What is notified on the account in force uses it up; no element is registered for it. -/
theorem notify_keeps (hkeeps : ledger.Keeps loop) (hidle : loop.currentHandler = none)
    {notice : Notice} {rest : List Notice} (hcollected : loop.collected = notice :: rest) :
    (ledger.enter loop .notify).Keeps { loop with collected := rest } := by
  have hcons := awaiting_cons hcollected
  by_cases htimeout : notice.event = SEL_TIMEOUT
  · rw [if_pos htimeout] at hcons
    have hsublist : { loop with collected := rest }.awaiting.Sublist loop.awaiting := by
      rw [hcons]
      exact List.sublist_append_right _ _
    have hturn : loop.timeoutTurn .notify = some notice.handler.address := by
      simp only [timeoutTurn, if_pos hidle, hcollected, if_pos htimeout]
    simp only [enter, hturn]
    split
    next hspent =>
      obtain ⟨hkept, hsame⟩ := hspent
      have hmem : notice.handler.address ∈ loop.awaiting := by
        rw [hcons]
        exact List.mem_cons_self
      obtain ⟨call, haccount, -, hforce⟩ := hkeeps.awaits _ hmem
      obtain ⟨hbefore, hafter⟩ := hforce hkept
      have hon : notice.handler.address ∉ ledger.overtaken := by
        intro hovertaken
        exact hafter hovertaken (hsame.trans haccount)
      have honce := hkeeps.once
      rw [hcons] at honce
      exact hkeeps.takeBack (hbefore hon).2 (fun _ _ => rfl) (fun _ hremoved => hremoved) hsublist
        fun hagain => ((List.nodup_cons.mp honce).1 hagain).elim
    next => exact hkeeps.frame rfl (fun _ _ hremoved => hremoved) hsublist
  · rw [if_neg htimeout, List.nil_append] at hcons
    have hturn : loop.timeoutTurn .notify = none := by
      simp only [timeoutTurn, if_pos hidle, hcollected, if_neg htimeout]
    simp only [enter, hturn]
    refine hkeeps.frame rfl (fun _ _ hremoved => hremoved) ?_
    rw [hcons]

/-- A click delivers what is registered, which the calls in force have set. -/
theorem checkTimoutRun_keeps (hcoherent : loop.Coherent) (hkeeps : ledger.Keeps loop)
    (hempty : loop.collected = []) :
    (ledger.enter loop .checkTimoutRun).Keeps { loop.checkTimoutRun with place := .timeouts } := by
  unfold checkTimoutRun
  dsimp only
  split
  · obtain ⟨-, -, hiters⟩ := Countdown.clickElapse_spec hcoherent.linked loop.elapsed
    obtain ⟨hnodup, hdelivered⟩ :=
      Countdown.clickElapse_delivers hcoherent.linked loop.elapsed
    have hawaiting : { ({ loop with elapsed := 0 }.timoutRun loop.elapsed) with
        place := .timeouts }.awaiting = (loop.countdown.clickElapse loop.elapsed).2 := by
      unfold awaiting timoutRun
      dsimp only
      rw [List.filter_eq_self.mpr (by simp), List.map_map]
      exact List.map_id _
    refine ⟨?_, hkeeps.counted, ?_, ?_⟩
    · intro s i hiter
      exact hkeeps.registered s i (hiters s i hiter)
    · rw [hawaiting]
      intro s hmem
      obtain ⟨⟨i, hiter⟩, hnone⟩ := hdelivered s hmem
      have hforce := hkeeps.registered s i hiter
      refine ⟨ledger.setBy i, ?_, hkeeps.counted s _ hforce, fun _ => ⟨fun _ => ⟨hforce, hnone⟩,
        fun hmem => (List.not_mem_nil hmem).elim⟩⟩
      change (loop.countdown.iterTimo s).map ledger.setBy = some (ledger.setBy i)
      rw [hiter]
      rfl
    · rw [hawaiting]
      exact hnodup
  · have hawaiting : { loop with elapsed := 0, place := .timeouts }.awaiting = [] := by
      unfold awaiting
      dsimp only
      rw [hempty]
      rfl
    refine ⟨hkeeps.registered, hkeeps.counted, ?_, ?_⟩
    · rw [hawaiting]
      intro s hmem
      cases hmem
    · rw [hawaiting]
      exact List.nodup_nil

/-- What epoll reports is no timeout. -/
theorem awaiting_wait (ready : List EpollEvent) :
    { loop with place := .sockets, collected := ready.flatMap loop.notices }.awaiting = [] := by
  unfold awaiting
  rw [List.map_eq_nil_iff, List.filter_eq_nil_iff]
  intro notice hmem
  obtain ⟨ev, -, hnotice⟩ := List.mem_flatMap.mp hmem
  simpa using (mem_notices hnotice).2

theorem step_keeps (hcoherent : loop.Coherent) (hkeeps : ledger.Keeps loop)
    (hstep : loop.step event = some next) : (ledger.enter loop event).Keeps next := by
  cases event with
  | tick =>
      cases hstep
      exact hkeeps.unchanged rfl rfl rfl
  | act action =>
      obtain ⟨-, hact⟩ := Option.ite_none_right_eq_some.mp hstep
      exact act_keeps hcoherent hkeeps hact
  | wait ready =>
      obtain ⟨-, hnext⟩ := Option.ite_none_right_eq_some.mp hstep
      cases hnext
      refine hkeeps.frame rfl (fun _ _ hremoved => hremoved) ?_
      rw [awaiting_wait]
      exact List.nil_sublist _
  | notify =>
      obtain ⟨notice, rest, hidle, hcollected, rfl⟩ := step_notify hstep
      rw [notifyEvent_eq]
      exact (notify_keeps hkeeps hidle hcollected).unchanged rfl rfl rfl
  | done =>
      obtain ⟨-, hnext⟩ := Option.ite_none_left_eq_some.mp hstep
      cases hnext
      exact hkeeps.unchanged rfl rfl rfl
  | checkTimoutRun =>
      obtain ⟨hpast, hnext⟩ := Option.ite_none_right_eq_some.mp hstep
      cases hnext
      exact checkTimoutRun_keeps hcoherent hkeeps hpast.2.1
  | interrupt =>
      obtain ⟨-, hnext⟩ := Option.ite_none_right_eq_some.mp hstep
      cases hnext
      unfold interrupt
      split
      · rw [notifyEvent_eq]
        exact hkeeps.unchanged rfl rfl rfl
      · exact hkeeps.unchanged rfl rfl rfl
  | clearRemoved =>
      obtain ⟨hpast, hnext⟩ := Option.ite_none_right_eq_some.mp hstep
      cases hnext
      -- no timeout waits whose handler could be recorded
      refine hkeeps.frame rfl ?_ (List.Sublist.refl _)
      intro s hmem
      change s ∈ loop.awaiting at hmem
      unfold awaiting at hmem
      rw [hpast.2.1] at hmem
      cases hmem

/-! ## Runs -/

/-- The ledger is kept beside the run, which is the same without it. -/
theorem run_ledger (loop : EventLoop) (ledger : Ledger) (events : List Event) :
    (run (recorded enter step) (loop, ledger) events).map Prod.fst = run step loop events :=
  run_recorded enter loop ledger events

theorem timeoutTurn_turn {s : Nat} (hturn : loop.timeoutTurn event = some s) :
    (∃ handler, loop.turn event = some handler ∧ handler.address = s) ∧ s ∈ loop.awaiting := by
  cases event with
  | notify =>
      simp only [timeoutTurn] at hturn
      split at hturn
      next hidle =>
        split at hturn
        next notice rest hcollected =>
          split at hturn
          next htimeout =>
            cases hturn
            refine ⟨⟨notice.handler, ?_, rfl⟩, ?_⟩
            · simp only [EventLoop.turn, if_pos hidle, hcollected, List.head?_cons,
                Option.map_some]
            · rw [awaiting_cons hcollected, if_pos htimeout]
              exact List.mem_cons_self
          · cases hturn
        · cases hturn
      · cases hturn
  | _ => cases hturn

theorem onAccount_iff {s : Nat} (hturn : loop.timeoutTurn event = some s) :
    OnAccount (loop, ledger) event ↔
      (s ∉ loop.removed → ∃ call ∈ ledger.account s, ledger.inForce s = some call) := by
  obtain ⟨⟨handler, hhandler, rfl⟩, -⟩ := timeoutTurn_turn hturn
  obtain ⟨next, hstep, hcalled⟩ := turn_step hhandler
  rw [← hcalled]
  constructor
  · intro hall
    exact hall handler.address next hturn hstep
  · intro hthis s other hs hother
    rw [hturn] at hs
    cases hs
    rw [hstep] at hother
    cases hother
    exact hthis

/-- In a state of a run a timeout is notified on account of the call in force just when its
handler was not selected meanwhile. -/
theorem onAccount_iff_notOvertaken (hkeeps : ledger.Keeps loop) (event : Event) :
    OnAccount (loop, ledger) event ↔ NotOvertaken (loop, ledger) event := by
  cases hturn : loop.timeoutTurn event with
  | none =>
      refine ⟨fun _ s hs => ?_, fun _ s next hs => ?_⟩
      · rw [hturn] at hs
        cases hs
      · rw [hturn] at hs
        cases hs
  | some s =>
      have hone : NotOvertaken (loop, ledger) event ↔
          s ∉ ledger.overtaken ∨ s ∈ loop.removed := by
        unfold NotOvertaken
        rw [hturn]
        simp only [Option.some.injEq, forall_eq']
      obtain ⟨call, haccount, -, hforce⟩ := hkeeps.awaits s (timeoutTurn_turn hturn).2
      rw [onAccount_iff hturn, hone, haccount]
      constructor
      · intro hon
        by_cases hremoved : s ∈ loop.removed
        · exact Or.inr hremoved
        · refine Or.inl fun hovertaken => ?_
          obtain ⟨other, hother, hsame⟩ := hon hremoved
          cases hother
          exact (hforce hremoved).2 hovertaken hsame
      · rintro (hon | hremoved) hkept
        · exact ⟨call, rfl, ((hforce hkept).1 hon).1⟩
        · exact (hkept hremoved).elim

/-- Along every run timeouts are notified on account of the call that their handler waits on,
just when none has its turn whose handler was selected between the click and the turn, unless
the handler was destroyed. -/
theorem onAccount_iff_notOvertaken_along (events : List Event) :
    Along (recorded enter step) OnAccount (EventLoop.new, Ledger.new) events ↔
      Along (recorded enter step) NotOvertaken (EventLoop.new, Ledger.new) events := by
  have hkept : ∀ (state : EventLoop × Ledger) (event : Event) (next : EventLoop × Ledger),
      state.1.Coherent ∧ state.2.Keeps state.1 → True →
        recorded enter step state event = some next →
          next.1.Coherent ∧ next.2.Keeps next.1 := by
    rintro ⟨loop, ledger⟩ event next ⟨hcoherent, hkeeps⟩ - hnext
    obtain ⟨after, hstep, rfl⟩ := Option.map_eq_some_iff.mp hnext
    exact ⟨step_coherent hcoherent hstep, step_keeps hcoherent hkeeps hstep⟩
  exact along_congr hkept
    (fun state event hinv _ => onAccount_iff_notOvertaken hinv.2 event)
    ⟨new_coherent, new_keeps⟩ (along_trivial _ events)

instance (state : EventLoop × Ledger) (event : Event) : Decidable (OnAccount state event) :=
  match hturn : state.1.timeoutTurn event with
  | none => isTrue fun s next hs => by
      rw [hturn] at hs
      cases hs
  | some s =>
      decidable_of_iff
        (s ∉ state.1.removed → ∃ call ∈ state.2.account s, state.2.inForce s = some call)
        (onAccount_iff hturn).symm

/-- Two timeouts are over at the same click, and the first handler to be notified cancels the
other's. -/
theorem cancelled_notified :
    ¬ Along (recorded enter step) OnAccount (EventLoop.new, Ledger.new)
      [.act (.create 1), .act (.create 2), .act (.selectTimeout 1 0), .act (.selectTimeout 2 0),
        .tick, .wait [], .checkTimoutRun, .notify, .act (.selectTimeout 2 (-1)), .done,
        .notify] := by
  decide +kernel

end Ledger

end ServiceFrame
