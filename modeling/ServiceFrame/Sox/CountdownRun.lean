import Mathlib.Data.List.Induction
import ServiceFrame.Sox.Countdown

/-! # When a timeout is delivered

A timeout waits for what is left of it: its count less the time its slot has run.
Whatever slots it falls through, a click takes its own time off what is left, and
delivers the timeout when nothing is left, or when it waits in list 0, where less
than two clicks are.
-/

namespace ServiceFrame

namespace Countdown

variable {cd : Countdown}

/-- What is left of a timeout. -/
def left (cd : Countdown) (timeout : Timeout) : Int := timeout.count - cd.clock timeout.fallidx

/-- The count of a timeout reaches the fall of its slot; below the first fall it
is in list 0. -/
structure Due (timeout : Timeout) : Prop where
  slot_le : timeout.fallidx ≤ fallsLastIdx
  bottom : timeout.fallidx = 0 → timeout.count < threshold 1
  fall_le : 0 < timeout.fallidx → threshold timeout.fallidx ≤ timeout.count

structure Timed (cd : Countdown) : Prop where
  linked : cd.Linked
  bottom : cd.clock 0 = 0
  running : ∀ idx, 0 < idx → idx ≤ fallsLastIdx → 0 ≤ cd.clock idx ∧ cd.clock idx < threshold idx
  due : ∀ handler timeout, cd.entry handler = some timeout → Due timeout

theorem threshold_pos {idx : Nat} (hpos : 0 < idx) (hlast : idx ≤ fallsLastIdx) :
    0 < threshold idx := by
  have hall : ∀ idx < fallsLastIdx + 1, 0 < idx → 0 < threshold idx := by decide
  exact hall idx (Nat.lt_succ_of_le hlast) hpos

theorem init_timed : init.Timed where
  linked := init_linked
  bottom := rfl
  running := fun _ hpos hlast => ⟨Int.le_refl 0, threshold_pos hpos hlast⟩
  due := by simp [entry, init]

/-- Nothing is left to wait for after a click of `elasped`, or the rest of it is,
in a slot no higher than `idx`. -/
def Fate (elasped rest : Int) (idx : Nat) (next : Countdown) (handler : Nat) : Prop :=
  (next.entry handler = none ∧ rest ≤ elasped) ∨
    ∃ timeout, next.entry handler = some timeout ∧ timeout.fallidx ≤ idx ∧
      next.left timeout = rest - elasped ∧ 0 < rest - elasped

/-- A timeout that falls is where its new count belongs. -/
theorem fallDown_some {clock : Nat → Int} {idx : Nat} (hpos : 0 < idx)
    (hlast : idx ≤ fallsLastIdx) (hclock : ∀ other, other < idx → 0 ≤ clock other)
    (hbottom : clock 0 = 0) (timeout fallen : Timeout) (hidx : timeout.fallidx = idx)
    (hfall : fallDown clock idx timeout = some fallen) :
    0 < timeout.count - clock idx ∧ fallen.fallidx ≤ idx ∧ Due fallen ∧
      fallen.count =
        timeout.count - clock idx + (if fallen.fallidx = idx then 0 else clock fallen.fallidx) := by
  unfold fallDown at hfall
  dsimp only at hfall
  split at hfall
  · cases hfall
  next hleft =>
    have hsome : 0 < timeout.count - clock idx := Int.not_le.mp hleft
    have hle := slotFor_le (timeout.count - clock idx) idx
    have hreach := slotFor_fall (timeout.count - clock idx) hpos
    split at hfall
    next hstays =>
      cases hfall
      refine ⟨hsome, Nat.le_of_eq hidx, ⟨?_, ?_, ?_⟩, ?_⟩
      · exact hidx ▸ hlast
      · intro hzero
        change timeout.fallidx = 0 at hzero
        omega
      · intro _
        change threshold timeout.fallidx ≤ timeout.count - clock idx
        rw [hstays] at hreach
        rw [hidx]
        rcases hreach with ⟨-, hreach⟩ | ⟨hzero, -⟩
        · exact hreach
        · omega
      · rw [if_pos hidx, Int.add_zero]
    next hmoves =>
      -- the lower slot has run for a while, which is added to the count
      cases hfall
      refine ⟨hsome, hle, ⟨Nat.le_trans hle hlast, ?_, ?_⟩, ?_⟩
      · intro hzero
        change slotFor (timeout.count - clock idx) idx = 0 at hzero
        change timeout.count - clock idx + clock (slotFor (timeout.count - clock idx) idx) <
          threshold 1
        rw [hzero, hbottom]
        rcases hreach with ⟨hslot, -⟩ | ⟨-, hshort⟩
        · omega
        · omega
      · intro hslot
        change 0 < slotFor (timeout.count - clock idx) idx at hslot
        change threshold (slotFor (timeout.count - clock idx) idx) ≤
          timeout.count - clock idx + clock (slotFor (timeout.count - clock idx) idx)
        have hnonneg := hclock (slotFor (timeout.count - clock idx) idx) (by omega)
        rcases hreach with ⟨-, hreach⟩ | ⟨hzero, -⟩
        · omega
        · omega
      · rw [if_neg hmoves]

theorem fallDown_none {clock : Nat → Int} {idx : Nat} {timeout : Timeout}
    (hfall : fallDown clock idx timeout = none) : timeout.count - clock idx ≤ 0 := by
  unfold fallDown at hfall
  dsimp only at hfall
  split at hfall
  next hover => exact hover
  next => split at hfall <;> cases hfall

theorem Timed.update_bottom (htimed : cd.Timed) {idx : Nat} (hpos : 0 < idx) (value : Int) :
    Function.update cd.clock idx value 0 = 0 := by
  rw [Function.update_of_ne (Nat.ne_of_lt hpos)]
  exact htimed.bottom

theorem Timed.update_running (htimed : cd.Timed) {idx : Nat} {value : Int} (hvalue : 0 ≤ value)
    (hsmall : value < threshold idx) (other : Nat) (hpos : 0 < other)
    (hlast : other ≤ fallsLastIdx) :
    0 ≤ Function.update cd.clock idx value other ∧
      Function.update cd.clock idx value other < threshold other := by
  by_cases hsame : other = idx
  · subst hsame
    simpa using ⟨hvalue, hsmall⟩
  · rw [Function.update_of_ne hsame]
    exact htimed.running other hpos hlast

theorem left_update (cd : Countdown) {idx : Nat} (value : Int) {timeout : Timeout}
    (hne : timeout.fallidx ≠ idx) :
    timeout.count - Function.update cd.clock idx value timeout.fallidx = cd.left timeout := by
  rw [Function.update_of_ne hne, left]

/-- What the turn of a slot does to the timeouts: the click is taken off those in this
slot, and the others are as they were. -/
structure Turned (cd : Countdown) (elasped : Int) (idx : Nat) (next : Countdown) : Prop where
  timed : next.Timed
  absent : ∀ handler, cd.entry handler = none → next.entry handler = none
  other : ∀ handler timeout, cd.entry handler = some timeout → timeout.fallidx ≠ idx →
    next.entry handler = some timeout ∧ next.left timeout = cd.left timeout
  fate : ∀ handler timeout, cd.entry handler = some timeout → timeout.fallidx = idx →
    Fate elasped (cd.left timeout) idx next handler

/-- A slot that is not over yet runs on, and with it the timeouts in it. -/
theorem Timed.runsOn (htimed : cd.Timed) {next : Countdown} (hlinked : next.Linked) {idx : Nat}
    (hpos : 0 < idx) (hlast : idx ≤ fallsLastIdx) {elasped : Int} (helasped : 0 ≤ elasped)
    (hshort : cd.clock idx + elasped < threshold idx)
    (hclock : next.clock = Function.update cd.clock idx (cd.clock idx + elasped))
    (hentry : next.entry = cd.entry) :
    Turned cd elasped idx next := by
  obtain ⟨hnonneg, -⟩ := htimed.running idx hpos hlast
  refine ⟨⟨hlinked, ?_, ?_, ?_⟩, ?_, ?_, ?_⟩
  · rw [hclock]
    exact htimed.update_bottom hpos _
  · rw [hclock]
    exact htimed.update_running (by omega) hshort
  · rw [hentry]
    exact htimed.due
  · intro handler hnone
    rw [hentry]
    exact hnone
  · intro handler timeout hsome hne
    rw [hentry, left, hclock]
    exact ⟨hsome, cd.left_update _ hne⟩
  · -- the count reaches the fall of the slot, which the click does not
    intro handler timeout hsome hidx
    have hfall := (htimed.due handler timeout hsome).fall_le (hidx ▸ hpos)
    rw [hidx] at hfall
    refine Or.inr ⟨timeout, by rw [hentry]; exact hsome, Nat.le_of_eq hidx, ?_, ?_⟩
    · rw [left, left, hclock, hidx, Function.update_self]
      omega
    · rw [left, hidx]
      omega

/-- When a slot is over its timeouts fall, and its time starts anew. -/
theorem Timed.over (htimed : cd.Timed) {next : Countdown} (hlinked : next.Linked) {idx : Nat}
    (hpos : 0 < idx) (hlast : idx ≤ fallsLastIdx) {elasped : Int}
    (hclock : next.clock = Function.update cd.clock idx 0)
    (hentry : ∀ handler, next.entry handler = (cd.entry handler).bind fun timeout =>
      if timeout.fallidx = idx
        then fallDown (Function.update cd.clock idx (cd.clock idx + elasped)) idx timeout
        else some timeout) :
    Turned cd elasped idx next := by
  -- a timeout falls into a slot below, and is given the time this one has run
  have hbelow : ∀ other, other < idx →
      0 ≤ Function.update cd.clock idx (cd.clock idx + elasped) other := by
    intro other hsmall
    rw [Function.update_of_ne (Nat.ne_of_lt hsmall)]
    rcases Nat.eq_zero_or_pos other with rfl | hotherPos
    · exact Int.le_of_eq htimed.bottom.symm
    · exact (htimed.running other hotherPos (by omega)).1
  have hfalls := fallDown_some hpos hlast hbelow (htimed.update_bottom hpos _)
  refine ⟨⟨hlinked, ?_, ?_, ?_⟩, ?_, ?_, ?_⟩
  · rw [hclock]
    exact htimed.update_bottom hpos _
  · rw [hclock]
    exact htimed.update_running (Int.le_refl 0) (threshold_pos hpos hlast)
  · intro handler timeout hsome
    rw [hentry] at hsome
    obtain ⟨old, hold, hafter⟩ := Option.bind_eq_some_iff.mp hsome
    by_cases hidx : old.fallidx = idx
    · rw [if_pos hidx] at hafter
      exact (hfalls old timeout hidx hafter).2.2.1
    · rw [if_neg hidx] at hafter
      cases hafter
      exact htimed.due handler _ hold
  · intro handler hnone
    rw [hentry, hnone, Option.bind_none]
  · intro handler timeout hsome hne
    rw [hentry, hsome, Option.bind_some, if_neg hne, left, hclock]
    exact ⟨rfl, cd.left_update _ hne⟩
  · intro handler timeout hsome hidx
    unfold Fate
    rw [hentry, hsome, Option.bind_some, if_pos hidx, left, hidx]
    cases hfall : fallDown (Function.update cd.clock idx (cd.clock idx + elasped)) idx timeout with
    | none =>
        have hrest := fallDown_none hfall
        rw [Function.update_self] at hrest
        exact Or.inl ⟨rfl, by omega⟩
    | some fallen =>
        obtain ⟨hleft, hle, -, hcount⟩ := hfalls timeout fallen hidx hfall
        rw [Function.update_self] at hleft hcount
        refine Or.inr ⟨fallen, rfl, hle, ?_, by omega⟩
        rw [left, hclock, hcount]
        by_cases hstays : fallen.fallidx = idx
        · rw [if_pos hstays, hstays, Function.update_self]
          omega
        · rw [if_neg hstays, Function.update_of_ne hstays, Function.update_of_ne hstays]
          omega

/-- A slot's turn takes the click off what is left in this slot, and leaves the
other slots. -/
theorem clickFall_timed (htimed : cd.Timed) {idx : Nat} (hpos : 0 < idx)
    (hlast : idx ≤ fallsLastIdx) {elasped : Int} (helasped : 0 ≤ elasped) (result : List Nat) :
    let next := clickFall elasped (cd, result) idx
    Turned cd elasped idx next.1 ∧
      ∀ handler, next.2.count handler + next.1.waiting handler =
        result.count handler + cd.waiting handler := by
  obtain ⟨hlinked, hcounts, hturn⟩ := clickFall_spec htimed.linked hlast elasped result
  refine ⟨?_, hcounts⟩
  rcases hturn with ⟨hshort, hclock, hentry⟩ | ⟨-, hclock, hentry⟩
  · exact htimed.runsOn hlinked hpos hlast helasped hshort hclock hentry
  · exact htimed.over hlinked hpos hlast hclock hentry

/-- The bottom of a click, and the turns of the slots up to `n`: what was in list
0 is delivered, what was in these slots meets its fate, and what is above waits
for its turn. -/
theorem falls_timed (htimed : cd.Timed) {elasped : Int} (helasped : 0 ≤ elasped) (n : Nat)
    (hn : n ≤ fallsLastIdx) :
    let next := (List.range' 1 n).foldl (clickFall elasped) cd.clickBottom
    next.1.Timed ∧
      (∀ handler, next.2.count handler + next.1.waiting handler = cd.waiting handler) ∧
      (∀ handler, cd.entry handler = none → next.1.entry handler = none) ∧
      ∀ handler timeout, cd.entry handler = some timeout →
        (timeout.fallidx = 0 → next.1.entry handler = none) ∧
        (0 < timeout.fallidx → timeout.fallidx ≤ n →
          Fate elasped (cd.left timeout) n next.1 handler) ∧
        (n < timeout.fallidx →
          next.1.entry handler = some timeout ∧ next.1.left timeout = cd.left timeout) := by
  induction n with
  | zero =>
      obtain ⟨hlinked, hclock, hcounts, hentry⟩ := clickBottom_spec htimed.linked
      refine ⟨⟨hlinked, ?_, ?_, ?_⟩, hcounts, ?_, ?_⟩
      · exact (congrFun hclock 0).trans htimed.bottom
      · intro idx hpos hlast
        have hrunning := htimed.running idx hpos hlast
        rw [← hclock] at hrunning
        exact hrunning
      · intro handler timeout hsome
        obtain ⟨old, hold, hafter⟩ := Option.bind_eq_some_iff.mp ((hentry handler).symm.trans hsome)
        by_cases hidx : old.fallidx = 0
        · rw [if_pos hidx] at hafter
          cases hafter
        · rw [if_neg hidx] at hafter
          cases hafter
          exact htimed.due handler _ hold
      · intro handler hnone
        exact (hentry handler).trans (by rw [hnone, Option.bind_none])
      · intro handler timeout hsome
        have hafter := hentry handler
        rw [hsome, Option.bind_some] at hafter
        refine ⟨?_, ?_, ?_⟩
        · intro hidx
          exact hafter.trans (if_pos hidx)
        · intro hpos hle
          omega
        · intro habove
          refine ⟨hafter.trans (if_neg (Nat.ne_of_gt habove)), ?_⟩
          exact congrArg (timeout.count - ·) (congrFun hclock timeout.fallidx)
  | succ n ih =>
      obtain ⟨hmiddle, hcounts, hnones, hsomes⟩ := ih (by omega)
      rw [List.range'_concat, List.foldl_append, List.foldl_cons, List.foldl_nil,
        Nat.one_mul, Nat.add_comm 1 n]
      obtain ⟨⟨hnext, hturnNones, hturnOthers, hturnFates⟩, hturnCounts⟩ :=
        clickFall_timed hmiddle (Nat.succ_pos n) hn helasped
          ((List.range' 1 n).foldl (clickFall elasped) cd.clickBottom).2
      refine ⟨hnext, ?_, ?_, ?_⟩
      · intro handler
        exact (hturnCounts handler).trans (hcounts handler)
      · intro handler hnone
        exact hturnNones handler (hnones handler hnone)
      · intro handler timeout hsome
        obtain ⟨hbottom, hfate, habove⟩ := hsomes handler timeout hsome
        refine ⟨fun hidx => hturnNones handler (hbottom hidx), ?_, ?_⟩
        · intro hpos hle
          by_cases hidx : timeout.fallidx = n + 1
          · obtain ⟨hkept, hleft⟩ := habove (by omega)
            rw [← hleft]
            exact hturnFates handler timeout hkept hidx
          · -- its own slot had its turn
            rcases hfate hpos (by omega) with ⟨hnone, hrest⟩ |
              ⟨fallen, hfallen, hslot, hleft, hrest⟩
            · exact Or.inl ⟨hturnNones handler hnone, hrest⟩
            · obtain ⟨hkept, hsame⟩ := hturnOthers handler fallen hfallen (by omega)
              exact Or.inr ⟨fallen, hkept, by omega, hsame.trans hleft, hrest⟩
        · intro hlarge
          obtain ⟨hkept, hleft⟩ := habove (by omega)
          obtain ⟨hstill, hsame⟩ := hturnOthers handler timeout hkept (by omega)
          exact ⟨hstill, hsame.trans hleft⟩

/-- A click delivers a timeout of which less than the click and `timeClick` is
left, or takes its time off and leaves something of it. -/
theorem clickElapse_timed (htimed : cd.Timed) {elasped : Int} (helasped : timeClick ≤ elasped) :
    (cd.clickElapse elasped).1.Timed ∧
      (∀ handler, (cd.clickElapse elasped).2.count handler +
        (cd.clickElapse elasped).1.waiting handler = cd.waiting handler) ∧
      (∀ handler, cd.entry handler = none → (cd.clickElapse elasped).1.entry handler = none) ∧
      ∀ handler timeout, cd.entry handler = some timeout →
        ((cd.clickElapse elasped).1.entry handler = none ∧
          cd.left timeout < elasped + timeClick) ∨
        ∃ fallen, (cd.clickElapse elasped).1.entry handler = some fallen ∧
          (cd.clickElapse elasped).1.left fallen = cd.left timeout - elasped ∧
          0 < cd.left timeout - elasped := by
  have hclick : (0 : Int) < timeClick := by decide
  obtain ⟨hnext, hcounts, hnones, hsomes⟩ :=
    falls_timed htimed (show (0 : Int) ≤ elasped by omega) fallsLastIdx (Nat.le_refl _)
  refine ⟨hnext, hcounts, hnones, ?_⟩
  intro handler timeout hsome
  obtain ⟨hbottom, hfate, -⟩ := hsomes handler timeout hsome
  have hdue := htimed.due handler timeout hsome
  rcases Nat.eq_zero_or_pos timeout.fallidx with hzero | hpos
  · -- list 0 holds what is less than two clicks away
    have hshort := hdue.bottom hzero
    have htwo : threshold 1 = timeClick + timeClick := by decide
    refine Or.inl ⟨hbottom hzero, ?_⟩
    rw [left, hzero, htimed.bottom]
    omega
  · rcases hfate hpos hdue.slot_le with ⟨hnone, hrest⟩ | ⟨fallen, hfallen, -, hleft, hrest⟩
    · exact Or.inl ⟨hnone, by omega⟩
    · exact Or.inr ⟨fallen, hfallen, hleft, hrest⟩

/-- A registered timeout is where it belongs, and all of it is left. -/
theorem selectTimeout_timed (htimed : cd.Timed) (s : Nat) (timeout : Int) :
    (cd.selectTimeout s timeout).Timed ∧
      (∀ item, (cd.selectTimeout s timeout).left item = cd.left item) ∧
      (∀ handler, handler ≠ s → (cd.selectTimeout s timeout).entry handler = cd.entry handler) ∧
      (0 ≤ timeout → ∃ item, (cd.selectTimeout s timeout).entry s = some item ∧
        cd.left item = timeout) := by
  obtain ⟨hlinked, hclock, hentry⟩ := selectTimeout_spec htimed.linked s timeout
  have hpos : 0 < fallsLastIdx := by decide
  have hle := slotFor_le timeout fallsLastIdx
  refine ⟨⟨hlinked, ?_, ?_, ?_⟩, ?_, ?_, ?_⟩
  · rw [hclock]
    exact htimed.bottom
  · rw [hclock]
    exact htimed.running
  · intro handler item hsome
    rw [hentry] at hsome
    by_cases hhandler : handler = s
    · subst hhandler
      rw [Function.update_self] at hsome
      split at hsome
      · cases hsome
      · cases hsome
        refine ⟨hle, ?_, ?_⟩
        · intro hzero
          dsimp only at hzero ⊢
          rw [hzero, htimed.bottom]
          rcases slotFor_fall timeout hpos with ⟨hslot, -⟩ | ⟨-, hshort⟩
          · omega
          · omega
        · intro hslot
          dsimp only at hslot ⊢
          have hrunning := (htimed.running _ hslot hle).1
          rcases slotFor_fall timeout hpos with ⟨-, hreach⟩ | ⟨hzero, -⟩
          · omega
          · omega
    · rw [Function.update_of_ne hhandler] at hsome
      exact htimed.due handler item hsome
  · intro item
    rw [left, left, hclock]
  · intro handler hhandler
    rw [hentry, Function.update_of_ne hhandler]
  · intro hnonneg
    refine ⟨⟨slotFor timeout fallsLastIdx, s,
      timeout + cd.clock (slotFor timeout fallsLastIdx)⟩, ?_, ?_⟩
    · rw [hentry, Function.update_self, if_neg (Int.not_lt.mpr hnonneg)]
    · rw [left]
      dsimp only
      omega

/-! ## Runs -/

inductive Event where
  | select (s : Nat) (timeout : Int)
  | click (elasped : Int)

def step (cd : Countdown) : Event → Countdown × List Nat
  | .select s timeout => (cd.selectTimeout s timeout, [])
  | .click elasped => cd.clickElapse elasped

/-- The state after the events. -/
def after (cd : Countdown) (events : List Event) : Countdown :=
  events.foldl (fun cd event => (cd.step event).1) cd

/-- The handlers whose timeouts the events deliver, in order. -/
def delivered (cd : Countdown) : List Event → List Nat
  | [] => []
  | event :: rest => (cd.step event).2 ++ delivered (cd.step event).1 rest

/-- The click time of the events. -/
def clickTime : List Event → Int
  | [] => 0
  | .select _ _ :: rest => clickTime rest
  | .click elasped :: rest => elasped + clickTime rest

/-- Every click's time is a positive multiple of `timeClick`. -/
def Ticking (events : List Event) : Prop :=
  ∀ elasped, .click elasped ∈ events → ∃ clicks : Nat, 0 < clicks ∧ elasped = timeClick * clicks

theorem after_append (cd : Countdown) (first second : List Event) :
    cd.after (first ++ second) = (cd.after first).after second :=
  List.foldl_append

theorem delivered_append (cd : Countdown) (first second : List Event) :
    cd.delivered (first ++ second) = cd.delivered first ++ (cd.after first).delivered second := by
  induction first generalizing cd with
  | nil => rfl
  | cons event rest ih =>
      rw [List.cons_append, delivered, ih, delivered, List.append_assoc]
      rfl

theorem after_snoc (cd : Countdown) (past : List Event) (event : Event) :
    cd.after (past ++ [event]) = ((cd.after past).step event).1 :=
  after_append cd past [event]

theorem delivered_snoc (cd : Countdown) (past : List Event) (event : Event) :
    cd.delivered (past ++ [event]) = cd.delivered past ++ ((cd.after past).step event).2 := by
  rw [delivered_append, delivered, delivered, List.append_nil]

theorem clickTime_append (first second : List Event) :
    clickTime (first ++ second) = clickTime first + clickTime second := by
  induction first with
  | nil => exact (Int.zero_add _).symm
  | cons event rest ih =>
      cases event with
      | select s timeout => exact ih
      | click elasped => rw [List.cons_append, clickTime, ih, clickTime, Int.add_assoc]

theorem waiting_none {handler : Nat} (hnone : cd.entry handler = none) :
    cd.waiting handler = 0 := by
  rw [waiting, hnone]
  rfl

theorem waiting_some {handler : Nat} {item : Timeout} (hsome : cd.entry handler = some item) :
    cd.waiting handler = 1 := by
  rw [waiting, hsome]
  rfl

theorem Ticking.click {events : List Event} (hticking : Ticking events) {elasped : Int}
    (hmem : .click elasped ∈ events) : timeClick ≤ elasped := by
  obtain ⟨clicks, hpos, rfl⟩ := hticking elasped hmem
  unfold timeClick
  omega

/-- The events keep what the lists and clocks are. -/
theorem after_timed (htimed : cd.Timed) {events : List Event} (hticking : Ticking events) :
    (cd.after events).Timed := by
  induction events generalizing cd with
  | nil => exact htimed
  | cons event rest ih =>
      refine ih ?_ (fun elasped hmem => hticking elasped (List.mem_cons_of_mem event hmem))
      cases event with
      | select s timeout => exact (selectTimeout_timed htimed s timeout).1
      | click elasped => exact (clickElapse_timed htimed (hticking.click List.mem_cons_self)).1

/-- While its handler is not selected anew, a timeout is delivered once or waits
for what the clicks have left of it. -/
theorem waits (htimed : cd.Timed) {handler : Nat} {item : Timeout}
    (hitem : cd.entry handler = some item) {events : List Event} (hticking : Ticking events)
    (hkept : ∀ timeout, .select handler timeout ∉ events) :
    (cd.delivered events).count handler + (cd.after events).waiting handler = 1 ∧
      ∀ waiting, (cd.after events).entry handler = some waiting →
        (cd.after events).left waiting = cd.left item - clickTime events := by
  induction events using List.reverseRecOn with
  | nil =>
      refine ⟨?_, ?_⟩
      · simp [delivered, after, waiting, hitem]
      · intro waiting hwaiting
        have hsame : cd.entry handler = some waiting := hwaiting
        rw [hitem] at hsame
        cases hsame
        exact (Int.sub_zero _).symm
  | append_singleton past event ih =>
      have hpast : Ticking past := fun elasped hmem =>
        hticking elasped (List.mem_append_left _ hmem)
      obtain ⟨hcount, hleft⟩ := ih hpast (fun timeout hmem =>
        hkept timeout (List.mem_append_left _ hmem))
      have hmiddle := after_timed htimed hpast
      rw [after_snoc, delivered_snoc, clickTime_append, List.count_append]
      cases event with
      | select s timeout =>
          -- another handler's, which leaves this one's entry and every clock
          have hother : handler ≠ s := by
            rintro rfl
            exact hkept timeout (List.mem_append_right past List.mem_cons_self)
          obtain ⟨-, hsame, hentry, -⟩ := selectTimeout_timed hmiddle s timeout
          refine ⟨?_, ?_⟩
          · rw [← hcount, waiting, waiting, step, hentry handler hother]
            rfl
          · intro waiting hwaiting
            rw [step, hentry handler hother] at hwaiting
            rw [step, hsame, hleft waiting hwaiting, clickTime, clickTime, Int.add_zero]
      | click elasped =>
          have helasped := hticking.click (List.mem_append_right past List.mem_cons_self)
          obtain ⟨-, hcounts, hnones, hsomes⟩ := clickElapse_timed hmiddle helasped
          refine ⟨?_, ?_⟩
          · have hclick := hcounts handler
            rw [step]
            omega
          · intro waiting hwaiting
            cases hbefore : (cd.after past).entry handler with
            | none =>
                rw [step, hnones handler hbefore] at hwaiting
                cases hwaiting
            | some before =>
                rw [step] at hwaiting ⊢
                have hrest := hleft before hbefore
                rcases hsomes handler before hbefore with ⟨hnone, -⟩ | ⟨fallen, hfallen, hnow, -⟩
                · -- delivered by this click
                  rw [hnone] at hwaiting
                  cases hwaiting
                · -- wherever it fell, the click is off what is left
                  rw [hfallen] at hwaiting
                  cases hwaiting
                  rw [hnow, hrest]
                  simp only [clickTime]
                  omega

/-- After any events each handler is in one list at most. A timeout registered
then, whose handler is not selected in the events that follow, is delivered at
most once; the click that delivers it brings the click time since beyond the
timeout less `timeClick`; and once a click brings it to the timeout, it has been
delivered. -/
theorem timeout_exact (earlier later : List Event) (handler : Nat) (timeout : Int)
    (hnonneg : 0 ≤ timeout) (hearlier : Ticking earlier) (hlater : Ticking later)
    (hkept : ∀ other, .select handler other ∉ later) :
    let registered := init.after (earlier ++ [.select handler timeout])
    (init.after earlier).OnceListed ∧
      (registered.delivered later).count handler ≤ 1 ∧
      ∀ past elasped rest, later = past ++ .click elasped :: rest →
        ((registered.delivered past).count handler = 0 →
          (registered.delivered (past ++ [.click elasped])).count handler = 1 →
          timeout - timeClick < clickTime (past ++ [.click elasped])) ∧
        (timeout ≤ clickTime (past ++ [.click elasped]) →
          (registered.delivered (past ++ [.click elasped])).count handler = 1) := by
  intro registered
  have hregistered : registered =
      (init.after earlier).selectTimeout handler timeout := after_append init earlier _
  have hbefore := after_timed init_timed hearlier
  obtain ⟨htimed, hsame, -, hitem⟩ := selectTimeout_timed hbefore handler timeout
  obtain ⟨item, hitem, hall⟩ := hitem hnonneg
  rw [← hregistered] at htimed hitem
  have hall : registered.left item = timeout := by
    rw [hregistered, hsame, hall]
  refine ⟨hbefore.linked.onceListed, ?_, ?_⟩
  · have honce := (waits htimed hitem hlater hkept).1
    omega
  · intro past elasped rest hsplit
    have hpast : Ticking past := fun other hmem =>
      hlater other (hsplit ▸ List.mem_append_left _ hmem)
    have hpastKept : ∀ other, .select handler other ∉ past := fun other hmem =>
      hkept other (hsplit ▸ List.mem_append_left _ hmem)
    have helasped := hlater.click
      (show .click elasped ∈ later from hsplit ▸ List.mem_append_right past List.mem_cons_self)
    obtain ⟨hcount, hleft⟩ := waits htimed hitem hpast hpastKept
    have hmiddle := after_timed htimed hpast
    obtain ⟨-, hcounts, -, hsomes⟩ := clickElapse_timed hmiddle helasped
    have htime : clickTime (past ++ [.click elasped]) = clickTime past + elasped := by
      rw [clickTime_append, clickTime, clickTime, Int.add_zero]
    have hclick := hcounts handler
    rw [delivered_snoc, step, htime, List.count_append]
    cases hwaiting : (registered.after past).entry handler with
    | none =>
        -- delivered before, and no click delivers it again
        have hnone := waiting_none hwaiting
        refine ⟨fun hzero => ?_, fun _ => ?_⟩
        · omega
        · omega
    | some waiting =>
        have hone := waiting_some hwaiting
        have hrest := hleft waiting hwaiting
        rw [hall] at hrest
        rcases hsomes handler waiting hwaiting with ⟨hnone, hshort⟩ | ⟨fallen, hfallen, -, hmore⟩
        · -- this click delivers it, when too little was left
          have hgone := waiting_none hnone
          refine ⟨fun _ _ => by omega, fun _ => by omega⟩
        · -- it waits on, so the click time has not reached the timeout
          have hstays := waiting_some hfallen
          refine ⟨fun _ _ => by omega, fun hreached => by omega⟩

/-- 1200 ms, with clicks of 500 and 1000 ms. -/
theorem timeout_exact_second :
    ((init.after [.select 1 1200]).delivered [.click 500, .click 1000]).count 1 = 1 := by
  have hticking : Ticking [.click 500, .click 1000] := by
    intro elasped hmem
    simp only [List.mem_cons, Event.click.injEq, List.not_mem_nil, or_false] at hmem
    rcases hmem with rfl | rfl
    · exact ⟨1, by decide, by decide⟩
    · exact ⟨2, by decide, by decide⟩
  have hexact := timeout_exact [] [.click 500, .click 1000] 1 1200 (by decide)
    (fun _ hmem => by cases hmem) hticking (by simp)
  exact (hexact.2.2 [.click 500] 1000 [] rfl).2 (by decide)

end Countdown

end ServiceFrame
