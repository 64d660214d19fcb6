import Mathlib.Algebra.Group.Int.Defs
import Mathlib.Algebra.Group.Nat.Defs
import ServiceFrame.Foundation.Ring
import ServiceFrame.Foundation.Run

/-! # The timer wheel of the dao proxy

`x_timer::TimerContainer`: five levels of list heads, 512 of them, and the timers
linked behind them by node ids. The ids below `headSize` are the heads, those above
stand for the storage of the id map at an offset.

A callback may schedule and cancel, so `expire` is taken apart: it goes on by one
turn of its loops at a time, and stands still while a callback runs.
-/

namespace ServiceFrame

open Foundation

/-- What the wheel uses of `id_map::IDMap`: each offset holds one id at most, an id
is found only while its offset holds it, and the storage is no part of it. -/
structure IdMap where
  State : Type
  init : State
  /-- The offset that `IDFORMAT_t::divide` finds in an id. -/
  divide : Nat → Nat
  holder : State → Nat → Option Nat
  newId : State → Option (Nat × State)
  deleteId : State → Nat → Option State
  rawDelete : State → Nat → State
  holder_init : ∀ offset, holder init offset = none
  holder_divide : ∀ datas offset id, holder datas offset = some id → divide id = offset
  newId_some : ∀ datas id next, newId datas = some (id, next) →
    holder datas (divide id) = none ∧
      holder next = Function.update (holder datas) (divide id) (some id)
  deleteId_some : ∀ datas id next, deleteId datas id = some next →
    holder datas (divide id) = some id ∧
      holder next = Function.update (holder datas) (divide id) none
  deleteId_none : ∀ datas id, deleteId datas id = none → holder datas (divide id) ≠ some id
  rawDelete_holder : ∀ datas offset,
    holder (rawDelete datas offset) = Function.update (holder datas) offset none

/-- `TimerContainer::Timer`, and the number of the call that scheduled it, which
the program does not record. Its handler and parameter are addresses. -/
structure Timer where
  handler : Nat
  param : Nat
  expires : Int
  interval : Int
  serial : Nat
deriving DecidableEq

/-- A call of `handle_timeout(param)`, and `timer_jiffies` at the time. -/
structure Firing where
  serial : Nat
  handler : Nat
  param : Nat
  tick : Nat
deriving DecidableEq

/-- Where `expire(jiffies_inner)` is: not called, at the condition of its outer
loop, at that of its inner loop, or in a callback. -/
inductive Expiring where
  | idle
  | tick (jiffiesInner : Int)
  | slot (jiffiesInner : Int)
  | callback (jiffiesInner : Int)
deriving DecidableEq

structure TimerContainer (ids : IdMap) where
  capacity : Nat
  datas : ids.State
  /-- The storage of the id map, by offset; the list entries are in `links`. -/
  timers : Nat → Timer
  links : Links Nat
  timerJiffies : Nat
  timerCount : Nat
  expiring : Expiring
  serials : Nat
  firings : List Firing

namespace TimerContainer

def tvnBits : Nat := 6

def tvrBits : Nat := 8

def tvnSize : Nat := 1 <<< tvnBits

def tvrSize : Nat := 1 <<< tvrBits

def tvnMask : Nat := tvnSize - 1

def tvrMask : Nat := tvrSize - 1

def headSize : Nat := tvrSize + tvnSize * 4

/-- What a `time_t` holds; arithmetic that leaves it is undefined. -/
def TimeT (time : Int) : Prop := -2 ^ 63 ≤ time ∧ time < 2 ^ 63

instance (time : Int) : Decidable (TimeT time) := inferInstanceAs (Decidable (_ ∧ _))

variable {ids : IdMap}

/-- The constructor and `init()`: every head is linked with itself. The memory may
hold anything before. -/
def init (ids : IdMap) (capacity : Nat) (timers : Nat → Timer) (links : Links Nat) :
    TimerContainer ids where
  capacity := capacity
  datas := ids.init
  timers := timers
  links := (List.range headSize).foldl Links.reset links
  timerJiffies := 0
  timerCount := 0
  expiring := .idle
  serials := 0
  firings := []

/-! ## The lists -/

/-- `add_tail_list(new_nod, new_nod_id, head, head_id)`. -/
def addTailList (links : Links Nat) (newNodId headId : Nat) : Links Nat :=
  let preNodeId := links.prev headId
  let links := links.setPrev headId newNodId
  let links := links.setNext newNodId headId
  let links := links.setPrev newNodId preNodeId
  links.setNext preNodeId newNodId

/-- `del_node_list(new_nod)`. -/
def delNodeList (links : Links Nat) (nod : Nat) : Links Nat :=
  let preNode := links.prev nod
  let nexNode := links.next nod
  let links := links.setNext preNode (links.next nod)
  links.setPrev nexNode (links.prev nod)

/-- The head that `schedule_i` finds for a timer; `unsigned long` is 64 bits. -/
def slotOf (timerJiffies : Nat) (timerExpires : Int) : Nat :=
  let expires := (timerExpires % 2 ^ 64).toNat
  let idx := (expires + (2 ^ 64 - timerJiffies)) % 2 ^ 64
  if idx < tvrSize then expires &&& tvrMask
  else if idx < 1 <<< (tvrBits + tvnBits) then tvrSize + ((expires >>> tvrBits) &&& tvnMask)
  else if idx < 1 <<< (tvrBits + 2 * tvnBits) then
    tvrSize + tvnSize + ((expires >>> (tvrBits + tvnBits)) &&& tvnMask)
  else if idx < 1 <<< (tvrBits + 3 * tvnBits) then
    tvrSize + 2 * tvnSize + ((expires >>> (tvrBits + 2 * tvnBits)) &&& tvnMask)
  else if 2 ^ 63 ≤ idx then timerJiffies &&& tvrMask -- negative: in the past
  else
    let expires := if idx > 0xffffffff then (0xffffffff + timerJiffies) % 2 ^ 64 else expires
    tvrSize + 3 * tvnSize + ((expires >>> (tvrBits + 3 * tvnBits)) &&& tvnMask)

def withLinks (c : TimerContainer ids) (links : Links Nat) : TimerContainer ids :=
  { c with links := links }

def getTimer (c : TimerContainer ids) (nodeId : Nat) : Timer := c.timers (nodeId - headSize)

/-- `schedule_i(timer, node_id)`. -/
def scheduleI (c : TimerContainer ids) (nodeId : Nat) : TimerContainer ids :=
  c.withLinks (addTailList c.links nodeId (slotOf c.timerJiffies (c.getTimer nodeId).expires))

/-! ## Schedule and cancel -/

/-- `schedule(handler, future_time, interval, param)`; no id is the answer 0. -/
def schedule (c : TimerContainer ids) (handler param : Nat) (futureTime interval : Int) :
    Option (TimerContainer ids × Option Nat) :=
  if c.timerCount ≥ c.capacity then some (c, none)
  else
    match ids.newId c.datas with
    | none => some (c, none)
    | some (newTimerId, datas) =>
        if TimeT futureTime ∧ TimeT interval ∧ TimeT (futureTime + c.timerJiffies) then
          let offset := ids.divide newTimerId
          let timer : Timer :=
            { handler := handler, param := param, expires := futureTime + c.timerJiffies,
              interval := interval, serial := c.serials }
          let c := { c with
            datas := datas
            timers := Function.update c.timers offset timer
            serials := c.serials + 1 }
          let c := c.scheduleI (headSize + offset)
          some ({ c with timerCount := c.timerCount + 1 }, some newTimerId)
        else none

/-- `cancel(timer_id)`. -/
def cancel (c : TimerContainer ids) (timerId : Nat) : TimerContainer ids :=
  match ids.deleteId c.datas timerId with
  | none => c
  | some datas =>
      { c with
        datas := datas
        links := delNodeList c.links (headSize + ids.divide timerId)
        timerCount := c.timerCount - 1 }

/-! ## Expire -/

/-- The loop of `cascade`, at the node `work_list.next`. It has no result when it
does not end within `fuel` turns. -/
def cascadeLoop (thisNodId : Nat) : Nat → Nat → TimerContainer ids → Option (TimerContainer ids)
  | 0, _, _ => none
  | fuel + 1, curNodeId, c =>
      if curNodeId = thisNodId then some c
      else cascadeLoop thisNodId fuel (c.links.next curNodeId) (c.scheduleI curNodeId)

/-- `cascade(tv, index)`, which answers `index`; a level begins at the head `tv`. -/
def cascade (c : TimerContainer ids) (tv index : Nat) : Option (TimerContainer ids) :=
  let thisNodId := tv + index
  let workNext := c.links.next thisNodId
  let links := c.links.setNext thisNodId thisNodId
  let links := links.setPrev thisNodId thisNodId
  cascadeLoop thisNodId (c.timerCount + 1) workNext (c.withLinks links)

/-- `INDEX(N)`. -/
def index (c : TimerContainer ids) (n : Nat) : Nat :=
  (c.timerJiffies >>> (tvrBits + n * tvnBits)) &&& tvnMask

/-- The heads from `tv2 + n * TVN_SIZE` on. -/
def tv (n : Nat) : Nat := tvrSize + n * tvnSize

/-- Cascade from level `n` up to the last, as long as the index is 0. -/
def cascadeFrom (c : TimerContainer ids) (n : Nat) : Nat → Option (TimerContainer ids)
  | 0 => some c
  | levels + 1 =>
      (c.cascade (tv n) (c.index n)).bind fun next =>
        if c.index n = 0 then cascadeFrom next (n + 1) levels else some next

/-- What the outer loop does before the inner one. -/
def cascadeTimers (c : TimerContainer ids) : Option (TimerContainer ids) :=
  if c.timerJiffies &&& tvrMask = 0 then c.cascadeFrom 0 4 else some c

/-- The body of the inner loop, up to the callback: the first timer of the list is
detached, and scheduled again or deleted. -/
def fire (c : TimerContainer ids) : Option (TimerContainer ids) :=
  let index := c.timerJiffies &&& tvrMask
  let thisNodeOff := c.links.next index
  let expired := c.getTimer thisNodeOff
  let links := c.links.setPrev (c.links.next thisNodeOff) index
  let links := links.setNext index (links.next thisNodeOff)
  let c := { c with
    links := links
    firings := c.firings ++
      [Firing.mk expired.serial expired.handler expired.param c.timerJiffies] }
  if expired.interval > 0 then
    if TimeT (expired.interval + c.timerJiffies) then
      let timer := { expired with expires := expired.interval + c.timerJiffies }
      let c := { c with timers := Function.update c.timers (thisNodeOff - headSize) timer }
      some (c.scheduleI thisNodeOff)
    else none
  else
    some { c with
      datas := ids.rawDelete c.datas (thisNodeOff - headSize)
      timerCount := c.timerCount - 1 }

def withExpiring (c : TimerContainer ids) (expiring : Expiring) : TimerContainer ids :=
  { c with expiring := expiring }

/-- The next turn of `expire`, or the end of the callback. -/
def advance (c : TimerContainer ids) : Option (TimerContainer ids) :=
  match c.expiring with
  | .idle => none
  | .tick jiffiesInner =>
      if jiffiesInner ≥ c.timerJiffies then
        c.cascadeTimers.map fun c => c.withExpiring (.slot jiffiesInner)
      else some (c.withExpiring .idle)
  | .slot jiffiesInner =>
      if c.links.next (c.timerJiffies &&& tvrMask) ≠ c.timerJiffies &&& tvrMask then
        c.fire.map fun c => c.withExpiring (.callback jiffiesInner)
      else if TimeT (c.timerJiffies + 1) then
        some { c with timerJiffies := c.timerJiffies + 1, expiring := .tick jiffiesInner }
      else none
  | .callback jiffiesInner => some (c.withExpiring (.slot jiffiesInner))

/-- Whether calls can be made: `expire` is not running, or a callback is. -/
def accepting (c : TimerContainer ids) : Bool :=
  match c.expiring with
  | .idle => true
  | .tick _ => false
  | .slot _ => false
  | .callback _ => true

inductive Event where
  | schedule (handler param : Nat) (futureTime interval : Int)
  | cancel (timerId : Nat)
  | expire (jiffiesInner : Int)
  | advance
deriving DecidableEq

def step (c : TimerContainer ids) : Event → Option (TimerContainer ids)
  | .schedule handler param futureTime interval =>
      if c.accepting then (c.schedule handler param futureTime interval).map Prod.fst else none
  | .cancel timerId => if c.accepting then some (c.cancel timerId) else none
  | .expire jiffiesInner =>
      if c.expiring = .idle then some (c.withExpiring (.tick jiffiesInner)) else none
  | .advance => c.advance

end TimerContainer

end ServiceFrame
