import ServiceFrame.Foundation.Run
import ServiceFrame.Foundation.Threads

/-! # The queue between threads

`TMessageQueue` under a mutex and a condition. A step is one operation on
them, with the code of the queue that runs under the mutex beside it: what
follows a `lock` or a `wait`, and the `push_back` in front of its `notify`.
-/

namespace ServiceFrame

open Foundation

universe uValue uThread

variable {Value : Type uValue} {Thread : Type uThread}

namespace TMessageQueue

/-- What a call came back with: the code of `push`, or of a `pop_util_empty` that found
nothing, or the value taken. -/
inductive Answer (Value : Type uValue) where
  | code (result : Int)
  | value (value : Value)
  deriving DecidableEq

inductive Call (Value : Type uValue) where
  | push (value : Value)
  | pop
  | popUtilEmpty
  deriving DecidableEq

/-- The operation a thread stands before. -/
inductive Phase (Value : Type uValue) where
  | outside
  /-- Before the lock of a call. -/
  | calling (call : Call Value)
  /-- `push` that has room, before `push_back` and `notify`. -/
  | room (value : Value)
  /-- `pop` that found nothing, before `wait`. -/
  | starving
  /-- In `wait`. -/
  | asleep
  /-- Woken in `wait` by a signal, or by none, before it has the mutex again. -/
  | signalled
  | awake
  /-- Before the unlock of a call. -/
  | leaving (answer : Answer Value)
  | returned (answer : Answer Value)
  deriving DecidableEq

namespace Phase

def HoldsMutex : Phase Value → Prop
  | .room _ | .starving | .leaving _ => True
  | _ => False

/-- The thread may call: it never has, or its last call is over. -/
def Idle : Phase Value → Prop
  | .outside | .returned _ => True
  | _ => False

instance decidableIdle : (phase : Phase Value) → Decidable phase.Idle
  | .outside | .returned _ => isTrue trivial
  | .calling _ | .room _ | .starving | .asleep | .signalled | .awake | .leaving _ => isFalse id

end Phase

/-- What threads do beside calling. -/
inductive Move (Thread : Type uThread) where
  /-- The thread goes on to its next operation; a `notify` finds nobody waiting. -/
  | next (thread : Thread)
  /-- The `notify` of a `push` wakes one of the threads that wait. -/
  | signal (thread woken : Thread)
  /-- A `wait` that ends without a signal. -/
  | wake (thread : Thread)

inductive Event (Value : Type uValue) (Thread : Type uThread) where
  | call (thread : Thread) (call : Call Value)
  | move (move : Move Thread)

end TMessageQueue

/-- The queue, its mutex, the threads that wait at its condition and where each thread is;
`pushed` and `removed` record all values so far. -/
structure TMessageQueue (Value : Type uValue) (Thread : Type uThread) where
  m_szQueueLimit : Nat
  m_seqContainer : List Value
  mutex : Option Thread
  waiters : List Thread
  threads : Thread → TMessageQueue.Phase Value
  pushed : List Value
  removed : List Value

namespace TMessageQueue

def init (limit : Nat) : TMessageQueue Value Thread :=
  { m_szQueueLimit := limit, m_seqContainer := [], mutex := none, waiters := [],
    threads := fun _ => .outside, pushed := [], removed := [] }

variable [DecidableEq Thread]

def setPhase (queue : TMessageQueue Value Thread) (thread : Thread) (phase : Phase Value) :
    TMessageQueue Value Thread :=
  { queue with threads := Function.update queue.threads thread phase }

/-- Take the front, or go to `empty` when there is none. -/
def popFront (queue : TMessageQueue Value Thread) (thread : Thread) (empty : Phase Value) :
    TMessageQueue Value Thread :=
  match queue.m_seqContainer with
  | [] => { queue with mutex := some thread }.setPhase thread empty
  | value :: rest =>
      { queue with
        mutex := some thread
        m_seqContainer := rest
        removed := queue.removed ++ [value] }.setPhase thread (.leaving (.value value))

/-- The code of a call from its lock on. -/
def enter (queue : TMessageQueue Value Thread) (thread : Thread) : Call Value →
    TMessageQueue Value Thread
  | .push value =>
      { queue with mutex := some thread }.setPhase thread
        (if queue.m_seqContainer.length ≥ queue.m_szQueueLimit then .leaving (.code (-1))
        else .room value)
  | .pop => queue.popFront thread .starving
  | .popUtilEmpty => queue.popFront thread (.leaving (.code (-1)))

/-- `push_back`, and what comes after the signal. -/
def pushBack (queue : TMessageQueue Value Thread) (thread : Thread) (value : Value) :
    TMessageQueue Value Thread :=
  { queue with
    m_seqContainer := queue.m_seqContainer ++ [value]
    pushed := queue.pushed ++ [value] }.setPhase thread (.leaving (.code 0))

/-- The thread is no longer among those that wait. -/
def rouse (queue : TMessageQueue Value Thread) (thread : Thread) (phase : Phase Value) :
    TMessageQueue Value Thread :=
  { queue with waiters := queue.waiters.filter (· ≠ thread) }.setPhase thread phase

/-- There is no step while the mutex is taken, nor for a thread that waits to be woken. -/
def advance (queue : TMessageQueue Value Thread) (thread : Thread) :
    Option (TMessageQueue Value Thread) :=
  match queue.threads thread with
  | .outside | .returned _ | .asleep => none
  | .calling call => if queue.mutex = none then some (queue.enter thread call) else none
  | .room value => if queue.waiters = [] then some (queue.pushBack thread value) else none
  | .starving =>
      some ({ queue with mutex := none, waiters := queue.waiters ++ [thread] }.setPhase thread
        .asleep)
  | .signalled | .awake =>
      if queue.mutex = none then some (queue.popFront thread .starving) else none
  | .leaving answer => some ({ queue with mutex := none }.setPhase thread (.returned answer))

def moved (queue : TMessageQueue Value Thread) : Move Thread → Option (TMessageQueue Value Thread)
  | .next thread => queue.advance thread
  | .signal thread woken =>
      match queue.threads thread with
      | .room value =>
          if woken ∈ queue.waiters then some ((queue.rouse woken .signalled).pushBack thread value)
          else none
      | _ => none
  | .wake thread => if thread ∈ queue.waiters then some (queue.rouse thread .awake) else none

def step (queue : TMessageQueue Value Thread) :
    Event Value Thread → Option (TMessageQueue Value Thread)
  | .call thread call =>
      if (queue.threads thread).Idle then some (queue.setPhase thread (.calling call)) else none
  | .move move => queue.moved move

/-! ## What a step can do -/

/-- The phases from which a thread that gets the mutex looks for a value. -/
def Phase.Takes : Phase Value → Prop
  | .calling .pop | .calling .popUtilEmpty | .signalled | .awake => True
  | _ => False

/-- How a thread's next operation leaves the queue, whichever it is. -/
inductive Moved (queue : TMessageQueue Value Thread) : TMessageQueue Value Thread → Prop where
  | refused (thread : Thread) (value : Value)
      (hphase : queue.threads thread = .calling (.push value)) (hfree : queue.mutex = none)
      (hfull : queue.m_szQueueLimit ≤ queue.m_seqContainer.length) :
      Moved queue ({ queue with mutex := some thread }.setPhase thread (.leaving (.code (-1))))
  | admitted (thread : Thread) (value : Value)
      (hphase : queue.threads thread = .calling (.push value)) (hfree : queue.mutex = none)
      (hroom : queue.m_seqContainer.length < queue.m_szQueueLimit) :
      Moved queue ({ queue with mutex := some thread }.setPhase thread (.room value))
  | took (thread : Thread) (value : Value) (rest : List Value)
      (hphase : (queue.threads thread).Takes) (hfree : queue.mutex = none)
      (hfront : queue.m_seqContainer = value :: rest) :
      Moved queue
        ({ queue with
          mutex := some thread
          m_seqContainer := rest
          removed := queue.removed ++ [value] }.setPhase thread (.leaving (.value value)))
  | found (thread : Thread) (phase : Phase Value)
      (hphase : (queue.threads thread).Takes) (hfree : queue.mutex = none)
      (hempty : queue.m_seqContainer = [])
      (hnext : phase = .starving ∨
        queue.threads thread = .calling .popUtilEmpty ∧ phase = .leaving (.code (-1))) :
      Moved queue ({ queue with mutex := some thread }.setPhase thread phase)
  | slept (thread : Thread) (hphase : queue.threads thread = .starving) :
      Moved queue
        ({ queue with mutex := none, waiters := queue.waiters ++ [thread] }.setPhase thread .asleep)
  | pushed (thread : Thread) (value : Value) (hphase : queue.threads thread = .room value)
      (hnobody : queue.waiters = []) : Moved queue (queue.pushBack thread value)
  | signalled (thread woken : Thread) (value : Value)
      (hphase : queue.threads thread = .room value) (hwoken : woken ∈ queue.waiters) :
      Moved queue ((queue.rouse woken .signalled).pushBack thread value)
  | woke (thread : Thread) (hwaits : thread ∈ queue.waiters) :
      Moved queue (queue.rouse thread .awake)
  | left (thread : Thread) (answer : Answer Value)
      (hphase : queue.threads thread = .leaving answer) :
      Moved queue ({ queue with mutex := none }.setPhase thread (.returned answer))

section Spec

variable {queue next : TMessageQueue Value Thread} {thread : Thread}

theorem popFront_spec {empty : Phase Value} (htakes : (queue.threads thread).Takes)
    (hfree : queue.mutex = none)
    (hnone : empty = .starving ∨
      queue.threads thread = .calling .popUtilEmpty ∧ empty = .leaving (.code (-1))) :
    Moved queue (queue.popFront thread empty) := by
  unfold popFront
  split
  next hempty => exact .found thread empty htakes hfree hempty hnone
  next value rest hfront => exact .took thread value rest htakes hfree hfront

theorem advance_spec (hnext : queue.advance thread = some next) : Moved queue next := by
  unfold advance at hnext
  split at hnext
  next => cases hnext
  next => cases hnext
  next => cases hnext
  next call hphase =>
    rw [Option.ite_none_right_eq_some, Option.some.injEq] at hnext
    obtain ⟨hfree, rfl⟩ := hnext
    cases call with
    | push value =>
        dsimp only [enter]
        split
        next hfull => exact .refused thread value hphase hfree hfull
        next hroom => exact .admitted thread value hphase hfree (Nat.lt_of_not_ge hroom)
    | pop => exact popFront_spec (by rw [hphase]; trivial) hfree (Or.inl rfl)
    | popUtilEmpty => exact popFront_spec (by rw [hphase]; trivial) hfree (Or.inr ⟨hphase, rfl⟩)
  next value hphase =>
    rw [Option.ite_none_right_eq_some, Option.some.injEq] at hnext
    obtain ⟨hnobody, rfl⟩ := hnext
    exact .pushed thread value hphase hnobody
  next hphase =>
    cases hnext
    exact .slept thread hphase
  next hphase =>
    rw [Option.ite_none_right_eq_some, Option.some.injEq] at hnext
    obtain ⟨hfree, rfl⟩ := hnext
    exact popFront_spec (by rw [hphase]; trivial) hfree (Or.inl rfl)
  next hphase =>
    rw [Option.ite_none_right_eq_some, Option.some.injEq] at hnext
    obtain ⟨hfree, rfl⟩ := hnext
    exact popFront_spec (by rw [hphase]; trivial) hfree (Or.inl rfl)
  next answer hphase =>
    cases hnext
    exact .left thread answer hphase

theorem moved_spec {move : Move Thread} (hnext : queue.moved move = some next) :
    Moved queue next := by
  cases move with
  | next thread => exact advance_spec hnext
  | signal thread woken =>
      dsimp only [moved] at hnext
      split at hnext
      next value hphase =>
        rw [Option.ite_none_right_eq_some, Option.some.injEq] at hnext
        obtain ⟨hwoken, rfl⟩ := hnext
        exact .signalled thread woken value hphase hwoken
      next => cases hnext
  | wake thread =>
      dsimp only [moved] at hnext
      rw [Option.ite_none_right_eq_some, Option.some.injEq] at hnext
      obtain ⟨hwaits, rfl⟩ := hnext
      exact .woke thread hwaits

theorem step_call {call : Call Value} (hnext : queue.step (.call thread call) = some next) :
    (queue.threads thread).Idle ∧ next = queue.setPhase thread (.calling call) := by
  rw [step, Option.ite_none_right_eq_some, Option.some.injEq] at hnext
  exact ⟨hnext.1, hnext.2.symm⟩

end Spec

/-! ## What holds between any two steps -/

/-- What a thread inside the mutex has seen of the queue. -/
def Phase.Promises (limit : Nat) (contents : List Value) : Phase Value → Prop
  | .room _ => contents.length < limit
  | .starving => contents = []
  | _ => True

/-- While somebody waits unsignalled, each value in the queue has its signalled thread. -/
def Roused (queue : TMessageQueue Value Thread) (length : Nat) : Prop :=
  ∃ count, Counts (fun thread => queue.threads thread = .signalled) count ∧
    (queue.waiters ≠ [] → length ≤ count)

structure Consistent (queue : TMessageQueue Value Thread) : Prop where
  guarded : Guards queue.mutex (fun thread => (queue.threads thread).HoldsMutex)
  waiting : ∀ thread, thread ∈ queue.waiters ↔ queue.threads thread = .asleep
  logged : queue.pushed = queue.removed ++ queue.m_seqContainer
  bounded : queue.m_seqContainer.length ≤ queue.m_szQueueLimit
  promised : ∀ thread,
    (queue.threads thread).Promises queue.m_szQueueLimit queue.m_seqContainer
  roused : queue.Roused queue.m_seqContainer.length

omit [DecidableEq Thread] in
theorem init_consistent (limit : Nat) : (init limit : TMessageQueue Value Thread).Consistent where
  guarded := fun thread => by simp [init, Phase.HoldsMutex]
  waiting := fun thread => by simp [init]
  logged := rfl
  bounded := Nat.zero_le _
  promised := fun thread => trivial
  roused := ⟨0, Counts.zero fun thread => by simp [init], fun hwaits => absurd rfl hwaits⟩

theorem Phase.promises_of_not_holds {limit : Nat} {contents : List Value} {phase : Phase Value}
    (hout : ¬ phase.HoldsMutex) : phase.Promises limit contents := by
  cases phase with
  | room value => exact absurd trivial hout
  | starving => exact absurd trivial hout
  | _ => trivial

theorem Phase.Takes.ne_asleep {phase : Phase Value} (htakes : phase.Takes) : phase ≠ .asleep := by
  rintro rfl
  exact htakes

namespace Consistent

variable {queue next : TMessageQueue Value Thread} {thread : Thread} {phase : Phase Value}

/-- What a thread alone in the mutex makes of the queue breaks no promise but its own. -/
theorem promised_alone {limit : Nat} {contents : List Value}
    (halone : ∀ other, other ≠ thread → ¬ (queue.threads other).HoldsMutex)
    (hphase : phase.Promises limit contents) (other : Thread) :
    (Function.update queue.threads thread phase other).Promises limit contents := by
  rw [Function.update_apply]
  split
  next => exact hphase
  next hother => exact Phase.promises_of_not_holds (halone other hother)

omit [DecidableEq Thread] in
theorem alone_of_free (hqueue : queue.Consistent) (hfree : queue.mutex = none) (other : Thread) :
    ¬ (queue.threads other).HoldsMutex :=
  hqueue.guarded.free_iff.mp hfree other

omit [DecidableEq Thread] in
theorem alone_of_holds (hqueue : queue.Consistent) (hholds : (queue.threads thread).HoldsMutex)
    (other : Thread) (hother : other ≠ thread) : ¬ (queue.threads other).HoldsMutex :=
  fun hinside => hother (hqueue.guarded.unique hinside hholds)

theorem waiting_update (hqueue : queue.Consistent) (hold : queue.threads thread ≠ .asleep)
    (hphase : phase ≠ .asleep) (other : Thread) :
    other ∈ queue.waiters ↔ Function.update queue.threads thread phase other = .asleep := by
  rw [hqueue.waiting, Function.update_apply]
  split
  next hsame => exact iff_of_false (hsame ▸ hold) hphase
  next => exact Iff.rfl

/-- Who is signalled stays the same when the thread that moves was not and is not. -/
theorem roused_update {length : Nat} (hroused : queue.Roused length)
    (hold : queue.threads thread ≠ .signalled) (hphase : phase ≠ .signalled) {shorter : Nat}
    (hshorter : shorter ≤ length) : (queue.setPhase thread phase).Roused shorter := by
  obtain ⟨count, hcount, hlength⟩ := hroused
  exact ⟨count, Counts.update_stay (· = Phase.signalled) hcount (iff_of_false hphase hold),
    fun hwaits => hshorter.trans (hlength hwaits)⟩

/-- A signalled thread that looks takes its value, unless another has. -/
theorem roused_leave {length : Nat} (hroused : queue.Roused length) (hphase : phase ≠ .signalled)
    {shorter : Nat} (hshorter : shorter ≤ length - 1) :
    (queue.setPhase thread phase).Roused shorter := by
  by_cases hold : queue.threads thread = .signalled
  · obtain ⟨count, hcount, hlength⟩ := hroused
    have hpos : 0 < count := hcount.pos_iff.mpr ⟨thread, hold⟩
    obtain ⟨left, rfl⟩ : ∃ left, count = left + 1 := ⟨count - 1, by omega⟩
    refine ⟨left, Counts.update_leave (· = Phase.signalled) hcount hold hphase, fun hwaits => ?_⟩
    have hbound := hlength hwaits
    omega
  · exact roused_update hroused hold hphase (hshorter.trans (Nat.sub_le length 1))

theorem called (hqueue : queue.Consistent) (hidle : (queue.threads thread).Idle)
    (call : Call Value) : (queue.setPhase thread (.calling call)).Consistent where
  guarded := by
    refine Guards.stay Phase.HoldsMutex hqueue.guarded (iff_of_false id ?_)
    cases hphase : queue.threads thread <;> simp_all [Phase.Idle, Phase.HoldsMutex]
  waiting := by
    refine hqueue.waiting_update ?_ (by simp)
    intro hasleep
    rw [hasleep] at hidle
    exact hidle
  logged := hqueue.logged
  bounded := hqueue.bounded
  promised := by
    intro other
    change (Function.update queue.threads thread _ other).Promises _ _
    rw [Function.update_apply]
    split
    next => trivial
    next => exact hqueue.promised other
  roused := by
    refine roused_update hqueue.roused ?_ (by simp) le_rfl
    intro hsignalled
    rw [hsignalled] at hidle
    exact hidle

/-- A thread that gets the mutex, whatever it makes of the values. -/
theorem entered (hqueue : queue.Consistent) (hfree : queue.mutex = none)
    (hasleep : queue.threads thread ≠ .asleep) {contents removed : List Value}
    (hholds : phase.HoldsMutex) (hlogged : queue.pushed = removed ++ contents)
    (hbounded : contents.length ≤ queue.m_szQueueLimit)
    (hpromised : phase.Promises queue.m_szQueueLimit contents)
    (hroused : (queue.setPhase thread phase).Roused contents.length) :
    ({ queue with
      mutex := some thread
      m_seqContainer := contents
      removed := removed }.setPhase thread phase).Consistent where
  guarded := by
    have hguarded := hqueue.guarded
    rw [hfree] at hguarded
    exact Guards.take Phase.HoldsMutex hguarded hholds
  waiting := by
    apply hqueue.waiting_update hasleep
    rintro rfl
    exact hholds
  logged := hlogged
  bounded := hbounded
  promised := promised_alone (fun other _ => hqueue.alone_of_free hfree other) hpromised
  roused := hroused

theorem slept (hqueue : queue.Consistent) (hphase : queue.threads thread = .starving) :
    ({ queue with mutex := none, waiters := queue.waiters ++ [thread] }.setPhase thread
      .asleep).Consistent where
  guarded := Guards.drop Phase.HoldsMutex hqueue.guarded (by rw [hphase]; trivial) id
  waiting := by
    intro other
    change other ∈ queue.waiters ++ [thread] ↔ Function.update queue.threads thread _ other = _
    rw [List.mem_append, List.mem_singleton, hqueue.waiting, Function.update_apply]
    by_cases hsame : other = thread
    · simp [hsame]
    · simp [hsame]
  logged := hqueue.logged
  bounded := hqueue.bounded
  promised := promised_alone (hqueue.alone_of_holds (by rw [hphase]; trivial)) trivial
  roused := by
    -- it sleeps because the queue is empty, whoever else sleeps
    have hempty : queue.m_seqContainer = [] := by
      have hpromised := hqueue.promised thread
      rwa [hphase] at hpromised
    obtain ⟨count, hcount, -⟩ := hqueue.roused
    refine ⟨count, Counts.update_stay (· = Phase.signalled) hcount ?_, fun _ => ?_⟩
    · exact iff_of_false (by simp) (by rw [hphase]; simp)
    · change queue.m_seqContainer.length ≤ count
      rw [hempty]
      exact Nat.zero_le count

/-- A push into a queue in which every value has its signalled thread and one is left over. -/
theorem pushBack (hqueue : queue.Consistent) {value : Value}
    (hphase : queue.threads thread = .room value)
    (hslack : queue.Roused (queue.m_seqContainer.length + 1)) :
    (queue.pushBack thread value).Consistent where
  guarded := by
    refine Guards.stay Phase.HoldsMutex hqueue.guarded (iff_of_true trivial ?_)
    rw [hphase]
    trivial
  waiting := hqueue.waiting_update (by rw [hphase]; simp) (by simp)
  logged := by
    change queue.pushed ++ [value] = queue.removed ++ (queue.m_seqContainer ++ [value])
    rw [hqueue.logged, List.append_assoc]
  bounded := by
    have hroom := hqueue.promised thread
    rw [hphase] at hroom
    change (queue.m_seqContainer ++ [value]).length ≤ _
    rw [List.length_append]
    exact hroom
  promised := promised_alone (hqueue.alone_of_holds (by rw [hphase]; trivial)) trivial
  roused := by
    change (queue.setPhase thread _).Roused (queue.m_seqContainer ++ [value]).length
    rw [List.length_append]
    exact roused_update hslack (by rw [hphase]; simp) (by simp) le_rfl

/-- A thread that waits no longer, signalled or not. -/
theorem rouse (hqueue : queue.Consistent) (hwaits : thread ∈ queue.waiters)
    (hphase : phase = .signalled ∨ phase = .awake) : (queue.rouse thread phase).Consistent := by
  have hasleep := (hqueue.waiting thread).mp hwaits
  refine ⟨?_, ?_, hqueue.logged, hqueue.bounded, ?_, ?_⟩
  · refine Guards.stay Phase.HoldsMutex hqueue.guarded (iff_of_false ?_ (by rw [hasleep]; exact id))
    rcases hphase with rfl | rfl
    · exact id
    · exact id
  · intro other
    change other ∈ queue.waiters.filter _ ↔ Function.update queue.threads thread _ other = _
    rw [List.mem_filter, hqueue.waiting, Function.update_apply]
    by_cases hsame : other = thread
    · rcases hphase with rfl | rfl
      · simp [hsame]
      · simp [hsame]
    · simp [hsame]
  · intro other
    change (Function.update queue.threads thread _ other).Promises _ _
    rw [Function.update_apply]
    split
    next => rcases hphase with rfl | rfl <;> trivial
    next => exact hqueue.promised other
  · obtain ⟨count, hcount, hlength⟩ := hqueue.roused
    have hbound := hlength (List.ne_nil_of_mem hwaits)
    rcases hphase with rfl | rfl
    · exact ⟨count + 1, Counts.update_enter (· = Phase.signalled) hcount (by simp [hasleep]) rfl,
        fun _ => hbound.trans (Nat.le_succ count)⟩
    · refine ⟨count, Counts.update_stay (· = Phase.signalled) hcount ?_, fun _ => hbound⟩
      exact iff_of_false (by simp) (by simp [hasleep])

/-- A signal leaves one signalled thread over for the value it was sent for. -/
theorem rouse_slack (hqueue : queue.Consistent) (hwaits : thread ∈ queue.waiters) :
    (queue.rouse thread .signalled).Roused (queue.m_seqContainer.length + 1) := by
  have hasleep := (hqueue.waiting thread).mp hwaits
  obtain ⟨count, hcount, hlength⟩ := hqueue.roused
  exact ⟨count + 1, Counts.update_enter (· = Phase.signalled) hcount (by simp [hasleep]) rfl,
    fun _ => Nat.succ_le_succ (hlength (List.ne_nil_of_mem hwaits))⟩

theorem rouse_room (hqueue : queue.Consistent) {woken : Thread} {value : Value}
    (hphase : queue.threads thread = .room value) (hwoken : woken ∈ queue.waiters) :
    (queue.rouse woken .signalled).threads thread = .room value := by
  change Function.update queue.threads woken _ thread = _
  rw [Function.update_of_ne, hphase]
  rintro rfl
  rw [(hqueue.waiting thread).mp hwoken] at hphase
  cases hphase

theorem left (hqueue : queue.Consistent) {answer : Answer Value}
    (hphase : queue.threads thread = .leaving answer) :
    ({ queue with mutex := none }.setPhase thread (.returned answer)).Consistent where
  guarded := Guards.drop Phase.HoldsMutex hqueue.guarded (by rw [hphase]; trivial) id
  waiting := hqueue.waiting_update (by rw [hphase]; simp) (by simp)
  logged := hqueue.logged
  bounded := hqueue.bounded
  promised := promised_alone (hqueue.alone_of_holds (by rw [hphase]; trivial)) trivial
  roused := roused_update hqueue.roused (by rw [hphase]; simp) (by simp) le_rfl

theorem moved (hqueue : queue.Consistent) (hmoved : Moved queue next) : next.Consistent := by
  cases hmoved with
  | refused thread value hphase hfree hfull =>
      exact hqueue.entered hfree (by rw [hphase]; simp) trivial hqueue.logged hqueue.bounded trivial
        (roused_update hqueue.roused (by rw [hphase]; simp) (by simp) le_rfl)
  | admitted thread value hphase hfree hroom =>
      exact hqueue.entered hfree (by rw [hphase]; simp) trivial hqueue.logged hqueue.bounded hroom
        (roused_update hqueue.roused (by rw [hphase]; simp) (by simp) le_rfl)
  | took thread value rest htakes hfree hfront =>
      have hlogged : queue.pushed = queue.removed ++ [value] ++ rest := by
        rw [hqueue.logged, hfront, List.append_assoc, List.singleton_append]
      have hbounded := hqueue.bounded
      have hroused := hqueue.roused
      rw [hfront] at hbounded hroused
      exact hqueue.entered hfree (htakes.ne_asleep) trivial hlogged
        (Nat.le_of_succ_le hbounded) trivial (roused_leave hroused (by simp) le_rfl)
  | found thread phase htakes hfree hempty hnext =>
      have hholds : phase.HoldsMutex := by
        rcases hnext with rfl | ⟨-, rfl⟩ <;> trivial
      have hpromises : phase.Promises queue.m_szQueueLimit queue.m_seqContainer := by
        rcases hnext with rfl | ⟨-, rfl⟩
        · exact hempty
        · trivial
      refine hqueue.entered hfree (htakes.ne_asleep) hholds hqueue.logged hqueue.bounded hpromises
        (roused_leave hqueue.roused ?_ (by simp [hempty]))
      rcases hnext with rfl | ⟨-, rfl⟩ <;> simp
  | slept thread hphase => exact hqueue.slept hphase
  | pushed thread value hphase hnobody =>
      obtain ⟨count, hcount, -⟩ := hqueue.roused
      exact hqueue.pushBack hphase ⟨count, hcount, fun hwaits => absurd hnobody hwaits⟩
  | signalled thread woken value hphase hwoken =>
      exact (hqueue.rouse hwoken (Or.inl rfl)).pushBack (hqueue.rouse_room hphase hwoken)
        (hqueue.rouse_slack hwoken)
  | woke thread hwaits => exact hqueue.rouse hwaits (Or.inr rfl)
  | left thread answer hphase => exact hqueue.left hphase

theorem step (hqueue : queue.Consistent) {event : Event Value Thread}
    (hnext : queue.step event = some next) : next.Consistent := by
  cases event with
  | call thread call =>
      obtain ⟨hidle, rfl⟩ := step_call hnext
      exact hqueue.called hidle call
  | move move => exact hqueue.moved (moved_spec hnext)

end Consistent

/-! ## What callers have in the queue -/

namespace Phase

/-- The value a call has taken. -/
def value? : Phase Value → Option Value
  | .leaving (.value value) | .returned (.value value) => some value
  | _ => none

/-- The value a `push` has not put into the queue yet. -/
def offers? : Phase Value → Option Value
  | .calling (.push value) | .room value => some value
  | _ => none

/-- What a thread came for, with its last call or in it. -/
inductive Role where
  | nothing
  | pushes
  | pops
  | tries
  deriving DecidableEq

def role : Phase Value → Role
  | .outside => .nothing
  | .calling (.push _) | .room _ | .leaving (.code _) | .returned (.code _) => .pushes
  | .calling .pop | .starving | .asleep | .signalled | .awake | .leaving (.value _) |
    .returned (.value _) => .pops
  | .calling .popUtilEmpty => .tries

variable {phase : Phase Value}

theorem Takes.role_eq (htakes : phase.Takes) (hrole : phase.role ≠ .tries) :
    phase.role = .pops := by
  cases phase with
  | calling call =>
      cases call with
      | push value => exact absurd htakes id
      | pop => rfl
      | popUtilEmpty => exact absurd rfl hrole
  | signalled => rfl
  | awake => rfl
  | _ => exact absurd htakes id

theorem Takes.not_idle (htakes : phase.Takes) : ¬ phase.Idle := by
  cases phase with
  | outside => exact absurd htakes id
  | returned answer => exact absurd htakes id
  | _ => exact id

theorem Takes.value?_eq (htakes : phase.Takes) : phase.value? = none := by
  cases phase with
  | leaving answer => exact absurd htakes id
  | returned answer => exact absurd htakes id
  | _ => rfl

end Phase

section Callers

variable {queue next : TMessageQueue Value Thread}

/-- A move hands the front of the queue to one thread, or nothing to anybody. -/
theorem Moved.values (hmoved : Moved queue next) (hqueue : queue.Consistent) :
    (next.removed = queue.removed ∧
      ∀ other, (next.threads other).value? = (queue.threads other).value?) ∨
    ∃ thread value rest, (queue.threads thread).Takes ∧ queue.m_seqContainer = value :: rest ∧
      next.removed = queue.removed ++ [value] ∧
      next.threads = Function.update queue.threads thread (.leaving (.value value)) := by
  cases hmoved with
  | refused thread value hphase =>
      exact Or.inl ⟨rfl, update_same Phase.value? (by rw [hphase]; rfl)⟩
  | admitted thread value hphase =>
      exact Or.inl ⟨rfl, update_same Phase.value? (by rw [hphase]; rfl)⟩
  | took thread value rest htakes hfree hfront =>
      exact Or.inr ⟨thread, value, rest, htakes, hfront, rfl, rfl⟩
  | found thread phase htakes hfree hempty hnext =>
      refine Or.inl ⟨rfl, update_same Phase.value? ?_⟩
      rw [htakes.value?_eq]
      rcases hnext with rfl | ⟨-, rfl⟩ <;> rfl
  | slept thread hphase => exact Or.inl ⟨rfl, update_same Phase.value? (by rw [hphase]; rfl)⟩
  | pushed thread value hphase =>
      exact Or.inl ⟨rfl, update_same Phase.value? (by rw [hphase]; rfl)⟩
  | signalled thread woken value hphase hwoken =>
      have hasleep := (hqueue.waiting woken).mp hwoken
      have hwoke : ∀ other, ((queue.rouse woken .signalled).threads other).value? =
          (queue.threads other).value? := update_same Phase.value? (by rw [hasleep]; rfl)
      refine Or.inl ⟨rfl, fun other => (update_same Phase.value? ?_ other).trans (hwoke other)⟩
      rw [hqueue.rouse_room hphase hwoken]
      rfl
  | woke thread hwaits =>
      have hasleep := (hqueue.waiting thread).mp hwaits
      exact Or.inl ⟨rfl, update_same Phase.value? (by rw [hasleep]; rfl)⟩
  | left thread answer hphase =>
      refine Or.inl ⟨rfl, update_same Phase.value? ?_⟩
      rw [hphase]
      cases answer <;> rfl

/-- A thread that is in no call stays as it is. -/
theorem Moved.idle (hmoved : Moved queue next) (hqueue : queue.Consistent) {other : Thread}
    (hidle : (queue.threads other).Idle) : next.threads other = queue.threads other := by
  have hkeep : ∀ {thread : Thread} {phase : Phase Value}, ¬ (queue.threads thread).Idle →
      Function.update queue.threads thread phase other = queue.threads other := by
    intro thread phase hbusy
    refine Function.update_of_ne ?_ _ _
    rintro rfl
    exact hbusy hidle
  cases hmoved with
  | refused thread value hphase => exact hkeep (by rw [hphase]; exact id)
  | admitted thread value hphase => exact hkeep (by rw [hphase]; exact id)
  | took thread value rest htakes => exact hkeep htakes.not_idle
  | found thread phase htakes => exact hkeep htakes.not_idle
  | slept thread hphase => exact hkeep (by rw [hphase]; exact id)
  | pushed thread value hphase => exact hkeep (by rw [hphase]; exact id)
  | signalled thread woken value hphase hwoken =>
      have hasleep : ¬ (queue.threads woken).Idle := by
        rw [(hqueue.waiting woken).mp hwoken]
        exact id
      refine (Function.update_of_ne ?_ _ _).trans (hkeep hasleep)
      rintro rfl
      rw [hphase] at hidle
      exact hidle
  | woke thread hwaits => exact hkeep (by rw [(hqueue.waiting thread).mp hwaits]; exact id)
  | left thread answer hphase => exact hkeep (by rw [hphase]; exact id)

/-- A move keeps what each thread came for, while nobody calls `pop_util_empty`. -/
theorem Moved.role (hmoved : Moved queue next) (hqueue : queue.Consistent)
    (hnobody : ∀ other, (queue.threads other).role ≠ .tries) (other : Thread) :
    (next.threads other).role = (queue.threads other).role := by
  cases hmoved with
  | refused thread value hphase => exact update_same Phase.role (by rw [hphase]; rfl) other
  | admitted thread value hphase => exact update_same Phase.role (by rw [hphase]; rfl) other
  | took thread value rest htakes =>
      exact update_same Phase.role (by rw [htakes.role_eq (hnobody thread)]; rfl) other
  | found thread phase htakes hfree hempty hnext =>
      refine update_same Phase.role ?_ other
      rcases hnext with rfl | ⟨htries, -⟩
      · rw [htakes.role_eq (hnobody thread)]
        rfl
      · exact absurd (by rw [htries]; rfl) (hnobody thread)
  | slept thread hphase => exact update_same Phase.role (by rw [hphase]; rfl) other
  | pushed thread value hphase => exact update_same Phase.role (by rw [hphase]; rfl) other
  | signalled thread woken value hphase hwoken =>
      have hasleep := (hqueue.waiting woken).mp hwoken
      have hwoke : ∀ other, ((queue.rouse woken .signalled).threads other).role =
          (queue.threads other).role := update_same Phase.role (by rw [hasleep]; rfl)
      refine (update_same Phase.role ?_ other).trans (hwoke other)
      rw [hqueue.rouse_room hphase hwoken]
      rfl
  | woke thread hwaits =>
      have hasleep := (hqueue.waiting thread).mp hwaits
      exact update_same Phase.role (by rw [hasleep]; rfl) other
  | left thread answer hphase =>
      refine update_same Phase.role ?_ other
      rw [hphase]
      cases answer <;> rfl

theorem offers_of_update {thread other : Thread} {phase : Phase Value} {value : Value}
    (hnone : phase.offers? = none)
    (hoffers : (Function.update queue.threads thread phase other).offers? = some value) :
    other ≠ thread ∧ (queue.threads other).offers? = some value := by
  rw [Function.update_apply] at hoffers
  split at hoffers
  next =>
    rw [hnone] at hoffers
    cases hoffers
  next hother => exact ⟨hother, hoffers⟩

/-- A move puts into the queue what one thread offers, or nothing, and nobody offers more. -/
theorem Moved.offers (hmoved : Moved queue next) :
    (next.pushed = queue.pushed ∧ ∀ other value, (next.threads other).offers? = some value →
      (queue.threads other).offers? = some value) ∨
    ∃ thread value, (queue.threads thread).offers? = some value ∧
      next.pushed = queue.pushed ++ [value] ∧
      ∀ other more, (next.threads other).offers? = some more →
        other ≠ thread ∧ (queue.threads other).offers? = some more := by
  cases hmoved with
  | refused thread value =>
      exact Or.inl ⟨rfl, fun other more hmore => (offers_of_update rfl hmore).2⟩
  | admitted thread value hphase =>
      have hsame : (Phase.room value).offers? = (queue.threads thread).offers? := by
        rw [hphase]
        rfl
      exact Or.inl ⟨rfl, fun other more hmore =>
        (update_same Phase.offers? hsame other).symm.trans hmore⟩
  | took thread value rest =>
      exact Or.inl ⟨rfl, fun other more hmore => (offers_of_update rfl hmore).2⟩
  | found thread phase htakes hfree hempty hnext =>
      refine Or.inl ⟨rfl, fun other more hmore => (offers_of_update ?_ hmore).2⟩
      rcases hnext with rfl | ⟨-, rfl⟩ <;> rfl
  | slept thread => exact Or.inl ⟨rfl, fun other more hmore => (offers_of_update rfl hmore).2⟩
  | pushed thread value hphase =>
      refine Or.inr ⟨thread, value, by rw [hphase]; rfl, rfl, fun other more hmore => ?_⟩
      exact offers_of_update rfl hmore
  | signalled thread woken value hphase =>
      refine Or.inr ⟨thread, value, by rw [hphase]; rfl, rfl, fun other more hmore => ?_⟩
      obtain ⟨hother, hmore⟩ := offers_of_update rfl hmore
      exact ⟨hother, (offers_of_update rfl hmore).2⟩
  | woke thread => exact Or.inl ⟨rfl, fun other more hmore => (offers_of_update rfl hmore).2⟩
  | left thread => exact Or.inl ⟨rfl, fun other more hmore => (offers_of_update rfl hmore).2⟩

end Callers

/-! ## What the queue is for -/

/-- Nothing is lost or taken twice, a push fails exactly on a full queue, and nobody sleeps
beside a value that no signalled thread is there for. -/
structure Sound (queue : TMessageQueue Value Thread) : Prop where
  in_order : queue.removed <+: queue.pushed
  refuses : ∀ thread value next, queue.threads thread = .calling (.push value) →
    queue.advance thread = some next →
      (next.threads thread = .leaving (.code (-1)) ↔
        queue.m_seqContainer.length = queue.m_szQueueLimit) ∧
      (next.threads thread ≠ .leaving (.code (-1)) → next.threads thread = .room value)
  accepts : ∀ thread value move next, queue.threads thread = .room value →
    queue.moved move = some next → next.threads thread = .room value ∨
      next.threads thread = .leaving (.code 0) ∧ next.pushed = queue.pushed ++ [value]
  awake : ∀ thread, queue.threads thread = .asleep →
    ∃ count, Counts (fun other => queue.threads other = .signalled) count ∧
      queue.m_seqContainer.length ≤ count

namespace Consistent

variable {queue next : TMessageQueue Value Thread} {thread : Thread}

theorem refuses (hqueue : queue.Consistent) {value : Value}
    (hphase : queue.threads thread = .calling (.push value))
    (hnext : queue.advance thread = some next) :
    (next.threads thread = .leaving (.code (-1)) ↔
      queue.m_seqContainer.length = queue.m_szQueueLimit) ∧
    (next.threads thread ≠ .leaving (.code (-1)) → next.threads thread = .room value) := by
  unfold advance at hnext
  rw [hphase] at hnext
  rw [Option.ite_none_right_eq_some, Option.some.injEq] at hnext
  obtain ⟨-, rfl⟩ := hnext
  have hbounded := hqueue.bounded
  have hthread : (queue.enter thread (.push value)).threads thread =
      if queue.m_seqContainer.length ≥ queue.m_szQueueLimit then .leaving (.code (-1))
      else .room value := Function.update_self ..
  rw [hthread]
  split
  next hfull =>
    exact ⟨iff_of_true rfl (Nat.le_antisymm hbounded hfull), fun hnot => absurd rfl hnot⟩
  next hroom =>
    refine ⟨iff_of_false (by simp) fun hfull => hroom (Nat.le_of_eq hfull.symm), fun _ => rfl⟩

/-- A thread with room keeps it until its push is done. -/
theorem accepts (hqueue : queue.Consistent) {value : Value}
    (hphase : queue.threads thread = .room value) (hmoved : Moved queue next) :
    next.threads thread = .room value ∨
      next.threads thread = .leaving (.code 0) ∧ next.pushed = queue.pushed ++ [value] := by
  have hkeep : ∀ {other : Thread} {phase : Phase Value}, queue.threads other ≠ .room value →
      Function.update queue.threads other phase thread = .room value := by
    intro other phase hother
    rw [Function.update_of_ne, hphase]
    rintro rfl
    exact hother hphase
  cases hmoved with
  | refused other _ hother => exact Or.inl (hkeep (by simp [hother]))
  | admitted other _ hother => exact Or.inl (hkeep (by simp [hother]))
  | took other _ _ htakes =>
      refine Or.inl (hkeep fun hroom => ?_)
      rw [hroom] at htakes
      exact htakes
  | found other _ htakes =>
      refine Or.inl (hkeep fun hroom => ?_)
      rw [hroom] at htakes
      exact htakes
  | slept other hother => exact Or.inl (hkeep (by simp [hother]))
  | pushed other pushed hother =>
      -- two threads with room would both hold the mutex
      have hsame := hqueue.guarded.unique
        (show (queue.threads other).HoldsMutex by rw [hother]; trivial)
        (show (queue.threads thread).HoldsMutex by rw [hphase]; trivial)
      subst hsame
      cases hphase.symm.trans hother
      exact Or.inr ⟨Function.update_self .., rfl⟩
  | signalled other woken pushed hother hwoken =>
      have hsame := hqueue.guarded.unique
        (show (queue.threads other).HoldsMutex by rw [hother]; trivial)
        (show (queue.threads thread).HoldsMutex by rw [hphase]; trivial)
      subst hsame
      cases hphase.symm.trans hother
      exact Or.inr ⟨Function.update_self .., rfl⟩
  | woke other hwaits =>
      exact Or.inl (hkeep (by simp [(hqueue.waiting other).mp hwaits]))
  | left other answer hother => exact Or.inl (hkeep (by simp [hother]))

theorem sound (hqueue : queue.Consistent) : queue.Sound where
  in_order := ⟨queue.m_seqContainer, hqueue.logged.symm⟩
  refuses := fun _ _ _ hphase hnext => hqueue.refuses hphase hnext
  accepts := fun _ _ _ _ hphase hnext => hqueue.accepts hphase (moved_spec hnext)
  awake := by
    intro thread hasleep
    obtain ⟨count, hcount, hlength⟩ := hqueue.roused
    exact ⟨count, hcount, hlength (List.ne_nil_of_mem ((hqueue.waiting thread).mpr hasleep))⟩

end Consistent

end TMessageQueue

end ServiceFrame
