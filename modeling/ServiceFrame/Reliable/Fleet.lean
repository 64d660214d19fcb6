import ServiceFrame.Reliable.InOrder
import ServiceFrame.Reliable.Writer

/-! # Many processes

Every process writes to every other and reads from every other, over one network. What
passes between two of them is a run of one sender and one receiver, whatever all the others
do: so what holds of those runs holds of each pair.
-/

namespace ServiceFrame

open Foundation ReliableSendQueue

/-- What the handler of a process was given. -/
structure Handed where
  src : UInt32
  dst : UInt32
  entry : Entry
deriving DecidableEq

/-- The processes by server id, and the network. Queues and windows are numbered for each
pair of a source and a destination. -/
structure Fleet where
  writers : UInt32 → ReliableWriter Entry
  receivers : UInt32 → ReliableAppContext
  incarnation : UInt32 → UInt32 → Nat
  window : UInt32 → UInt32 → Nat
  syncs : List SentSync
  acks : List IssuedAck
  handed : List Handed

namespace Fleet

/-- `restart` is the one of a process that writes: its queues are gone. -/
inductive Event where
  | emit (src : UInt32) (clock : EmitClock) (dst : UInt32) (multiRoute : Bool) (bridgeId : UInt32)
  | timer (src : UInt32) (now : UInt32)
  | restart (src : UInt32)
  | deliverSync (now : UInt32) (sent : SentSync)
  | deliverAck (now : UInt32) (issued : IssuedAck)

def init : Fleet where
  writers := fun _ => .init
  receivers := fun _ => .init
  incarnation := fun _ _ => 0
  window := fun _ _ => 0
  syncs := []
  acks := []
  handed := []

/-- The queue from one process to another. -/
def queue (fleet : Fleet) (src dst : UInt32) : Option (TimedQueue Entry) :=
  (fleet.writers src).find dst

/-- A number is set for one pair. -/
def setPair (numbers : UInt32 → UInt32 → Nat) (src dst : UInt32) (number : Nat) :
    UInt32 → UInt32 → Nat :=
  fun other otherDst => if other = src ∧ otherDst = dst then number else numbers other otherDst

/-- The number of the queue that a message is pushed on. -/
def emitIncarnation (fleet : Fleet) (src dst : UInt32) : Nat :=
  match fleet.queue src dst with
  | some _ => fleet.incarnation src dst
  | none => fleet.incarnation src dst + 1

/-- The message that `OnRouterEmit` is called with. -/
def message (fleet : Fleet) (src dst : UInt32) (multiRoute : Bool) (bridgeId : UInt32) :
    PSS_SyncRouter Entry where
  enType := if multiRoute then .dataMultiRoute else .data
  srcId := src
  dstId := dst
  seqId := 0
  sendTime := 0
  bridgeId := bridgeId
  load := ⟨fleet.emitIncarnation src dst,
    match fleet.queue src dst with
    | some timed => timed.queue.nextNode
    | none => 1⟩

/-- A process has written; the network takes what it dispatched. -/
def written (fleet : Fleet) (src : UInt32) (incarnation : UInt32 → UInt32 → Nat)
    (result : ReliableWriter.Sent Entry) : Fleet :=
  { fleet with
    writers := Function.update fleet.writers src result.1
    incarnation := incarnation
    syncs := fleet.syncs ++ result.2.map fun sync => ⟨incarnation src sync.dstId, sync⟩ }

def emit (fleet : Fleet) (src : UInt32) (clock : EmitClock) (dst : UInt32) (multiRoute : Bool)
    (bridgeId : UInt32) : Option Fleet :=
  let incarnation :=
    if dst = 0xFFFFFFFF then fleet.incarnation
    else setPair fleet.incarnation src dst (fleet.emitIncarnation src dst)
  ((fleet.writers src).onRouterEmit src clock
    (fleet.message src dst multiRoute bridgeId)).map (fleet.written src incarnation)

/-- `OnSyncRouter` at the process that the message is for. -/
def deliverSync (fleet : Fleet) (now : UInt32) (sent : SentSync) : Option Fleet :=
  if sent ∈ fleet.syncs then
    let src := sent.sync.srcId
    let dst := sent.sync.dstId
    let arrival : ReliableAppContext.Arrival Entry := ⟨now, sent.sync⟩
    let outcome := (fleet.receivers dst).onSyncRouter arrival
    let window :=
      if (fleet.receivers dst).accepts arrival then sent.incarnation else fleet.window src dst
    some { fleet with
      receivers := Function.update fleet.receivers dst outcome.ctx
      window := setPair fleet.window src dst window
      acks := fleet.acks ++ [⟨window, outcome.ack⟩]
      handed := fleet.handed ++ outcome.handed.toList.map (Handed.mk src dst) }
  else none

/-- `OnAckRouter` at the process that the ack is for. -/
def deliverAck (fleet : Fleet) (now : UInt32) (issued : IssuedAck) : Option Fleet :=
  if issued ∈ fleet.acks then
    ((fleet.writers issued.ack.dstId).onAckRouter now issued.ack).map
      (fleet.written issued.ack.dstId fleet.incarnation)
  else none

def step (fleet : Fleet) : Event → Option Fleet
  | .emit src clock dst multiRoute bridgeId => fleet.emit src clock dst multiRoute bridgeId
  | .timer src now => ((fleet.writers src).handle now).map (fleet.written src fleet.incarnation)
  | .restart src => some (fleet.written src fleet.incarnation (.init, []))
  | .deliverSync now sent => fleet.deliverSync now sent
  | .deliverAck now issued => fleet.deliverAck now issued

/-- What the handler of `dst` was given of `src`, as it was. -/
def handedOf (fleet : Fleet) (src dst : UInt32) : List Entry :=
  (fleet.handed.filter fun handed => handed.src = src ∧ handed.dst = dst).map Handed.entry

/-- Each queue is the one from its process to its destination. -/
def Owned (fleet : Fleet) : Prop :=
  ∀ src dst timed, fleet.queue src dst = some timed → Addressed src dst timed.queue

variable {fleet next : Fleet} {src dst : UInt32}

theorem queue_written (fleet : Fleet) (source : UInt32) (incarnation : UInt32 → UInt32 → Nat)
    (result : ReliableWriter.Sent Entry) (src dst : UInt32) :
    (fleet.written source incarnation result).queue src dst =
      if src = source then result.1.find dst else fleet.queue src dst := by
  simp only [queue, written, Function.update_apply]
  split <;> rfl

theorem Owned.sendQueue (howned : fleet.Owned) (src : UInt32) (clock : EmitClock)
    (dst : UInt32) :
    Addressed src dst ((fleet.writers src).sendQueue src clock dst).1.queue ∧
      ∀ sync ∈ ((fleet.writers src).sendQueue src clock dst).2, IsFor src dst sync := by
  unfold ReliableWriter.sendQueue
  split
  next timed hfind => exact ⟨howned src dst timed hfind, List.forall_mem_nil _⟩
  next => exact Addressed.start src dst 100000 clock.reset

/-- A call leaves the process with its own queues, and dispatches messages of its own. -/
theorem Owned.written (howned : fleet.Owned) {source : UInt32}
    {incarnation : UInt32 → UInt32 → Nat} {result : ReliableWriter.Sent Entry}
    (hresult : ∀ dst timed, result.1.find dst = some timed → Addressed source dst timed.queue) :
    (fleet.written source incarnation result).Owned := by
  intro src dst timed hqueue
  rw [queue_written] at hqueue
  split at hqueue
  next hsource =>
    rw [hsource]
    exact hresult dst timed hqueue
  next => exact howned src dst timed hqueue

/-- What a call of a process leaves: a queue for one destination, and for the others what
there was. -/
theorem Owned.set (howned : fleet.Owned) {source target : UInt32} {timed : TimedQueue Entry}
    (htimed : Addressed source target timed.queue) (dst : UInt32) (other : TimedQueue Entry)
    (hfind : ((fleet.writers source).set target timed).find dst = some other) :
    Addressed source dst other.queue := by
  by_cases htarget : dst = target
  · rw [htarget, ReliableWriter.find_set_self] at hfind
    cases hfind
    rw [htarget]
    exact htimed
  · rw [ReliableWriter.find_set_of_ne _ _ htarget] at hfind
    exact howned source dst other hfind

theorem emit_owned (howned : fleet.Owned) {source : UInt32} {clock : EmitClock}
    {target : UInt32} {multiRoute : Bool} {bridgeId : UInt32}
    (hemit : fleet.emit source clock target multiRoute bridgeId = some next) : next.Owned := by
  obtain ⟨⟨writer, sent⟩, hresult, rfl⟩ := Option.map_eq_some_iff.mp hemit
  apply howned.written
  by_cases htarget : target = 0xFFFFFFFF
  · have hmessage : (fleet.message source target multiRoute bridgeId).dstId = 0xFFFFFFFF := htarget
    rw [ReliableWriter.onRouterEmit, if_pos hmessage] at hresult
    cases hresult
    exact fun dst timed hfind => howned source dst timed hfind
  · obtain ⟨pushed, flushed, more, hpush, hflush, rfl, -⟩ :=
      ReliableWriter.onRouterEmit_some htarget hresult
    have hqueue := (howned.sendQueue source clock target).1
    exact howned.set ((hqueue.push hpush).flush hflush).1

theorem handle_find {writer final : ReliableWriter Entry} {now : UInt32}
    {sent : List (PSS_SyncRouter Entry)} (hhandle : writer.handle now = some (final, sent))
    (dst : UInt32) :
    final.find dst = (writer.find dst).filter fun timed => !timed.expired now := by
  rw [ReliableWriter.handleFrom_find hhandle]
  cases hfind : writer.find dst with
  | none => rw [ite_self, Option.filter_none]
  | some timed =>
      have hany : (writer.mapSendQueue.entries.any fun entry =>
          decide (entry.1 = dst) && entry.2.expired now) = timed.expired now := by
        rw [Bool.eq_iff_iff, List.any_eq_true]
        constructor
        · rintro ⟨⟨key, other⟩, hmem, hboth⟩
          simp only [Bool.and_eq_true, decide_eq_true_eq] at hboth
          obtain ⟨rfl, hexpired⟩ := hboth
          have hother : writer.find key = some other := OrderedMap.mem_entries.mp hmem
          rw [hfind] at hother
          cases hother
          exact hexpired
        · intro hexpired
          exact ⟨(dst, timed), OrderedMap.mem_entries.mpr hfind, by simp [hexpired]⟩
      rw [hany]
      cases hexpired : timed.expired now with
      | true => simp [Option.filter, hexpired]
      | false => simp [Option.filter, hexpired]

theorem step_owned {event : Event} (howned : fleet.Owned) (hstep : fleet.step event = some next) :
    next.Owned := by
  cases event with
  | emit source clock target multiRoute bridgeId => exact emit_owned howned hstep
  | timer source now =>
      obtain ⟨⟨writer, sent⟩, hhandle, rfl⟩ := Option.map_eq_some_iff.mp hstep
      apply howned.written
      intro dst timed hfind
      rw [handle_find hhandle] at hfind
      exact howned source dst timed (Option.filter_eq_some_iff.mp hfind).1
  | restart source =>
      cases hstep
      apply howned.written
      intro dst timed hfind
      cases hfind
  | deliverSync now sent =>
      simp only [step, deliverSync] at hstep
      split at hstep
      · cases hstep
        exact howned
      · cases hstep
  | deliverAck now issued =>
      simp only [step, deliverAck] at hstep
      split at hstep
      next hmem =>
        obtain ⟨⟨writer, sent⟩, hack, rfl⟩ := Option.map_eq_some_iff.mp hstep
        apply howned.written
        unfold ReliableWriter.onAckRouter at hack
        split at hack
        · cases hack
          exact fun dst timed hfind => howned _ dst timed hfind
        next timed hfind =>
          obtain ⟨⟨flushed, more⟩, hflush, heq⟩ := Option.map_eq_some_iff.mp hack
          cases heq
          have hqueue := howned _ _ timed hfind
          exact howned.set ((hqueue.erase issued.ack).flush hflush).1
      · cases hstep

/-! ## A pair is a sender and a receiver -/

/-- The sender and the receiver that a pair of processes is. -/
structure Pair (src dst : UInt32) (fleet : Fleet) (routing : Routing) : Prop where
  queue_eq : routing.queue = (fleet.queue src dst).map TimedQueue.queue
  incarnation_eq : routing.incarnation = fleet.incarnation src dst
  receiver_agree : ReliableAppContext.AgreeOn src routing.receiver (fleet.receivers dst)
  window_eq : routing.window = fleet.window src dst
  syncs_mem : ∀ sent ∈ fleet.syncs, IsFor src dst sent.sync → sent ∈ routing.syncs
  acks_mem : ∀ issued ∈ fleet.acks, issued.ack.dstId = src → issued.ack.srcId = dst →
    issued ∈ routing.acks
  handed_eq : routing.handed = fleet.handedOf src dst

variable {routing after : Routing}

/-- After a call at one process: the queue of the pair, and what was sent for it. -/
theorem Pair.written (hpair : Pair src dst fleet routing) {source : UInt32}
    {incarnation : UInt32 → UInt32 → Nat} {result : ReliableWriter.Sent Entry}
    (hqueue : after.queue =
      (if src = source then result.1.find dst else fleet.queue src dst).map TimedQueue.queue)
    (hincarnation : after.incarnation = incarnation src dst)
    (hrest : after.receiver = routing.receiver ∧ after.window = routing.window ∧
      after.acks = routing.acks ∧ after.handed = routing.handed)
    (hold : ∀ sent ∈ routing.syncs, sent ∈ after.syncs)
    (hsource : ∀ sync ∈ result.2, sync.srcId = source)
    (hnew : src = source → ∀ sync ∈ result.2, sync.dstId = dst →
      (⟨incarnation src dst, sync⟩ : SentSync) ∈ after.syncs) :
    Pair src dst (fleet.written source incarnation result) after := by
  obtain ⟨hreceiver, hwindow, hacks, hhanded⟩ := hrest
  refine ⟨?_, hincarnation, ?_, ?_, ?_, ?_, ?_⟩
  · rw [queue_written]
    exact hqueue
  · rw [hreceiver]
    exact hpair.receiver_agree
  · rw [hwindow]
    exact hpair.window_eq
  · intro sent hsent hfor
    simp only [Fleet.written, List.mem_append, List.mem_map] at hsent
    obtain hsent | ⟨sync, hsync, rfl⟩ := hsent
    · exact hold sent (hpair.syncs_mem sent hsent hfor)
    · have hsame : src = source := hfor.1.symm.trans (hsource sync hsync)
      have hthis := hnew hsame sync hsync hfor.2
      rw [← hsame, hfor.2]
      exact hthis
  · rw [hacks]
    exact hpair.acks_mem
  · rw [hhanded]
    exact hpair.handed_eq

theorem handedOf_append {more : List Handed} (hnext : next.handed = fleet.handed ++ more)
    (src dst : UInt32) : next.handedOf src dst = fleet.handedOf src dst ++
      (more.filter fun handed => handed.src = src ∧ handed.dst = dst).map Handed.entry := by
  rw [handedOf, hnext, List.filter_append, List.map_append, handedOf]

/-- The queue of the pair is not lost: its process is not restarted, and no timer finds it
without an ack for too long. -/
def Unexpired (src dst : UInt32) (fleet : Fleet) : Event → Prop
  | .timer source now =>
      source = src → ∀ timed ∈ fleet.queue src dst, timed.expired now = false
  | .restart source => source ≠ src
  | _ => True

instance decidableUnexpired (src dst : UInt32) (fleet : Fleet) :
    (event : Event) → Decidable (fleet.Unexpired src dst event)
  | .emit _ _ _ _ _ => isTrue trivial
  | .timer source now => inferInstanceAs (Decidable (source = src →
      ∀ timed ∈ fleet.queue src dst, timed.expired now = false))
  | .restart source => inferInstanceAs (Decidable (source ≠ src))
  | .deliverSync _ _ => isTrue trivial
  | .deliverAck _ _ => isTrue trivial

end Fleet

end ServiceFrame
