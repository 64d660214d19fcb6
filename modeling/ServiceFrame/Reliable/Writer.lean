import ServiceFrame.Foundation.OrderedMap
import ServiceFrame.Reliable.QueueInvariant

/-! # The writer of a process

`CReliableWriter`: a send queue for each destination, created by the first message to it and
deleted when no ack has come for two hours. Every queue holds and sends messages of its own
destination only.
-/

namespace ServiceFrame

open Foundation

variable {Load : Type}

/-- A send queue with its `m_uLastAckTime`. -/
structure TimedQueue (Load : Type) where
  queue : ReliableSendQueue Load
  lastAckTime : UInt32

/-- What the clock answers while a message is emitted: for the RESET, for the message, and
`time(NULL)`. -/
structure EmitClock where
  reset : UInt64
  push : UInt64
  now : UInt32

structure ReliableWriter (Load : Type) where
  mapSendQueue : OrderedMap UInt32 (TimedQueue Load)

namespace TimedQueue

/-- `iTimeCost > 7200`, where the cost is a signed difference. -/
def expired (now : UInt32) (timed : TimedQueue Load) : Bool :=
  decide (7200 < (now - timed.lastAckTime).toInt32)

/-- `Try(sDispatcher)` and `Ping(sDispatcher)`. -/
def retry [Inhabited Load] (timed : TimedQueue Load) : Option (List (PSS_SyncRouter Load)) :=
  timed.queue.tryFront.map fun sent => sent ++ [timed.queue.ping]

end TimedQueue

namespace ReliableWriter

/-- A call's result: the writer, and what it dispatches. -/
abbrev Sent (Load : Type) := ReliableWriter Load × List (PSS_SyncRouter Load)

def init : ReliableWriter Load := ⟨.empty⟩

def find (writer : ReliableWriter Load) (dst : UInt32) : Option (TimedQueue Load) :=
  writer.mapSendQueue.find dst

def set (writer : ReliableWriter Load) (dst : UInt32) (timed : TimedQueue Load) :
    ReliableWriter Load :=
  ⟨writer.mapSendQueue.set dst timed⟩

/-- The queue for a destination, which is created and reset on demand. -/
def sendQueue [Inhabited Load] (serverId : UInt32) (clock : EmitClock)
    (writer : ReliableWriter Load) (dst : UInt32) :
    TimedQueue Load × List (PSS_SyncRouter Load) :=
  match writer.find dst with
  | some timed => (timed, [])
  | none =>
      let (queue, sent) := ReliableSendQueue.reset clock.reset (.new serverId dst 100000)
      (⟨queue, clock.now⟩, sent)

/-- `OnRouterEmit(pMsg)`. -/
def onRouterEmit [Inhabited Load] (serverId : UInt32) (clock : EmitClock)
    (writer : ReliableWriter Load) (msg : PSS_SyncRouter Load) : Option (Sent Load) :=
  if msg.dstId = 0xFFFFFFFF then some (writer, [])
  else
    let (timed, resets) := writer.sendQueue serverId clock msg.dstId
    (timed.queue.push clock.push msg).bind fun pushed =>
      pushed.flush.map fun (flushed, sent) =>
        (writer.set msg.dstId { timed with queue := flushed }, resets ++ sent)

/-- `OnAckRouter(pMsg)`. -/
def onAckRouter (now : UInt32) (writer : ReliableWriter Load) (ack : PSS_AckRouter) :
    Option (Sent Load) :=
  match writer.find ack.srcId with
  | none => some (writer, [])
  | some timed =>
      (timed.queue.erase ack).flush.map fun (flushed, sent) =>
        (writer.set ack.srcId ⟨flushed, now⟩, sent)

/-- The loop of `handle` from an entry on. -/
def handleFrom [Inhabited Load] (now : UInt32) :
    List (UInt32 × TimedQueue Load) → ReliableWriter Load → Option (Sent Load)
  | [], writer => some (writer, [])
  | (dst, timed) :: rest, writer =>
      if timed.expired now then handleFrom now rest ⟨writer.mapSendQueue.erase dst⟩
      else
        timed.retry.bind fun sent =>
          (handleFrom now rest writer).map fun (final, more) => (final, sent ++ more)

/-- `handle(SEL_TIMEOUT)`. -/
def handle [Inhabited Load] (now : UInt32) (writer : ReliableWriter Load) : Option (Sent Load) :=
  handleFrom now writer.mapSendQueue.entries writer

/-! ## What the calls do -/

@[simp] theorem find_set_self (writer : ReliableWriter Load) (dst : UInt32)
    (timed : TimedQueue Load) : (writer.set dst timed).find dst = some timed :=
  writer.mapSendQueue.find_set_self dst timed

theorem find_set_of_ne (writer : ReliableWriter Load) {dst other : UInt32}
    (timed : TimedQueue Load) (hne : other ≠ dst) :
    (writer.set dst timed).find other = writer.find other :=
  writer.mapSendQueue.find_set_of_ne hne timed

/-- A message that is emitted is pushed on the queue of its destination, which is flushed. -/
theorem onRouterEmit_some [Inhabited Load] {serverId : UInt32} {clock : EmitClock}
    {writer final : ReliableWriter Load} {msg : PSS_SyncRouter Load}
    {sent : List (PSS_SyncRouter Load)} (hdst : msg.dstId ≠ 0xFFFFFFFF)
    (hemit : writer.onRouterEmit serverId clock msg = some (final, sent)) :
    ∃ pushed flushed more,
      (writer.sendQueue serverId clock msg.dstId).1.queue.push clock.push msg = some pushed ∧
      pushed.flush = some (flushed, more) ∧
      final = writer.set msg.dstId
        { (writer.sendQueue serverId clock msg.dstId).1 with queue := flushed } ∧
      sent = (writer.sendQueue serverId clock msg.dstId).2 ++ more := by
  unfold onRouterEmit at hemit
  rw [if_neg hdst] at hemit
  obtain ⟨pushed, hpush, hrest⟩ := Option.bind_eq_some_iff.mp hemit
  obtain ⟨⟨flushed, more⟩, hflush, heq⟩ := Option.map_eq_some_iff.mp hrest
  cases heq
  exact ⟨pushed, flushed, more, hpush, hflush, rfl, rfl⟩

theorem handleFrom_find [Inhabited Load] {now : UInt32} {dst : UInt32}
    {entries : List (UInt32 × TimedQueue Load)} :
    ∀ {writer final : ReliableWriter Load} {sent : List (PSS_SyncRouter Load)},
      handleFrom now entries writer = some (final, sent) →
      final.find dst =
        if entries.any (fun entry => decide (entry.1 = dst) && entry.2.expired now) then none
        else writer.find dst := by
  induction entries with
  | nil =>
      intro writer final sent hhandle
      cases hhandle
      rfl
  | cons entry rest ih =>
      obtain ⟨key, timed⟩ := entry
      intro writer final sent hhandle
      rw [handleFrom] at hhandle
      rw [List.any_cons]
      split at hhandle
      next hexpired =>
        rw [ih hhandle]
        by_cases hkey : key = dst
        · have hgone : (⟨writer.mapSendQueue.erase key⟩ : ReliableWriter Load).find dst = none := by
            rw [← hkey]
            exact writer.mapSendQueue.find_erase_self key
          rw [hgone, decide_eq_true hkey, hexpired, Bool.and_true, Bool.true_or, if_pos rfl,
            ite_self]
        · have hsame : (⟨writer.mapSendQueue.erase key⟩ : ReliableWriter Load).find dst =
              writer.find dst :=
            writer.mapSendQueue.find_erase_of_ne fun heq => hkey heq.symm
          rw [hsame, decide_eq_false hkey, Bool.false_and, Bool.false_or]
      next hkept =>
        obtain ⟨own, -, hrest⟩ := Option.bind_eq_some_iff.mp hhandle
        obtain ⟨⟨last, more⟩, hlast, heq⟩ := Option.map_eq_some_iff.mp hrest
        cases heq
        rw [ih hlast, eq_false_of_ne_true hkept, Bool.and_false, Bool.false_or]

end ReliableWriter

/-! ## Queues of one destination -/

namespace ReliableSendQueue

/-- The message is from the source to the destination. -/
def IsFor (src dst : UInt32) (sync : PSS_SyncRouter Load) : Prop :=
  sync.srcId = src ∧ sync.dstId = dst

instance (src dst : UInt32) (sync : PSS_SyncRouter Load) : Decidable (IsFor src dst sync) :=
  inferInstanceAs (Decidable (_ ∧ _))

/-- The queue is the one from the source to the destination, as its messages are. -/
structure Addressed (src dst : UInt32) (queue : ReliableSendQueue Load) : Prop where
  linked : queue.Linked
  src_eq : queue.srcId = src
  dst_eq : queue.dstId = dst
  nodes : ∀ node ∈ queue.msgQueue, IsFor src dst node.msg

namespace Addressed

variable {src dst : UInt32} {queue after : ReliableSendQueue Load}
  {sent : List (PSS_SyncRouter Load)}

theorem start [Inhabited Load] (src dst : UInt32) (limit : Nat) (now : UInt64) :
    Addressed src dst (reset now (new src dst limit : ReliableSendQueue Load)).1 ∧
      ∀ sync ∈ (reset now (new src dst limit : ReliableSendQueue Load)).2, IsFor src dst sync := by
  refine ⟨⟨start_linked src dst limit now, rfl, rfl, fun node hnode => ?_⟩, fun sync hsync => ?_⟩
  · simp only [reset, new, List.mem_singleton] at hnode
    subst hnode
    exact ⟨rfl, rfl⟩
  · simp only [reset, List.mem_singleton] at hsync
    subst hsync
    exact ⟨rfl, rfl⟩

theorem push (hqueue : Addressed src dst queue) {now : UInt64} {msg : PSS_SyncRouter Load}
    (hpush : queue.push now msg = some after) : Addressed src dst after := by
  have hlinked := hqueue.linked.push hpush
  have hafter := push_some hpush
  rw [hafter] at hlinked ⊢
  refine ⟨hlinked, hqueue.src_eq, hqueue.dst_eq, fun node hnode => ?_⟩
  simp only [List.mem_append, List.mem_singleton] at hnode
  obtain hnode | rfl := hnode
  · exact hqueue.nodes node (List.mem_of_mem_drop hnode)
  · exact ⟨hqueue.src_eq, hqueue.dst_eq⟩

theorem flush (hqueue : Addressed src dst queue) (hflush : queue.flush = some (after, sent)) :
    Addressed src dst after ∧ ∀ sync ∈ sent, IsFor src dst sync := by
  have hlinked := hqueue.linked.flush hflush
  obtain ⟨rfl, rfl, -⟩ | ⟨-, iter, count, isUrgentMode, -, -, rfl, rfl⟩ := flush_some hflush
  · exact ⟨hqueue, List.forall_mem_nil _⟩
  · refine ⟨⟨hlinked, hqueue.src_eq, hqueue.dst_eq, hqueue.nodes⟩, fun sync hsync => ?_⟩
    obtain ⟨node, hnode, rfl⟩ := List.mem_map.mp hsync
    exact hqueue.nodes node ((List.dropWhile_suffix _).subset (List.mem_of_mem_take hnode))

theorem erase (hqueue : Addressed src dst queue) (ack : PSS_AckRouter) :
    Addressed src dst (queue.erase ack) := by
  have hlinked := hqueue.linked.erase ack
  rw [erase_eq queue ack hqueue.linked.size_eq] at hlinked ⊢
  exact ⟨hlinked, hqueue.src_eq, hqueue.dst_eq,
    fun node hnode => hqueue.nodes node (List.mem_of_mem_drop hnode)⟩

theorem retry [Inhabited Load] {timed : TimedQueue Load} (hqueue : Addressed src dst timed.queue)
    (hretry : timed.retry = some sent) : ∀ sync ∈ sent, IsFor src dst sync := by
  obtain ⟨front, hfront, rfl⟩ := Option.map_eq_some_iff.mp hretry
  intro sync hsync
  rw [List.mem_append, List.mem_singleton] at hsync
  obtain hsync | rfl := hsync
  · unfold tryFront at hfront
    split at hfront
    · split at hfront
      · cases hfront
      next node rest hlist =>
        cases hfront
        rw [List.mem_singleton.mp hsync]
        exact hqueue.nodes node (by simp [hlist])
    · cases hfront
      cases hsync
  · exact ⟨hqueue.src_eq, hqueue.dst_eq⟩

end Addressed

end ReliableSendQueue

end ServiceFrame
