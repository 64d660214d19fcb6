import Mathlib.Logic.Function.Basic
import ServiceFrame.Reliable.Routing

/-! # What arrives, arrives in order

However SYNCs and ACKs are delayed, lost, repeated and reordered: of the messages that were
pushed on one queue the handler is given the first ones, each once and in the order in
which they were pushed. What is missing at the receiver is only ever the end of a queue.
-/

namespace ServiceFrame

open Foundation

namespace Routing

/-- The messages of one queue that were handed over, as they were. -/
def handedOf (routing : Routing) (incarnation : Nat) : List Entry :=
  routing.handed.filter fun entry => entry.incarnation = incarnation

/-- The first messages that were pushed on a queue. -/
def firstEntries (incarnation count : Nat) : List Entry :=
  (List.range count).map fun number => ⟨incarnation, number + 1⟩

/-- The number of queues that the events create. -/
def creates : List Event → Nat
  | [] => 0
  | .create _ :: rest => creates rest + 1
  | .push _ _ _ :: rest => creates rest
  | .flush :: rest => creates rest
  | .tryFront :: rest => creates rest
  | .ping :: rest => creates rest
  | .drop :: rest => creates rest
  | .deliverSync _ _ :: rest => creates rest
  | .deliverAck _ :: rest => creates rest

/-- How often the events push on the given queue, from the current one on. -/
def pushes (incarnation : Nat) : Nat → List Event → Nat
  | _, [] => 0
  | current, .create _ :: rest => pushes incarnation (current + 1) rest
  | current, .push _ _ _ :: rest =>
      (if current = incarnation then 1 else 0) + pushes incarnation current rest
  | current, .flush :: rest => pushes incarnation current rest
  | current, .tryFront :: rest => pushes incarnation current rest
  | current, .ping :: rest => pushes incarnation current rest
  | current, .drop :: rest => pushes incarnation current rest
  | current, .deliverSync _ _ :: rest => pushes incarnation current rest
  | current, .deliverAck _ :: rest => pushes incarnation current rest

/-- A push does not wrap the sequence counter, and DATA that continues the window of the
receiver comes from the queue whose RESET opened it. -/
def OwnWindow (routing : Routing) : Event → Prop
  | .push _ _ _ => ∀ queue ∈ routing.queue, queue.nextNode < 2 ^ 32
  | .deliverSync _ sent =>
      routing.receiver.Continues sent.sync → sent.incarnation = routing.window
  | _ => True

theorem firstEntries_succ (incarnation count : Nat) :
    firstEntries incarnation (count + 1) =
      firstEntries incarnation count ++ [⟨incarnation, count + 1⟩] := by
  rw [firstEntries, List.range_succ, List.map_append, firstEntries, List.map_singleton]

@[simp] theorem length_firstEntries (incarnation count : Nat) :
    (firstEntries incarnation count).length = count := by
  rw [firstEntries, List.length_map, List.length_range]

theorem creates_append (first second : List Event) :
    creates (first ++ second) = creates first + creates second := by
  induction first with
  | nil => simp [creates]
  | cons event rest ih =>
      cases event <;> simp only [List.cons_append, creates, ih]
      omega

theorem pushes_append (incarnation current : Nat) (first second : List Event) :
    pushes incarnation current (first ++ second) =
      pushes incarnation current first + pushes incarnation (current + creates first) second := by
  induction first generalizing current with
  | nil => simp [creates, pushes]
  | cons event rest ih =>
      cases event <;> simp only [List.cons_append, creates, pushes, ih]
      · rw [Nat.add_assoc, Nat.add_comm 1]
      · rw [Nat.add_assoc]

/-! ## The invariant -/

/-- A message of a queue: one of the first `count` that were pushed on it, its RESET, which
has one time, or a PING. -/
structure QueueSync (srcId : UInt32) (incarnation count : Nat) (time : UInt64)
    (sync : PSS_SyncRouter Entry) : Prop where
  src_eq : sync.srcId = srcId
  pos : 0 < incarnation
  own : ∃ number ≤ count, OwnSync incarnation number sync
  reset_time : sync.enType = .reset → sync.sendTime = time

/-- Every queue's RESET has one time, and every queue has so many messages. A window that is
open is the one that its queue's RESET opened, and was never open before. -/
structure Ordered (srcId : UInt32) (times : Nat → UInt64) (counts : Nat → Nat)
    (routing : Routing) : Prop where
  syncs_own : ∀ sent ∈ routing.syncs, sent.incarnation ≤ routing.incarnation ∧
    QueueSync srcId sent.incarnation (counts sent.incarnation) (times sent.incarnation) sent.sync
  queue_own : ∀ queue ∈ routing.queue, OwnQueue srcId routing.incarnation queue
  queue_pos : ∀ queue ∈ routing.queue, 0 < routing.incarnation
  queue_count : ∀ queue ∈ routing.queue, queue.nextNode = counts routing.incarnation + 1
  queue_time : ∀ queue ∈ routing.queue, ∀ node ∈ queue.msgQueue,
    node.msg.enType = .reset → node.msg.sendTime = times routing.incarnation
  window_le : routing.window ≤ routing.incarnation
  window_pos : (routing.receiver.writerInfo srcId).lastRestTime ≠ 0 → 0 < routing.window
  window_time : (routing.receiver.writerInfo srcId).lastRestTime ≠ 0 →
    times routing.window = (routing.receiver.writerInfo srcId).lastRestTime
  handed_pos : ∀ entry ∈ routing.handed, 0 < entry.incarnation
  handed_le : ∀ entry ∈ routing.handed, entry.incarnation ≤ routing.incarnation
  handed_time : ∀ entry ∈ routing.handed,
    times entry.incarnation ≤ (routing.receiver.writerInfo srcId).lastRestTime
  in_order : ∀ incarnation, ∃ count ≤ counts incarnation,
    routing.handedOf incarnation = firstEntries incarnation count
  window_count : (routing.receiver.writerInfo srcId).lastRestTime ≠ 0 →
    routing.handedOf routing.window =
      firstEntries routing.window (routing.receiver.writerInfo srcId).expectSeqId.toNat

variable {srcId dstId : UInt32} {times : Nat → UInt64} {counts : Nat → Nat}
  {routing next : Routing}

theorem init_ordered (srcId : UInt32) (times : Nat → UInt64) :
    Ordered srcId times (fun _ => 0) init where
  syncs_own := by simp [init]
  queue_own := by simp [init]
  queue_pos := by simp [init]
  queue_count := by simp [init]
  queue_time := by simp [init]
  window_le := Nat.le_refl _
  window_pos := fun hopen => absurd rfl hopen
  window_time := fun hopen => absurd rfl hopen
  handed_pos := by simp [init]
  handed_le := by simp [init]
  handed_time := by simp [init]
  in_order := fun _ => ⟨0, Nat.le_refl _, rfl⟩
  window_count := fun hopen => absurd rfl hopen

theorem QueueSync.mono {incarnation count more : Nat} {time : UInt64}
    {sync : PSS_SyncRouter Entry} (hsync : QueueSync srcId incarnation count time sync)
    (hle : count ≤ more) : QueueSync srcId incarnation more time sync := by
  obtain ⟨number, hnumber, hown⟩ := hsync.own
  exact ⟨hsync.src_eq, hsync.pos, ⟨number, hnumber.trans hle, hown⟩, hsync.reset_time⟩

/-! ## The sender's steps -/

/-- A new queue has a number, a time and messages of its own. -/
theorem create_ordered {now : UInt64} (hordered : Ordered srcId times counts routing)
    (hcreate : routing.create srcId dstId now = some next) :
    Ordered srcId (Function.update times (routing.incarnation + 1) now)
        (Function.update counts (routing.incarnation + 1) 0) next ∧
      next.incarnation = routing.incarnation + 1 := by
  unfold create at hcreate
  split at hcreate
  · cases hcreate
  simp only [ReliableSendQueue.reset, List.map_singleton, Option.some.injEq] at hcreate
  subst hcreate
  have hold : ∀ {Value : Type} (values : Nat → Value) (value : Value) {incarnation : Nat},
      incarnation ≤ routing.incarnation →
        Function.update values (routing.incarnation + 1) value incarnation =
          values incarnation := by
    intro Value values value incarnation hle
    have hne : incarnation ≠ routing.incarnation + 1 := by omega
    exact Function.update_of_ne hne value values
  refine ⟨⟨?_, ?_, fun _ _ => Nat.succ_pos _, ?_, ?_, ?_, hordered.window_pos, ?_,
    hordered.handed_pos, ?_, ?_, ?_, ?_⟩, rfl⟩
  · intro sent hsent
    simp only [List.mem_append, List.mem_singleton] at hsent
    obtain hsent | rfl := hsent
    · obtain ⟨hle, hsync⟩ := hordered.syncs_own sent hsent
      rw [hold times now hle, hold counts 0 hle]
      exact ⟨Nat.le_succ_of_le hle, hsync⟩
    · simp only [Function.update_self]
      exact ⟨Nat.le_refl _, rfl, Nat.succ_pos _, ⟨0, Nat.le_refl _, ownSync_reset _ rfl rfl⟩,
        fun _ => rfl⟩
  · intro queue hqueue
    cases hqueue
    refine ⟨ReliableSendQueue.start_linked srcId dstId 100000 now, rfl, ?_⟩
    intro node hnode
    simp only [ReliableSendQueue.new, List.mem_singleton] at hnode
    subst hnode
    exact ⟨rfl, ownSync_reset _ rfl rfl⟩
  · intro queue hqueue
    cases hqueue
    rw [Function.update_self]
    rfl
  · intro queue hqueue node hnode _
    cases hqueue
    simp only [ReliableSendQueue.new, List.mem_singleton] at hnode
    subst hnode
    rw [Function.update_self]
  · exact Nat.le_succ_of_le hordered.window_le
  · intro hopen
    rw [hold times now hordered.window_le]
    exact hordered.window_time hopen
  · exact fun entry hentry => Nat.le_succ_of_le (hordered.handed_le entry hentry)
  · intro entry hentry
    rw [hold times now (hordered.handed_le entry hentry)]
    exact hordered.handed_time entry hentry
  · intro incarnation
    by_cases hnew : incarnation = routing.incarnation + 1
    · subst hnew
      refine ⟨0, Nat.zero_le _, ?_⟩
      apply List.filter_eq_nil_iff.mpr
      intro entry hentry
      have hle := hordered.handed_le entry hentry
      simp only [decide_eq_true_eq]
      omega
    · rw [Function.update_of_ne hnew]
      exact hordered.in_order incarnation
  · exact hordered.window_count

/-- A call leaves the queue with its own messages, and dispatches such. -/
theorem sent_ordered (hordered : Ordered srcId times counts routing)
    {queue : ReliableSendQueue Entry} {sent : List (PSS_SyncRouter Entry)} {count : Nat}
    (hpos : 0 < routing.incarnation) (hmore : counts routing.incarnation ≤ count)
    (hqueue : OwnQueue srcId routing.incarnation queue) (hcount : queue.nextNode = count + 1)
    (htime : ∀ node ∈ queue.msgQueue,
      node.msg.enType = .reset → node.msg.sendTime = times routing.incarnation)
    (hsent : ∀ sync ∈ sent,
      QueueSync srcId routing.incarnation count (times routing.incarnation) sync) :
    Ordered srcId times (Function.update counts routing.incarnation count)
      { routing with
        queue := some queue
        syncs := routing.syncs ++ sent.map (SentSync.mk routing.incarnation) } := by
  have hcounts : ∀ incarnation, counts incarnation ≤
      Function.update counts routing.incarnation count incarnation := by
    intro incarnation
    by_cases hthis : incarnation = routing.incarnation
    · rw [hthis, Function.update_self]
      exact hmore
    · rw [Function.update_of_ne hthis]
  refine ⟨?_, ?_, fun _ _ => hpos, ?_, ?_, hordered.window_le, hordered.window_pos,
    hordered.window_time, hordered.handed_pos, hordered.handed_le, hordered.handed_time, ?_,
    hordered.window_count⟩
  · intro one hone
    simp only [List.mem_append, List.mem_map] at hone
    obtain hone | ⟨sync, hsync, rfl⟩ := hone
    · obtain ⟨hle, hown⟩ := hordered.syncs_own one hone
      exact ⟨hle, hown.mono (hcounts one.incarnation)⟩
    · rw [Function.update_self]
      exact ⟨Nat.le_refl _, hsent sync hsync⟩
  · intro other hother
    cases hother
    exact hqueue
  · intro other hother
    cases hother
    rw [Function.update_self]
    exact hcount
  · intro other hother
    cases hother
    exact htime
  · intro incarnation
    obtain ⟨number, hnumber, hhanded⟩ := hordered.in_order incarnation
    exact ⟨number, hnumber.trans (hcounts incarnation), hhanded⟩

/-- A node of the queue there is, on the wire. -/
theorem Ordered.queued (hordered : Ordered srcId times counts routing)
    {queue : ReliableSendQueue Entry} (hqueue : routing.queue = some queue)
    {node : QueueNode Entry} (hnode : node ∈ queue.msgQueue) :
    QueueSync srcId routing.incarnation (counts routing.incarnation)
      (times routing.incarnation) node.msg := by
  have hown := hordered.queue_own queue hqueue
  have hfresh := hown.linked.fresh node hnode
  rw [hordered.queue_count queue hqueue] at hfresh
  exact ⟨(hown.nodes node hnode).1, hordered.queue_pos queue hqueue,
    ⟨node.node, by omega, (hown.nodes node hnode).2⟩,
    hordered.queue_time queue hqueue node hnode⟩

theorem push_ordered (hordered : Ordered srcId times counts routing) {now : UInt64}
    {multiRoute : Bool} {bridgeId : UInt32}
    (hown : routing.OwnWindow (.push now multiRoute bridgeId))
    (hstep : routing.step srcId dstId (.push now multiRoute bridgeId) = some next) :
    Ordered srcId times (Function.update counts routing.incarnation
        (counts routing.incarnation + 1)) next ∧ next.incarnation = routing.incarnation := by
  simp only [step, call] at hstep
  split at hstep
  · cases hstep
  next queue hqueue =>
    obtain ⟨⟨after, sent⟩, happly, rfl⟩ := Option.map_eq_some_iff.mp hstep
    obtain ⟨hpush, rfl⟩ := ReliableSendQueue.apply_some happly
    have hafter := ReliableSendQueue.push_some hpush
    refine ⟨sent_ordered hordered (hordered.queue_pos _ hqueue) (Nat.le_succ _) ?_ ?_ ?_ (by simp),
      rfl⟩
    · refine (hordered.queue_own queue hqueue).push (hown queue hqueue) ?_ rfl hpush
      cases multiRoute <;> rfl
    · rw [hafter]
      exact congrArg (· + 1) (hordered.queue_count queue hqueue)
    · intro node hnode hreset
      rw [hafter] at hnode
      simp only [List.mem_append, List.mem_singleton] at hnode
      obtain hold | rfl := hnode
      · exact hordered.queue_time queue hqueue node (List.mem_of_mem_drop hold) hreset
      · cases multiRoute <;> cases hreset

/-- `Flush`, `Try` and `Ping` send what is queued, or a PING. -/
theorem dispatch_ordered (hordered : Ordered srcId times counts routing)
    {op : ReliableSendQueue.Op Entry} (hop : op = .flush ∨ op = .tryFront ∨ op = .ping)
    (hcall : routing.call (fun _ => op) = some next) :
    Ordered srcId times counts next ∧ next.incarnation = routing.incarnation := by
  unfold call at hcall
  split at hcall
  · cases hcall
  next queue hqueue =>
    have hown := hordered.queue_own queue hqueue
    have hcount := hordered.queue_count queue hqueue
    obtain ⟨⟨after, sent⟩, happly, rfl⟩ := Option.map_eq_some_iff.mp hcall
    have happlied := ReliableSendQueue.apply_some happly
    have hsame : Function.update counts routing.incarnation (counts routing.incarnation) =
        counts := Function.update_eq_self _ _
    rw [← hsame]
    obtain rfl | rfl | rfl := hop
    · obtain ⟨hafter, hsent⟩ := hown.flush happlied
      have hlist : after.msgQueue = queue.msgQueue ∧ after.nextNode = queue.nextNode := by
        obtain ⟨rfl, -, -⟩ | ⟨-, iter, count, isUrgentMode, -, -, -, rfl⟩ :=
          ReliableSendQueue.flush_some happlied
        · exact ⟨rfl, rfl⟩
        · exact ⟨rfl, rfl⟩
      refine ⟨sent_ordered hordered (hordered.queue_pos _ hqueue) (Nat.le_refl _) hafter
        (hlist.2.trans hcount) ?_ ?_, rfl⟩
      · intro node hnode
        rw [hlist.1] at hnode
        exact hordered.queue_time queue hqueue node hnode
      · intro sync hsync
        obtain ⟨node, hnode, rfl⟩ := hsent sync hsync
        exact hordered.queued hqueue hnode
    · obtain ⟨rfl, htry⟩ := happlied
      refine ⟨sent_ordered hordered (hordered.queue_pos _ hqueue) (Nat.le_refl _) hown hcount
        (hordered.queue_time after hqueue) ?_, rfl⟩
      intro sync hsync
      obtain ⟨node, hnode, rfl⟩ := tryFront_queued htry sync hsync
      exact hordered.queued hqueue hnode
    · obtain ⟨rfl, rfl⟩ := happlied
      refine ⟨sent_ordered hordered (hordered.queue_pos _ hqueue) (Nat.le_refl _) hown hcount
        (hordered.queue_time after hqueue) ?_, rfl⟩
      intro sync hsync
      rw [List.mem_singleton] at hsync
      subst hsync
      exact ⟨hown.src_eq, hordered.queue_pos after hqueue,
        ⟨0, Nat.zero_le _, ownSync_reset _ rfl rfl⟩, fun hreset => by cases hreset⟩

/-! ## Deliveries -/

theorem handedOf_append (routing : Routing) (entry : Entry) (incarnation : Nat) :
    handedOf { routing with handed := routing.handed ++ [entry] } incarnation =
      routing.handedOf incarnation ++ if entry.incarnation = incarnation then [entry] else [] := by
  unfold handedOf
  by_cases hthis : entry.incarnation = incarnation
  · rw [if_pos hthis, List.filter_append]
    simp [hthis]
  · rw [if_neg hthis, List.filter_append]
    simp [hthis]

/-- DATA that continues the window of its queue is the message after those handed over. -/
theorem Ordered.next_entry (hordered : Ordered srcId times counts routing) {sent : SentSync}
    (hmem : sent ∈ routing.syncs) (hcontinues : routing.receiver.Continues sent.sync)
    (hown : sent.incarnation = routing.window) :
    sent.sync.load = ⟨routing.window, (routing.handedOf routing.window).length + 1⟩ ∧
      (routing.handedOf routing.window).length + 1 ≤ counts routing.window ∧
      sent.sync.seqId.toNat = (routing.handedOf routing.window).length + 1 := by
  obtain ⟨-, hsrc, -, ⟨number, hnumber, hsync⟩, -⟩ := hordered.syncs_own sent hmem
  obtain ⟨hdata, hopen, hseq⟩ := hcontinues
  rw [hsrc] at hopen hseq
  obtain ⟨hpos, hload⟩ := hsync.data hdata
  have hlength : (routing.handedOf routing.window).length =
      (routing.receiver.writerInfo srcId).expectSeqId.toNat := by
    rw [hordered.window_count hopen, length_firstEntries]
  have hseqNumber : sent.sync.seqId.toNat = number := by
    rw [hsync.seq_eq, UInt32.toNat_ofNat', Nat.mod_eq_of_lt hsync.number_lt]
  have hsucc : number = (routing.handedOf routing.window).length + 1 := by
    have hnext := congrArg UInt32.toNat hseq
    rw [hseqNumber, UInt32.toNat_add, ← hlength] at hnext
    have hlt := (routing.receiver.writerInfo srcId).expectSeqId.toNat_lt
    rw [← hlength] at hlt
    change number = (_ + 1) % 2 ^ 32 at hnext
    omega
  rw [hown] at hload hnumber
  rw [← hsucc]
  exact ⟨hload, hnumber, hseqNumber⟩

theorem deliverSync_ordered {now : UInt32} {sent : SentSync}
    (hordered : Ordered srcId times counts routing)
    (hown : routing.OwnWindow (.deliverSync now sent))
    (hdeliver : routing.deliverSync now sent = some next) :
    Ordered srcId times counts next ∧ next.incarnation = routing.incarnation := by
  unfold deliverSync at hdeliver
  split at hdeliver
  next hmem =>
    obtain ⟨hle, hsync⟩ := hordered.syncs_own sent hmem
    have hsrc := hsync.src_eq
    have haccepts := ReliableAppContext.accepts_iff routing.receiver ⟨now, sent.sync⟩
    have hcases := ReliableAppContext.onSyncRouter_cases routing.receiver ⟨now, sent.sync⟩
    dsimp only at hdeliver haccepts hcases
    rw [hsrc] at hcases
    simp only [Option.some.injEq] at hdeliver
    obtain ⟨hopens, hhanded, hinfo⟩ | ⟨hcontinues, hhanded, hinfo⟩ |
        ⟨hopens, hcontinues, hhanded, hinfo⟩ := hcases
    · -- a RESET of a later time: nothing of its queue was handed over before
      rw [if_pos (haccepts.mpr hopens), hhanded, Option.toList_none, List.append_nil] at hdeliver
      subst hdeliver
      obtain ⟨hreset, htime, hlater⟩ := hopens
      rw [hsrc] at hlater
      have hnone : routing.handedOf sent.incarnation = [] := by
        apply List.filter_eq_nil_iff.mpr
        intro entry hentry hsame
        have hearlier := hordered.handed_time entry hentry
        rw [of_decide_eq_true hsame, ← hsync.reset_time hreset] at hearlier
        exact absurd (UInt64.lt_of_lt_of_le hlater hearlier) (UInt64.lt_irrefl _)
      refine ⟨⟨hordered.syncs_own, hordered.queue_own, hordered.queue_pos, hordered.queue_count,
        hordered.queue_time, hle, fun _ => hsync.pos, ?_, hordered.handed_pos,
        hordered.handed_le, ?_, hordered.in_order, ?_⟩, rfl⟩
      · intro _
        rw [hinfo]
        exact (hsync.reset_time hreset).symm
      · intro entry hentry
        rw [hinfo]
        exact UInt64.le_trans (hordered.handed_time entry hentry) (UInt64.le_of_lt hlater)
      · intro _
        obtain ⟨number, -, hnumber⟩ := hsync.own
        rw [hinfo]
        dsimp only
        rw [hnumber.seq_eq, hnumber.reset hreset]
        exact hnone
    · -- DATA of the window's queue
      obtain ⟨hload, hcount, hseq⟩ := hordered.next_entry hmem hcontinues (hown hcontinues)
      have hopen := hcontinues.2.1
      rw [hsrc] at hopen
      rw [if_neg (fun hopens => (haccepts.mp hopens).not_continues hcontinues), hhanded,
        Option.toList_some, hload] at hdeliver
      subst hdeliver
      refine ⟨⟨hordered.syncs_own, hordered.queue_own, hordered.queue_pos, hordered.queue_count,
        hordered.queue_time, hordered.window_le, fun _ => hordered.window_pos hopen, ?_, ?_, ?_,
        ?_, ?_, ?_⟩, rfl⟩
      · intro _
        rw [hinfo]
        exact hordered.window_time hopen
      · intro entry hentry
        rw [List.mem_append, List.mem_singleton] at hentry
        obtain hold | rfl := hentry
        · exact hordered.handed_pos entry hold
        · exact hordered.window_pos hopen
      · intro entry hentry
        rw [List.mem_append, List.mem_singleton] at hentry
        obtain hold | rfl := hentry
        · exact hordered.handed_le entry hold
        · exact hordered.window_le
      · intro entry hentry
        rw [hinfo]
        rw [List.mem_append, List.mem_singleton] at hentry
        obtain hold | rfl := hentry
        · exact hordered.handed_time entry hold
        · exact UInt64.le_of_eq (hordered.window_time hopen)
      · intro incarnation
        have happend := handedOf_append routing
          ⟨routing.window, (routing.handedOf routing.window).length + 1⟩ incarnation
        obtain ⟨number, hnumber, hhandedOf⟩ := hordered.in_order incarnation
        by_cases hthis : routing.window = incarnation
        · subst hthis
          refine ⟨number + 1, ?_, ?_⟩
          · rw [hhandedOf, length_firstEntries] at hcount
            exact hcount
          · have hnext : routing.handedOf routing.window ++
                [⟨routing.window, (routing.handedOf routing.window).length + 1⟩] =
                  firstEntries routing.window (number + 1) := by
              rw [hhandedOf, length_firstEntries, ← firstEntries_succ]
            rw [if_pos rfl, hnext] at happend
            exact happend
        · rw [if_neg hthis, List.append_nil] at happend
          exact ⟨number, hnumber, happend.trans hhandedOf⟩
      · intro _
        have happend := handedOf_append routing
          ⟨routing.window, (routing.handedOf routing.window).length + 1⟩ routing.window
        rw [if_pos rfl, hordered.window_count hopen, length_firstEntries,
          ← firstEntries_succ] at happend
        rw [hinfo]
        dsimp only
        rw [hseq, hordered.window_count hopen, length_firstEntries]
        exact happend
    · -- neither: only the time of the last message is noted
      rw [if_neg (fun hall => hopens (haccepts.mp hall)), hhanded, Option.toList_none,
        List.append_nil] at hdeliver
      subst hdeliver
      refine ⟨⟨hordered.syncs_own, hordered.queue_own, hordered.queue_pos, hordered.queue_count,
        hordered.queue_time, hordered.window_le, ?_, ?_, hordered.handed_pos,
        hordered.handed_le, ?_, hordered.in_order, ?_⟩, rfl⟩
      · rw [hinfo]
        exact hordered.window_pos
      · rw [hinfo]
        exact hordered.window_time
      · rw [hinfo]
        exact hordered.handed_time
      · rw [hinfo]
        exact hordered.window_count
  · cases hdeliver

/-- An ack changes what the sender keeps, and nothing at the receiver. -/
theorem deliverAck_ordered {issued : IssuedAck} (hordered : Ordered srcId times counts routing)
    (hdeliver : routing.deliverAck issued = some next) :
    Ordered srcId times counts next ∧ next.incarnation = routing.incarnation := by
  unfold deliverAck at hdeliver
  split at hdeliver
  · split at hdeliver
    · cases hdeliver
      exact ⟨hordered, rfl⟩
    next queue hqueue =>
      cases hdeliver
      have hown := hordered.queue_own queue hqueue
      have herase := ReliableSendQueue.erase_eq queue issued.ack hown.linked.size_eq
      refine ⟨⟨hordered.syncs_own, ?_, fun _ _ => hordered.queue_pos queue hqueue, ?_, ?_,
        hordered.window_le, hordered.window_pos, hordered.window_time, hordered.handed_pos,
        hordered.handed_le, hordered.handed_time, hordered.in_order, hordered.window_count⟩,
        rfl⟩
      · intro other hother
        cases hother
        exact hown.erase issued.ack
      · intro other hother
        cases hother
        rw [herase]
        exact hordered.queue_count queue hqueue
      · intro other hother node hnode
        cases hother
        rw [herase] at hnode
        exact hordered.queue_time queue hqueue node (List.mem_of_mem_drop hnode)
  · cases hdeliver

/-! ## Runs -/

/-- With one queue the window is continued by no other. -/
theorem Ordered.ownWindow {event : Event} (hordered : Ordered srcId times counts routing)
    (hstep : routing.step srcId dstId event = some next) (hone : routing.incarnation ≤ 1)
    (hshort : ∀ queue ∈ routing.queue, queue.nextNode + pushes 1 1 [event] ≤ 2 ^ 32) :
    routing.OwnWindow event := by
  cases event with
  | push now multiRoute bridgeId =>
      intro queue hqueue
      have hless := hshort queue hqueue
      simp only [pushes, if_pos] at hless
      omega
  | deliverSync now sent =>
      intro hcontinues
      simp only [step, deliverSync] at hstep
      split at hstep
      next hmem =>
        obtain ⟨hle, hsync⟩ := hordered.syncs_own sent hmem
        have hopen := hcontinues.2.1
        rw [hsync.src_eq] at hopen
        have hpos := hsync.pos
        have hwindow := hordered.window_pos hopen
        have hwindow' := hordered.window_le
        omega
      · cases hstep
  | create now => trivial
  | flush => trivial
  | tryFront => trivial
  | ping => trivial
  | drop => trivial
  | deliverAck issued => trivial

end Routing

end ServiceFrame
