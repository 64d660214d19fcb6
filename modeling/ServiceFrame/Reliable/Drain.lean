import ServiceFrame.Reliable.InOrder

/-! # A queue can always be emptied

While a queue keeps its messages - there is room for what is pushed, it is not dropped, and
an ack erases no DATA beyond the id that it expects - no loss, delay or repetition blocks
it: sending the front, delivering it and its ack shortens the queue, in every state that a
run reaches. Once it is empty the handler was given everything.
-/

namespace ServiceFrame

open Foundation

namespace ReliableSendQueue

variable {Load : Type} (queue : ReliableSendQueue Load) (ack : PSS_AckRouter)

theorem erasedCount_le : queue.erasedCount ack ≤ queue.msgQueue.length := by
  unfold erasedCount
  split
  · exact Nat.zero_le _
  next hsome =>
    split
    · exact (List.takeWhile_prefix _).length_le
    · split
      · exact Nat.zero_le _
      next sync rest hlist =>
        rw [hlist, List.length_cons]
        split
        · exact Nat.succ_le_succ (Nat.zero_le _)
        · exact Nat.zero_le _

/-- Nothing but the ack of the RESET, when it erases it, and a SHUTDOWN sets `m_bReset`. -/
theorem erase_isReset_eq (hsize : queue.queueSize = queue.msgQueue.length)
    (hshutdown : ack.enType ≠ .shutdown) :
    (queue.erase ack).isReset =
      (queue.isReset || (decide (0 < queue.erasedCount ack) && ack.enType == .reset)) := by
  by_cases hping : ack.enType = .ping
  · simp [erase, erasedCount, hping]
  by_cases hempty : queue.queueSize = 0
  · simp [erase, erasedCount, hping, hempty, hshutdown]
  obtain hlist | ⟨sync, rest, hlist⟩ : queue.msgQueue = [] ∨
      ∃ sync rest, queue.msgQueue = sync :: rest := by
    cases queue.msgQueue with
    | nil => exact Or.inl rfl
    | cons sync rest => exact Or.inr ⟨sync, rest, rfl⟩
  · rw [hlist] at hsize
    exact absurd hsize hempty
  by_cases hmode : ack.expectId ≠ 0 ∧ queue.isReset = true
  · have herase : queue.erase ack = queue.eraseExpected ack := by
      simp only [erase, if_neg hping, if_neg hshutdown, if_neg hempty, if_pos hmode]
    rw [herase, eraseExpected_eq queue ack hsize hlist]
    simp [edited, hmode.2]
  · have herase : queue.erase ack = queue.eraseMatching ack := by
      simp only [erase, if_neg hping, if_neg hshutdown, if_neg hempty, if_neg hmode]
    have hcount : queue.erasedCount ack =
        if sync.msg.seqId = ack.seqId ∧ sync.msg.enType = ack.enType then 1 else 0 := by
      have hno : ¬ (ack.enType = .ping ∨ ack.enType = .shutdown ∨ queue.queueSize = 0) := by
        rintro (hthis | hthis | hthis)
        · exact hping hthis
        · exact hshutdown hthis
        · exact hempty hthis
      simp only [erasedCount, if_neg hno, if_neg hmode, hlist]
    rw [herase, eraseMatching_eq queue ack hlist, hcount]
    by_cases hmatch : sync.msg.seqId = ack.seqId ∧ sync.msg.enType = ack.enType
    · simp [edited, hmatch]
    · simp [edited, hmatch]

/-- Before the RESET is acknowledged an ack erases one element at most, the one it is for. -/
theorem erasedCount_opening {sync : QueueNode Load} {rest : List (QueueNode Load)}
    (hreset : queue.isReset = false) (hlist : queue.msgQueue = sync :: rest)
    (hpos : 0 < queue.erasedCount ack) :
    queue.erasedCount ack = 1 ∧ ack.enType = sync.msg.enType := by
  unfold erasedCount at hpos ⊢
  split at hpos
  · cases hpos
  next hno =>
    rw [if_neg hno]
    rw [hreset] at hpos ⊢
    simp only [Bool.false_eq_true, and_false, if_false, hlist] at hpos ⊢
    split at hpos
    next hmatch => exact ⟨if_pos hmatch, hmatch.2.symm⟩
    · cases hpos

end ReliableSendQueue

namespace ReliableAppContext

variable {Load : Type}

/-- The ack is for the message: it has its id, and its type unless the source is to stop. -/
theorem onSyncRouter_ack (ctx : ReliableAppContext) (arrival : Arrival Load) :
    (ctx.onSyncRouter arrival).ack.seqId = arrival.sync.seqId ∧
      (ctx.onSyncRouter arrival).ack.enType =
        if arrival.sync.enType.isData ∧ (ctx.writerInfo arrival.sync.srcId).lastRestTime = 0
        then .shutdown else arrival.sync.enType := by
  simp only [onSyncRouter, routeAck, doAckRouter_sync]
  exact ⟨trivial, trivial⟩

end ReliableAppContext

namespace Routing

/-- The clock works when the queue is created, there is room for what is pushed, the queue is
not dropped, and an ack erases no DATA beyond the id it expects. -/
def Kept (routing : Routing) : Event → Prop
  | .create now => now ≠ 0 ∧ routing.incarnation = 0
  | .push _ _ _ => ∀ queue ∈ routing.queue,
      queue.nextNode < 2 ^ 32 ∧ queue.queueSize < queue.maxQueueSize
  | .drop => False
  | .deliverAck issued =>
      ∀ queue ∈ routing.queue, ∀ node ∈ queue.msgQueue.take (queue.erasedCount issued.ack),
        node.msg.enType.isData = true → node.msg.seqId ≤ issued.ack.expectId
  | _ => True

instance decidableKept (routing : Routing) : (event : Event) → Decidable (routing.Kept event)
  | .create now => inferInstanceAs (Decidable (now ≠ 0 ∧ routing.incarnation = 0))
  | .push _ _ _ => inferInstanceAs (Decidable (∀ queue ∈ routing.queue,
      queue.nextNode < 2 ^ 32 ∧ queue.queueSize < queue.maxQueueSize))
  | .flush => isTrue trivial
  | .tryFront => isTrue trivial
  | .ping => isTrue trivial
  | .drop => isFalse id
  | .deliverSync _ _ => isTrue trivial
  | .deliverAck issued => inferInstanceAs (Decidable (∀ queue ∈ routing.queue,
      ∀ node ∈ queue.msgQueue.take (queue.erasedCount issued.ack),
        node.msg.enType.isData = true → node.msg.seqId ≤ issued.ack.expectId))

/-- What a queue does without its process: `Try` at the sender, and deliveries. -/
def Event.isRetry : Event → Bool
  | .tryFront => true
  | .deliverSync _ _ => true
  | .deliverAck _ => true
  | _ => false

/-- The window that the receiver keeps for the source is open. -/
def IsOpen (srcId : UInt32) (routing : Routing) : Prop :=
  (routing.receiver.writerInfo srcId).lastRestTime ≠ 0

/-- The id up to which the receiver has everything. -/
def expected (srcId : UInt32) (routing : Routing) : Nat :=
  (routing.receiver.writerInfo srcId).expectSeqId.toNat

/-- What is on the wire: a RESET has its time, and DATA comes to an open window. -/
structure Sendable (srcId : UInt32) (routing : Routing) (sync : PSS_SyncRouter Entry) : Prop where
  not_shutdown : sync.enType ≠ .shutdown
  reset_time : sync.enType = .reset → sync.sendTime ≠ 0
  data_open : sync.enType.isData = true → routing.IsOpen srcId

/-- The queue there is holds the messages from `first` on, without a gap, and the receiver
has all before. -/
structure Live (srcId : UInt32) (times : Nat → UInt64) (counts : Nat → Nat) (routing : Routing)
    (queue : ReliableSendQueue Entry) (first : Nat) : Prop
    extends Ordered srcId times counts routing where
  queue_eq : routing.queue = some queue
  incarnation_eq : routing.incarnation = 1
  numbers : queue.msgQueue.map QueueNode.node = List.range' first (queue.nextNode - first)
  first_le : first ≤ queue.nextNode
  next_le : queue.nextNode ≤ 2 ^ 32
  reset_iff : queue.isReset = decide (0 < first)
  node_kind : ∀ node ∈ queue.msgQueue,
    (node.node = 0 → node.msg.enType = .reset ∧ node.msg.sendTime ≠ 0) ∧
      (0 < node.node → node.msg.enType.isData = true)
  first_open : 0 < first → routing.IsOpen srcId
  first_expected : first ≤ routing.expected srcId + 1
  closed_expected : ¬ routing.IsOpen srcId → routing.expected srcId = 0
  sync_kind : ∀ sent ∈ routing.syncs, routing.Sendable srcId sent.sync
  ack_kind : ∀ issued ∈ routing.acks, issued.ack.enType ≠ .shutdown ∧
    (issued.ack.enType = .reset → routing.IsOpen srcId) ∧
      issued.ack.expectId.toNat ≤ routing.expected srcId

variable {srcId dstId : UInt32} {times : Nat → UInt64} {counts : Nat → Nat}
  {routing next : Routing} {queue : ReliableSendQueue Entry} {first : Nat}

/-! ## The sender's steps -/

theorem create_live {now : UInt64} (hnow : now ≠ 0)
    (hcreate : init.create srcId dstId now = some next) :
    ∃ times counts queue, Live srcId times counts next queue 0 ∧ queue.nextNode = 1 := by
  obtain ⟨hordered, -⟩ := create_ordered (init_ordered srcId fun _ => 0) hcreate
  have hnext : next = { init with
      queue := some (ReliableSendQueue.reset now (.new srcId dstId 100000)).1
      incarnation := 1
      syncs := (ReliableSendQueue.reset now (.new srcId dstId 100000)).2.map (SentSync.mk 1) } :=
    (Option.some.inj hcreate).symm
  subst hnext
  refine ⟨_, _, _, ⟨hordered, rfl, rfl, rfl, Nat.zero_le _,
    Nat.one_le_two_pow, rfl, ?_, ?_, Nat.zero_le _,
    fun _ => rfl, ?_, ?_⟩, rfl⟩
  · intro node hnode
    simp only [ReliableSendQueue.reset, ReliableSendQueue.new, List.mem_singleton] at hnode
    subst hnode
    exact ⟨fun _ => ⟨rfl, hnow⟩, fun hpos => absurd hpos (Nat.lt_irrefl 0)⟩
  · exact fun hpos => absurd hpos (Nat.lt_irrefl 0)
  · intro sent hsent
    simp only [ReliableSendQueue.reset, List.map_singleton, List.mem_singleton] at hsent
    subst hsent
    refine ⟨fun hthis => ?_, fun _ => hnow, fun hthis => ?_⟩
    · cases hthis
    · cases hthis
  · intro issued hissued
    simp [init] at hissued

/-- A queue that was reset is past its RESET. -/
theorem Live.reset_open (hlive : Live srcId times counts routing queue first)
    (hreset : queue.isReset = true) : routing.IsOpen srcId := by
  rw [hlive.reset_iff] at hreset
  exact hlive.first_open (of_decide_eq_true hreset)

theorem Live.front_eq (hlive : Live srcId times counts routing queue first)
    {front : QueueNode Entry} {rest : List (QueueNode Entry)}
    (hlist : queue.msgQueue = front :: rest) : front.node = first ∧ first < queue.nextNode := by
  have hnumbers := hlive.numbers
  rw [hlist, List.map_cons] at hnumbers
  obtain ⟨hfront, hpos, -⟩ := List.range'_eq_cons_iff.mp hnumbers.symm
  exact ⟨hfront.symm, by omega⟩

/-- A node on the wire: what it needs is an open window, when it is DATA. -/
theorem Live.sync_node (hlive : Live srcId times counts routing queue first)
    {node : QueueNode Entry} (hnode : node ∈ queue.msgQueue)
    (hopen : 0 < node.node → routing.IsOpen srcId) : routing.Sendable srcId node.msg := by
  obtain ⟨hzero, hdata⟩ := hlive.node_kind node hnode
  obtain hnumber | hnumber := Nat.eq_zero_or_pos node.node
  · obtain ⟨htype, htime⟩ := hzero hnumber
    refine ⟨fun hthis => ?_, fun _ => htime, fun hthis => ?_⟩
    · rw [htype] at hthis
      cases hthis
    · rw [htype] at hthis
      cases hthis
  · have hthis := hdata hnumber
    refine ⟨fun hshutdown => ?_, fun hreset => ?_, fun _ => hopen hnumber⟩
    · rw [hshutdown] at hthis
      cases hthis
    · rw [hreset] at hthis
      cases hthis

theorem tryFront_front {sent : List (PSS_SyncRouter Entry)} {sync : PSS_SyncRouter Entry}
    (htry : queue.tryFront = some sent) (hsync : sync ∈ sent) :
    ∃ front rest, queue.msgQueue = front :: rest ∧ sync = front.msg := by
  unfold ReliableSendQueue.tryFront at htry
  split at htry
  · split at htry
    · cases htry
    next front rest hlist =>
      cases htry
      exact ⟨front, rest, hlist, List.mem_singleton.mp hsync⟩
  · cases htry
    cases hsync

/-- A call that leaves the front of the queue where it is. -/
theorem Live.sent (hlive : Live srcId times counts routing queue first)
    {after : ReliableSendQueue Entry} {sent : List (PSS_SyncRouter Entry)}
    {times' : Nat → UInt64} {counts' : Nat → Nat}
    (hordered : Ordered srcId times' counts' { routing with
      queue := some after
      syncs := routing.syncs ++ sent.map (SentSync.mk routing.incarnation) })
    (hnumbers : after.msgQueue.map QueueNode.node = List.range' first (after.nextNode - first))
    (hfirst : first ≤ after.nextNode) (hnext : after.nextNode ≤ 2 ^ 32)
    (hreset : after.isReset = queue.isReset)
    (hkind : ∀ node ∈ after.msgQueue,
      (node.node = 0 → node.msg.enType = .reset ∧ node.msg.sendTime ≠ 0) ∧
        (0 < node.node → node.msg.enType.isData = true))
    (hsent : ∀ sync ∈ sent, routing.Sendable srcId sync) :
    Live srcId times' counts' { routing with
      queue := some after
      syncs := routing.syncs ++ sent.map (SentSync.mk routing.incarnation) } after first := by
  refine ⟨hordered, rfl, hlive.incarnation_eq, hnumbers, hfirst, hnext,
    hreset.trans hlive.reset_iff, hkind, hlive.first_open, hlive.first_expected,
    hlive.closed_expected, ?_, hlive.ack_kind⟩
  intro one hone
  simp only [List.mem_append, List.mem_map] at hone
  obtain hone | ⟨sync, hsync, rfl⟩ := hone
  · obtain ⟨hnot, htime, hdata⟩ := hlive.sync_kind one hone
    exact ⟨hnot, htime, hdata⟩
  · obtain ⟨hnot, htime, hdata⟩ := hsent sync hsync
    exact ⟨hnot, htime, hdata⟩

theorem push_live (hlive : Live srcId times counts routing queue first) {now : UInt64}
    {multiRoute : Bool} {bridgeId : UInt32}
    (hkept : routing.Kept (.push now multiRoute bridgeId))
    (hstep : routing.step srcId dstId (.push now multiRoute bridgeId) = some next) :
    ∃ counts' after, Live srcId times counts' next after first ∧
      after.nextNode = queue.nextNode + 1 := by
  obtain ⟨hnumber, hroom⟩ := hkept queue hlive.queue_eq
  have hown : routing.OwnWindow (.push now multiRoute bridgeId) :=
    fun other hother => (hkept other hother).1
  obtain ⟨hordered, -⟩ := push_ordered hlive.toOrdered hown hstep
  simp only [step, call, hlive.queue_eq] at hstep
  obtain ⟨⟨after, sent⟩, happly, rfl⟩ := Option.map_eq_some_iff.mp hstep
  obtain ⟨hpush, rfl⟩ := ReliableSendQueue.apply_some happly
  have hafter := ReliableSendQueue.push_some hpush
  have hfirst := hlive.first_le
  rw [if_neg (Nat.not_le_of_lt hroom)] at hafter
  refine ⟨_, after, hlive.sent hordered ?_ ?_ ?_ ?_ ?_ (by simp), by rw [hafter]⟩
  · rw [hafter]
    dsimp only
    rw [List.drop_zero, List.map_append, hlive.numbers, Nat.sub_add_comm hfirst,
      List.range'_concat, Nat.one_mul, Nat.add_sub_cancel' hfirst, List.map_singleton]
  · rw [hafter]
    exact Nat.le_succ_of_le hfirst
  · rw [hafter]
    exact hnumber
  · rw [hafter]
  · intro node hnode
    rw [hafter] at hnode
    simp only [List.drop_zero, List.mem_append, List.mem_singleton] at hnode
    obtain hnode | rfl := hnode
    · exact hlive.node_kind node hnode
    · have hpos := (hlive.queue_own queue hlive.queue_eq).linked.next_pos
      refine ⟨fun hzero => absurd hzero (Nat.ne_of_gt hpos), fun _ => ?_⟩
      cases multiRoute <;> rfl

/-- `Flush`, `Try` and `Ping` send DATA only after the RESET was acknowledged. -/
theorem dispatch_live (hlive : Live srcId times counts routing queue first)
    {op : ReliableSendQueue.Op Entry} (hop : op = .flush ∨ op = .tryFront ∨ op = .ping)
    (hcall : routing.call (fun _ => op) = some next) :
    ∃ after, Live srcId times counts next after first ∧ after.msgQueue = queue.msgQueue ∧
      after.nextNode = queue.nextNode := by
  obtain ⟨hordered, -⟩ := dispatch_ordered hlive.toOrdered hop hcall
  simp only [call, hlive.queue_eq] at hcall
  obtain ⟨⟨after, sent⟩, happly, rfl⟩ := Option.map_eq_some_iff.mp hcall
  have happlied := ReliableSendQueue.apply_some happly
  obtain rfl | rfl | rfl := hop
  · obtain ⟨rfl, rfl, -⟩ | ⟨hreset, iter, count, isUrgentMode, -, -, rfl, rfl⟩ :=
      ReliableSendQueue.flush_some happlied
    · exact ⟨after, hlive.sent hordered hlive.numbers hlive.first_le hlive.next_le rfl
        hlive.node_kind (by simp), rfl, rfl⟩
    · refine ⟨_, hlive.sent hordered hlive.numbers hlive.first_le hlive.next_le rfl
        hlive.node_kind ?_, rfl, rfl⟩
      intro sync hsync
      obtain ⟨node, hnode, rfl⟩ := List.mem_map.mp hsync
      have hqueued := (List.dropWhile_suffix _).subset (List.mem_of_mem_take hnode)
      exact hlive.sync_node hqueued fun _ => hlive.reset_open hreset
  · obtain ⟨rfl, htry⟩ := happlied
    refine ⟨after, hlive.sent hordered hlive.numbers hlive.first_le hlive.next_le rfl
      hlive.node_kind ?_, rfl, rfl⟩
    intro sync hsync
    obtain ⟨front, rest, hlist, rfl⟩ := tryFront_front htry hsync
    obtain ⟨hnumber, -⟩ := hlive.front_eq hlist
    refine hlive.sync_node (by simp [hlist]) fun hpos => hlive.first_open ?_
    rwa [hnumber] at hpos
  · obtain ⟨rfl, rfl⟩ := happlied
    refine ⟨after, hlive.sent hordered hlive.numbers hlive.first_le hlive.next_le rfl
      hlive.node_kind ?_, rfl, rfl⟩
    intro sync hsync
    rw [List.mem_singleton] at hsync
    subst hsync
    refine ⟨fun hthis => ?_, fun hthis => ?_, fun hthis => ?_⟩
    · cases hthis
    · cases hthis
    · cases hthis

/-! ## Deliveries -/

/-- What the receiver has only grows. A RESET opens the window if it is not open, and leaves
it as it is if it is; DATA that is next completes what the receiver has. -/
theorem Live.received (hlive : Live srcId times counts routing queue first) {now : UInt32}
    {sent : SentSync} (hdeliver : routing.deliverSync now sent = some next) :
    routing.expected srcId ≤ next.expected srcId ∧
      (routing.IsOpen srcId → next.IsOpen srcId) ∧
      (sent.sync.enType = .reset → next.IsOpen srcId) ∧
      (¬ next.IsOpen srcId → next.expected srcId = 0) ∧
      (sent.sync.enType.isData = true → sent.sync.seqId.toNat ≤ routing.expected srcId + 1 →
        sent.sync.seqId.toNat ≤ next.expected srcId) := by
  unfold deliverSync at hdeliver
  split at hdeliver
  next hmem =>
    obtain ⟨hle, hsync⟩ := hlive.syncs_own sent hmem
    have hsrc := hsync.src_eq
    have hcases := ReliableAppContext.onSyncRouter_cases routing.receiver ⟨now, sent.sync⟩
    simp only [Option.some.injEq] at hdeliver
    dsimp only at hcases
    rw [hsrc] at hcases
    subst hdeliver
    obtain ⟨hopens, -, hinfo⟩ | ⟨hcontinues, -, hinfo⟩ | ⟨hopens, hcontinues, -, hinfo⟩ := hcases
    · -- the window was not open: all RESETs of the queue have one time
      obtain ⟨hreset, htime, hlater⟩ := hopens
      rw [hsrc] at hlater
      have hclosed : ¬ routing.IsOpen srcId := by
        intro hopen
        have hwindow := hlive.window_pos hopen
        have hwindowLe := hlive.window_le
        have hpos := hsync.pos
        have hsame : sent.incarnation = routing.window := by
          rw [hlive.incarnation_eq] at hle hwindowLe
          omega
        have heq : sent.sync.sendTime = (routing.receiver.writerInfo srcId).lastRestTime := by
          rw [hsync.reset_time hreset, hsame]
          exact hlive.window_time hopen
        rw [heq] at hlater
        exact UInt64.lt_irrefl _ hlater
      have hnow : IsOpen srcId { routing with
          receiver := (routing.receiver.onSyncRouter ⟨now, sent.sync⟩).ctx } := by
        unfold IsOpen
        rw [hinfo]
        exact htime
      refine ⟨?_, fun hopen => absurd hopen hclosed, fun _ => hnow, fun hno => absurd hnow hno,
        fun hdata => ?_⟩
      · rw [hlive.closed_expected hclosed]
        exact Nat.zero_le _
      · rw [hreset] at hdata
        cases hdata
    · -- the next DATA
      have hopen := hcontinues.2.1
      rw [hsrc] at hopen
      have hseq := hcontinues.2.2
      rw [hsrc] at hseq
      have hnext : expected srcId { routing with
          receiver := (routing.receiver.onSyncRouter ⟨now, sent.sync⟩).ctx } =
            sent.sync.seqId.toNat := by
        unfold expected
        rw [hinfo]
      have hincarnation : sent.incarnation = routing.window := by
        have hwindow := hlive.window_pos hopen
        have hwindowLe := hlive.window_le
        have hpos := hsync.pos
        rw [hlive.incarnation_eq] at hle hwindowLe
        omega
      obtain ⟨-, -, hnumber⟩ := hlive.next_entry hmem hcontinues hincarnation
      rw [hlive.window_count hopen, length_firstEntries] at hnumber
      have hnow : IsOpen srcId { routing with
          receiver := (routing.receiver.onSyncRouter ⟨now, sent.sync⟩).ctx } := by
        unfold IsOpen
        rw [hinfo]
        exact hopen
      refine ⟨?_, fun _ => hnow, fun _ => hnow, fun hno => absurd hnow hno, fun _ _ => ?_⟩
      · exact Nat.le_trans (Nat.le_succ _) (Nat.le_of_eq (hnumber.symm.trans hnext.symm))
      · exact Nat.le_of_eq hnext.symm
    · -- nothing but the time of the last message
      have hsame : IsOpen srcId { routing with
          receiver := (routing.receiver.onSyncRouter ⟨now, sent.sync⟩).ctx } ↔
            routing.IsOpen srcId := by
        unfold IsOpen
        rw [hinfo]
      have hexpected : expected srcId { routing with
          receiver := (routing.receiver.onSyncRouter ⟨now, sent.sync⟩).ctx } =
            routing.expected srcId := by
        unfold expected
        rw [hinfo]
      obtain ⟨-, hresetTime, hdataOpen⟩ := hlive.sync_kind sent hmem
      refine ⟨Nat.le_of_eq hexpected.symm, hsame.mpr, fun hreset => ?_, fun hno => ?_,
        fun hdata hle => ?_⟩
      · apply hsame.mpr
        intro hclosed
        apply hopens
        refine ⟨hreset, hresetTime hreset, ?_⟩
        rw [hsrc, hclosed]
        exact UInt64.pos_iff_ne_zero.mpr (hresetTime hreset)
      · exact hexpected.trans (hlive.closed_expected fun hopen => hno (hsame.mpr hopen))
      · refine Nat.le_trans ?_ (Nat.le_of_eq hexpected.symm)
        by_contra hgreater
        apply hcontinues
        refine ⟨hdata, ?_, ?_⟩
        · rw [hsrc]
          exact hdataOpen hdata
        · rw [hsrc]
          apply UInt32.toNat_inj.mp
          have hlt := sent.sync.seqId.toNat_lt
          unfold expected at hle hgreater
          rw [UInt32.toNat_add]
          change _ = (_ + 1) % 2 ^ 32
          omega
  · cases hdeliver

theorem deliverSync_live (hlive : Live srcId times counts routing queue first) {now : UInt32}
    {sent : SentSync} (hdeliver : routing.deliverSync now sent = some next) :
    Live srcId times counts next queue first := by
  obtain ⟨hmore, hopen, hreset, hclosed, -⟩ := hlive.received hdeliver
  have hstep : routing.step srcId 0 (.deliverSync now sent) = some next := hdeliver
  have hown : routing.OwnWindow (.deliverSync now sent) := by
    refine hlive.ownWindow hstep (Nat.le_of_eq hlive.incarnation_eq) fun other hother => ?_
    rw [hlive.queue_eq, Option.mem_some_iff] at hother
    subst hother
    exact hlive.next_le
  obtain ⟨hordered, hincarnation⟩ := deliverSync_ordered hlive.toOrdered hown hdeliver
  unfold deliverSync at hdeliver
  split at hdeliver
  next hmem =>
    obtain ⟨-, hackType⟩ := ReliableAppContext.onSyncRouter_ack routing.receiver ⟨now, sent.sync⟩
    have hexpect := ReliableAppContext.onSyncRouter_expectId routing.receiver ⟨now, sent.sync⟩
    obtain ⟨-, hsync⟩ := hlive.syncs_own sent hmem
    dsimp only at hackType hexpect
    rw [hsync.src_eq] at hackType hexpect
    simp only [Option.some.injEq] at hdeliver
    subst hdeliver
    refine ⟨hordered, hlive.queue_eq, hlive.incarnation_eq, hlive.numbers, hlive.first_le,
      hlive.next_le, hlive.reset_iff, hlive.node_kind, fun hpos => hopen (hlive.first_open hpos),
      hlive.first_expected.trans (Nat.succ_le_succ hmore), hclosed, ?_, ?_⟩
    · intro one hone
      obtain ⟨hnot, htime, hdata⟩ := hlive.sync_kind one hone
      exact ⟨hnot, htime, fun hthis => hopen (hdata hthis)⟩
    · intro issued hissued
      simp only [List.mem_append, List.mem_singleton] at hissued
      obtain hissued | rfl := hissued
      · obtain ⟨hkind, hwhen, hle⟩ := hlive.ack_kind issued hissued
        exact ⟨hkind, fun hthis => hopen (hwhen hthis), hle.trans hmore⟩
      · -- DATA was sent to an open window only, so no ack tells the source to stop
        obtain ⟨hnot, -, hdata⟩ := hlive.sync_kind sent hmem
        rw [if_neg fun hboth => hdata hboth.1 hboth.2] at hackType
        refine ⟨?_, fun hthis => hreset (hackType.symm.trans hthis), ?_⟩
        · dsimp only
          rw [hackType]
          exact hnot
        · dsimp only
          rw [hexpect]
          exact Nat.le_refl _
  · cases hdeliver

/-- Before the RESET is acknowledged only its own ack erases. -/
theorem Live.opening_ack (hlive : Live srcId times counts routing queue 0) {ack : PSS_AckRouter}
    (hpos : 0 < queue.erasedCount ack) : queue.erasedCount ack = 1 ∧ ack.enType = .reset := by
  have hno : queue.isReset = false := hlive.reset_iff
  cases hlist : queue.msgQueue with
  | nil =>
      have hcount := ReliableSendQueue.erasedCount_le queue ack
      rw [hlist, List.length_nil] at hcount
      omega
  | cons front rest =>
      obtain ⟨hone, htype⟩ := ReliableSendQueue.erasedCount_opening queue ack hno hlist hpos
      obtain ⟨hnumber, -⟩ := hlive.front_eq hlist
      obtain ⟨hkind, -⟩ := (hlive.node_kind front (by simp [hlist])).1 hnumber
      exact ⟨hone, htype.trans hkind⟩

/-- An ack erases nothing that the receiver lacks. -/
theorem Live.acked_le (hlive : Live srcId times counts routing queue first) {issued : IssuedAck}
    (hkept : routing.Kept (.deliverAck issued)) (hmem : issued ∈ routing.acks) :
    first + queue.erasedCount issued.ack ≤ routing.expected srcId + 1 := by
  have hlinked := (hlive.queue_own queue hlive.queue_eq).linked
  obtain hnone | hsome := Nat.eq_zero_or_pos (queue.erasedCount issued.ack)
  · rw [hnone]
    exact hlive.first_expected
  -- the last element that it erases
  have hcount := ReliableSendQueue.erasedCount_le queue issued.ack
  have hindex : queue.erasedCount issued.ack - 1 < queue.msgQueue.length := by omega
  obtain ⟨node, hnode⟩ : ∃ node, node = queue.msgQueue[queue.erasedCount issued.ack - 1] := ⟨_, rfl⟩
  have hqueued : node ∈ queue.msgQueue := hnode ▸ List.getElem_mem hindex
  have hnumber : node.node = first + (queue.erasedCount issued.ack - 1) := by
    have hget : (queue.msgQueue.map QueueNode.node)[queue.erasedCount issued.ack - 1]? =
        some node.node := by
      rw [List.getElem?_map, List.getElem?_eq_getElem hindex, ← hnode]
      rfl
    have hlength : queue.msgQueue.length = queue.nextNode - first := by
      rw [← List.length_map, hlive.numbers, List.length_range']
    rw [hlive.numbers, List.getElem?_range' (hlength ▸ hindex), Nat.one_mul] at hget
    exact (Option.some.inj hget).symm
  obtain hzero | hpos := Nat.eq_zero_or_pos node.node
  · omega
  have htaken : node ∈ queue.msgQueue.take (queue.erasedCount issued.ack) :=
    List.mem_take_iff_getElem.mpr ⟨queue.erasedCount issued.ack - 1, by omega, hnode.symm⟩
  have hle := hkept queue hlive.queue_eq node htaken ((hlive.node_kind node hqueued).2 hpos)
  have hfresh := hlinked.fresh node hqueued
  have hnext := hlive.next_le
  rw [hlinked.seq_eq node hqueued, UInt32.le_iff_toNat_le, UInt32.toNat_ofNat',
    Nat.mod_eq_of_lt (by omega)] at hle
  obtain ⟨-, -, hexpect⟩ := hlive.ack_kind issued hmem
  omega

/-- An ack takes messages from the front. -/
theorem deliverAck_live (hlive : Live srcId times counts routing queue first) {issued : IssuedAck}
    (hkept : routing.Kept (.deliverAck issued)) (hdeliver : routing.deliverAck issued = some next) :
    ∃ after, Live srcId times counts next after (first + queue.erasedCount issued.ack) ∧
      after.nextNode = queue.nextNode ∧
      after.msgQueue = queue.msgQueue.drop (queue.erasedCount issued.ack) := by
  obtain ⟨hordered, -⟩ := deliverAck_ordered hlive.toOrdered hdeliver
  have hlinked := (hlive.queue_own queue hlive.queue_eq).linked
  unfold deliverAck at hdeliver
  split at hdeliver
  next hmem =>
    simp only [hlive.queue_eq, Option.some.injEq] at hdeliver
    subst hdeliver
    obtain ⟨hshutdown, hresetOpen, -⟩ := hlive.ack_kind issued hmem
    have herase := ReliableSendQueue.erase_eq queue issued.ack hlinked.size_eq
    have hreset := ReliableSendQueue.erase_isReset_eq queue issued.ack hlinked.size_eq hshutdown
    have hcount := ReliableSendQueue.erasedCount_le queue issued.ack
    have hlength : queue.msgQueue.length = queue.nextNode - first := by
      rw [← List.length_map, hlive.numbers, List.length_range']
    have hfirst := hlive.first_le
    have hafter : (queue.erase issued.ack).msgQueue =
        queue.msgQueue.drop (queue.erasedCount issued.ack) := by
      rw [herase]
      rfl
    have hnext : (queue.erase issued.ack).nextNode = queue.nextNode := by
      rw [herase]
      rfl
    refine ⟨queue.erase issued.ack, ⟨hordered, rfl, hlive.incarnation_eq, ?_, ?_, ?_, ?_, ?_, ?_,
      hlive.acked_le hkept hmem, hlive.closed_expected, ?_, hlive.ack_kind⟩, hnext, hafter⟩
    · rw [hafter, hnext, List.map_drop, hlive.numbers, List.drop_range', Nat.mul_one, Nat.sub_sub]
    · rw [hnext]
      omega
    · rw [hnext]
      exact hlive.next_le
    · rw [hreset, hlive.reset_iff]
      obtain rfl | hpos := Nat.eq_zero_or_pos first
      · obtain hnone | hsome := Nat.eq_zero_or_pos (queue.erasedCount issued.ack)
        · simp [hnone]
        · obtain ⟨-, htype⟩ := hlive.opening_ack hsome
          simp [htype]
      · have hmore : 0 < first + queue.erasedCount issued.ack := by omega
        rw [decide_eq_true hpos, decide_eq_true hmore, Bool.true_or]
    · intro node hnode
      rw [hafter] at hnode
      exact hlive.node_kind node (List.mem_of_mem_drop hnode)
    · intro hpos
      obtain rfl | hsome := Nat.eq_zero_or_pos first
      · rw [Nat.zero_add] at hpos
        exact hresetOpen (hlive.opening_ack hpos).2
      · exact hlive.first_open hsome
    · intro sent hsent
      obtain ⟨hnot, htime, hdata⟩ := hlive.sync_kind sent hsent
      exact ⟨hnot, htime, hdata⟩
  · cases hdeliver

/-! ## Runs -/

theorem step_live {event : Event} (hlive : Live srcId times counts routing queue first)
    (hkept : routing.Kept event) (hstep : routing.step srcId dstId event = some next) :
    ∃ counts' after first', Live srcId times counts' next after first' ∧
      after.nextNode = queue.nextNode + pushes 1 1 [event] := by
  cases event with
  | create now =>
      have hzero := hkept.2
      rw [hlive.incarnation_eq] at hzero
      cases hzero
  | push now multiRoute bridgeId =>
      obtain ⟨counts', after, hnext, hcount⟩ := push_live hlive hkept hstep
      exact ⟨counts', after, first, hnext, hcount⟩
  | flush =>
      obtain ⟨after, hnext, -, hcount⟩ := dispatch_live hlive (Or.inl rfl) hstep
      exact ⟨counts, after, first, hnext, hcount⟩
  | tryFront =>
      obtain ⟨after, hnext, -, hcount⟩ := dispatch_live hlive (Or.inr (Or.inl rfl)) hstep
      exact ⟨counts, after, first, hnext, hcount⟩
  | ping =>
      obtain ⟨after, hnext, -, hcount⟩ := dispatch_live hlive (Or.inr (Or.inr rfl)) hstep
      exact ⟨counts, after, first, hnext, hcount⟩
  | drop => exact hkept.elim
  | deliverSync now sent => exact ⟨counts, queue, first, deliverSync_live hlive hstep, rfl⟩
  | deliverAck issued =>
      obtain ⟨after, hnext, hcount, -⟩ := deliverAck_live hlive hkept hstep
      exact ⟨counts, after, _, hnext, hcount⟩

/-- Before the queue is created nothing happens. -/
theorem init_step {event : Event} (hkept : init.Kept event)
    (hstep : init.step srcId dstId event = some next) : ∃ now, event = .create now := by
  cases event with
  | create now => exact ⟨now, rfl⟩
  | push now multiRoute bridgeId => cases hstep
  | flush => cases hstep
  | tryFront => cases hstep
  | ping => cases hstep
  | drop => exact hkept.elim
  | deliverSync now sent => simp [step, deliverSync, init] at hstep
  | deliverAck issued => simp [step, deliverAck, init] at hstep

theorem run_live {events : List Event} :
    ∀ {final : Routing}, Along (step srcId dstId) Kept init events →
      run (step srcId dstId) init events = some final →
      (events = [] ∧ final = init) ∨
        creates events = 1 ∧ ∃ times counts queue first,
          Live srcId times counts final queue first ∧ queue.nextNode = pushes 1 0 events + 1 := by
  induction events using List.reverseRecOn with
  | nil =>
      intro final _ hrun
      cases hrun
      exact Or.inl ⟨rfl, rfl⟩
  | append_singleton past event ih =>
      intro final hkept hrun
      obtain ⟨routing, hpast, hevent⟩ := run_split hrun
      obtain ⟨hbefore, hnow⟩ := hkept.split hpast
      rw [run_cons, Option.bind_eq_some_iff] at hevent
      obtain ⟨next, hstep, hnext⟩ := hevent
      cases hnext
      refine Or.inr ?_
      obtain ⟨rfl, rfl⟩ | ⟨hcreates, times, counts, queue, first, hlive, hcount⟩ := ih hbefore hpast
      · obtain ⟨now, rfl⟩ := init_step hnow.1 hstep
        obtain ⟨times, counts, queue, hlive, hcount⟩ := create_live hnow.1.1 hstep
        exact ⟨rfl, times, counts, queue, 0, hlive, hcount⟩
      · obtain ⟨counts', after, first', hlive', hcount'⟩ := step_live hlive hnow.1 hstep
        have hnone : creates [event] = 0 := by
          cases event with
          | create now =>
              have hzero := hnow.1.2
              rw [hlive.incarnation_eq] at hzero
              cases hzero
          | push now multiRoute bridgeId => rfl
          | flush => rfl
          | tryFront => rfl
          | ping => rfl
          | drop => rfl
          | deliverSync now sent => rfl
          | deliverAck issued => rfl
        refine ⟨by rw [creates_append, hcreates, hnone], times, counts', after, first', hlive', ?_⟩
        rw [hcount', hcount, pushes_append, Nat.zero_add, hcreates]
        omega

/-! ## One round -/

/-- The ack of the front erases it, and DATA only that the receiver has. -/
theorem Live.front_acked (hlive : Live srcId times counts routing queue first)
    {front : QueueNode Entry} {rest : List (QueueNode Entry)}
    (hlist : queue.msgQueue = front :: rest) (issued : IssuedAck)
    (htype : issued.ack.enType = front.msg.enType) (hseq : issued.ack.seqId = front.msg.seqId)
    (hexpect : issued.ack.expectId.toNat = routing.expected srcId)
    (harrived : first ≤ routing.expected srcId) :
    0 < queue.erasedCount issued.ack ∧ routing.Kept (.deliverAck issued) := by
  have hlinked := (hlive.queue_own queue hlive.queue_eq).linked
  have hmem : front ∈ queue.msgQueue := by simp [hlist]
  obtain ⟨hnumber, hless⟩ := hlive.front_eq hlist
  obtain ⟨hzero, hdata⟩ := hlive.node_kind front hmem
  have hsize : queue.queueSize ≠ 0 := by
    rw [hlinked.size_eq, hlist]
    exact Nat.succ_ne_zero _
  have hkept : ∀ {count : Nat}, queue.erasedCount issued.ack = count →
      (∀ node ∈ queue.msgQueue.take count,
        node.msg.enType.isData = true → node.msg.seqId ≤ issued.ack.expectId) →
      routing.Kept (.deliverAck issued) := by
    intro count hcount hall other hother
    rw [hlive.queue_eq, Option.mem_some_iff] at hother
    subst hother
    rw [hcount]
    exact hall
  obtain rfl | hpos := Nat.eq_zero_or_pos first
  · -- the RESET, by its own ack
    obtain ⟨hreset, -⟩ := hzero hnumber
    have hone : queue.erasedCount issued.ack = 1 := by
      have hno : ¬ (issued.ack.enType = .ping ∨ issued.ack.enType = .shutdown ∨
          queue.queueSize = 0) := by
        rw [htype, hreset]
        rintro (hthis | hthis | hthis)
        · cases hthis
        · cases hthis
        · exact hsize hthis
      have hmode : ¬ (issued.ack.expectId ≠ 0 ∧ queue.isReset = true) := by
        rw [hlive.reset_iff]
        rintro ⟨-, hthis⟩
        cases hthis
      simp only [ReliableSendQueue.erasedCount, if_neg hno, if_neg hmode, hlist]
      exact if_pos ⟨hseq.symm, htype.symm⟩
    refine ⟨by omega, hkept hone fun node hnode hthis => ?_⟩
    rw [hlist, List.take_succ_cons, List.take_zero, List.mem_singleton] at hnode
    subst hnode
    rw [hreset] at hthis
    cases hthis
  · -- DATA, with all that the receiver has
    have hcount : queue.erasedCount issued.ack =
        (queue.msgQueue.takeWhile fun node => node.msg.seqId ≤ issued.ack.expectId).length := by
      have hno : ¬ (issued.ack.enType = .ping ∨ issued.ack.enType = .shutdown ∨
          queue.queueSize = 0) := by
        have hthis := hdata (hnumber ▸ hpos)
        rw [← htype] at hthis
        rintro (hping | hshutdown | hempty)
        · rw [hping] at hthis
          cases hthis
        · rw [hshutdown] at hthis
          cases hthis
        · exact hsize hempty
      have hmode : issued.ack.expectId ≠ 0 ∧ queue.isReset = true := by
        refine ⟨fun hnull => ?_, hlive.reset_iff.trans (decide_eq_true hpos)⟩
        rw [hnull, UInt32.toNat_zero] at hexpect
        omega
      unfold ReliableSendQueue.erasedCount
      rw [if_neg hno, if_pos hmode]
    have hnext := hlive.next_le
    have hfront : front.msg.seqId ≤ issued.ack.expectId := by
      rw [hlinked.seq_eq front hmem, UInt32.le_iff_toNat_le, UInt32.toNat_ofNat', hnumber,
        Nat.mod_eq_of_lt (by omega), hexpect]
      exact harrived
    refine ⟨?_, hkept hcount fun node hnode _ => ?_⟩
    · rw [hcount, hlist, List.takeWhile_cons_of_pos (by simpa using hfront), List.length_cons]
      exact Nat.succ_pos _
    · rw [← List.prefix_iff_eq_take.mp (List.takeWhile_prefix _)] at hnode
      simpa using List.mem_takeWhile_imp hnode

/-- Send the front, deliver it, deliver its ack: the queue is shorter. -/
theorem Live.round (hlive : Live srcId times counts routing queue first) (dstId : UInt32)
    (hsome : queue.msgQueue ≠ []) :
    ∃ events final after first', (∀ event ∈ events, event.isRetry = true) ∧ events.length = 3 ∧
      Along (step srcId dstId) Kept routing events ∧
      run (step srcId dstId) routing events = some final ∧
      Live srcId times counts final after first' ∧ after.nextNode = queue.nextNode ∧
      after.msgQueue.length < queue.msgQueue.length := by
  obtain ⟨front, rest, hlist⟩ := List.exists_cons_of_ne_nil hsome
  have hown := hlive.queue_own queue hlive.queue_eq
  have hlinked := hown.linked
  obtain ⟨hnumber, hless⟩ := hlive.front_eq hlist
  have hmem : front ∈ queue.msgQueue := by simp [hlist]
  -- `Try` sends the front
  obtain ⟨tried, htry, htried⟩ : ∃ tried, routing.step srcId dstId .tryFront = some tried ∧
      tried.syncs = routing.syncs ++ [⟨routing.incarnation, front.msg⟩] ∧
        tried.queue = some queue := by
    have hpos : queue.queueSize > 0 := by
      rw [hlinked.size_eq, hlist]
      exact Nat.succ_pos _
    refine ⟨{ routing with
      queue := some queue
      syncs := routing.syncs ++ [⟨routing.incarnation, front.msg⟩] }, ?_, rfl, rfl⟩
    simp only [step, call, hlive.queue_eq, ReliableSendQueue.apply, ReliableSendQueue.tryFront,
      if_pos hpos, hlist]
    rfl
  obtain ⟨same, hlive', -, -⟩ := dispatch_live hlive (Or.inr (Or.inl rfl)) htry
  obtain rfl : same = queue := Option.some.inj (hlive'.queue_eq.symm.trans htried.2)
  -- the receiver takes it, unless it has it
  obtain ⟨sent, hsent⟩ : ∃ sent : SentSync, sent = ⟨routing.incarnation, front.msg⟩ := ⟨_, rfl⟩
  have hsentMem : sent ∈ tried.syncs := by
    rw [htried.1, hsent]
    simp
  obtain ⟨received, hdeliver, hacks, hreceiver⟩ : ∃ received, tried.deliverSync 0 sent =
      some received ∧ received.acks = tried.acks ++
        [⟨received.window, (tried.receiver.onSyncRouter ⟨0, sent.sync⟩).ack⟩] ∧
      received.receiver = (tried.receiver.onSyncRouter ⟨0, sent.sync⟩).ctx := by
    unfold deliverSync
    rw [if_pos hsentMem]
    exact ⟨_, rfl, rfl, rfl⟩
  have hlive'' := deliverSync_live hlive' hdeliver
  obtain ⟨-, -, -, -, harrives⟩ := hlive'.received hdeliver
  obtain ⟨issued, hissued⟩ : ∃ issued : IssuedAck, issued =
      ⟨received.window, (tried.receiver.onSyncRouter ⟨0, sent.sync⟩).ack⟩ := ⟨_, rfl⟩
  have hissuedMem : issued ∈ received.acks := by
    rw [hacks, hissued]
    simp
  have hsync : sent.sync = front.msg := by rw [hsent]
  have hsrc : sent.sync.srcId = srcId := by
    rw [hsync]
    exact (hown.nodes front hmem).1
  have hsendable := hlive'.sync_kind sent hsentMem
  obtain ⟨hackSeq, hackType⟩ :=
    ReliableAppContext.onSyncRouter_ack tried.receiver ⟨0, sent.sync⟩
  have hackExpect := ReliableAppContext.onSyncRouter_expectId tried.receiver ⟨0, sent.sync⟩
  dsimp only at hackSeq hackType hackExpect
  rw [hsrc] at hackType hackExpect
  rw [if_neg fun hboth => hsendable.data_open hboth.1 hboth.2] at hackType
  have harrived : first ≤ received.expected srcId := by
    obtain hzero | hpos := Nat.eq_zero_or_pos first
    · rw [hzero]
      exact Nat.zero_le _
    · have hnext := hlive.next_le
      have hseq : sent.sync.seqId.toNat = first := by
        rw [hsync, hlinked.seq_eq front hmem, UInt32.toNat_ofNat', hnumber,
          Nat.mod_eq_of_lt (by omega)]
      have hdata := (hlive.node_kind front hmem).2 (hnumber ▸ hpos)
      rw [hseq, hsync] at harrives
      exact harrives hdata hlive'.first_expected
  -- and the ack erases it
  obtain ⟨herases, hkept⟩ := hlive''.front_acked hlist issued
    (by rw [hissued, ← hsync]; exact hackType) (by rw [hissued, ← hsync]; exact hackSeq)
    (by rw [hissued, expected, hreceiver]; exact congrArg UInt32.toNat hackExpect) harrived
  obtain ⟨acked, hack⟩ : ∃ acked, received.deliverAck issued = some acked := by
    unfold deliverAck
    rw [if_pos hissuedMem, hlive''.queue_eq]
    exact ⟨_, rfl⟩
  obtain ⟨after, hlive''', hcount, hdrop⟩ := deliverAck_live hlive'' hkept hack
  refine ⟨[.tryFront, .deliverSync 0 sent, .deliverAck issued], acked, after, _,
    by simp [Event.isRetry], rfl, ⟨trivial, fun other hother => ?_⟩, ?_, hlive''', hcount, ?_⟩
  · obtain rfl : tried = other := Option.some.inj (htry.symm.trans hother)
    refine ⟨trivial, fun other hother => ?_⟩
    obtain rfl : received = other := Option.some.inj (hdeliver.symm.trans hother)
    exact ⟨hkept, fun _ _ => trivial⟩
  · rw [run_cons, htry, Option.bind_some, run_cons]
    change (tried.deliverSync 0 sent).bind _ = _
    rw [hdeliver, Option.bind_some, run_cons]
    change (received.deliverAck issued).bind _ = _
    rw [hack]
    rfl
  · rw [hdrop, List.length_drop]
    have hlength : 0 < same.msgQueue.length := by
      rw [hlist]
      exact Nat.succ_pos _
    omega

theorem Live.drain (hlive : Live srcId times counts routing queue first) (dstId : UInt32) :
    ∃ events final after first', (∀ event ∈ events, event.isRetry = true) ∧
      events.length ≤ 3 * queue.msgQueue.length ∧
      Along (step srcId dstId) Kept routing events ∧
      run (step srcId dstId) routing events = some final ∧
      Live srcId times counts final after first' ∧ after.nextNode = queue.nextNode ∧
      after.msgQueue = [] := by
  obtain ⟨length, hlength⟩ : ∃ length, length = queue.msgQueue.length := ⟨_, rfl⟩
  induction length using Nat.strong_induction_on generalizing routing queue first with
  | _ length ih =>
      by_cases hnil : queue.msgQueue = []
      · exact ⟨[], routing, queue, first, by simp, Nat.zero_le _, trivial, rfl, hlive, rfl, hnil⟩
      obtain ⟨events, middle, shorter, first', hretry, hthree, hkept, hrun, hlive', hcount,
        hless⟩ := hlive.round dstId hnil
      obtain ⟨more, final, after, first'', hretry', hlong, hkept', hrun', hlive'', hcount',
        hempty⟩ := ih shorter.msgQueue.length (hlength ▸ hless) hlive' rfl
      refine ⟨events ++ more, final, after, first'', ?_, ?_, hkept.append hrun hkept', ?_, hlive'',
        hcount'.trans hcount, hempty⟩
      · intro event hevent
        obtain hevent | hevent := List.mem_append.mp hevent
        · exact hretry event hevent
        · exact hretry' event hevent
      · rw [List.length_append, hthree]
        omega
      · rw [run_append, hrun, Option.bind_some, hrun']

/-- A queue that is empty was handed over, all of it and in order. -/
theorem Live.all_handed (hlive : Live srcId times counts routing queue first)
    (hnil : queue.msgQueue = []) :
    routing.handed = firstEntries 1 (queue.nextNode - 1) := by
  have hnumbers := hlive.numbers
  rw [hnil, List.map_nil, eq_comm, List.range'_eq_nil_iff] at hnumbers
  have hfirst := hlive.first_le
  have hnextPos := (hlive.queue_own queue hlive.queue_eq).linked.next_pos
  have hpos : 0 < first := by omega
  have hopen := hlive.first_open hpos
  have hwindowPos := hlive.window_pos hopen
  have hwindowLe := hlive.window_le
  have hincarnation := hlive.incarnation_eq
  have hwindow : routing.window = 1 := by omega
  have hall : routing.handedOf 1 = routing.handed := by
    apply List.filter_eq_self.mpr
    intro entry hentry
    have hentryPos := hlive.handed_pos entry hentry
    have hentryLe := hlive.handed_le entry hentry
    exact decide_eq_true (by omega)
  obtain ⟨count, hcount, hhanded⟩ := hlive.in_order 1
  have hexpected := hlive.window_count hopen
  have hqueueCount := hlive.queue_count queue hlive.queue_eq
  rw [hincarnation] at hqueueCount
  rw [hwindow, hhanded] at hexpected
  have hsame := congrArg List.length hexpected
  rw [length_firstEntries, length_firstEntries] at hsame
  have hfirstExpected := hlive.first_expected
  unfold expected at hfirstExpected
  rw [← hall, hhanded]
  congr 1
  omega

/-! ## Draining -/

/-- While a queue keeps its messages it can be emptied from every state: retries of the front
and deliveries, three for each message at most, after which the handler was given what was
pushed, all of it and in order. -/
theorem queue_drains (srcId dstId : UInt32) (events : List Event) (routing : Routing)
    (queue : ReliableSendQueue Entry) (hkept : Along (step srcId dstId) Kept init events)
    (hrun : run (step srcId dstId) init events = some routing)
    (hqueue : routing.queue = some queue) :
    ∃ more final after, (∀ event ∈ more, event.isRetry = true) ∧
      more.length ≤ 3 * queue.msgQueue.length ∧
      Along (step srcId dstId) Kept init (events ++ more) ∧
      run (step srcId dstId) init (events ++ more) = some final ∧
      final.queue = some after ∧ after.msgQueue = [] ∧
      final.handed = firstEntries 1 (pushes 1 0 events) := by
  obtain ⟨-, rfl⟩ | ⟨-, times, counts, live, first, hlive, hcount⟩ := run_live hkept hrun
  · cases hqueue
  obtain rfl : live = queue := Option.some.inj (hlive.queue_eq.symm.trans hqueue)
  obtain ⟨more, final, after, first', hretry, hlong, hmore, hfinal, hdrained, hnumber, hempty⟩ :=
    hlive.drain dstId
  refine ⟨more, final, after, hretry, hlong, hkept.append hrun hmore, ?_, hdrained.queue_eq, hempty,
    ?_⟩
  · rw [run_append, hrun, Option.bind_some, hfinal]
  · rw [hdrained.all_handed hempty, hnumber, hcount, Nat.add_sub_cancel]

/-- The second message overtakes the first and is not handed over; its ack comes too late
to erase anything. The queue is stuck with it until it is tried again. -/
theorem queue_drains_overtaken :
    ∃ routing queue, run (step 1 2) init (opened ++ [.push 6 false 0, .flush,
        .deliverSync 1 ⟨1, dataSync 2⟩, .deliverSync 1 ⟨1, dataSync 1⟩,
        .deliverAck ⟨1, routeAck (dataSync 1) 1 0⟩]) = some routing ∧
      routing.queue = some queue ∧ routing.handed = [⟨1, 1⟩] ∧
      ∃ more final after, (∀ event ∈ more, event.isRetry = true) ∧
        more.length ≤ 3 * queue.msgQueue.length ∧
        Along (step 1 2) Kept init ((opened ++ [.push 6 false 0, .flush,
          .deliverSync 1 ⟨1, dataSync 2⟩, .deliverSync 1 ⟨1, dataSync 1⟩,
          .deliverAck ⟨1, routeAck (dataSync 1) 1 0⟩]) ++ more) ∧
        run (step 1 2) init ((opened ++ [.push 6 false 0, .flush,
          .deliverSync 1 ⟨1, dataSync 2⟩, .deliverSync 1 ⟨1, dataSync 1⟩,
          .deliverAck ⟨1, routeAck (dataSync 1) 1 0⟩]) ++ more) = some final ∧
        final.queue = some after ∧ after.msgQueue = [] ∧ final.handed = [⟨1, 1⟩, ⟨1, 2⟩] := by
  obtain ⟨events, hevents⟩ : ∃ events, events = opened ++ [.push 6 false 0, .flush,
      .deliverSync 1 ⟨1, dataSync 2⟩, .deliverSync 1 ⟨1, dataSync 1⟩,
      .deliverAck ⟨1, routeAck (dataSync 1) 1 0⟩] := ⟨_, rfl⟩
  have hsome : (run (step 1 2) init events).map (fun routing => (routing.queue.isSome,
      routing.handed)) = some (true, [⟨1, 1⟩]) := by
    subst hevents
    decide +kernel
  have hkept : Along (step 1 2) Kept init events := by
    subst hevents
    decide +kernel
  obtain ⟨routing, hrun, hrouting⟩ := Option.map_eq_some_iff.mp hsome
  simp only [Prod.mk.injEq] at hrouting
  obtain ⟨queue, hqueue⟩ := Option.isSome_iff_exists.mp hrouting.1
  have hpushes : firstEntries 1 (pushes 1 0 events) = [⟨1, 1⟩, ⟨1, 2⟩] := by
    subst hevents
    decide
  rw [← hevents, ← hpushes]
  exact ⟨routing, queue, hrun, hqueue, hrouting.2,
    queue_drains 1 2 events routing queue hkept hrun hqueue⟩

end Routing

end ServiceFrame
