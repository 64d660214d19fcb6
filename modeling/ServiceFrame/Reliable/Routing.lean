import ServiceFrame.Reliable.ExactlyOnce
import ServiceFrame.Reliable.QueueInvariant

/-! # A sender, a receiver and the network between them

One send queue after another talks to one receiver. The network keeps every SYNC
and ACK that was ever sent and may deliver any of them at any time: so messages
may be delayed, duplicated, reordered or lost. The queue may be dropped, when it
expires or its process restarts, and is created anew by the next emit.

Beside the state of the program the model records what no program sees: which
queue sent a SYNC, which queue's RESET opened the window of the receiver, and in
whose window an ACK was issued. The n-th queue has incarnation n.
-/

namespace ServiceFrame

open Foundation

/-- The identity of a message: the queue it was pushed on, and its place there. -/
structure Entry where
  incarnation : Nat
  number : Nat
deriving DecidableEq

instance : Inhabited Entry := ⟨⟨0, 0⟩⟩

/-- A message that a queue of some incarnation sent. -/
structure SentSync where
  incarnation : Nat
  sync : PSS_SyncRouter Entry
deriving DecidableEq

/-- An ack that was issued in the window that some incarnation's RESET opened. -/
structure IssuedAck where
  window : Nat
  ack : PSS_AckRouter
deriving DecidableEq

structure Routing where
  /-- `m_mapSendQueue` at the destination. -/
  queue : Option (ReliableSendQueue Entry)
  incarnation : Nat
  receiver : ReliableAppContext
  window : Nat
  syncs : List SentSync
  acks : List IssuedAck
  handed : List Entry
  erased : List Entry

namespace Routing

/-- The steps of the sender, and the deliveries of the network. -/
inductive Event where
  | create (now : UInt64)
  | push (now : UInt64) (multiRoute : Bool) (bridgeId : UInt32)
  | flush
  | tryFront
  | ping
  | drop
  | deliverSync (now : UInt32) (sent : SentSync)
  | deliverAck (issued : IssuedAck)

def init : Routing where
  queue := none
  incarnation := 0
  receiver := .init
  window := 0
  syncs := []
  acks := []
  handed := []
  erased := []

section Steps

variable (srcId dstId : UInt32)

/-- `OnRouterEmit` finds no queue: it creates one and resets it. -/
def create (routing : Routing) (now : UInt64) : Option Routing :=
  match routing.queue with
  | some _ => none
  | none =>
      let (queue, sent) := ReliableSendQueue.reset now (.new srcId dstId 100000)
      some { routing with
        queue := some queue
        incarnation := routing.incarnation + 1
        syncs := routing.syncs ++ sent.map (SentSync.mk (routing.incarnation + 1)) }

/-- The message that `OnRouterEmit` is called with. -/
def message (routing : Routing) (queue : ReliableSendQueue Entry) (multiRoute : Bool)
    (bridgeId : UInt32) : PSS_SyncRouter Entry where
  enType := if multiRoute then .dataMultiRoute else .data
  srcId := srcId
  dstId := dstId
  seqId := 0
  sendTime := 0
  bridgeId := bridgeId
  load := ⟨routing.incarnation, queue.nextNode⟩

/-- A call on the queue there is; the network takes what it dispatches. -/
def call (routing : Routing) (op : ReliableSendQueue Entry → ReliableSendQueue.Op Entry) :
    Option Routing :=
  match routing.queue with
  | none => none
  | some queue =>
      (queue.apply (op queue)).map fun (next, sent) =>
        { routing with
          queue := some next
          syncs := routing.syncs ++ sent.map (SentSync.mk routing.incarnation) }

/-- `OnSyncRouter` at the receiver, for a SYNC that was sent. -/
def deliverSync (routing : Routing) (now : UInt32) (sent : SentSync) : Option Routing :=
  if sent ∈ routing.syncs then
    let arrival : ReliableAppContext.Arrival Entry := ⟨now, sent.sync⟩
    let outcome := routing.receiver.onSyncRouter arrival
    let window :=
      if routing.receiver.accepts arrival then sent.incarnation else routing.window
    some { routing with
      receiver := outcome.ctx
      window := window
      acks := routing.acks ++ [⟨window, outcome.ack⟩]
      handed := routing.handed ++ outcome.handed.toList }
  else none

/-- `OnAckRouter` at the sender, for an ACK that was issued; without a queue it
is ignored. The DATA that is gone by it is recorded as erased. -/
def deliverAck (routing : Routing) (issued : IssuedAck) : Option Routing :=
  if issued ∈ routing.acks then
    match routing.queue with
    | none => some routing
    | some queue =>
        let next := queue.erase issued.ack
        let gone := queue.msgQueue.filter fun node =>
          decide (node ∉ next.msgQueue) && node.msg.enType.isData
        some { routing with
          queue := some next
          erased := routing.erased ++ gone.map fun node => node.msg.load }
  else none

def step (routing : Routing) : Event → Option Routing
  | .create now => routing.create srcId dstId now
  | .push now multiRoute bridgeId =>
      routing.call fun queue => .push now (routing.message srcId dstId queue multiRoute bridgeId)
  | .flush => routing.call fun _ => .flush
  | .tryFront => routing.call fun _ => .tryFront
  | .ping => routing.call fun _ => .ping
  | .drop => some { routing with queue := none }
  | .deliverSync now sent => routing.deliverSync now sent
  | .deliverAck issued => routing.deliverAck issued

end Steps

/-- Whatever DATA an ack erased was handed to the handler. -/
def NothingLost (routing : Routing) : Prop :=
  ∀ entry ∈ routing.erased, entry ∈ routing.handed

/-! ## When nothing is lost -/

/-- A push does not wrap the sequence counter. DATA that continues the window of
the queue there is comes from this queue. An ack erases DATA only if it was issued
in the window that this queue's own RESET opened, with an expected id that covers
what it erases. -/
def Own (routing : Routing) : Event → Prop
  | .push _ _ _ => ∀ queue ∈ routing.queue, queue.nextNode < 2 ^ 32
  | .deliverSync _ sent =>
      routing.window = routing.incarnation → routing.receiver.Continues sent.sync →
        sent.incarnation = routing.incarnation
  | .deliverAck issued =>
      ∀ queue ∈ routing.queue, ∀ node ∈ queue.msgQueue.take (queue.erasedCount issued.ack),
        node.msg.enType.isData = true →
          issued.window = routing.incarnation ∧ node.msg.seqId ≤ issued.ack.expectId
  | _ => True

instance (routing : Routing) (sync : PSS_SyncRouter Entry) :
    Decidable (routing.receiver.Continues sync) :=
  inferInstanceAs (Decidable (_ ∧ _ ∧ _))

instance decidableOwn (routing : Routing) : (event : Event) → Decidable (routing.Own event)
  | .create _ => isTrue trivial
  | .push _ _ _ => inferInstanceAs (Decidable (∀ queue ∈ routing.queue, queue.nextNode < 2 ^ 32))
  | .flush => isTrue trivial
  | .tryFront => isTrue trivial
  | .ping => isTrue trivial
  | .drop => isTrue trivial
  | .deliverSync _ sent =>
      inferInstanceAs (Decidable (routing.window = routing.incarnation →
        routing.receiver.Continues sent.sync → sent.incarnation = routing.incarnation))
  | .deliverAck issued =>
      inferInstanceAs (Decidable (∀ queue ∈ routing.queue,
        ∀ node ∈ queue.msgQueue.take (queue.erasedCount issued.ack),
          node.msg.enType.isData = true →
            issued.window = routing.incarnation ∧ node.msg.seqId ≤ issued.ack.expectId))

/-- A SYNC with a number of this incarnation: the RESET and the PINGs have number
0, and the DATA is numbered from 1 on. -/
structure OwnSync (incarnation number : Nat) (sync : PSS_SyncRouter Entry) : Prop where
  number_lt : number < 2 ^ 32
  seq_eq : sync.seqId = UInt32.ofNat number
  data : sync.enType.isData = true → 0 < number ∧ sync.load = ⟨incarnation, number⟩
  reset : sync.enType = .reset → number = 0

/-- The queue holds messages of its own incarnation. -/
structure OwnQueue (srcId : UInt32) (incarnation : Nat) (queue : ReliableSendQueue Entry) :
    Prop where
  linked : queue.Linked
  src_eq : queue.srcId = srcId
  nodes : ∀ node ∈ queue.msgQueue,
    node.msg.srcId = srcId ∧ OwnSync incarnation node.node node.msg

/-- All entries of the incarnation up to the id were handed over. -/
def HandedUpTo (routing : Routing) (expectId : UInt32) : Prop :=
  ∀ number, 0 < number → number ≤ expectId.toNat →
    (⟨routing.incarnation, number⟩ : Entry) ∈ routing.handed

/-- While the window of the receiver, or an ack, belongs to the queue there is,
everything up to the expected id was handed over. -/
structure Inv (srcId : UInt32) (routing : Routing) : Prop where
  window_le : routing.window ≤ routing.incarnation
  syncs_le : ∀ sent ∈ routing.syncs, sent.incarnation ≤ routing.incarnation
  acks_le : ∀ issued ∈ routing.acks, issued.window ≤ routing.incarnation
  syncs_src : ∀ sent ∈ routing.syncs, sent.sync.srcId = srcId
  syncs_own : ∀ sent ∈ routing.syncs, sent.incarnation = routing.incarnation →
    ∃ number, OwnSync routing.incarnation number sent.sync
  queue_own : ∀ queue ∈ routing.queue, OwnQueue srcId routing.incarnation queue
  window_handed : routing.window = routing.incarnation →
    routing.HandedUpTo (routing.receiver.writerInfo srcId).expectSeqId
  acks_handed : ∀ issued ∈ routing.acks, issued.window = routing.incarnation →
    routing.HandedUpTo issued.ack.expectId
  nothing_lost : routing.NothingLost

variable {srcId dstId : UInt32} {routing next : Routing}

theorem init_inv (srcId : UInt32) : init.Inv srcId where
  window_le := Nat.le_refl _
  syncs_le := by simp [init]
  acks_le := by simp [init]
  syncs_src := by simp [init]
  syncs_own := by simp [init]
  queue_own := by simp [init]
  window_handed := by
    intro _ number hpos hle
    exact absurd hle (Nat.not_le_of_gt hpos)
  acks_handed := by simp [init]
  nothing_lost := by simp [NothingLost, init]

/-! ## The sender's steps -/

theorem ownSync_reset (incarnation : Nat) {sync : PSS_SyncRouter Entry}
    (htype : sync.enType.isData = false) (hseq : sync.seqId = 0) : OwnSync incarnation 0 sync where
  number_lt := by decide
  seq_eq := hseq
  data := by simp [htype]
  reset := fun _ => rfl

/-- A new queue has an incarnation that no message and no ack has had. -/
theorem create_inv {now : UInt64} (hinv : routing.Inv srcId)
    (hcreate : routing.create srcId dstId now = some next) : next.Inv srcId := by
  unfold create at hcreate
  split at hcreate
  · cases hcreate
  simp only [ReliableSendQueue.reset, List.map_singleton, Option.some.injEq] at hcreate
  subst hcreate
  refine ⟨?_, ?_, ?_, ?_, ?_, ?_, ?_, ?_, hinv.nothing_lost⟩
  · exact Nat.le_succ_of_le hinv.window_le
  · intro sent hsent
    simp only [List.mem_append, List.mem_singleton] at hsent
    obtain hold | rfl := hsent
    · exact Nat.le_succ_of_le (hinv.syncs_le sent hold)
    · exact Nat.le_refl _
  · exact fun issued hissued => Nat.le_succ_of_le (hinv.acks_le issued hissued)
  · intro sent hsent
    simp only [List.mem_append, List.mem_singleton] at hsent
    obtain hold | rfl := hsent
    · exact hinv.syncs_src sent hold
    · rfl
  · intro sent hsent hown
    simp only [List.mem_append, List.mem_singleton] at hsent
    obtain hold | rfl := hsent
    · -- what was sent before is of an earlier incarnation
      have hle := hinv.syncs_le sent hold
      dsimp only at hown
      omega
    · exact ⟨0, ownSync_reset _ rfl rfl⟩
  · intro queue hqueue
    cases hqueue
    refine ⟨ReliableSendQueue.start_linked srcId dstId 100000 now, rfl, ?_⟩
    intro node hnode
    simp only [ReliableSendQueue.new, List.mem_singleton] at hnode
    subst hnode
    exact ⟨rfl, ownSync_reset _ rfl rfl⟩
  · intro hwindow
    have hle := hinv.window_le
    dsimp only at hwindow
    omega
  · intro issued hissued hwindow
    have hle := hinv.acks_le issued hissued
    dsimp only at hwindow
    omega

/-- A call that leaves the queue with its own messages, and dispatches such. -/
theorem sent_inv (hinv : routing.Inv srcId) {queue : ReliableSendQueue Entry}
    {sent : List (PSS_SyncRouter Entry)} (hqueue : OwnQueue srcId routing.incarnation queue)
    (hsent : ∀ sync ∈ sent, sync.srcId = srcId ∧
      ∃ number, OwnSync routing.incarnation number sync) :
    Inv srcId { routing with
      queue := some queue
      syncs := routing.syncs ++ sent.map (SentSync.mk routing.incarnation) } := by
  have hnew : ∀ one ∈ routing.syncs ++ sent.map (SentSync.mk routing.incarnation),
      one ∈ routing.syncs ∨ one.incarnation = routing.incarnation ∧ one.sync ∈ sent := by
    intro one hone
    simp only [List.mem_append, List.mem_map] at hone
    obtain hold | ⟨sync, hsync, rfl⟩ := hone
    · exact Or.inl hold
    · exact Or.inr ⟨rfl, hsync⟩
  refine ⟨hinv.window_le, ?_, hinv.acks_le, ?_, ?_, ?_, hinv.window_handed, hinv.acks_handed,
    hinv.nothing_lost⟩
  · intro one hone
    obtain hold | ⟨hincarnation, -⟩ := hnew one hone
    · exact hinv.syncs_le one hold
    · exact Nat.le_of_eq hincarnation
  · intro one hone
    obtain hold | ⟨-, hsync⟩ := hnew one hone
    · exact hinv.syncs_src one hold
    · exact (hsent one.sync hsync).1
  · intro one hone hown
    obtain hold | ⟨-, hsync⟩ := hnew one hone
    · exact hinv.syncs_own one hold hown
    · exact (hsent one.sync hsync).2
  · intro other hother
    cases hother
    exact hqueue

namespace OwnQueue

variable {incarnation : Nat} {queue after : ReliableSendQueue Entry}

theorem push (hqueue : OwnQueue srcId incarnation queue) {now : UInt64}
    {msg : PSS_SyncRouter Entry} (hnumber : queue.nextNode < 2 ^ 32)
    (hdata : msg.enType.isData = true) (hload : msg.load = ⟨incarnation, queue.nextNode⟩)
    (hpush : queue.push now msg = some after) : OwnQueue srcId incarnation after := by
  have hlinked := hqueue.linked.push hpush
  have hafter := ReliableSendQueue.push_some hpush
  refine ⟨hlinked, ?_, ?_⟩
  · rw [hafter]
    exact hqueue.src_eq
  · intro node hnode
    have hseq := hlinked.seq_eq node hnode
    rw [hafter] at hnode
    simp only [List.mem_append, List.mem_singleton] at hnode
    obtain hold | rfl := hnode
    · exact hqueue.nodes node (List.mem_of_mem_drop hold)
    · refine ⟨hqueue.src_eq, hnumber, hseq, fun _ => ⟨hqueue.linked.next_pos, hload⟩, ?_⟩
      intro hreset
      have htype : msg.enType = .reset := hreset
      rw [htype] at hdata
      cases hdata

theorem flush (hqueue : OwnQueue srcId incarnation queue) {sent : List (PSS_SyncRouter Entry)}
    (hflush : queue.flush = some (after, sent)) :
    OwnQueue srcId incarnation after ∧ ∀ sync ∈ sent, ∃ node ∈ queue.msgQueue, node.msg = sync := by
  have hlinked := hqueue.linked.flush hflush
  obtain ⟨rfl, rfl, -⟩ | ⟨-, iter, count, isUrgentMode, -, -, rfl, rfl⟩ :=
    ReliableSendQueue.flush_some hflush
  · exact ⟨hqueue, by simp⟩
  · refine ⟨⟨hlinked, hqueue.src_eq, hqueue.nodes⟩, ?_⟩
    intro sync hsync
    obtain ⟨node, hnode, rfl⟩ := List.mem_map.mp hsync
    exact ⟨node, (List.dropWhile_suffix _).subset (List.mem_of_mem_take hnode), rfl⟩

theorem erase (hqueue : OwnQueue srcId incarnation queue) (ack : PSS_AckRouter) :
    OwnQueue srcId incarnation (queue.erase ack) := by
  have hlinked := hqueue.linked.erase ack
  rw [ReliableSendQueue.erase_eq queue ack hqueue.linked.size_eq] at hlinked ⊢
  exact ⟨hlinked, hqueue.src_eq, fun node hnode => hqueue.nodes node (List.mem_of_mem_drop hnode)⟩

theorem queued (hqueue : OwnQueue srcId incarnation queue) {sync : PSS_SyncRouter Entry}
    (hsync : ∃ node ∈ queue.msgQueue, node.msg = sync) :
    sync.srcId = srcId ∧ ∃ number, OwnSync incarnation number sync := by
  obtain ⟨node, hnode, rfl⟩ := hsync
  exact ⟨(hqueue.nodes node hnode).1, node.node, (hqueue.nodes node hnode).2⟩

end OwnQueue

theorem tryFront_queued {queue : ReliableSendQueue Entry} {sent : List (PSS_SyncRouter Entry)}
    (htry : queue.tryFront = some sent) :
    ∀ sync ∈ sent, ∃ node ∈ queue.msgQueue, node.msg = sync := by
  unfold ReliableSendQueue.tryFront at htry
  split at htry
  · split at htry
    · cases htry
    next front rest hlist =>
      cases htry
      simp [hlist]
  · cases htry
    simp

theorem push_inv (hinv : routing.Inv srcId) {now : UInt64} {multiRoute : Bool}
    {bridgeId : UInt32} (hown : routing.Own (.push now multiRoute bridgeId))
    (hstep : routing.step srcId dstId (.push now multiRoute bridgeId) = some next) :
    next.Inv srcId := by
  simp only [step, call] at hstep
  split at hstep
  · cases hstep
  next queue hqueue =>
    obtain ⟨⟨after, sent⟩, happly, rfl⟩ := Option.map_eq_some_iff.mp hstep
    obtain ⟨hpush, rfl⟩ := ReliableSendQueue.apply_some happly
    refine sent_inv hinv ?_ (by simp)
    refine (hinv.queue_own queue hqueue).push (hown queue hqueue) ?_ rfl hpush
    cases multiRoute <;> rfl

/-- `Flush`, `Try` and `Ping` need no condition. -/
theorem dispatch_inv (hinv : routing.Inv srcId)
    {op : ReliableSendQueue.Op Entry} (hop : op = .flush ∨ op = .tryFront ∨ op = .ping)
    (hcall : routing.call (fun _ => op) = some next) : next.Inv srcId := by
  unfold call at hcall
  split at hcall
  · cases hcall
  next queue hqueue =>
    have hown := hinv.queue_own queue hqueue
    obtain ⟨⟨after, sent⟩, happly, rfl⟩ := Option.map_eq_some_iff.mp hcall
    have happlied := ReliableSendQueue.apply_some happly
    obtain rfl | rfl | rfl := hop
    · obtain ⟨hafter, hsent⟩ := hown.flush happlied
      exact sent_inv hinv hafter fun sync hsync => hown.queued (hsent sync hsync)
    · obtain ⟨rfl, htry⟩ := happlied
      exact sent_inv hinv hown fun sync hsync => hown.queued (tryFront_queued htry sync hsync)
    · obtain ⟨rfl, rfl⟩ := happlied
      apply sent_inv hinv hown
      intro sync hsync
      rw [List.mem_singleton] at hsync
      subst hsync
      exact ⟨hown.src_eq, 0, ownSync_reset _ rfl rfl⟩

/-! ## Deliveries -/

theorem HandedUpTo.mono {later : Routing} {expectId : UInt32} (hup : routing.HandedUpTo expectId)
    (hincarnation : later.incarnation = routing.incarnation)
    (hhanded : ∀ entry ∈ routing.handed, entry ∈ later.handed) : later.HandedUpTo expectId := by
  intro number hpos hle
  rw [hincarnation]
  exact hhanded _ (hup number hpos hle)

/-- DATA of the incarnation that is next in the window completes what was handed
over up to its id. -/
theorem HandedUpTo.advance {later : Routing} {expectId : UInt32} {number : Nat}
    {sync : PSS_SyncRouter Entry} (hup : routing.HandedUpTo expectId)
    (hsync : OwnSync routing.incarnation number sync) (hdata : sync.enType.isData = true)
    (hseq : sync.seqId = expectId + 1) (hincarnation : later.incarnation = routing.incarnation)
    (hhanded : later.handed = routing.handed ++ [sync.load]) : later.HandedUpTo sync.seqId := by
  obtain ⟨hpos, hload⟩ := hsync.data hdata
  have hnumber : sync.seqId.toNat = number := by
    rw [hsync.seq_eq, UInt32.toNat_ofNat', Nat.mod_eq_of_lt hsync.number_lt]
  have hexpect : expectId.toNat + 1 = number := by
    have hsucc := congrArg UInt32.toNat hseq
    rw [hnumber, UInt32.toNat_add] at hsucc
    have hlt := expectId.toNat_lt
    change number = (expectId.toNat + 1) % 2 ^ 32 at hsucc
    omega
  intro older holder hle
  rw [hincarnation, hhanded, List.mem_append]
  by_cases hlast : older = number
  · subst hlast
    exact Or.inr (by rw [hload]; exact List.mem_singleton_self _)
  · exact Or.inl (hup older holder (by omega))

theorem deliverSync_inv {now : UInt32} {sent : SentSync} (hinv : routing.Inv srcId)
    (hown : routing.Own (.deliverSync now sent))
    (hdeliver : routing.deliverSync now sent = some next) : next.Inv srcId := by
  unfold deliverSync at hdeliver
  split at hdeliver
  next hmem =>
    have hsrc := hinv.syncs_src sent hmem
    have haccepts := ReliableAppContext.accepts_iff routing.receiver ⟨now, sent.sync⟩
    have hcases := ReliableAppContext.onSyncRouter_cases routing.receiver ⟨now, sent.sync⟩
    have hexpect := ReliableAppContext.onSyncRouter_expectId routing.receiver ⟨now, sent.sync⟩
    dsimp only at hdeliver haccepts hcases hexpect
    rw [hsrc] at hcases hexpect
    simp only [Option.some.injEq] at hdeliver
    -- what the window is after the message, and what it promises
    have hafter : next.window ≤ next.incarnation ∧
        (next.window = next.incarnation →
          next.HandedUpTo (next.receiver.writerInfo srcId).expectSeqId) := by
      obtain ⟨hopens, hhanded, hinfo⟩ | ⟨hcontinues, hhanded, hinfo⟩ |
          ⟨hopens, hcontinues, hhanded, hinfo⟩ := hcases
      · rw [if_pos (haccepts.mpr hopens), hhanded] at hdeliver
        subst hdeliver
        refine ⟨hinv.syncs_le sent hmem, fun hwindow => ?_⟩
        obtain ⟨number, hsync⟩ := hinv.syncs_own sent hmem hwindow
        rw [hinfo]
        dsimp only
        rw [hsync.seq_eq, hsync.reset hopens.1]
        intro number hpos hle
        exact absurd hle (Nat.not_le_of_gt hpos)
      · rw [if_neg (fun hopens => (haccepts.mp hopens).not_continues hcontinues), hhanded]
          at hdeliver
        subst hdeliver
        refine ⟨hinv.window_le, fun hwindow => ?_⟩
        obtain ⟨number, hsync⟩ := hinv.syncs_own sent hmem (hown hwindow hcontinues)
        rw [hinfo]
        have hseq := hcontinues.2.2
        rw [hsrc] at hseq
        exact (hinv.window_handed hwindow).advance hsync hcontinues.1 hseq rfl rfl
      · rw [if_neg (fun hall => hopens (haccepts.mp hall)), hhanded] at hdeliver
        subst hdeliver
        refine ⟨hinv.window_le, fun hwindow => ?_⟩
        rw [hinfo]
        exact (hinv.window_handed hwindow).mono rfl (fun entry hentry => by simpa using hentry)
    subst hdeliver
    obtain ⟨hwindow, hpromise⟩ := hafter
    refine ⟨hwindow, hinv.syncs_le, ?_, hinv.syncs_src, hinv.syncs_own, hinv.queue_own,
      hpromise, ?_, ?_⟩
    · intro issued hissued
      simp only [List.mem_append, List.mem_singleton] at hissued
      obtain hold | rfl := hissued
      · exact hinv.acks_le issued hold
      · exact hwindow
    · intro issued hissued hissuedIn
      simp only [List.mem_append, List.mem_singleton] at hissued
      obtain hold | rfl := hissued
      · exact (hinv.acks_handed issued hold hissuedIn).mono rfl
          (fun entry hentry => List.mem_append_left _ hentry)
      · dsimp only
        rw [hexpect]
        exact hpromise hissuedIn
    · intro entry hentry
      exact List.mem_append_left _ (hinv.nothing_lost entry hentry)
  · cases hdeliver

/-- An ack of the queue's own window erases what was handed over. -/
theorem deliverAck_inv {issued : IssuedAck} (hinv : routing.Inv srcId)
    (hown : routing.Own (.deliverAck issued))
    (hdeliver : routing.deliverAck issued = some next) : next.Inv srcId := by
  unfold deliverAck at hdeliver
  split at hdeliver
  next hmem =>
    split at hdeliver
    · cases hdeliver
      exact hinv
    next queue hqueue =>
      have hqueued := hinv.queue_own queue hqueue
      have herase := ReliableSendQueue.erase_eq queue issued.ack hqueued.linked.size_eq
      cases hdeliver
      refine ⟨hinv.window_le, hinv.syncs_le, hinv.acks_le, hinv.syncs_src, hinv.syncs_own, ?_,
        hinv.window_handed, hinv.acks_handed, ?_⟩
      · intro other hother
        cases hother
        exact hqueued.erase issued.ack
      · intro entry hentry
        simp only [List.mem_append, List.mem_map, List.mem_filter, Bool.and_eq_true,
          decide_eq_true_eq] at hentry
        obtain hold | ⟨node, ⟨hnode, hgone, hdata⟩, rfl⟩ := hentry
        · exact hinv.nothing_lost entry hold
        · -- what the ack erased is the front of the queue
          have htaken : node ∈ queue.msgQueue.take (queue.erasedCount issued.ack) := by
            rw [herase] at hgone
            rw [← List.take_append_drop (queue.erasedCount issued.ack) queue.msgQueue,
              List.mem_append] at hnode
            exact hnode.resolve_right hgone
          obtain ⟨hwindow, hle⟩ := hown queue hqueue node htaken hdata
          have hsync := (hqueued.nodes node hnode).2
          obtain ⟨hpos, hload⟩ := hsync.data hdata
          rw [hload]
          apply hinv.acks_handed issued hmem hwindow node.node hpos
          rw [hsync.seq_eq, UInt32.le_iff_toNat_le, UInt32.toNat_ofNat',
            Nat.mod_eq_of_lt hsync.number_lt] at hle
          exact hle
  · cases hdeliver

/-- A step that meets the condition keeps the invariant. -/
theorem step_inv (routing : Routing) (event : Event) (next : Routing) (hinv : routing.Inv srcId)
    (hown : routing.Own event) (hstep : routing.step srcId dstId event = some next) :
    next.Inv srcId := by
  cases event with
  | create now => exact create_inv hinv hstep
  | push now multiRoute bridgeId => exact push_inv hinv hown hstep
  | flush => exact dispatch_inv hinv (Or.inl rfl) hstep
  | tryFront => exact dispatch_inv hinv (Or.inr (Or.inl rfl)) hstep
  | ping => exact dispatch_inv hinv (Or.inr (Or.inr rfl)) hstep
  | drop =>
      cases hstep
      exact { hinv with queue_own := by simp }
  | deliverSync now sent => exact deliverSync_inv hinv hown hstep
  | deliverAck issued => exact deliverAck_inv hinv hown hstep

/-- In a run whose steps all meet the condition nothing is lost. -/
theorem nothingLost_throughout (srcId dstId : UInt32) (events : List Event)
    (hown : Along (step srcId dstId) Own init events) :
    Throughout (step srcId dstId) NothingLost init events :=
  throughout_of_along step_inv (fun _ hinv => hinv.nothing_lost) (init_inv srcId) hown

/-! ## A run that loses nothing, and one that loses a message -/

section Runs

/-- The RESET of a first queue from 1 to 2, and its first messages. -/
def resetSync : PSS_SyncRouter Entry := ⟨.reset, 1, 2, 0, 5, 0, default⟩

def dataSync (number : Nat) : PSS_SyncRouter Entry :=
  ⟨.data, 1, 2, UInt32.ofNat number, 6, 0, ⟨1, number⟩⟩

def opened : List Event :=
  [.create 5, .push 6 false 0, .deliverSync 1 ⟨1, resetSync⟩,
    .deliverAck ⟨1, routeAck resetSync 0 0⟩, .flush]

/-- The first message arrives, and its ack. -/
theorem nothingLost_throughout_acked :
    (run (step 1 2) init (opened ++ [.deliverSync 1 ⟨1, dataSync 1⟩,
      .deliverAck ⟨1, routeAck (dataSync 1) 1 0⟩])).map (fun final => final.erased) =
        some [⟨1, 1⟩] ∧
    Throughout (step 1 2) NothingLost init (opened ++ [.deliverSync 1 ⟨1, dataSync 1⟩,
      .deliverAck ⟨1, routeAck (dataSync 1) 1 0⟩]) :=
  ⟨by decide +kernel, nothingLost_throughout 1 2 _ (by decide +kernel)⟩

/-- The second message arrives before the first, and its ack after the first's:
it expects id 0, which is taken for the old mode. -/
def overtaken : List Event :=
  opened ++ [.push 6 false 0, .flush,
    .deliverSync 1 ⟨1, dataSync 2⟩, .deliverSync 1 ⟨1, dataSync 1⟩,
    .deliverAck ⟨1, routeAck (dataSync 1) 1 0⟩, .deliverAck ⟨1, routeAck (dataSync 2) 0 0⟩]

theorem lost_when_overtaken : ¬ Throughout (step 1 2) NothingLost init overtaken := by
  intro hall
  have hlost : (run (step 1 2) init overtaken).map
      (fun final => (final.erased, final.handed)) =
        some ([⟨1, 1⟩, ⟨1, 2⟩], [⟨1, 1⟩]) := by
    decide +kernel
  obtain ⟨final, hrun, hfinal⟩ := Option.map_eq_some_iff.mp hlost
  have hgood : final.NothingLost := Throughout.final hall hrun
  simp only [Prod.mk.injEq] at hfinal
  have hmem := hgood ⟨1, 2⟩ (by simp [hfinal.1])
  simp [hfinal.2] at hmem

end Runs

end Routing

end ServiceFrame
