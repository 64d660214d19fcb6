import ServiceFrame.Foundation.Run
import ServiceFrame.Reliable.Messages

/-! # The queue of a reliable sender

`CReliableSendQueue`. `m_msgQueue` is a `std::list`, whose elements keep their
address while others come and go: each element is a node with an id of its own,
and `m_iterNotSent` is the id of a node, or none for the end. To dereference the
iterator of an erased node is undefined, and has no result here.
-/

namespace ServiceFrame

/-- An element of `m_msgQueue`; `node` tells it from all others ever inserted. -/
structure QueueNode (Load : Type) where
  node : Nat
  msg : PSS_SyncRouter Load
deriving DecidableEq

structure ReliableSendQueue (Load : Type) where
  srcId : UInt32
  dstId : UInt32
  currSeqId : UInt32
  isReset : Bool
  isUrgentMode : Bool
  msgQueue : List (QueueNode Load)
  queueSize : Nat
  maxQueueSize : Nat
  iterNotSent : Option Nat
  /-- The id of the next node to be inserted. -/
  nextNode : Nat
deriving DecidableEq

namespace ReliableSendQueue

variable {Load : Type}

/-- A constructed queue, with its ids and its size limit set. -/
def new (srcId dstId : UInt32) (limit : Nat) : ReliableSendQueue Load where
  srcId := srcId
  dstId := dstId
  currSeqId := 0
  isReset := false
  isUrgentMode := false
  msgQueue := []
  queueSize := 0
  maxQueueSize := limit
  iterNotSent := none
  nextNode := 0

/-- The iterator `begin()` of a list of nodes. -/
def beginOf (nodes : List (QueueNode Load)) : Option Nat := nodes.head?.map QueueNode.node

/-- `Reset(sDispatcher)`: the RESET goes out, and to the front of the queue. The
clock may answer any `now`, and 0 when it fails. -/
def reset [Inhabited Load] (now : UInt64) (queue : ReliableSendQueue Load) :
    ReliableSendQueue Load × List (PSS_SyncRouter Load) :=
  let objMsg : PSS_SyncRouter Load :=
    { enType := .reset, srcId := queue.srcId, dstId := queue.dstId, seqId := 0,
      sendTime := now, bridgeId := 0, load := default }
  ({ queue with
      isReset := false
      msgQueue := ⟨queue.nextNode, objMsg⟩ :: queue.msgQueue
      queueSize := queue.queueSize + 1
      -- all packets in queue become not sent, except this reset
      iterNotSent := beginOf queue.msgQueue
      nextNode := queue.nextNode + 1 }, [objMsg])

/-- The message as `Push(pMsg)` inserts it. -/
def stamped (now : UInt64) (queue : ReliableSendQueue Load) (msg : PSS_SyncRouter Load) :
    PSS_SyncRouter Load :=
  { msg with seqId := queue.currSeqId + 1, srcId := queue.srcId, dstId := queue.dstId,
             sendTime := now }

/-- What `Push` leaves of the queue, when it is too big, to insert behind. -/
def dropFront (queue : ReliableSendQueue Load) : Option (ReliableSendQueue Load) :=
  if queue.queueSize ≥ queue.maxQueueSize then
    match queue.msgQueue with
    | [] => none
    | _ :: rest => some { queue with msgQueue := rest, queueSize := queue.queueSize - 1 }
  else some queue

/-- Insert at the end; the node becomes not sent when all others are sent. -/
def insertEnd (queue : ReliableSendQueue Load) (objMsg : PSS_SyncRouter Load) :
    ReliableSendQueue Load :=
  { queue with
    currSeqId := objMsg.seqId
    msgQueue := queue.msgQueue ++ [⟨queue.nextNode, objMsg⟩]
    queueSize := queue.queueSize + 1
    iterNotSent := if queue.iterNotSent = none then some queue.nextNode else queue.iterNotSent
    nextNode := queue.nextNode + 1 }

/-- `SetUrgentMode(true)`, when the queue is too large. -/
def enterUrgent (queue : ReliableSendQueue Load) : ReliableSendQueue Load :=
  if queue.queueSize > 10000 then { queue with isUrgentMode := true } else queue

/-- `Push(pMsg)`. -/
def push (now : UInt64) (queue : ReliableSendQueue Load) (msg : PSS_SyncRouter Load) :
    Option (ReliableSendQueue Load) :=
  (queue.enterUrgent.dropFront).map fun room => room.insertEnd (queue.stamped now msg)

/-- The nodes from an iterator on; none of them when it denotes no node. -/
def nodesFrom (iter : Nat) (nodes : List (QueueNode Load)) : List (QueueNode Load) :=
  nodes.dropWhile (fun node => node.node ≠ iter)

/-- `Flush(sDispatcher)`. -/
def flush (queue : ReliableSendQueue Load) :
    Option (ReliableSendQueue Load × List (PSS_SyncRouter Load)) :=
  match queue.isReset, queue.iterNotSent with
  | true, some iter =>
      let queue := queue.enterUrgent
      match nodesFrom iter queue.msgQueue with
      | [] => none
      | first :: rest =>
          -- one packet in urgent mode, else 100
          let count := if queue.isUrgentMode then 1 else 100
          some ({ queue with iterNotSent := beginOf ((first :: rest).drop count) },
            ((first :: rest).take count).map QueueNode.msg)
  | _, _ => some (queue, [])

/-- `Try(sDispatcher)`: the front goes out once more. -/
def tryFront (queue : ReliableSendQueue Load) : Option (List (PSS_SyncRouter Load)) :=
  if queue.queueSize > 0 then
    match queue.msgQueue with
    | [] => none
    | front :: _ => some [front.msg]
  else some []

/-- `Ping(sDispatcher)`. -/
def ping [Inhabited Load] (queue : ReliableSendQueue Load) : PSS_SyncRouter Load where
  enType := .ping
  srcId := queue.srcId
  dstId := queue.dstId
  seqId := 0
  sendTime := 0
  bridgeId := 0
  load := default

/-- The front was sent before what the ack is for: enter urgent mode. -/
def rewind (queue : ReliableSendQueue Load) : ReliableSendQueue Load :=
  { queue with iterNotSent := beginOf queue.msgQueue, isUrgentMode := true }

/-- Erase from the front while the sequence id is at most `expectId`. -/
def eraseUpTo (expectId : UInt32) (queue : ReliableSendQueue Load) : ReliableSendQueue Load :=
  let erased := queue.msgQueue.takeWhile (fun node => node.msg.seqId ≤ expectId)
  let left : ReliableSendQueue Load :=
    { queue with
      msgQueue := queue.msgQueue.drop erased.length
      queueSize := queue.queueSize - erased.length }
  -- some sync may be erased, so the iterator and urgent mode are reset
  if left.isUrgentMode ∧ left.queueSize = 0 then
    { left with isUrgentMode := false, iterNotSent := beginOf left.msgQueue }
  else if left.isUrgentMode ∧ erased.length > 0 then
    { left with iterNotSent := beginOf left.msgQueue }
  else left

/-- The new mode of `Erase`: the ack tells the id its sender expects. -/
def eraseExpected (queue : ReliableSendQueue Load) (ack : PSS_AckRouter) :
    ReliableSendQueue Load :=
  match queue.msgQueue with
  | [] => eraseUpTo ack.expectId queue
  | sync :: _ =>
      if sync.msg.seqId < ack.seqId then eraseUpTo ack.expectId queue.rewind
      else eraseUpTo ack.expectId queue

/-- The old mode of `Erase`, or a reset ack: only the front can match. -/
def eraseMatching (queue : ReliableSendQueue Load) (ack : PSS_AckRouter) :
    ReliableSendQueue Load :=
  match queue.msgQueue with
  | [] => queue
  | sync :: rest =>
      if sync.msg.seqId > ack.seqId then queue
      else if sync.msg.seqId < ack.seqId then queue.rewind
      else if sync.msg.enType = ack.enType then
        let left : ReliableSendQueue Load :=
          { queue with msgQueue := rest, queueSize := queue.queueSize - 1 }
        { left with
          isReset := left.isReset || (ack.enType == .reset)
          isUrgentMode := left.isUrgentMode && left.queueSize != 0 }
      else queue

/-- `Erase(pAck)`. -/
def erase (queue : ReliableSendQueue Load) (ack : PSS_AckRouter) : ReliableSendQueue Load :=
  if ack.enType = .ping then queue
  else if ack.enType = .shutdown then { queue with isReset := false }
  else if queue.queueSize = 0 then queue
  else if ack.expectId ≠ 0 ∧ queue.isReset then queue.eraseExpected ack
  else queue.eraseMatching ack

/-! ## Operations -/

/-- The operations on a queue that was reset. -/
inductive Op (Load : Type) where
  | push (now : UInt64) (msg : PSS_SyncRouter Load)
  | flush
  | tryFront
  | ping
  | erase (ack : PSS_AckRouter)

/-- The queue after an operation, and what it dispatched. -/
def apply [Inhabited Load] (queue : ReliableSendQueue Load) :
    Op Load → Option (ReliableSendQueue Load × List (PSS_SyncRouter Load))
  | .push now msg => (queue.push now msg).map fun pushed => (pushed, [])
  | .flush => queue.flush
  | .tryFront => queue.tryFront.map fun sent => (queue, sent)
  | .ping => some (queue, [queue.ping])
  | .erase ack => some (queue.erase ack, [])

def step [Inhabited Load] (queue : ReliableSendQueue Load) (op : Op Load) :
    Option (ReliableSendQueue Load) :=
  (queue.apply op).map Prod.fst

/-- The queue that `OnRouterEmit` creates: its ids and limit are set, and it is
reset. -/
def start [Inhabited Load] (srcId dstId : UInt32) (limit : Nat) (now : UInt64) :
    ReliableSendQueue Load :=
  (reset now (new srcId dstId limit)).1

/-! ## What `Erase` removes -/

/-- How many elements the ack removes from the front. -/
def erasedCount (queue : ReliableSendQueue Load) (ack : PSS_AckRouter) : Nat :=
  if ack.enType = .ping ∨ ack.enType = .shutdown ∨ queue.queueSize = 0 then 0
  else if ack.expectId ≠ 0 ∧ queue.isReset then
    (queue.msgQueue.takeWhile (fun node => node.msg.seqId ≤ ack.expectId)).length
  else
    match queue.msgQueue with
    | [] => 0
    | sync :: _ => if sync.msg.seqId = ack.seqId ∧ sync.msg.enType = ack.enType then 1 else 0

/-- The ack makes `Erase` move `m_iterNotSent` to the front of the queue. -/
def rewinds (queue : ReliableSendQueue Load) (ack : PSS_AckRouter) : Bool :=
  if ack.enType = .ping ∨ ack.enType = .shutdown ∨ queue.queueSize = 0 then false
  else
    match queue.msgQueue with
    | [] => false
    | sync :: _ =>
        decide (sync.msg.seqId < ack.seqId) ||
          decide (ack.expectId ≠ 0 ∧ queue.isReset ∧ queue.isUrgentMode ∧
            queue.erasedCount ack > 0)

@[simp] theorem beginOf_nil : beginOf ([] : List (QueueNode Load)) = none := rfl

@[simp] theorem beginOf_cons (node : QueueNode Load) (rest : List (QueueNode Load)) :
    beginOf (node :: rest) = some node.node := rfl

/-- What the new mode leaves: the front up to the expected id is gone. -/
theorem eraseUpTo_eq (queue : ReliableSendQueue Load) (expectId : UInt32)
    (hsize : queue.queueSize = queue.msgQueue.length) (hsome : queue.msgQueue ≠ []) :
    let count := (queue.msgQueue.takeWhile (fun node => node.msg.seqId ≤ expectId)).length
    queue.eraseUpTo expectId =
      { queue with
        msgQueue := queue.msgQueue.drop count
        queueSize := queue.queueSize - count
        isUrgentMode := queue.isUrgentMode && queue.queueSize - count != 0
        iterNotSent := if queue.isUrgentMode ∧ count > 0
          then beginOf (queue.msgQueue.drop count) else queue.iterNotSent } := by
  intro count
  have hpos := List.length_pos_iff.mpr hsome
  have hcount : count ≤ queue.msgQueue.length := (List.takeWhile_prefix _).length_le
  unfold eraseUpTo
  dsimp only
  by_cases hurgent : queue.isUrgentMode
  · by_cases hall : queue.queueSize - count = 0
    · rw [if_pos ⟨hurgent, hall⟩]
      have hsome : count > 0 := by omega
      simp [hurgent, hall, hsome, count]
    · rw [if_neg (fun hempty => hall hempty.2)]
      by_cases hsome : count > 0
      · rw [if_pos ⟨hurgent, hsome⟩]
        simp [hurgent, hall, hsome, count]
      · rw [if_neg (fun herased => hsome herased.2)]
        simp [hurgent, hall, hsome, count]
  · rw [if_neg (fun hempty => hurgent hempty.1), if_neg (fun herased => hurgent herased.1)]
    simp [hurgent, count]

/-- A change of the list, its size, the iterator and the two flags only. -/
def edited (queue : ReliableSendQueue Load) (count : Nat) (rewound isReset isUrgentMode : Bool) :
    ReliableSendQueue Load :=
  { queue with
    msgQueue := queue.msgQueue.drop count
    queueSize := queue.queueSize - count
    iterNotSent := if rewound then beginOf (queue.msgQueue.drop count) else queue.iterNotSent
    isReset := isReset
    isUrgentMode := isUrgentMode }

theorem eraseExpected_eq (queue : ReliableSendQueue Load) (ack : PSS_AckRouter)
    (hsize : queue.queueSize = queue.msgQueue.length) {sync : QueueNode Load}
    {rest : List (QueueNode Load)} (hlist : queue.msgQueue = sync :: rest) :
    let count := (queue.msgQueue.takeWhile (fun node => node.msg.seqId ≤ ack.expectId)).length
    queue.eraseExpected ack =
      queue.edited count (decide (sync.msg.seqId < ack.seqId) ||
        (queue.isUrgentMode && decide (count > 0))) queue.isReset
        (queue.eraseExpected ack).isUrgentMode := by
  intro count
  have hrewound := eraseUpTo_eq queue.rewind ack.expectId hsize (by simp [rewind, hlist])
  have hstayed := eraseUpTo_eq queue ack.expectId hsize (by simp [hlist])
  have hfront : queue.eraseExpected ack =
      if sync.msg.seqId < ack.seqId then eraseUpTo ack.expectId queue.rewind
      else eraseUpTo ack.expectId queue := by
    unfold eraseExpected
    rw [hlist]
  rw [hfront]
  by_cases hless : sync.msg.seqId < ack.seqId
  · rw [if_pos hless, hrewound]
    by_cases hsome : count > 0
    · simp [rewind, edited, hless, hsome, count]
    · have hzero : count = 0 := by omega
      simp [rewind, edited, hless, hzero, count]
  · rw [if_neg hless, hstayed]
    simp [edited, hless, count]

theorem eraseMatching_eq (queue : ReliableSendQueue Load) (ack : PSS_AckRouter)
    {sync : QueueNode Load} {rest : List (QueueNode Load)} (hlist : queue.msgQueue = sync :: rest) :
    let matched := decide (sync.msg.seqId = ack.seqId ∧ sync.msg.enType = ack.enType)
    queue.eraseMatching ack =
      queue.edited matched.toNat (decide (sync.msg.seqId < ack.seqId))
        (queue.isReset || (matched && ack.enType == .reset))
        (queue.eraseMatching ack).isUrgentMode := by
  intro matched
  unfold eraseMatching
  rw [hlist]
  dsimp only
  by_cases hgreater : sync.msg.seqId > ack.seqId
  · have hne : sync.msg.seqId ≠ ack.seqId := (UInt32.ne_of_lt hgreater).symm
    have hless : ¬ sync.msg.seqId < ack.seqId := UInt32.lt_asymm hgreater
    simp [hgreater, matched, hne, hless, edited]
  · by_cases hless : sync.msg.seqId < ack.seqId
    · have hne : sync.msg.seqId ≠ ack.seqId := UInt32.ne_of_lt hless
      simp [hgreater, matched, hne, hless, edited, rewind]
    · have hequal : sync.msg.seqId = ack.seqId :=
        UInt32.le_antisymm (UInt32.not_lt.mp hgreater) (UInt32.not_lt.mp hless)
      by_cases htype : sync.msg.enType = ack.enType
      · simp [matched, hequal, htype, edited, hlist]
      · simp [matched, hequal, htype, edited]

/-- Everything `Erase` does to the list, its size and the iterator. -/
theorem erase_eq (queue : ReliableSendQueue Load) (ack : PSS_AckRouter)
    (hsize : queue.queueSize = queue.msgQueue.length) :
    queue.erase ack =
      queue.edited (queue.erasedCount ack) (queue.rewinds ack)
        (queue.erase ack).isReset (queue.erase ack).isUrgentMode := by
  by_cases hping : ack.enType = .ping
  · simp [erase, rewinds, erasedCount, hping, edited]
  by_cases hshutdown : ack.enType = .shutdown
  · simp [erase, rewinds, erasedCount, hshutdown, edited]
  by_cases hempty : queue.queueSize = 0
  · have herase : queue.erase ack = queue := by simp [erase, hping, hshutdown, hempty]
    have hcount : queue.erasedCount ack = 0 := by simp [erasedCount, hempty]
    have hrewinds : queue.rewinds ack = false := by simp [rewinds, hempty]
    rw [herase, hcount, hrewinds]
    rfl
  cases hlist : queue.msgQueue with
  | nil => simp [hlist, hempty] at hsize
  | cons sync rest =>
      by_cases hnew : ack.expectId ≠ 0 ∧ queue.isReset
      · -- the ack names the id the peer expects: all before it is erased
        have hcount : queue.erasedCount ack =
            (queue.msgQueue.takeWhile (fun node => node.msg.seqId ≤ ack.expectId)).length := by
          simp [erasedCount, hping, hshutdown, hempty, hnew]
        have hrewinds : queue.rewinds ack = (decide (sync.msg.seqId < ack.seqId) ||
            (queue.isUrgentMode && decide (queue.erasedCount ack > 0))) := by
          simp [rewinds, hping, hshutdown, hempty, hlist, hnew]
        have herase : queue.erase ack = queue.eraseExpected ack := by
          simp [erase, hping, hshutdown, hempty, hnew]
        have hexpected := eraseExpected_eq queue ack hsize hlist
        dsimp only at hexpected
        rw [← hcount, ← hrewinds] at hexpected
        rw [herase, hexpected]
        rfl
      · -- otherwise the ack is for the front element, or for none
        have hcount : queue.erasedCount ack =
            (decide (sync.msg.seqId = ack.seqId ∧ sync.msg.enType = ack.enType)).toNat := by
          rw [erasedCount, if_neg (by simp [hping, hshutdown, hempty]), if_neg hnew, hlist]
          dsimp only
          by_cases hmatch : sync.msg.seqId = ack.seqId ∧ sync.msg.enType = ack.enType
          · simp [hmatch]
          · rw [if_neg hmatch, decide_eq_false hmatch]
            rfl
        have hrewinds : queue.rewinds ack = decide (sync.msg.seqId < ack.seqId) := by
          rw [rewinds, if_neg (by simp [hping, hshutdown, hempty]), hlist]
          dsimp only
          rw [decide_eq_false (p := ack.expectId ≠ 0 ∧ _) (fun hall => hnew ⟨hall.1, hall.2.1⟩),
            Bool.or_false]
        have herase : queue.erase ack = queue.eraseMatching ack := by
          rw [erase, if_neg hping, if_neg hshutdown, if_neg hempty, if_neg hnew]
        have hmatching := eraseMatching_eq queue ack hlist
        dsimp only at hmatching
        rw [← hcount, ← hrewinds] at hmatching
        rw [herase, hmatching]
        rfl

theorem enterUrgent_eq (queue : ReliableSendQueue Load) :
    queue.enterUrgent = { queue with isUrgentMode := queue.enterUrgent.isUrgentMode } := by
  unfold enterUrgent
  split <;> rfl

/-- Everything `Push` does. -/
theorem push_some {queue next : ReliableSendQueue Load} {now : UInt64}
    {msg : PSS_SyncRouter Load} (hpush : queue.push now msg = some next) :
    let dropped := if queue.queueSize ≥ queue.maxQueueSize then 1 else 0
    next =
      { queue with
        currSeqId := queue.currSeqId + 1
        msgQueue := queue.msgQueue.drop dropped ++ [⟨queue.nextNode, queue.stamped now msg⟩]
        queueSize := queue.queueSize - dropped + 1
        iterNotSent := if queue.iterNotSent = none
          then some queue.nextNode else queue.iterNotSent
        nextNode := queue.nextNode + 1
        isUrgentMode := next.isUrgentMode } := by
  simp only [push, Option.map_eq_some_iff] at hpush
  obtain ⟨room, hroom, rfl⟩ := hpush
  rw [enterUrgent_eq] at hroom
  unfold dropFront at hroom
  dsimp only at hroom ⊢
  split at hroom
  next hfull =>
    split at hroom
    · cases hroom
    next front rest hlist =>
      cases hroom
      rw [hlist]
      simp [insertEnd, stamped, hfull]
  next hroomy =>
    cases hroom
    simp [insertEnd, stamped, hroomy]

theorem push_isSome (queue : ReliableSendQueue Load) (now : UInt64) (msg : PSS_SyncRouter Load)
    (hroom : queue.queueSize ≥ queue.maxQueueSize → queue.msgQueue ≠ []) :
    ∃ next, queue.push now msg = some next := by
  unfold push
  rw [enterUrgent_eq]
  unfold dropFront
  dsimp only
  by_cases hfull : queue.queueSize ≥ queue.maxQueueSize
  · rw [if_pos hfull]
    cases hlist : queue.msgQueue with
    | nil => exact absurd hlist (hroom hfull)
    | cons front rest => exact ⟨_, rfl⟩
  · rw [if_neg hfull]
    exact ⟨_, rfl⟩

/-- `Flush` sends nothing, or moves the iterator past what it sends. -/
theorem flush_some {queue next : ReliableSendQueue Load} {sent : List (PSS_SyncRouter Load)}
    (hflush : queue.flush = some (next, sent)) :
    (next = queue ∧ sent = [] ∧ (queue.isReset = false ∨ queue.iterNotSent = none)) ∨
    (queue.isReset = true ∧ ∃ iter count isUrgentMode, queue.iterNotSent = some iter ∧
      nodesFrom iter queue.msgQueue ≠ [] ∧
      sent = ((nodesFrom iter queue.msgQueue).take count).map QueueNode.msg ∧
      next = { queue with
        iterNotSent := beginOf ((nodesFrom iter queue.msgQueue).drop count)
        isUrgentMode := isUrgentMode }) := by
  unfold flush at hflush
  split at hflush
  next iter hreset hiter =>
    dsimp only at hflush
    have hlist : queue.enterUrgent.msgQueue = queue.msgQueue := by rw [enterUrgent_eq]
    rw [hlist] at hflush
    split at hflush
    · cases hflush
    next first rest hfrom =>
      cases hflush
      refine Or.inr ⟨hreset, iter, if queue.enterUrgent.isUrgentMode then 1 else 100,
        queue.enterUrgent.isUrgentMode, hiter, by simp [hfrom], by rw [hfrom], ?_⟩
      rw [hfrom, enterUrgent_eq]
  next hno =>
    cases hflush
    refine Or.inl ⟨rfl, rfl, ?_⟩
    cases hreset : queue.isReset with
    | false => exact Or.inl rfl
    | true =>
        cases hiter : queue.iterNotSent with
        | none => exact Or.inr rfl
        | some iter => exact absurd hiter (hno iter hreset)

theorem flush_isSome {queue : ReliableSendQueue Load}
    (hiter : ∀ iter, queue.iterNotSent = some iter → nodesFrom iter queue.msgQueue ≠ []) :
    ∃ result, queue.flush = some result := by
  unfold flush
  split
  next iter hreset hsome =>
    have hlist : queue.enterUrgent.msgQueue = queue.msgQueue := by rw [enterUrgent_eq]
    dsimp only
    rw [hlist]
    split
    next hnil => exact absurd hnil (hiter iter hsome)
    · exact ⟨_, rfl⟩
  · exact ⟨_, rfl⟩

/-- The calls behind the operations. -/
def Applied [Inhabited Load] (queue : ReliableSendQueue Load) (op : Op Load)
    (next : ReliableSendQueue Load) (sent : List (PSS_SyncRouter Load)) : Prop :=
  match op with
  | .push now msg => queue.push now msg = some next ∧ sent = []
  | .flush => queue.flush = some (next, sent)
  | .tryFront => next = queue ∧ queue.tryFront = some sent
  | .ping => next = queue ∧ sent = [queue.ping]
  | .erase ack => next = queue.erase ack ∧ sent = []

theorem apply_some [Inhabited Load] {queue next : ReliableSendQueue Load} {op : Op Load}
    {sent : List (PSS_SyncRouter Load)} (happly : queue.apply op = some (next, sent)) :
    queue.Applied op next sent := by
  unfold apply at happly
  cases op with
  | push now msg =>
      obtain ⟨pushed, hpush, hpushed⟩ := Option.map_eq_some_iff.mp happly
      cases hpushed
      exact ⟨hpush, rfl⟩
  | flush => exact happly
  | tryFront =>
      obtain ⟨tried, htry, htried⟩ := Option.map_eq_some_iff.mp happly
      cases htried
      exact ⟨rfl, htry⟩
  | ping =>
      cases happly
      exact ⟨rfl, rfl⟩
  | erase ack =>
      cases happly
      exact ⟨rfl, rfl⟩

theorem step_some [Inhabited Load] {queue next : ReliableSendQueue Load} {op : Op Load}
    (hstep : queue.step op = some next) : ∃ sent, queue.Applied op next sent := by
  obtain ⟨⟨stepped, sent⟩, happly, hnext⟩ := Option.map_eq_some_iff.mp hstep
  cases hnext
  exact ⟨sent, apply_some happly⟩

end ReliableSendQueue

end ServiceFrame
