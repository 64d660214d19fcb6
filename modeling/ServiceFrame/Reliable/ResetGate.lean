import ServiceFrame.Reliable.QueueInvariant

/-! # The reset handshake gates the data

A queue starts with a RESET in front, and no data is to leave it until the ack
of the RESET arrives. `Flush` is guarded by the reset flag; `Try` relies on the
RESET being the front, which only an overflow of `Push` can spoil.
-/

namespace ServiceFrame

open Foundation

namespace ReliableSendQueue

variable {Load : Type}

/-- The ack of a RESET. -/
def isResetAck (ack : PSS_AckRouter) : Bool :=
  ack.enType == .reset && ack.seqId == 0

/-- The operation is no `Erase` on an ack of type SHUTDOWN. -/
def Op.NotShutdown : Op Load → Prop
  | .erase ack => ack.enType ≠ .shutdown
  | _ => True

/-- A queue, whether the ack of its RESET was processed, and all it dispatched
before that. -/
structure Gate (Load : Type) where
  queue : ReliableSendQueue Load
  acked : Bool
  early : List (PSS_SyncRouter Load)

namespace Gate

variable [Inhabited Load]

/-- The gate as `Reset` leaves it, which dispatched the RESET. -/
def start (srcId dstId : UInt32) (limit : Nat) (now : UInt64) : Gate Load where
  queue := ReliableSendQueue.start srcId dstId limit now
  acked := false
  early := (reset now (new srcId dstId limit)).2

def processes (op : Op Load) : Bool :=
  match op with
  | .erase ack => isResetAck ack
  | _ => false

def step (gate : Gate Load) (op : { op : Op Load // op.NotShutdown }) : Option (Gate Load) :=
  (gate.queue.apply op.1).map fun (queue, sent) =>
    { queue := queue
      acked := gate.acked || processes op.1
      early := if gate.acked then gate.early else gate.early ++ sent }

/-- Until the ack of the RESET is processed the RESET, node 0, is the front of
the queue; from then on it is gone and the queue is reset. No DATA is dispatched
before. -/
structure Closed (gate : Gate Load) : Prop where
  before : gate.acked = false →
    ∃ front rest, gate.queue.msgQueue = front :: rest ∧ front.node = 0 ∧
      front.msg.enType = .reset
  after : gate.acked = true →
    0 ∉ gate.queue.msgQueue.map QueueNode.node ∧ gate.queue.isReset = true
  early : ∀ msg ∈ gate.early, msg.enType.isData = false

/-- The call does not push onto a full queue before the RESET's ack. -/
def KeepsReset (gate : Gate Load) (op : { op : Op Load // op.NotShutdown }) : Prop :=
  match op.1 with
  | .push _ _ => gate.acked = true ∨ gate.queue.queueSize < gate.queue.maxQueueSize
  | _ => True

end Gate

/-! ## `Erase` and the RESET -/

theorem erase_isReset {queue : ReliableSendQueue Load} {ack : PSS_AckRouter}
    (hsize : queue.queueSize = queue.msgQueue.length) (hreset : queue.isReset = true)
    (hack : ack.enType ≠ .shutdown) : (queue.erase ack).isReset = true := by
  by_cases hping : ack.enType = .ping
  · simp [erase, hping, hreset]
  by_cases hempty : queue.queueSize = 0
  · simp [erase, hping, hack, hempty, hreset]
  cases hlist : queue.msgQueue with
  | nil => simp [hlist, hempty] at hsize
  | cons sync rest =>
      by_cases hnew : ack.expectId ≠ 0
      · have herase : queue.erase ack = queue.eraseExpected ack := by
          simp [erase, hping, hack, hempty, hnew, hreset]
        rw [herase, eraseExpected_eq queue ack hsize hlist]
        exact hreset
      · have herase : queue.erase ack = queue.eraseMatching ack := by
          simp [erase, hping, hack, hempty, hnew]
        rw [herase, eraseMatching_eq queue ack hlist]
        simp [edited, hreset]

/-- With an unacknowledged RESET in front, its ack takes it away and resets the
queue, and every other ack leaves the list as it is. -/
theorem erase_front_reset {queue : ReliableSendQueue Load} {ack : PSS_AckRouter}
    {front : QueueNode Load} {rest : List (QueueNode Load)}
    (hsize : queue.queueSize = queue.msgQueue.length) (hclosed : queue.isReset = false)
    (hlist : queue.msgQueue = front :: rest) (hseq : front.msg.seqId = 0)
    (htype : front.msg.enType = .reset) (hack : ack.enType ≠ .shutdown) :
    (queue.erase ack).msgQueue = (if isResetAck ack then rest else front :: rest) ∧
      (queue.erase ack).isReset = isResetAck ack := by
  by_cases hping : ack.enType = .ping
  · simp [erase, hping, hlist, hclosed, isResetAck]
  have hsome : queue.queueSize ≠ 0 := by simp [hsize, hlist]
  have herase : queue.erase ack = queue.eraseMatching ack := by
    simp [erase, hping, hack, hsome, hclosed]
  rw [herase, eraseMatching_eq queue ack hlist, hseq, htype, hclosed]
  by_cases hmatch : isResetAck ack = true
  · simp only [isResetAck, Bool.and_eq_true, beq_iff_eq] at hmatch
    simp [edited, hlist, hmatch.1, hmatch.2, isResetAck]
  · have hmiss : ¬ (0 = ack.seqId ∧ ReliableType.reset = ack.enType) := by
      intro hall
      simp [isResetAck, ← hall.1, ← hall.2] at hmatch
    rw [decide_eq_false hmiss]
    simp [edited, hlist, hmatch]

namespace Gate

variable [Inhabited Load]

/-- What the invariant adds: the queue is sound, and not reset before the ack. -/
structure Inv (gate : Gate Load) : Prop where
  linked : gate.queue.Linked
  closed : gate.Closed
  flag : gate.acked = false → gate.queue.isReset = false

omit [Inhabited Load] in
/-- A sound queue with node 0 in front holds it nowhere else. -/
theorem front_unique {queue : ReliableSendQueue Load} (hqueue : queue.Linked)
    {front : QueueNode Load} {rest : List (QueueNode Load)}
    (hlist : queue.msgQueue = front :: rest) : 0 ∉ rest.map QueueNode.node := by
  have hordered := hqueue.ordered
  rw [hlist, List.map_cons, List.pairwise_cons] at hordered
  exact fun hzero => absurd (hordered.1 0 hzero) (Nat.not_lt_zero _)

/-- Before the ack one call keeps the RESET in front and dispatches no DATA, or
is its ack and takes it away, unless it pushes onto a full queue. -/
theorem step_before {gate : Gate Load} {op : { op : Op Load // op.NotShutdown }}
    {next : ReliableSendQueue Load} {sent : List (PSS_SyncRouter Load)} (hgate : gate.Inv)
    (hwaiting : gate.acked = false) (hkeeps : gate.KeepsReset op)
    (happlied : gate.queue.Applied op.1 next sent) :
    Inv { queue := next, acked := processes op.1, early := gate.early ++ sent } := by
  have hlinked := hgate.linked
  have hclosed := hgate.flag hwaiting
  have hearly := hgate.closed.early
  obtain ⟨front, rest, hlist, hnode, htype⟩ := hgate.closed.before hwaiting
  obtain ⟨op, hop⟩ := op
  have hnext : next.Linked := applied_linked hlinked happlied
  cases op with
  | push now msg =>
      obtain ⟨hpush, rfl⟩ := happlied
      have hroom : gate.queue.queueSize < gate.queue.maxQueueSize :=
        hkeeps.resolve_left (by simp [hwaiting])
      rw [List.append_nil]
      refine ⟨hnext, ⟨fun _ => ?_, fun hacked => (by cases hacked), hearly⟩, fun _ => ?_⟩
      · rw [push_some hpush, if_neg (by omega), hlist]
        exact ⟨front, _, rfl, hnode, htype⟩
      · rw [push_some hpush]
        exact hclosed
  | flush =>
      obtain ⟨rfl, rfl, -⟩ | ⟨hreset, -⟩ := flush_some happlied
      · rw [List.append_nil]
        exact ⟨hlinked, ⟨fun _ => ⟨front, rest, hlist, hnode, htype⟩,
          fun hacked => (by cases hacked), hearly⟩, fun _ => hclosed⟩
      · rw [hclosed] at hreset
        cases hreset
  | tryFront =>
      obtain ⟨rfl, htry⟩ := happlied
      refine ⟨hlinked, ⟨fun _ => ⟨front, rest, hlist, hnode, htype⟩,
        fun hacked => (by cases hacked), ?_⟩, fun _ => hclosed⟩
      -- the front is the RESET, so `Try` dispatches no DATA
      have hsent : ∀ msg ∈ sent, msg = front.msg := by
        unfold tryFront at htry
        rw [hlist] at htry
        split at htry
        · cases htry
          simp
        · cases htry
          simp
      intro msg hmsg
      obtain hold | hnew := List.mem_append.mp hmsg
      · exact hearly msg hold
      · rw [hsent msg hnew, htype]
        rfl
  | ping =>
      obtain ⟨rfl, rfl⟩ := happlied
      refine ⟨hlinked, ⟨fun _ => ⟨front, rest, hlist, hnode, htype⟩,
        fun hacked => (by cases hacked), ?_⟩, fun _ => hclosed⟩
      intro msg hmsg
      obtain hold | hnew := List.mem_append.mp hmsg
      · exact hearly msg hold
      · rw [List.mem_singleton.mp hnew]
        rfl
  | erase ack =>
      obtain ⟨rfl, rfl⟩ := happlied
      have hseq : front.msg.seqId = 0 := by
        rw [hlinked.seq_eq front (by simp [hlist]), hnode]
        rfl
      obtain ⟨hqueue, hflag⟩ :=
        erase_front_reset hlinked.size_eq hclosed hlist hseq htype hop
      rw [List.append_nil]
      refine ⟨hnext, ⟨fun hno => ?_, fun hacked => ?_, hearly⟩, fun hno => hflag.trans hno⟩
      · have hmiss : isResetAck ack = false := hno
        rw [hmiss] at hqueue
        exact ⟨front, rest, hqueue, hnode, htype⟩
      · have hmatch : isResetAck ack = true := hacked
        rw [hmatch, if_pos rfl] at hqueue
        exact ⟨by rw [hqueue]; exact front_unique hlinked hlist, hflag.trans hmatch⟩

/-- After the ack the RESET stays away and the queue stays reset. -/
theorem step_after {gate : Gate Load} {op : { op : Op Load // op.NotShutdown }}
    {next : ReliableSendQueue Load} {sent : List (PSS_SyncRouter Load)} (hgate : gate.Inv)
    (hacked : gate.acked = true) (happlied : gate.queue.Applied op.1 next sent) :
    Inv { queue := next, acked := true, early := gate.early } := by
  have hlinked := hgate.linked
  obtain ⟨hgone, hreset⟩ := hgate.closed.after hacked
  -- the RESET has the number 0, and a shorter queue does not bring it back
  have hgoneDrop : ∀ count, 0 ∉ (gate.queue.msgQueue.drop count).map QueueNode.node := by
    intro count hzero
    rw [List.map_drop] at hzero
    exact hgone (List.mem_of_mem_drop hzero)
  obtain ⟨op, hop⟩ := op
  have hnext : next.Linked := applied_linked hlinked happlied
  refine ⟨hnext, ⟨fun hno => (by cases hno), fun _ => ?_, hgate.closed.early⟩,
    fun hno => by cases hno⟩
  cases op with
  | push now msg =>
      rw [push_some happlied.1]
      refine ⟨?_, hreset⟩
      have hpos := hlinked.next_pos
      simp only [List.map_append, List.map_singleton, List.mem_append, List.mem_singleton, not_or]
      exact ⟨hgoneDrop _, by omega⟩
  | flush =>
      obtain ⟨rfl, -, -⟩ | ⟨-, iter, count, isUrgentMode, -, -, -, rfl⟩ := flush_some happlied
      · exact ⟨hgone, hreset⟩
      · exact ⟨hgone, hreset⟩
  | tryFront => exact happlied.1 ▸ ⟨hgone, hreset⟩
  | ping => exact happlied.1 ▸ ⟨hgone, hreset⟩
  | erase ack =>
      rw [happlied.1]
      refine ⟨?_, erase_isReset hlinked.size_eq hreset hop⟩
      rw [erase_eq gate.queue ack hlinked.size_eq]
      exact hgoneDrop _

omit [Inhabited Load] in
/-- A push onto a full queue pops the RESET whose ack did not come. -/
theorem push_full {gate : Gate Load} (now : UInt64) (msg : PSS_SyncRouter Load)
    (hgate : gate.Inv) (hwaiting : gate.acked = false)
    (hfull : gate.queue.queueSize ≥ gate.queue.maxQueueSize) :
    ∃ next, gate.queue.push now msg = some next ∧
      ¬ ∃ front rest, next.msgQueue = front :: rest ∧ front.node = 0 ∧
        front.msg.enType = .reset := by
  obtain ⟨front, rest, hlist, -, -⟩ := hgate.closed.before hwaiting
  obtain ⟨next, hpush⟩ := push_isSome gate.queue now msg
    (fun _ => by simp [hlist])
  refine ⟨next, hpush, ?_⟩
  rintro ⟨first, others, hnext, hzero, -⟩
  rw [push_some hpush, if_pos hfull, hlist, List.drop_succ_cons, List.drop_zero] at hnext
  have hmem : 0 ∈ (rest ++ [(⟨gate.queue.nextNode, gate.queue.stamped now msg⟩ :
      QueueNode Load)]).map QueueNode.node := by
    dsimp only at hnext
    rw [hnext]
    simp [hzero]
  have hpos := hgate.linked.next_pos
  simp only [List.map_append, List.map_singleton, List.mem_append, List.mem_singleton] at hmem
  obtain hold | hnew := hmem
  · exact front_unique hgate.linked hlist hold
  · omega

theorem start_inv (srcId dstId : UInt32) (limit : Nat) (now : UInt64) :
    (start srcId dstId limit now : Gate Load).Inv where
  linked := start_linked srcId dstId limit now
  closed :=
    { before := fun _ => ⟨_, _, rfl, rfl, rfl⟩
      after := fun hno => by cases hno
      early := by
        intro msg hmsg
        rw [List.mem_singleton.mp hmsg]
        rfl }
  flag := fun _ => rfl

theorem step_inv {gate next : Gate Load} {op : { op : Op Load // op.NotShutdown }}
    (hgate : gate.Inv) (hkeeps : gate.KeepsReset op) (hstep : gate.step op = some next) :
    next.Inv := by
  obtain ⟨⟨queue, sent⟩, happly, rfl⟩ := Option.map_eq_some_iff.mp hstep
  have happlied := apply_some happly
  cases hacked : gate.acked with
  | false => simpa [hacked] using step_before hgate hacked hkeeps happlied
  | true => simpa [hacked] using step_after hgate hacked happlied

/-- From `Reset` on, the RESET gates the data through a run exactly when no
message is pushed onto a full queue before the ack of the RESET is processed. -/
theorem closed_throughout_iff (srcId dstId : UInt32) (limit : Nat) (now : UInt64)
    (ops : List { op : Op Load // op.NotShutdown }) :
    Throughout step Closed (start srcId dstId limit now) ops ↔
      Along step KeepsReset (start srcId dstId limit now) ops := by
  refine throughout_iff_along Inv (fun gate op next => step_inv)
    (fun gate hgate => hgate.closed) ?_ (start_inv srcId dstId limit now) ops
  intro gate op hgate
  refine ⟨fun hgood => ?_, fun hkeeps next hstep => (step_inv hgate hkeeps hstep).closed⟩
  obtain ⟨op, hop⟩ := op
  cases op with
  | push now msg =>
      by_contra hlost
      simp only [KeepsReset, not_or, Bool.not_eq_true, not_lt] at hlost
      obtain ⟨pushed, hpush, hgone⟩ := push_full now msg hgate hlost.1 hlost.2
      have hclosed := hgood { queue := pushed, acked := false, early := gate.early ++ [] } (by
        simp [step, apply, hpush, hlost.1, processes])
      exact hgone (hclosed.before rfl)
  | flush => trivial
  | tryFront => trivial
  | ping => trivial
  | erase ack => trivial

/-! ## The overflow -/

/-- `Push` of a DATA message. -/
def pushData (msg : PSS_SyncRouter Load) : { op : Op Load // op.NotShutdown } :=
  ⟨.push 0 { msg with enType := .data }, trivial⟩

/-- Pushed onto, a queue whose RESET was not acked fills up behind it. -/
theorem push_run (srcId dstId : UInt32) {limit : Nat} (now : UInt64) (msg : PSS_SyncRouter Load)
    {count : Nat} (hcount : count < limit) :
    ∃ gate, run step (start srcId dstId limit now) (List.replicate count (pushData msg)) =
        some gate ∧
      gate.Inv ∧ gate.acked = false ∧ gate.queue.queueSize = count + 1 ∧
      gate.queue.maxQueueSize = limit ∧
      ∀ node ∈ gate.queue.msgQueue, node.node = 0 ∨ node.msg.enType = .data := by
  induction count with
  | zero =>
      refine ⟨_, rfl, start_inv srcId dstId limit now, rfl, rfl, rfl, ?_⟩
      intro node hnode
      rw [List.mem_singleton.mp hnode]
      exact Or.inl rfl
  | succ count ih =>
      obtain ⟨gate, hrun, hinv, hwaiting, hsize, hlimit, htypes⟩ := ih (by omega)
      obtain ⟨pushed, hpush⟩ := push_isSome gate.queue 0 { msg with enType := .data }
        (fun hfull => by omega)
      have hstep : gate.step (pushData msg) =
          some { queue := pushed, acked := false, early := gate.early } := by
        simp [step, apply, pushData, hpush, hwaiting, processes]
      have hroom : gate.KeepsReset (pushData msg) := Or.inr (by omega)
      refine ⟨_, ?_, step_inv hinv hroom hstep, rfl, ?_, ?_, ?_⟩
      · rw [List.replicate_succ', run_append, hrun]
        simp [hstep]
      · rw [push_some hpush, if_neg (by omega)]
        simp [hsize]
      · rw [push_some hpush]
        exact hlimit
      · rw [push_some hpush, if_neg (by omega)]
        intro node hnode
        obtain hold | hnew := List.mem_append.mp hnode
        · exact htypes node hold
        · rw [List.mem_singleton.mp hnew]
          exact Or.inr rfl

/-- As many messages as the limit allows pop the RESET, and `Try` sends data. -/
theorem overflow_sends_data (srcId dstId : UInt32) (room : Nat) (now : UInt64)
    (msg : PSS_SyncRouter Load) :
    ∃ gate, run step (start srcId dstId (room + 1) now)
        (List.replicate (room + 1) (pushData msg) ++ [⟨.tryFront, trivial⟩]) = some gate ∧
      gate.acked = false ∧ ∃ sent ∈ gate.early, sent.enType = .data := by
  obtain ⟨gate, hrun, hinv, hwaiting, hsize, hmax, htypes⟩ :=
    push_run srcId dstId now msg (Nat.lt_succ_self room)
  obtain ⟨front, rest, hlist, -, -⟩ := hinv.closed.before hwaiting
  obtain ⟨pushed, hpush⟩ := push_isSome gate.queue 0 { msg with enType := .data }
    (fun _ => by simp [hlist])
  have hstep : gate.step (pushData msg) =
      some { queue := pushed, acked := false, early := gate.early } := by
    simp [step, apply, pushData, hpush, hwaiting, processes]
  have hpushed := push_some hpush
  rw [if_pos (by omega), hlist] at hpushed
  dsimp only at hpushed
  rw [List.drop_succ_cons, List.drop_zero] at hpushed
  -- everything left is data, and something is
  have hdata : ∀ node ∈ pushed.msgQueue, node.msg.enType = .data := by
    intro node hnode
    rw [hpushed] at hnode
    obtain hold | hnew := List.mem_append.mp hnode
    · refine (htypes node (by simp [hlist, hold])).resolve_left fun hzero => ?_
      exact front_unique hinv.linked hlist (List.mem_map.mpr ⟨node, hold, hzero⟩)
    · rw [List.mem_singleton.mp hnew]
      rfl
  obtain ⟨first, others, hfirst⟩ : ∃ first others, pushed.msgQueue = first :: others := by
    cases hqueue : pushed.msgQueue with
    | nil =>
        rw [hpushed] at hqueue
        simp at hqueue
    | cons first others => exact ⟨first, others, rfl⟩
  have htry : pushed.tryFront = some [first.msg] := by
    unfold tryFront
    rw [hfirst, if_pos (by rw [hpushed]; exact Nat.succ_pos _)]
  refine ⟨{ queue := pushed, acked := false, early := gate.early ++ [first.msg] }, ?_, rfl,
    first.msg, by simp, hdata first (by simp [hfirst])⟩
  have hlast : step { queue := pushed, acked := false, early := gate.early }
      ⟨.tryFront, trivial⟩ =
        some { queue := pushed, acked := false, early := gate.early ++ [first.msg] } := by
    simp [step, apply, htry, processes]
  rw [List.replicate_succ', List.append_assoc, run_append, hrun]
  simp [hstep, hlast]

/-- At the limit that `OnRouterEmit` sets. -/
theorem closed_fails_at_limit :
    ∃ gate, run step (start 1 2 100000 5 : Gate Unit)
        (List.replicate 100000 (pushData firstData) ++ [⟨.tryFront, trivial⟩]) = some gate ∧
      gate.acked = false ∧ ¬ gate.Closed := by
  obtain ⟨gate, hrun, hwaiting, sent, hsent, htype⟩ :=
    overflow_sends_data 1 2 99999 5 firstData
  refine ⟨gate, hrun, hwaiting, fun hclosed => ?_⟩
  have hdata := hclosed.early sent hsent
  rw [htype] at hdata
  cases hdata

end Gate

end ReliableSendQueue

end ServiceFrame
