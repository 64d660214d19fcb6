import Mathlib.Algebra.Group.Nat.Defs
import Mathlib.Data.List.Pairwise
import Mathlib.Data.List.TakeWhile
import ServiceFrame.Reliable.SendQueue

/-! # The representation of the send queue

`m_msgQueue`, its size and `m_iterNotSent` belong together. Of the four places
that remove elements only one moves the iterator away from what it removes; the
theorem below says exactly which calls leave it with an erased element.
-/

namespace ServiceFrame

open Foundation

namespace ReliableSendQueue

variable {Load : Type}

/-- Fewer than `2 ^ 32` messages were pushed: the sequence counter has not
wrapped. -/
def NotWrapped (queue : ReliableSendQueue Load) : Prop := queue.nextNode ≤ 2 ^ 32

/-- `m_iterNotSent` denotes the end or an element of `m_msgQueue`. -/
def CursorValid (queue : ReliableSendQueue Load) : Prop :=
  ∀ iter, queue.iterNotSent = some iter → iter ∈ queue.msgQueue.map QueueNode.node

/-- The representation invariant. -/
structure Rep (queue : ReliableSendQueue Load) : Prop where
  cursor : queue.CursorValid
  size_eq : queue.queueSize = queue.msgQueue.length
  increasing : queue.NotWrapped →
    queue.msgQueue.Pairwise (fun first second => first.msg.seqId < second.msg.seqId)

/-- What holds of the list whatever happens to the iterator: the RESET is node 0,
the messages pushed are the nodes from 1 on, and each carries its node's number. -/
structure Linked (queue : ReliableSendQueue Load) : Prop where
  size_eq : queue.queueSize = queue.msgQueue.length
  ordered : (queue.msgQueue.map QueueNode.node).Pairwise (· < ·)
  fresh : ∀ node ∈ queue.msgQueue, node.node < queue.nextNode
  seq_eq : ∀ node ∈ queue.msgQueue, node.msg.seqId = UInt32.ofNat node.node
  curr_eq : queue.currSeqId + 1 = UInt32.ofNat queue.nextNode
  next_pos : 0 < queue.nextNode

variable {queue next : ReliableSendQueue Load}

theorem Linked.increasing (hqueue : queue.Linked) (hwrap : queue.NotWrapped) :
    queue.msgQueue.Pairwise (fun first second => first.msg.seqId < second.msg.seqId) := by
  have hordered := List.pairwise_map.mp hqueue.ordered
  apply hordered.imp_of_mem
  intro first second hfirst hsecond hless
  have hlarge := hqueue.fresh second hsecond
  rw [hqueue.seq_eq first hfirst, hqueue.seq_eq second hsecond, UInt32.lt_iff_toNat_lt,
    UInt32.toNat_ofNat', UInt32.toNat_ofNat']
  unfold NotWrapped at hwrap
  omega

theorem Linked.rep (hqueue : queue.Linked) (hcursor : queue.CursorValid) : queue.Rep :=
  ⟨hcursor, hqueue.size_eq, hqueue.increasing⟩

/-- Elements are only removed from the front. -/
theorem Linked.drop (hqueue : queue.Linked) (count : Nat) (iter : Option Nat)
    (isReset isUrgentMode : Bool) :
    Linked { queue with
      msgQueue := queue.msgQueue.drop count
      queueSize := queue.queueSize - count
      iterNotSent := iter
      isReset := isReset
      isUrgentMode := isUrgentMode } where
  size_eq := by
    have hsize := hqueue.size_eq
    simp only [List.length_drop]
    omega
  ordered := by
    rw [List.map_drop]
    exact hqueue.ordered.drop
  fresh := fun node hnode => hqueue.fresh node (List.mem_of_mem_drop hnode)
  seq_eq := fun node hnode => hqueue.seq_eq node (List.mem_of_mem_drop hnode)
  curr_eq := hqueue.curr_eq
  next_pos := hqueue.next_pos

/-- A new message goes behind all others, with the next number. -/
theorem Linked.insert (hqueue : queue.Linked) (now : UInt64) (msg : PSS_SyncRouter Load)
    (iter : Option Nat) (isUrgentMode : Bool) :
    Linked { queue with
      currSeqId := queue.currSeqId + 1
      msgQueue := queue.msgQueue ++ [⟨queue.nextNode, queue.stamped now msg⟩]
      queueSize := queue.queueSize + 1
      iterNotSent := iter
      nextNode := queue.nextNode + 1
      isUrgentMode := isUrgentMode } where
  size_eq := by simp [hqueue.size_eq]
  ordered := by
    rw [List.map_append, List.pairwise_append]
    refine ⟨hqueue.ordered, List.pairwise_singleton _ _, ?_⟩
    intro older holder newest hnewest
    obtain ⟨node, hnode, rfl⟩ := List.mem_map.mp holder
    have hfresh := hqueue.fresh node hnode
    simp only [List.map_singleton, List.mem_singleton] at hnewest
    omega
  fresh := by
    intro node hnode
    simp only [List.mem_append, List.mem_singleton] at hnode
    obtain hold | rfl := hnode
    · exact Nat.lt_succ_of_lt (hqueue.fresh node hold)
    · exact Nat.lt_succ_self _
  seq_eq := by
    intro node hnode
    simp only [List.mem_append, List.mem_singleton] at hnode
    obtain hold | rfl := hnode
    · exact hqueue.seq_eq node hold
    · exact hqueue.curr_eq
  curr_eq := by
    rw [UInt32.ofNat_add, ← hqueue.curr_eq]
    rfl
  next_pos := Nat.succ_pos _

theorem Linked.push (hqueue : queue.Linked) {now : UInt64} {msg : PSS_SyncRouter Load}
    (hpush : queue.push now msg = some next) : next.Linked := by
  rw [push_some hpush]
  exact (hqueue.drop _ none queue.isReset queue.isUrgentMode).insert now msg _ _

theorem Linked.flush (hqueue : queue.Linked) {sent : List (PSS_SyncRouter Load)}
    (hflush : queue.flush = some (next, sent)) : next.Linked := by
  obtain ⟨rfl, -, -⟩ | ⟨-, iter, count, isUrgentMode, -, -, -, rfl⟩ := flush_some hflush
  · exact hqueue
  · exact hqueue.drop 0 _ queue.isReset isUrgentMode

theorem Linked.erase (hqueue : queue.Linked) (ack : PSS_AckRouter) : (queue.erase ack).Linked := by
  rw [erase_eq queue ack hqueue.size_eq]
  exact hqueue.drop _ _ _ _

theorem start_linked [Inhabited Load] (srcId dstId : UInt32) (limit : Nat) (now : UInt64) :
    (start srcId dstId limit now : ReliableSendQueue Load).Linked where
  size_eq := rfl
  ordered := List.pairwise_singleton _ _
  fresh := by simp [start, reset, new]
  seq_eq := by simp [start, reset, new]
  curr_eq := rfl
  next_pos := Nat.one_pos

variable [Inhabited Load]

/-- The list stays sound under every operation, also behind a bad iterator. -/
theorem applied_linked {op : Op Load} {sent : List (PSS_SyncRouter Load)}
    (hqueue : queue.Linked) (happlied : queue.Applied op next sent) : next.Linked := by
  cases op with
  | push now msg => exact hqueue.push happlied.1
  | flush => exact hqueue.flush happlied
  | tryFront => exact happlied.1 ▸ hqueue
  | ping => exact happlied.1 ▸ hqueue
  | erase ack => exact happlied.1 ▸ hqueue.erase ack

theorem applied_maxQueueSize {op : Op Load} {sent : List (PSS_SyncRouter Load)}
    (hqueue : queue.Linked) (happlied : queue.Applied op next sent) :
    next.maxQueueSize = queue.maxQueueSize := by
  cases op with
  | push now msg => rw [push_some happlied.1]
  | flush =>
      obtain ⟨rfl, -, -⟩ | ⟨-, iter, count, isUrgentMode, -, -, -, rfl⟩ := flush_some happlied
      · rfl
      · rfl
  | tryFront => rw [happlied.1]
  | ping => rw [happlied.1]
  | erase ack =>
      rw [happlied.1, erase_eq queue ack hqueue.size_eq]
      rfl

/-! ## The iterator -/

/-- The call does not erase the element that `m_iterNotSent` denotes, or moves
the iterator to the front of what is left. -/
def KeepsCursor (queue : ReliableSendQueue Load) : Op Load → Prop
  | .push _ _ =>
      queue.queueSize < queue.maxQueueSize ∨ queue.iterNotSent ≠ beginOf queue.msgQueue
  | .erase ack =>
      queue.rewinds ack = true ∨
        ∀ iter, queue.iterNotSent = some iter →
          iter ∉ (queue.msgQueue.take (queue.erasedCount ack)).map QueueNode.node
  | _ => True

omit [Inhabited Load] in
theorem beginOf_mem {nodes : List (QueueNode Load)} {iter : Nat}
    (hbegin : beginOf nodes = some iter) :
    iter ∈ nodes.map QueueNode.node := by
  cases nodes with
  | nil => cases hbegin
  | cons node rest =>
      cases hbegin
      exact List.mem_cons_self

omit [Inhabited Load] in
theorem nodesFrom_ne_nil {iter : Nat} {nodes : List (QueueNode Load)}
    (hiter : iter ∈ nodes.map QueueNode.node) : nodesFrom iter nodes ≠ [] := by
  obtain ⟨node, hnode, rfl⟩ := List.mem_map.mp hiter
  intro hnil
  have hall := List.dropWhile_eq_nil_iff.mp hnil node hnode
  simp at hall

omit [Inhabited Load] in
/-- An element of an ordered list is either in its front part or behind it. -/
theorem Linked.mem_drop_iff (hqueue : queue.Linked) (count : Nat) {iter : Nat}
    (hiter : iter ∈ queue.msgQueue.map QueueNode.node) :
    iter ∈ (queue.msgQueue.drop count).map QueueNode.node ↔
      iter ∉ (queue.msgQueue.take count).map QueueNode.node := by
  have hordered := hqueue.ordered
  rw [← List.take_append_drop count queue.msgQueue, List.map_append] at hiter hordered
  have hless := (List.pairwise_append.mp hordered).2.2
  constructor
  · intro hback hfront
    exact absurd (hless iter hfront iter hback) (Nat.lt_irrefl _)
  · intro hfront
    exact (List.mem_append.mp hiter).resolve_left hfront

omit [Inhabited Load] in
/-- `Push` leaves a valid iterator valid exactly when it does not pop it. -/
theorem push_cursor (hqueue : queue.Linked) (hlimit : 0 < queue.maxQueueSize)
    (hcursor : queue.CursorValid)
    {now : UInt64} {msg : PSS_SyncRouter Load} (hpush : queue.push now msg = some next) :
    next.CursorValid ↔
      (queue.queueSize < queue.maxQueueSize ∨ queue.iterNotSent ≠ beginOf queue.msgQueue) := by
  rw [push_some hpush]
  simp only [CursorValid]
  have hsize := hqueue.size_eq
  cases hiter : queue.iterNotSent with
  | none =>
      -- everything was sent: the new element is the one not sent
      rw [if_pos rfl]
      refine ⟨fun _ => ?_, fun _ iter hnew => ?_⟩
      · cases hlist : queue.msgQueue with
        | nil =>
            rw [hlist, List.length_nil] at hsize
            exact Or.inl (by omega)
        | cons front rest => exact Or.inr (by simp)
      · cases hnew
        simp
  | some old =>
      have hold := hcursor old hiter
      have hfresh : old ≠ queue.nextNode := by
        obtain ⟨node, hnode, rfl⟩ := List.mem_map.mp hold
        exact Nat.ne_of_lt (hqueue.fresh node hnode)
      rw [if_neg (by simp)]
      by_cases hfull : queue.queueSize ≥ queue.maxQueueSize
      · rw [if_pos hfull]
        have hdrop := hqueue.mem_drop_iff 1 hold
        cases hlist : queue.msgQueue with
        | nil =>
            rw [hlist, List.length_nil] at hsize
            omega
        | cons front rest =>
            rw [hlist] at hdrop
            simp only [Option.some.injEq, forall_eq', List.map_append, List.mem_append, hdrop]
            simp only [List.take_succ_cons, List.take_zero, List.map_singleton,
              List.mem_singleton, hfresh, or_false, beginOf_cons, ne_eq, Option.some.injEq]
            exact ⟨fun hne => Or.inr hne, fun hkeeps => hkeeps.resolve_left (by omega)⟩
      · rw [if_neg hfull]
        refine ⟨fun _ => Or.inl (by omega), fun _ iter hsame => ?_⟩
        cases hsame
        rw [List.map_append]
        exact List.mem_append_left _ hold

omit [Inhabited Load] in
/-- `Erase` leaves a valid iterator valid exactly when it does not erase its
element, or moves it. -/
theorem erase_cursor (hqueue : queue.Linked) (hcursor : queue.CursorValid) (ack : PSS_AckRouter) :
    (queue.erase ack).CursorValid ↔
      (queue.rewinds ack = true ∨
        ∀ iter, queue.iterNotSent = some iter →
          iter ∉ (queue.msgQueue.take (queue.erasedCount ack)).map QueueNode.node) := by
  rw [erase_eq queue ack hqueue.size_eq]
  simp only [CursorValid, edited]
  by_cases hrewinds : queue.rewinds ack = true
  · rw [if_pos hrewinds]
    exact ⟨fun _ => Or.inl hrewinds, fun _ iter hiter => beginOf_mem hiter⟩
  · rw [if_neg hrewinds]
    constructor
    · intro hvalid
      exact Or.inr fun iter hiter =>
        (hqueue.mem_drop_iff _ (hcursor iter hiter)).mp (hvalid iter hiter)
    · intro hkeeps iter hiter
      exact (hqueue.mem_drop_iff _ (hcursor iter hiter)).mpr
        (hkeeps.resolve_left hrewinds iter hiter)

omit [Inhabited Load] in
theorem flush_cursor (hcursor : queue.CursorValid) {sent : List (PSS_SyncRouter Load)}
    (hflush : queue.flush = some (next, sent)) : next.CursorValid := by
  obtain ⟨rfl, -, -⟩ | ⟨-, iter, count, isUrgentMode, -, -, -, rfl⟩ := flush_some hflush
  · exact hcursor
  · intro iter' hbegin
    obtain ⟨node, hnode, hiter⟩ := List.mem_map.mp (beginOf_mem hbegin)
    have hsuffix : nodesFrom iter queue.msgQueue <:+ queue.msgQueue := List.dropWhile_suffix _
    exact List.mem_map.mpr ⟨node, hsuffix.subset (List.mem_of_mem_drop hnode), hiter⟩

/-- One call leaves a valid iterator valid exactly when it keeps it. -/
theorem applied_cursor {op : Op Load} {sent : List (PSS_SyncRouter Load)}
    (hqueue : queue.Linked) (hlimit : 0 < queue.maxQueueSize) (hcursor : queue.CursorValid)
    (happlied : queue.Applied op next sent) : next.CursorValid ↔ queue.KeepsCursor op := by
  cases op with
  | push now msg => exact push_cursor hqueue hlimit hcursor happlied.1
  | flush => exact ⟨fun _ => trivial, fun _ => flush_cursor hcursor happlied⟩
  | tryFront => exact ⟨fun _ => trivial, fun _ => happlied.1 ▸ hcursor⟩
  | ping => exact ⟨fun _ => trivial, fun _ => happlied.1 ▸ hcursor⟩
  | erase ack =>
      rw [happlied.1]
      exact erase_cursor hqueue hcursor ack

/-- Every call of a sound queue returns. -/
theorem step_isSome (op : Op Load) (hqueue : queue.Linked)
    (hlimit : 0 < queue.maxQueueSize) (hcursor : queue.CursorValid) :
    ∃ next, queue.step op = some next := by
  have hsome : queue.queueSize > 0 → queue.msgQueue ≠ [] := by
    intro hpos hnil
    have hsize := hqueue.size_eq
    rw [hnil, List.length_nil] at hsize
    omega
  unfold step apply
  cases op with
  | push now msg =>
      obtain ⟨pushed, hpush⟩ := push_isSome queue now msg
        (fun hfull => hsome (by omega))
      exact ⟨pushed, by simp [hpush]⟩
  | flush =>
      obtain ⟨flushed, hflush⟩ := flush_isSome
        (fun iter hiter => nodesFrom_ne_nil (hcursor iter hiter))
      exact ⟨flushed.1, by simp [hflush]⟩
  | tryFront =>
      refine ⟨queue, ?_⟩
      dsimp only
      unfold tryFront
      split
      next hpos =>
        cases hlist : queue.msgQueue with
        | nil => exact absurd hlist (hsome hpos)
        | cons front rest => rfl
      · rfl
  | ping => exact ⟨queue, rfl⟩
  | erase ack => exact ⟨queue.erase ack, rfl⟩

/-- From the reset on, the representation stays sound through a run exactly when
no call erases the element that `m_iterNotSent` denotes without moving it. -/
theorem rep_throughout_iff (srcId dstId : UInt32) {limit : Nat} (hlimit : 0 < limit)
    (now : UInt64) (ops : List (Op Load)) :
    Throughout step Rep (start srcId dstId limit now) ops ↔
      Along step KeepsCursor (start srcId dstId limit now) ops := by
  refine throughout_iff_along
    (fun queue => queue.Linked ∧ 0 < queue.maxQueueSize ∧ queue.CursorValid)
    ?_ (fun queue hqueue => hqueue.1.rep hqueue.2.2) ?_ ?_ ops
  · rintro queue op next ⟨hlinked, hlimit, hcursor⟩ hkeeps hstep
    obtain ⟨sent, happlied⟩ := step_some hstep
    refine ⟨applied_linked hlinked happlied, ?_,
      (applied_cursor hlinked hlimit hcursor happlied).mpr hkeeps⟩
    rw [applied_maxQueueSize hlinked happlied]
    exact hlimit
  · rintro queue op ⟨hlinked, hlimit, hcursor⟩
    constructor
    · intro hgood
      obtain ⟨next, hstep⟩ := step_isSome op hlinked hlimit hcursor
      obtain ⟨sent, happlied⟩ := step_some hstep
      exact (applied_cursor hlinked hlimit hcursor happlied).mp (hgood next hstep).cursor
    · intro hkeeps next hstep
      obtain ⟨sent, happlied⟩ := step_some hstep
      exact (applied_linked hlinked happlied).rep
        ((applied_cursor hlinked hlimit hcursor happlied).mpr hkeeps)
  · exact ⟨start_linked srcId dstId limit now, hlimit, fun iter hiter => by cases hiter⟩

/-- A message to push, and the acks of a RESET and of the first DATA. -/
def firstData : PSS_SyncRouter Unit :=
  { enType := .data, srcId := 1, dstId := 2, seqId := 0, sendTime := 0, bridgeId := 0, load := () }

def resetAck : PSS_AckRouter :=
  { enType := .reset, srcId := 2, dstId := 1, seqId := 0, expectId := 0, bridgeId := 0 }

def dataAck : PSS_AckRouter :=
  { enType := .data, srcId := 2, dstId := 1, seqId := 1, expectId := 0, bridgeId := 0 }

theorem rep_throughout_flushed :
    Throughout step Rep (start 1 2 100000 5) [.push 5 firstData, .erase resetAck, .flush] := by
  apply (rep_throughout_iff 1 2 (by decide) 5 _).mpr
  refine ⟨Or.inl (by decide), fun pushed hpushed => ?_⟩
  cases hpushed
  refine ⟨Or.inr ?_, fun _ _ => ⟨trivial, fun _ _ => trivial⟩⟩
  decide

/-- The ack of a message that was not sent yet, in the old mode, erases the very
element that `m_iterNotSent` denotes; the next `Flush` dereferences it. -/
theorem cursor_erased :
    ∃ queue, run step (start 1 2 100000 5)
        [.push 5 firstData, .erase resetAck, .erase dataAck] = some queue ∧
      queue.iterNotSent = some 1 ∧ queue.msgQueue = [] ∧ ¬ queue.Rep ∧ queue.flush = none := by
  refine ⟨_, rfl, rfl, rfl, fun hrep => ?_, rfl⟩
  have hmem := hrep.cursor 1 rfl
  exact absurd hmem (by decide)

end ReliableSendQueue

end ServiceFrame
