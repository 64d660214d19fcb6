import Mathlib.Logic.Function.Basic
import ServiceFrame.Reliable.Messages

/-! # The receiver of reliable routing

`CReliableAppContext`: for each source a window, opened by an accepted RESET,
that lets the DATA through which continues it.
-/

namespace ServiceFrame

/-- `CWriterInfo`, with the values its constructor gives. -/
structure WriterInfo where
  expectSeqId : UInt32 := 0
  lastPingTime : UInt32 := 0
  lastRestTime : UInt64 := 0
deriving DecidableEq

/-- The two maps of `CReliableAppContext`, by source id. -/
structure ReliableAppContext where
  mapWriterInfo : UInt32 → Option WriterInfo
  mapSrcSvidCount : UInt32 → Option UInt32

namespace ReliableAppContext

variable {Load : Type}

def init : ReliableAppContext := ⟨fun _ => none, fun _ => none⟩

/-- `m_mapWriterInfo[src]`, which is created on demand. -/
def writerInfo (ctx : ReliableAppContext) (src : UInt32) : WriterInfo :=
  (ctx.mapWriterInfo src).getD {}

def setWriterInfo (ctx : ReliableAppContext) (src : UInt32) (info : WriterInfo) :
    ReliableAppContext :=
  { ctx with mapWriterInfo := Function.update ctx.mapWriterInfo src (some info) }

/-- Count a SYNC that came out of order; an alarm after a hundred of them starts
the count anew. -/
def countOutOfOrder (ctx : ReliableAppContext) (src : UInt32) : ReliableAppContext :=
  let count : Option UInt32 :=
    match ctx.mapSrcSvidCount src with
    | some count => if 100 < count + 1 then none else some (count + 1)
    | none => some 1
  { ctx with mapSrcSvidCount := Function.update ctx.mapSrcSvidCount src count }

/-- The branch of `DoAckRouter` for a RESET. -/
def doReset (ctx : ReliableAppContext) (sync : PSS_SyncRouter Load) : ReliableAppContext :=
  let info := ctx.writerInfo sync.srcId
  if sync.sendTime ≠ 0 ∧ info.lastRestTime < sync.sendTime then
    ctx.setWriterInfo sync.srcId
      { info with expectSeqId := sync.seqId, lastRestTime := sync.sendTime }
  else ctx -- invalid timestamp, ignore

/-- The branch of `DoAckRouter` for DATA, which is the one for multi route DATA
as well. -/
def doData (ctx : ReliableAppContext) (sync : PSS_SyncRouter Load) :
    Bool × ReliableAppContext × PSS_SyncRouter Load :=
  let info := ctx.writerInfo sync.srcId
  -- not reset: tell the source to stop
  if info.lastRestTime = 0 then (false, ctx, { sync with enType := .shutdown })
  else if sync.seqId = info.expectSeqId + 1 then
    (true, ctx.setWriterInfo sync.srcId { info with expectSeqId := sync.seqId }, sync)
  else if sync.seqId > info.expectSeqId + 1 then (false, ctx.countOutOfOrder sync.srcId, sync)
  else (false, ctx, sync)

/-- `DoAckRouter(pMsg, conn)` at time `now`: whether to hand the message over,
and the message as it is left. -/
def doAckRouter (now : UInt32) (ctx : ReliableAppContext) (sync : PSS_SyncRouter Load) :
    Bool × ReliableAppContext × PSS_SyncRouter Load :=
  let ctx := ctx.setWriterInfo sync.srcId
    { ctx.writerInfo sync.srcId with lastPingTime := now }
  match sync.enType with
  | .reset => (false, ctx.doReset sync, sync)
  | .ping => (false, ctx, sync)
  | .data => ctx.doData sync
  | .dataMultiRoute => ctx.doData sync
  | .shutdown => (false, ctx, sync)
  | .other _ => (false, ctx, sync)

/-- A SYNC, and the time at which it is handled. -/
structure Arrival (Load : Type) where
  now : UInt32
  sync : PSS_SyncRouter Load

/-- What `OnSyncRouter` leaves: the context, the load handed to the handler, if
it was, and the ack. -/
structure Outcome (Load : Type) where
  ctx : ReliableAppContext
  handed : Option Load
  ack : PSS_AckRouter

/-- `OnSyncRouter(pMsg, conn)`. -/
def onSyncRouter (ctx : ReliableAppContext) (arrival : Arrival Load) : Outcome Load :=
  let (deliver, ctx, sync) := ctx.doAckRouter arrival.now arrival.sync
  { ctx := ctx
    handed := if deliver then some sync.load else none
    ack := routeAck sync (ctx.writerInfo sync.srcId).expectSeqId sync.bridgeId }

/-! ## What one message does -/

@[simp] theorem writerInfo_set_same (ctx : ReliableAppContext) (src : UInt32)
    (info : WriterInfo) : (ctx.setWriterInfo src info).writerInfo src = info := by
  simp [writerInfo, setWriterInfo]

@[simp] theorem writerInfo_count (ctx : ReliableAppContext) (src other : UInt32) :
    (ctx.countOutOfOrder src).writerInfo other = ctx.writerInfo other := rfl

/-- Two contexts hold the same for a source. -/
def AgreeOn (src : UInt32) (first second : ReliableAppContext) : Prop :=
  first.mapWriterInfo src = second.mapWriterInfo src ∧
    first.mapSrcSvidCount src = second.mapSrcSvidCount src

namespace AgreeOn

variable {src : UInt32} {first second third : ReliableAppContext}

theorem refl (ctx : ReliableAppContext) : AgreeOn src ctx ctx := ⟨rfl, rfl⟩

theorem symm (hagree : AgreeOn src first second) : AgreeOn src second first :=
  ⟨hagree.1.symm, hagree.2.symm⟩

theorem trans (hfirst : AgreeOn src first second) (hsecond : AgreeOn src second third) :
    AgreeOn src first third :=
  ⟨hfirst.1.trans hsecond.1, hfirst.2.trans hsecond.2⟩

theorem writerInfo (hagree : AgreeOn src first second) :
    first.writerInfo src = second.writerInfo src := by
  rw [ReliableAppContext.writerInfo, hagree.1, ReliableAppContext.writerInfo]

theorem setWriterInfo (hagree : AgreeOn src first second) (info : WriterInfo) :
    AgreeOn src (first.setWriterInfo src info) (second.setWriterInfo src info) :=
  ⟨by simp [ReliableAppContext.setWriterInfo], hagree.2⟩

theorem countOutOfOrder (hagree : AgreeOn src first second) :
    AgreeOn src (first.countOutOfOrder src) (second.countOutOfOrder src) :=
  ⟨hagree.1, by simp [ReliableAppContext.countOutOfOrder, hagree.2]⟩

end AgreeOn

theorem setWriterInfo_agree (ctx : ReliableAppContext) {src other : UInt32} (info : WriterInfo)
    (hother : other ≠ src) : AgreeOn other ctx (ctx.setWriterInfo src info) :=
  ⟨by simp [setWriterInfo, hother], rfl⟩

theorem countOutOfOrder_agree (ctx : ReliableAppContext) {src other : UInt32}
    (hother : other ≠ src) : AgreeOn other ctx (ctx.countOutOfOrder src) :=
  ⟨rfl, by simp [countOutOfOrder, hother]⟩

theorem doReset_agree (ctx : ReliableAppContext) (sync : PSS_SyncRouter Load) {other : UInt32}
    (hother : other ≠ sync.srcId) : AgreeOn other ctx (ctx.doReset sync) := by
  unfold doReset
  dsimp only
  split
  · exact setWriterInfo_agree ctx _ hother
  · exact .refl ctx

theorem doData_agree (ctx : ReliableAppContext) (sync : PSS_SyncRouter Load) {other : UInt32}
    (hother : other ≠ sync.srcId) : AgreeOn other ctx (ctx.doData sync).2.1 := by
  unfold doData
  dsimp only
  split
  · exact .refl ctx
  · split
    · exact setWriterInfo_agree ctx _ hother
    · split
      · exact countOutOfOrder_agree ctx hother
      · exact .refl ctx

/-- A message leaves what is kept for every other source alone. -/
theorem onSyncRouter_other (ctx : ReliableAppContext) (arrival : Arrival Load) {other : UInt32}
    (hother : other ≠ arrival.sync.srcId) :
    AgreeOn other ctx (ctx.onSyncRouter arrival).ctx := by
  have hping := setWriterInfo_agree ctx
    { ctx.writerInfo arrival.sync.srcId with lastPingTime := arrival.now } hother
  simp only [onSyncRouter, doAckRouter]
  cases arrival.sync.enType with
  | reset => exact hping.trans (doReset_agree _ _ hother)
  | ping => exact hping
  | data => exact hping.trans (doData_agree _ _ hother)
  | dataMultiRoute => exact hping.trans (doData_agree _ _ hother)
  | shutdown => exact hping
  | other code => exact hping

theorem doReset_congr {first second : ReliableAppContext} (sync : PSS_SyncRouter Load)
    (hagree : AgreeOn sync.srcId first second) :
    AgreeOn sync.srcId (first.doReset sync) (second.doReset sync) := by
  simp only [doReset, hagree.writerInfo]
  split
  · exact hagree.setWriterInfo _
  · exact hagree

theorem doData_congr {first second : ReliableAppContext} (sync : PSS_SyncRouter Load)
    (hagree : AgreeOn sync.srcId first second) :
    AgreeOn sync.srcId (first.doData sync).2.1 (second.doData sync).2.1 ∧
      (first.doData sync).1 = (second.doData sync).1 ∧
      (first.doData sync).2.2 = (second.doData sync).2.2 := by
  simp only [doData, hagree.writerInfo]
  split
  · exact ⟨hagree, rfl, rfl⟩
  · split
    · exact ⟨hagree.setWriterInfo _, rfl, rfl⟩
    · split
      · exact ⟨hagree.countOutOfOrder, rfl, rfl⟩
      · exact ⟨hagree, rfl, rfl⟩

theorem doAckRouter_congr {first second : ReliableAppContext} (now : UInt32)
    (sync : PSS_SyncRouter Load) (hagree : AgreeOn sync.srcId first second) :
    AgreeOn sync.srcId (first.doAckRouter now sync).2.1 (second.doAckRouter now sync).2.1 ∧
      (first.doAckRouter now sync).1 = (second.doAckRouter now sync).1 ∧
      (first.doAckRouter now sync).2.2 = (second.doAckRouter now sync).2.2 := by
  have hping : AgreeOn sync.srcId
      (first.setWriterInfo sync.srcId { first.writerInfo sync.srcId with lastPingTime := now })
      (second.setWriterInfo sync.srcId
        { second.writerInfo sync.srcId with lastPingTime := now }) := by
    rw [hagree.writerInfo]
    exact hagree.setWriterInfo _
  simp only [doAckRouter]
  cases sync.enType with
  | reset => exact ⟨doReset_congr sync hping, rfl, rfl⟩
  | ping => exact ⟨hping, rfl, rfl⟩
  | data => exact doData_congr sync hping
  | dataMultiRoute => exact doData_congr sync hping
  | shutdown => exact ⟨hping, rfl, rfl⟩
  | other code => exact ⟨hping, rfl, rfl⟩

/-- `DoAckRouter` changes at most the type of the message. -/
theorem doAckRouter_sync (now : UInt32) (ctx : ReliableAppContext) (sync : PSS_SyncRouter Load) :
    (ctx.doAckRouter now sync).2.2 =
      { sync with enType :=
          if sync.enType.isData ∧ (ctx.writerInfo sync.srcId).lastRestTime = 0
          then .shutdown else sync.enType } := by
  have hdata : ∀ ctx : ReliableAppContext, (ctx.doData sync).2.2 =
      { sync with enType :=
          if (ctx.writerInfo sync.srcId).lastRestTime = 0 then .shutdown else sync.enType } := by
    intro ctx
    simp only [doData]
    split
    · rfl
    · split
      · rfl
      · split <;> rfl
  simp only [doAckRouter]
  cases htype : sync.enType with
  | reset => simp [ReliableType.isData, ← htype]
  | ping => simp [ReliableType.isData, ← htype]
  | data => simp [ReliableType.isData, hdata, htype]
  | dataMultiRoute => simp [ReliableType.isData, hdata, htype]
  | shutdown => simp [ReliableType.isData, ← htype]
  | other code => simp [ReliableType.isData, ← htype]

/-- The ack tells the id that is expected once the message is dealt with. -/
theorem onSyncRouter_expectId (ctx : ReliableAppContext) (arrival : Arrival Load) :
    (ctx.onSyncRouter arrival).ack.expectId =
      ((ctx.onSyncRouter arrival).ctx.writerInfo arrival.sync.srcId).expectSeqId := by
  have hsrc : (ctx.doAckRouter arrival.now arrival.sync).2.2.srcId = arrival.sync.srcId := by
    rw [doAckRouter_sync]
  simp only [onSyncRouter, routeAck, hsrc]

/-- What a message does depends on what is kept for its own source only. -/
theorem onSyncRouter_congr {first second : ReliableAppContext} (arrival : Arrival Load)
    (hagree : AgreeOn arrival.sync.srcId first second) :
    AgreeOn arrival.sync.srcId (first.onSyncRouter arrival).ctx
        (second.onSyncRouter arrival).ctx ∧
      (first.onSyncRouter arrival).handed = (second.onSyncRouter arrival).handed ∧
      (first.onSyncRouter arrival).ack = (second.onSyncRouter arrival).ack := by
  obtain ⟨hctx, hdeliver, hsync⟩ := doAckRouter_congr arrival.now arrival.sync hagree
  have hsrc : (second.doAckRouter arrival.now arrival.sync).2.2.srcId = arrival.sync.srcId := by
    rw [doAckRouter_sync]
  refine ⟨hctx, ?_, ?_⟩
  · simp only [onSyncRouter, hdeliver, hsync]
  · simp only [onSyncRouter, hsync, hsrc, hctx.writerInfo]

/-- DATA continues the window of its source, or leaves it. -/
theorem doData_cases (ctx : ReliableAppContext) (sync : PSS_SyncRouter Load) :
    let info := ctx.writerInfo sync.srcId
    let continues := info.lastRestTime ≠ 0 ∧ sync.seqId = info.expectSeqId + 1
    (continues ∧ (ctx.doData sync).1 = true ∧
      (ctx.doData sync).2.1.writerInfo sync.srcId = { info with expectSeqId := sync.seqId }) ∨
    (¬ continues ∧ (ctx.doData sync).1 = false ∧
      (ctx.doData sync).2.1.writerInfo sync.srcId = info) := by
  intro info continues
  unfold doData
  dsimp only
  split
  next hclosed => exact Or.inr ⟨fun hnext => hnext.1 hclosed, rfl, rfl⟩
  next hopen =>
    split
    next hnext => exact Or.inl ⟨⟨hopen, hnext⟩, rfl, writerInfo_set_same ..⟩
    next hnext =>
      split
      · exact Or.inr ⟨fun hcontinues => hnext hcontinues.2, rfl, writerInfo_count ..⟩
      · exact Or.inr ⟨fun hcontinues => hnext hcontinues.2, rfl, rfl⟩

theorem doReset_cases (ctx : ReliableAppContext) (sync : PSS_SyncRouter Load) :
    let info := ctx.writerInfo sync.srcId
    let opens := sync.sendTime ≠ 0 ∧ info.lastRestTime < sync.sendTime
    (opens ∧ (ctx.doReset sync).writerInfo sync.srcId =
      { info with expectSeqId := sync.seqId, lastRestTime := sync.sendTime }) ∨
    (¬ opens ∧ (ctx.doReset sync).writerInfo sync.srcId = info) := by
  intro info opens
  unfold doReset
  dsimp only
  split
  next hopens => exact Or.inl ⟨hopens, writerInfo_set_same ..⟩
  next hopens => exact Or.inr ⟨hopens, rfl⟩

/-- The RESET opens a new window for its source: its time counts, and is later
than that of the window there is. -/
def Opens (ctx : ReliableAppContext) (sync : PSS_SyncRouter Load) : Prop :=
  sync.enType = .reset ∧ sync.sendTime ≠ 0 ∧
    (ctx.writerInfo sync.srcId).lastRestTime < sync.sendTime

/-- The DATA continues the window of its source. -/
def Continues (ctx : ReliableAppContext) (sync : PSS_SyncRouter Load) : Prop :=
  sync.enType.isData = true ∧ (ctx.writerInfo sync.srcId).lastRestTime ≠ 0 ∧
    sync.seqId = (ctx.writerInfo sync.srcId).expectSeqId + 1

/-- A message opens a new window for its source, continues the window and is
handed over, or does neither. -/
theorem onSyncRouter_cases (ctx : ReliableAppContext) (arrival : Arrival Load) :
    let sync := arrival.sync
    let info := { ctx.writerInfo sync.srcId with lastPingTime := arrival.now }
    let after := ctx.onSyncRouter arrival
    (Opens ctx sync ∧ after.handed = none ∧ after.ctx.writerInfo sync.srcId =
      { info with expectSeqId := sync.seqId, lastRestTime := sync.sendTime }) ∨
    (Continues ctx sync ∧ after.handed = some sync.load ∧ after.ctx.writerInfo sync.srcId =
      { info with expectSeqId := sync.seqId }) ∨
    (¬ Opens ctx sync ∧ ¬ Continues ctx sync ∧ after.handed = none ∧
      after.ctx.writerInfo sync.srcId = info) := by
  obtain ⟨now, sync⟩ := arrival
  dsimp only
  have hload : (ctx.doAckRouter now sync).2.2.load = sync.load := by rw [doAckRouter_sync]
  -- the context in which the branches run
  obtain ⟨pinged, hpinged⟩ : ∃ pinged, pinged =
    ctx.setWriterInfo sync.srcId { ctx.writerInfo sync.srcId with lastPingTime := now } := ⟨_, rfl⟩
  have hinfo : pinged.writerInfo sync.srcId =
      { ctx.writerInfo sync.srcId with lastPingTime := now } := by
    rw [hpinged, writerInfo_set_same]
  have hdata : sync.enType.isData = true →
      ctx.doAckRouter now sync = pinged.doData sync := by
    intro hdata
    rw [hpinged]
    unfold doAckRouter
    cases htype : sync.enType <;> simp [ReliableType.isData, htype] at hdata ⊢
  have hnothing : sync.enType.isData = false → sync.enType ≠ .reset →
      ctx.doAckRouter now sync = (false, pinged, sync) := by
    intro hdata hreset
    rw [hpinged]
    unfold doAckRouter
    cases htype : sync.enType <;> simp [ReliableType.isData, htype] at hdata hreset ⊢
  simp only [onSyncRouter, hload, Opens, Continues]
  by_cases hreset : sync.enType = .reset
  · have hrun : ctx.doAckRouter now sync = (false, pinged.doReset sync, sync) := by
      rw [hpinged]
      unfold doAckRouter
      rw [hreset]
    rw [hrun]
    have hcases := doReset_cases pinged sync
    rw [hinfo] at hcases
    obtain ⟨hopens, hafter⟩ | ⟨hopens, hafter⟩ := hcases
    · exact Or.inl ⟨⟨hreset, hopens⟩, rfl, hafter⟩
    · refine Or.inr (Or.inr ⟨fun hall => hopens hall.2, ?_, rfl, hafter⟩)
      simp [hreset, ReliableType.isData]
  · by_cases htype : sync.enType.isData = true
    · rw [hdata htype]
      have hcases := doData_cases pinged sync
      rw [hinfo] at hcases
      obtain ⟨hcontinues, hhanded, hafter⟩ | ⟨hcontinues, hhanded, hafter⟩ := hcases
      · exact Or.inr (Or.inl ⟨⟨htype, hcontinues⟩, by rw [hhanded]; rfl, hafter⟩)
      · exact Or.inr (Or.inr ⟨fun hall => hreset hall.1, fun hall => hcontinues hall.2,
          by rw [hhanded]; rfl, hafter⟩)
    · rw [hnothing (by simpa using htype) hreset]
      exact Or.inr (Or.inr ⟨fun hall => hreset hall.1, fun hall => htype hall.1, rfl, hinfo⟩)

end ReliableAppContext

end ServiceFrame
