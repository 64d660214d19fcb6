import ServiceFrame.Common.Marshal
import ServiceFrame.Reliable.Messages

/-! # The three layouts of a SYNC

`RouterBase` of `core/corelib` and `PSS_SyncRouter` of `server_common/protocol/prouter.h`,
on the wire. The send time and the bridge id were added to the message one after the other;
a reader finds out by the bytes that are left whether they are there.
-/

namespace ServiceFrame

open Foundation

/-- `RouterBase`: the load is the packet of the message that is routed. -/
structure RouterBase where
  ttl : UInt8
  fromName : List UInt8
  ruri : UInt32
  resCode : UInt16
  load : List UInt8
deriving DecidableEq

namespace RouterBase

/-- The fields in the order in which `marshal` and `unmarshal` send them. -/
def view : RouterBase ≃ UInt8 × List UInt8 × UInt32 × UInt16 × List UInt8 where
  toFun base := (base.ttl, base.fromName, base.ruri, base.resCode, base.load)
  invFun fields := ⟨fields.1, fields.2.1, fields.2.2.1, fields.2.2.2.1, fields.2.2.2.2⟩
  left_inv _ := rfl
  right_inv _ := rfl

def marshal : Marshal RouterBase :=
  .record view (.pair .uint8 (.pair .varstr (.pair .uint32 (.pair .uint16 .varstr32))))

end RouterBase

namespace ReliableType

/-- The byte that is sent for a type. -/
def code : ReliableType → UInt8
  | data => 1
  | reset => 2
  | ping => 3
  | dataMultiRoute => 4
  | shutdown => 5
  | other code => code

/-- The type that a byte is cast to. -/
def ofCode (code : UInt8) : ReliableType :=
  if code = 1 then data
  else if code = 2 then reset
  else if code = 3 then ping
  else if code = 4 then dataMultiRoute
  else if code = 5 then shutdown
  else other code

@[simp] theorem code_ofCode (byte : UInt8) : (ofCode byte).code = byte := by
  unfold ofCode
  split_ifs with hdata hreset hping hmulti hshutdown
  · exact hdata.symm
  · exact hreset.symm
  · exact hping.symm
  · exact hmulti.symm
  · exact hshutdown.symm
  · rfl

end ReliableType

namespace PSS_SyncRouter

/-- A message as its constructors leave it; they set the type, the send time and the bridge id. -/
def new (enType : ReliableType) (base : RouterBase) (srcId dstId seqId : UInt32) :
    PSS_SyncRouter RouterBase where
  enType := enType
  srcId := srcId
  dstId := dstId
  seqId := seqId
  sendTime := 0
  bridgeId := 0
  load := base

/-- The fields that every layout has. -/
def throughSeqId : Marshal (RouterBase × UInt8 × UInt32 × UInt32 × UInt32) :=
  .pair RouterBase.marshal (.pair .uint8 (.pair .uint32 (.pair .uint32 .uint32)))

def common (sync : PSS_SyncRouter RouterBase) : RouterBase × UInt8 × UInt32 × UInt32 × UInt32 :=
  (sync.load, sync.enType.code, sync.srcId, sync.dstId, sync.seqId)

/-- The oldest senders stop after the sequence id. -/
def marshalSeqId (sync : PSS_SyncRouter RouterBase) (p : Pack) : Except PackError Pack :=
  throughSeqId.put sync.common p

/-- Later ones after the send time. -/
def marshalSendTime (sync : PSS_SyncRouter RouterBase) (p : Pack) : Except PackError Pack :=
  (sync.marshalSeqId p).bind fun q => q.pushUint64 sync.sendTime

/-- `marshal(p)`. -/
def marshal (sync : PSS_SyncRouter RouterBase) (p : Pack) : Except PackError Pack :=
  (sync.marshalSendTime p).bind fun q => q.pushUint32 sync.bridgeId

/-- `unmarshal(p)`. -/
def unmarshal (target : PSS_SyncRouter RouterBase) (up : Unpack) :
    Except UnpackError (PSS_SyncRouter RouterBase × Unpack) :=
  (throughSeqId.pop target.common up).bind fun ((base, enType, srcId, dstId, seqId), up) =>
    let sync := { target with
      load := base
      enType := .ofCode enType
      srcId := srcId
      dstId := dstId
      seqId := seqId }
    if up.length ≥ 8 then
      up.popUint64.bind fun (sendTime, up) =>
        let sync := { sync with sendTime := sendTime }
        if up.length ≥ 4 then
          up.popUint32.bind fun (bridgeId, up) => .ok ({ sync with bridgeId := bridgeId }, up)
        else .ok (sync, up)
    else .ok (sync, up)

/-- All fields are the same; the byte of a type says which it is. -/
structure Same (sync other : PSS_SyncRouter RouterBase) : Prop where
  base : sync.load = other.load
  enType : sync.enType.code = other.enType.code
  srcId : sync.srcId = other.srcId
  dstId : sync.dstId = other.dstId
  seqId : sync.seqId = other.seqId
  sendTime : sync.sendTime = other.sendTime
  bridgeId : sync.bridgeId = other.bridgeId

variable {sync : PSS_SyncRouter RouterBase} {p q : Pack}

/-- The message that comes out, with the fields at the end as the layout has them. -/
def received (sync : PSS_SyncRouter RouterBase) (sendTime : UInt64) (bridgeId : UInt32) :
    PSS_SyncRouter RouterBase :=
  { sync with
    enType := .ofCode sync.enType.code
    sendTime := sendTime
    bridgeId := bridgeId }

theorem received_same (sync : PSS_SyncRouter RouterBase) (sendTime : UInt64) (bridgeId : UInt32) :
    (sync.received sendTime bridgeId).Same
      { sync with sendTime := sendTime, bridgeId := bridgeId } :=
  ⟨rfl, ReliableType.code_ofCode _, rfl, rfl, rfl, rfl, rfl⟩

/-- The common fields are there in every layout; the tests are about what is behind them. -/
theorem common_roundTrip (target : PSS_SyncRouter RouterBase)
    (hput : sync.marshalSeqId p = .ok q) :
    Marshal.RoundTrip (throughSeqId.pop target.common) sync.common p q :=
  throughSeqId.put_roundTrip
    ⟨⟨trivial, trivial, trivial, trivial, trivial⟩, trivial, trivial, trivial, trivial⟩ hput

theorem unmarshal_seqId (target : PSS_SyncRouter RouterBase) (hput : sync.marshalSeqId p = .ok q) :
    ∃ found, unmarshal target (q.data.drop p.size) = .ok (found, []) ∧
      found.Same { sync with sendTime := target.sendTime, bridgeId := target.bridgeId } := by
  obtain ⟨bytes, -, hwrote, hpop⟩ := common_roundTrip target hput
  have hpop := hpop []
  rw [List.append_nil] at hpop
  refine ⟨sync.received target.sendTime target.bridgeId, ?_, received_same _ _ _⟩
  rw [hwrote.drop, unmarshal, hpop]
  rfl

theorem unmarshal_sendTime (target : PSS_SyncRouter RouterBase)
    (hput : sync.marshalSendTime p = .ok q) :
    ∃ found, unmarshal target (q.data.drop p.size) = .ok (found, []) ∧
      found.Same { sync with bridgeId := target.bridgeId } := by
  obtain ⟨middle, hcommon, hsend⟩ := Pack.bind_ok hput
  obtain ⟨bytes, -, hwrote, hpop⟩ := common_roundTrip target hcommon
  have hpop := hpop (leBytes 8 sync.sendTime.toNat)
  have hsendTime := Unpack.popUint64_leBytes sync.sendTime.toNat_lt []
  rw [List.append_nil, UInt64.ofNat_toNat] at hsendTime
  refine ⟨sync.received sync.sendTime target.bridgeId, ?_, received_same _ _ _⟩
  rw [(hwrote.trans (Pack.push_ok hsend)).drop, Pack.xhton, unmarshal, hpop]
  simp only [Except.bind]
  rw [if_pos (by rw [length_leBytes]), hsendTime]
  rfl

theorem unmarshal_marshal (target : PSS_SyncRouter RouterBase) (hput : sync.marshal p = .ok q) :
    ∃ found, unmarshal target (q.data.drop p.size) = .ok (found, []) ∧ found.Same sync := by
  obtain ⟨middle, hearlier, hbridge⟩ := Pack.bind_ok hput
  obtain ⟨first, hcommon, hsend⟩ := Pack.bind_ok hearlier
  obtain ⟨bytes, -, hwrote, hpop⟩ := common_roundTrip target hcommon
  have hpop := hpop (leBytes 8 sync.sendTime.toNat ++ leBytes 4 sync.bridgeId.toNat)
  have hsendTime := Unpack.popUint64_leBytes sync.sendTime.toNat_lt (leBytes 4 sync.bridgeId.toNat)
  have hbridgeId := Unpack.popUint32_leBytes sync.bridgeId.toNat_lt []
  rw [UInt64.ofNat_toNat] at hsendTime
  rw [List.append_nil, UInt32.ofNat_toNat] at hbridgeId
  have hwritten := (hwrote.trans (Pack.push_ok hsend)).trans (Pack.push_ok hbridge)
  rw [Pack.xhton, Pack.xhton, List.append_assoc] at hwritten
  refine ⟨sync.received sync.sendTime sync.bridgeId, ?_, received_same _ _ _⟩
  rw [hwritten.drop, unmarshal, hpop]
  simp only [Except.bind]
  rw [if_pos (by simp), hsendTime]
  simp only []
  rw [if_pos (by simp), hbridgeId]
  rfl

/-- Into a message that is new, each of the three layouts is read for what it is, to its end. -/
theorem layouts_decoded (sync : PSS_SyncRouter RouterBase) (enType : ReliableType)
    (base : RouterBase) (srcId dstId seqId : UInt32) (p q : Pack) :
    (sync.marshal p = .ok q → ∃ found,
      unmarshal (new enType base srcId dstId seqId) (q.data.drop p.size) = .ok (found, []) ∧
        found.Same sync) ∧
    (sync.marshalSendTime p = .ok q → ∃ found,
      unmarshal (new enType base srcId dstId seqId) (q.data.drop p.size) = .ok (found, []) ∧
        found.Same { sync with bridgeId := 0 }) ∧
    (sync.marshalSeqId p = .ok q → ∃ found,
      unmarshal (new enType base srcId dstId seqId) (q.data.drop p.size) = .ok (found, []) ∧
        found.Same { sync with sendTime := 0, bridgeId := 0 }) :=
  ⟨unmarshal_marshal _, unmarshal_sendTime _, unmarshal_seqId _⟩

/-- A message with a load of two bytes, from a sender that knows of the send time only. -/
theorem layouts_decoded_sendTime :
    ∃ p q found, Pack.new (.init fun _ => some fun _ => 0) 0 = .ok p ∧
      (new .data ⟨2, [97], 9, 200, [1, 2]⟩ 3 4 5).marshalSendTime p = .ok q ∧
      unmarshal (new .ping ⟨2, [], 0, 200, []⟩ 0 0 0) (q.data.drop p.size) = .ok (found, []) ∧
      found.Same (new .data ⟨2, [97], 9, 200, [1, 2]⟩ 3 4 5) := by
  obtain ⟨p, q, hnew, hput⟩ : ∃ p q, Pack.new (.init fun _ => some fun _ => 0) 0 = .ok p ∧
      (new .data ⟨2, [97], 9, 200, [1, 2]⟩ 3 4 5).marshalSendTime p = .ok q := ⟨_, _, rfl, rfl⟩
  obtain ⟨found, hfound, hsame⟩ :=
    (layouts_decoded _ .ping ⟨2, [], 0, 200, []⟩ 0 0 0 p q).2.1 hput
  exact ⟨p, q, found, hnew, hput, hfound, hsame⟩

end PSS_SyncRouter

end ServiceFrame
