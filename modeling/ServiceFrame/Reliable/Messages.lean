import Mathlib.Data.List.Basic

/-! # The messages of reliable routing

`server_common/protocol/prouter.h`. What a SYNC carries to its receiver (`ruri`,
`resCode` and the load) is opaque to reliable routing and a type parameter here.
-/

namespace ServiceFrame

/-- `ENUM_RELIABLE_TYPE`; the wire may carry any other byte in its place. -/
inductive ReliableType where
  | data
  | reset
  | ping
  | dataMultiRoute
  | shutdown
  | other (code : UInt8)
deriving DecidableEq

/-- `DATA` and `DATA_MULTI_ROUTE`, which carry a load for the handler. -/
def ReliableType.isData : ReliableType → Bool
  | .data => true
  | .dataMultiRoute => true
  | _ => false

structure PSS_SyncRouter (Load : Type) where
  enType : ReliableType
  srcId : UInt32
  dstId : UInt32
  seqId : UInt32
  sendTime : UInt64
  bridgeId : UInt32
  load : Load
deriving DecidableEq

structure PSS_AckRouter where
  enType : ReliableType
  srcId : UInt32
  dstId : UInt32
  seqId : UInt32
  expectId : UInt32
  bridgeId : UInt32
deriving DecidableEq

/-- `ABRouteWriter::RouteAck`. -/
def routeAck {Load : Type} (sync : PSS_SyncRouter Load) (expectId bridgeId : UInt32) :
    PSS_AckRouter where
  enType := sync.enType
  srcId := sync.dstId
  dstId := sync.srcId
  seqId := sync.seqId
  expectId := expectId
  bridgeId := bridgeId

end ServiceFrame
