import Mathlib.Data.String.Basic
import ServiceFrame.Foundation.OrderedMap
import ServiceFrame.Foundation.Run
import ServiceFrame.ServerLib.ConsistentHash
import ServiceFrame.ServerLib.DaemonClient

/-! # The selection of servers

`CServerSelectorImp` of `server-lib` follows the servers of a daemon client, for the
suffixes that are registered, and answers queries for one of them by consistent
hashing. The circle of each kind of query is kept in a cache under a text key, and the
handlers of the client's events drop the circles of the suffix they change. Left out:
the random selections, which use no cache, and the calls of the watchers.
-/

namespace ServiceFrame

open Foundation

inductive EHashServerValueType where
  | serverId
  | serverIp
  | serverIpId
deriving DecidableEq

structure SHashInfo where
  emValueType : EHashServerValueType
  emFuncType : EHashFuntcionType

structure SServerInfo where
  strSuffix : String
  uServerId : Nat
  uGroupId : Nat
  dIp : Nat
  wIp : Nat
deriving DecidableEq

namespace SServerInfo

def NET_TYPE_ANY : UInt32 := 0

def NET_TYPE_CTL : UInt32 := 1

def NET_TYPE_CNC : UInt32 := 2

def NET_TYPE_NONE : UInt32 := 0xFFFFFFFF

def ofSV (fs : FavorStrSV) : SServerInfo := ⟨fs.sstr, fs.serverId, fs.groupId, fs.dip, fs.wip⟩

def testNetType (info : SServerInfo) : UInt32 :=
  if info.dIp ≠ 0 ∧ info.wIp = 0 then NET_TYPE_CTL
  else if info.dIp = 0 ∧ info.wIp ≠ 0 then NET_TYPE_CNC
  else if info.dIp ≠ 0 ∧ info.wIp ≠ 0 then NET_TYPE_CTL ||| NET_TYPE_CNC
  else NET_TYPE_NONE

def testSrvIp (info : SServerInfo) : UInt32 :=
  if info.dIp ≠ 0 then info.dIp.toUInt32
  else if info.wIp ≠ 0 then info.wIp.toUInt32
  else 0xFFFFFFFF

def hasIp (info : SServerInfo) (uIp : UInt32) : Bool :=
  info.dIp.toUInt32 = uIp || info.wIp.toUInt32 = uIp

end SServerInfo

/-- The points of a circle, with the servers or the addresses they are of. -/
abbrev Circle := OrderedMap Nat UInt32

/-- `std::set<uint32_t>`. -/
abbrev UIntSet := OrderedMap Nat Unit

def UIntSet.values (set : UIntSet) : List Nat := set.entries.map Prod.fst

structure CServerSelectorImp where
  mapServerInfo : OrderedMap String (OrderedMap Nat SServerInfo)
  mapSuffix : OrderedMap String SHashInfo
  hashContainer : OrderedMap Nat Circle
  hashIpContainer : OrderedMap Nat Circle
  mapCircleCache : OrderedMap String Circle
  mapIpServerIds : OrderedMap Nat UIntSet

namespace CServerSelectorImp

/-- With the suffixes that `RegisterServerSuffix` registered. -/
def new (mapSuffix : OrderedMap String SHashInfo) : CServerSelectorImp :=
  ⟨.empty, mapSuffix, .empty, .empty, .empty, .empty⟩

variable (md5 : List UInt8 → UInt32) (s : CServerSelectorImp)

/-! ## Circles -/

/-- `CHashNode`: the circle of one server. -/
def hashNode (uServerValue : UInt32) (emFuncType : EHashFuntcionType) : Circle :=
  ((ConsistentHash.onCircle md5 emFuncType .empty).addServer uServerValue).serverCircle

def exportCircle (node bigCircle : Circle) : Circle :=
  node.entries.foldl (fun circle point => circle.insert point.1 point.2) bigCircle

def getServerCircle (container : OrderedMap Nat Circle) (setServerId : List Nat) : Circle :=
  setServerId.foldl (fun circle id =>
    match container.find id with
    | some node => exportCircle node circle
    | none => circle) .empty

def getValueByKey (circle : Circle) (emFuncType : EHashFuntcionType) (uKey : UInt32) : UInt32 :=
  (ConsistentHash.onCircle md5 emFuncType circle).getServer uKey

def toKeyString (strSuffix : String) (uNetType uGroupId : UInt32) : String :=
  strSuffix ++ ":" ++ toString uNetType.toNat ++ ":" ++ toString uGroupId.toNat

def getSuffixFromKey (strKey : String) : String :=
  String.ofList (strKey.toList.takeWhile (· ≠ ':'))

def freshHashCache (strSuffix : String) : CServerSelectorImp :=
  { s with
    mapCircleCache := s.mapCircleCache.eraseIf fun strKey => getSuffixFromKey strKey = strSuffix }

/-! ## The events of the client -/

def getServersInfo (strSuffix : String) : OrderedMap Nat SServerInfo :=
  (s.mapServerInfo.find strSuffix).getD .empty

/-- What a suffix makes of a server on the circle. -/
def serverValue (info : SHashInfo) (server : SServerInfo) : UInt32 :=
  match info.emValueType with
  | .serverIp => server.testSrvIp
  | _ => server.uServerId.toUInt32

/-- The circle of the addresses, and the servers of each. -/
def addIp (info : SHashInfo) (fs : FavorStrSV) : CServerSelectorImp :=
  match info.emValueType with
  | .serverIpId =>
      let theSrvIp := (SServerInfo.ofSV fs).testSrvIp
      let serverIds := (s.mapIpServerIds.find theSrvIp.toNat).getD .empty
      { s with
        hashIpContainer :=
          s.hashIpContainer.insert theSrvIp.toNat (hashNode md5 theSrvIp info.emFuncType)
        mapIpServerIds :=
          s.mapIpServerIds.set theSrvIp.toNat (serverIds.set fs.serverId ()) }
  | _ => s

def onAddSV (fs : FavorStrSV) : CServerSelectorImp :=
  if fs.serverStatus = .RUNNING then
    match s.mapSuffix.find fs.sstr with
    | none => s
    | some info =>
        let mapSuffixInfo := s.getServersInfo fs.sstr
        let s := { s with
          mapServerInfo := s.mapServerInfo.set fs.sstr
            (mapSuffixInfo.insert fs.serverId (SServerInfo.ofSV fs)) }
        if (mapSuffixInfo.find fs.serverId).isSome then s
        else
          let s := { s with
            hashContainer := s.hashContainer.insert fs.serverId
              (hashNode md5 (serverValue info (SServerInfo.ofSV fs)) info.emFuncType) }
          (s.addIp md5 info fs).freshHashCache fs.sstr
  else s

/-- The address goes with its last server. -/
def removeIp (fs : FavorStrSV) : CServerSelectorImp :=
  let theSrvIp := (SServerInfo.ofSV fs).testSrvIp
  let serverIds := ((s.mapIpServerIds.find theSrvIp.toNat).getD .empty).erase fs.serverId
  if serverIds.isEmpty then
    { s with
      hashIpContainer := s.hashIpContainer.erase theSrvIp.toNat
      mapIpServerIds := s.mapIpServerIds.erase theSrvIp.toNat }
  else { s with mapIpServerIds := s.mapIpServerIds.set theSrvIp.toNat serverIds }

def onServerRemovedSV (fs : FavorStrSV) : CServerSelectorImp :=
  match s.mapSuffix.find fs.sstr with
  | none => s
  | some _ =>
      let s := { s with
        mapServerInfo :=
          s.mapServerInfo.set fs.sstr ((s.getServersInfo fs.sstr).erase fs.serverId)
        hashContainer := s.hashContainer.erase fs.serverId }
      (s.removeIp fs).freshHashCache fs.sstr

/-- `vecServers` is what `getServersSV` of the client answers. -/
def onRefreshSV (vecServers : List FavorStrSV) : CServerSelectorImp :=
  vecServers.foldl (onAddSV md5) { s with mapServerInfo := .empty, hashContainer := .empty }

def onRecoverRefreshSV (vecServers : List FavorStrSV) : CServerSelectorImp :=
  s.onRefreshSV md5 vecServers

def onServerStatusChangeSV (fs : FavorStrSV) : CServerSelectorImp := s.onAddSV md5 fs

/-! ## Hashing -/

/-- The ids of the servers with a property, in order. -/
def serverIdsWhere (strSuffix : String) (keep : SServerInfo → Bool) : List Nat :=
  ((s.getServersInfo strSuffix).entries.filter fun entry => keep entry.2).map Prod.fst

def getServerIds (strSuffix : String) : List Nat := s.serverIdsWhere strSuffix fun _ => true

def getServerIdsByGroup (strSuffix : String) (uGroupId : UInt32) : List Nat :=
  s.serverIdsWhere strSuffix fun info => info.uGroupId.toUInt32 = uGroupId

def getServerIdsByNet (strSuffix : String) (uNetType : UInt32) : List Nat :=
  s.serverIdsWhere strSuffix fun info =>
    uNetType = SServerInfo.NET_TYPE_ANY || info.testNetType = uNetType

def getServerIdsByNetGroup (strSuffix : String) (uNetType uGroupId : UInt32) : List Nat :=
  s.serverIdsWhere strSuffix fun info =>
    info.uGroupId.toUInt32 = uGroupId &&
      (uNetType = SServerInfo.NET_TYPE_ANY || info.testNetType = uNetType)

def getServerIdsByIp (strSuffix : String) (uIp : UInt32) : List Nat :=
  s.serverIdsWhere strSuffix fun info => info.hasIp uIp

def getServerIps (strSuffix : String) : UIntSet :=
  (s.getServersInfo strSuffix).entries.foldl (fun setServerIp entry =>
    setServerIp.set (if entry.2.dIp ≠ 0 then entry.2.dIp else entry.2.wIp) ()) .empty

def serverIpToId (strSuffix : String) (uServerIp : UInt32) : UInt32 :=
  match s.serverIdsWhere strSuffix fun info => info.hasIp uServerIp with
  | uServerId :: _ => uServerId.toUInt32
  | [] => ConsistentHash.noServer

/-- The circle for a key, out of the cache or made anew and put there. -/
def circleFromContainer (container : OrderedMap Nat Circle) (strKey : String)
    (setServerId : List Nat) : CServerSelectorImp × Circle :=
  match s.mapCircleCache.find strKey with
  | some circle => (s, circle)
  | none =>
      let circle := getServerCircle container setServerId
      ({ s with mapCircleCache := s.mapCircleCache.insert strKey circle }, circle)

/-- What the queries have in common; `convert` says if an address is turned into an id. -/
def hashServerIn (convert : Bool) (uKey : UInt32) (strSuffix : String)
    (uNetType uGroupId : UInt32) (setServerId : List Nat) : CServerSelectorImp × UInt32 :=
  match s.mapSuffix.find strSuffix with
  | none => (s, ConsistentHash.noServer)
  | some info =>
      let strKey := toKeyString strSuffix uNetType uGroupId
      let answer (circle : Circle) : UInt32 :=
        let uServerValue := getValueByKey md5 circle info.emFuncType uKey
        if convert ∧ info.emValueType = .serverIp then s.serverIpToId strSuffix uServerValue
        else uServerValue
      match s.mapCircleCache.find strKey with
      | some circle => (s, answer circle)
      | none =>
          match setServerId with
          | [] => (s, ConsistentHash.noServer)
          | [id] => (s, id.toUInt32)
          | _ =>
              let (next, circle) := s.circleFromContainer s.hashContainer strKey setServerId
              (next, answer circle)

def hashServer (uKey : UInt32) (strSuffix : String) : CServerSelectorImp × UInt32 :=
  s.hashServerIn md5 true uKey strSuffix 0xFFFFFFFF 0xFFFFFFFF (s.getServerIds strSuffix)

def hashServerByNet (uKey : UInt32) (strSuffix : String) (uNetType : UInt32) :
    CServerSelectorImp × UInt32 :=
  s.hashServerIn md5 true uKey strSuffix uNetType 0xFFFFFFFF
    (s.getServerIdsByNet strSuffix uNetType)

def hashServerByGroup (uKey : UInt32) (strSuffix : String) (uGroupId : UInt32) :
    CServerSelectorImp × UInt32 :=
  s.hashServerIn md5 true uKey strSuffix 0xFFFFFFFF uGroupId
    (s.getServerIdsByGroup strSuffix uGroupId)

def hashServerByNetGroup (uKey : UInt32) (strSuffix : String) (uNetType uGroupId : UInt32) :
    CServerSelectorImp × UInt32 :=
  s.hashServerIn md5 true uKey strSuffix uNetType uGroupId
    (s.getServerIdsByNetGroup strSuffix uNetType uGroupId)

/-- The address takes the place of the net type, and none is turned into an id. -/
def hashServerByIp (uKey : UInt32) (strSuffix : String) (uIp : UInt32) :
    CServerSelectorImp × UInt32 :=
  s.hashServerIn md5 false uKey strSuffix uIp 0xFFFFFFFF (s.getServerIdsByIp strSuffix uIp)

/-! ## Several servers -/

/-- The loop of `GetMultiValueByKey` from the place `it` on. There is no result when it
goes round without end, or on from the end of the circle. -/
def moreValues (entries : List (Nat × UInt32)) (uGetCount : Nat) :
    Nat → Nat → UIntSet → Option UIntSet
  | 0, _, _ => none
  | fuel + 1, it, setValues =>
      if setValues.entries.length < uGetCount then
        if it < entries.length then do
          let it := if it + 1 = entries.length then 0 else it + 1
          let point ← entries[it]?
          moreValues entries uGetCount fuel it (setValues.set point.2.toNat ())
        else none
      else some setValues

/-- The values, unless the circle is empty. -/
def getMultiValueByKey (circle : Circle) (emFuncType : EHashFuntcionType)
    (uKey uValueCount : UInt32) : Option (Option UIntSet) :=
  match circle.entries with
  | [] => some none
  | first :: rest => do
      let entries := first :: rest
      let size := entries.length.toUInt32
      let uGetCount := if size < uValueCount * 200 then size / 200 else uValueCount
      let it := circle.lowerIndex ((CircleHash.ofType md5 emFuncType).key uKey).toNat
      let setValues : UIntSet := OrderedMap.empty.set ((entries[it]?.getD first).2.toNat) ()
      let setValues ← moreValues entries uGetCount.toNat (entries.length + 1) it setValues
      some (some setValues)

/-- A server for an address, by a circle of its own. -/
def serverOfIp (uKey : UInt32) (strSuffix : String) (emFuncType : EHashFuntcionType) :
    CServerSelectorImp × List UInt32 → Nat → CServerSelectorImp × List UInt32
  | (s, vecValues), ip =>
      match s.mapIpServerIds.find ip with
      | none => (s, vecValues)
      | some serverIds =>
          let strKey :=
            toKeyString (strSuffix ++ ":" ++ toString ip) 0xFFFFFFFF 0xFFFFFFFF
          let (s, circle) := s.circleFromContainer s.hashContainer strKey serverIds.values
          let uServerId := getValueByKey md5 circle emFuncType uKey
          if uServerId ≠ ConsistentHash.noServer then (s, vecValues ++ [uServerId])
          else (s, vecValues)

def serversOfIps (uKey : UInt32) (strSuffix : String) (emFuncType : EHashFuntcionType)
    (setValues : List Nat) : CServerSelectorImp × List UInt32 :=
  setValues.foldl (serverOfIp md5 uKey strSuffix emFuncType) (s, [])

/-- The last part of `HashMultiServer`. Its second test is one of a constant, so that the
values of a suffix without addresses are looked up as addresses too. -/
def multiServers (uKey : UInt32) (strSuffix : String) (info : SHashInfo) (setValues : UIntSet) :
    CServerSelectorImp × Bool × List UInt32 :=
  if info.emValueType = .serverIp then
    (s, true, setValues.values.map fun ip => s.serverIpToId strSuffix ip.toUInt32)
  else
    let (s, vecValues) := s.serversOfIps md5 uKey strSuffix info.emFuncType setValues.values
    (s, !vecValues.isEmpty, vecValues)

/-- The values by a circle, and the servers for them. -/
def multiFromCircle (uKey uValueCount : UInt32) (strSuffix : String) (info : SHashInfo)
    (circle : Circle) : Option (CServerSelectorImp × Bool × List UInt32) := do
  match ← getMultiValueByKey md5 circle info.emFuncType uKey uValueCount with
  | none => some (s, false, [])
  | some setValues => some (s.multiServers md5 uKey strSuffix info setValues)

def hashMultiServer (uKey uValueCount : UInt32) (strSuffix : String) :
    Option (CServerSelectorImp × Bool × List UInt32) :=
  match s.mapSuffix.find strSuffix with
  | none => some (s, true, [])
  | some info =>
      let strKey := toKeyString strSuffix 0xFFFFFFFF 0xFFFFFFFF
      match s.mapCircleCache.find strKey with
      | some circle => s.multiFromCircle md5 uKey uValueCount strSuffix info circle
      | none =>
          if info.emValueType = .serverIpId then
            let setServerId := s.getServerIps strSuffix
            if setServerId.isEmpty then some (s, false, [])
            else if setServerId.entries.length ≤ uValueCount.toNat then
              some (s.multiServers md5 uKey strSuffix info setServerId)
            else
              let (s, circle) :=
                s.circleFromContainer s.hashIpContainer strKey setServerId.values
              s.multiFromCircle md5 uKey uValueCount strSuffix info circle
          else
            match s.getServerIds strSuffix with
            | [] => some (s, false, [])
            | [id] => some (s, id.toUInt32 ≠ 0, [])
            | setServerId =>
                let (s, circle) := s.circleFromContainer s.hashContainer strKey setServerId
                s.multiFromCircle md5 uKey uValueCount strSuffix info circle

end CServerSelectorImp

end ServiceFrame
