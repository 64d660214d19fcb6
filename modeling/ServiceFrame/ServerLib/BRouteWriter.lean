import ServiceFrame.Reliable.SyncCodec
import ServiceFrame.ServerLib.UrlHelper

/-! # Answers to a routed request

`ABRouteWriter` of `server-lib`. While a request is handled the writer knows whom it came
from and, when it came over proxies, the chain of their server ids; a forwarded request
takes the own id along, and an answer goes to the last id of the chain. A message to send
is the bytes that it packs to.
-/

namespace ServiceFrame

open Foundation

/-! ## The routing messages -/

def RES_SUCCESS : UInt16 := 200

def ROUTE_SVID : UInt32 := 11

def IMLINKD_SVID : UInt32 := 23

/-- `RouterBase::packLoad(obj)`: the bytes that `obj` packs to. -/
def packLoad {Message : Type} (marshal : Marshal Message) (obj : Message) : List UInt8 :=
  marshal.packed obj

/-- A router as its constructor and a `packLoad` leave it. -/
def routerBase (fromName : List UInt8) (ruri : UInt32) (resCode : UInt16) (load : List UInt8) :
    RouterBase :=
  { ttl := 2, fromName := fromName, ruri := ruri, resCode := resCode, load := load }

structure PRouter where
  base : RouterBase
  toName : List UInt8
deriving DecidableEq

namespace PRouter

def uri : UInt32 := (1 : UInt32) <<< 8 ||| ROUTE_SVID

def view : PRouter ≃ RouterBase × List UInt8 where
  toFun router := (router.base, router.toName)
  invFun fields := ⟨fields.1, fields.2⟩
  left_inv _ := rfl
  right_inv _ := rfl

def marshal : Marshal PRouter := .record view (.pair RouterBase.marshal .varstr)

end PRouter

structure PServerIdRouter where
  base : RouterBase
  serverId : UInt32
deriving DecidableEq

namespace PServerIdRouter

def uri : UInt32 := (130 : UInt32) <<< 8 ||| ROUTE_SVID

def view : PServerIdRouter ≃ RouterBase × UInt32 where
  toFun router := (router.base, router.serverId)
  invFun fields := ⟨fields.1, fields.2⟩
  left_inv _ := rfl
  right_inv _ := rfl

def marshal : Marshal PServerIdRouter := .record view (.pair RouterBase.marshal .uint32)

end PServerIdRouter

structure CProxyInfo where
  vecProxyId : List UInt32
  vecKey : List UInt32
deriving DecidableEq

namespace CProxyInfo

def view : CProxyInfo ≃ List UInt32 × List UInt32 where
  toFun info := (info.vecProxyId, info.vecKey)
  invFun fields := ⟨fields.1, fields.2⟩
  left_inv _ := rfl
  right_inv _ := rfl

def marshal : Marshal CProxyInfo := .record view (.pair (.vector .uint32) (.vector .uint32))

/-- `m_vecProxyId.push_back(id)`. -/
def push (info : CProxyInfo) (id : UInt32) : CProxyInfo :=
  { info with vecProxyId := info.vecProxyId ++ [id] }

/-- `m_vecProxyId.pop_back()`. -/
def pop (info : CProxyInfo) : CProxyInfo := { info with vecProxyId := info.vecProxyId.dropLast }

end CProxyInfo

structure PProxyRouter where
  base : RouterBase
  serverId : UInt32
  objProxyInfo : CProxyInfo
deriving DecidableEq

namespace PProxyRouter

def uri : UInt32 := (137 : UInt32) <<< 8 ||| ROUTE_SVID

def view : PProxyRouter ≃ RouterBase × UInt32 × CProxyInfo where
  toFun router := (router.base, router.serverId, router.objProxyInfo)
  invFun fields := ⟨fields.1, fields.2.1, fields.2.2⟩
  left_inv _ := rfl
  right_inv _ := rfl

def marshal : Marshal PProxyRouter :=
  .record view (.pair RouterBase.marshal (.pair .uint32 CProxyInfo.marshal))

end PProxyRouter

/-- `PSS_WrapRequest`: a packet, and how it is to be routed. -/
structure PSS_WrapRequest where
  uri : UInt32
  strPacket : List UInt8
  retryCount : UInt8
  routerNumber : UInt8
  taskId : UInt32
deriving DecidableEq

namespace PSS_WrapRequest

/-- The uri of the message itself. -/
def wrapUri : UInt32 := (267 : UInt32) <<< 8 ||| IMLINKD_SVID

def view : PSS_WrapRequest ≃ UInt32 × List UInt8 × UInt8 × UInt8 × UInt32 where
  toFun wrap := (wrap.uri, wrap.strPacket, wrap.retryCount, wrap.routerNumber, wrap.taskId)
  invFun fields := ⟨fields.1, fields.2.1, fields.2.2.1, fields.2.2.2.1, fields.2.2.2.2⟩
  left_inv _ := rfl
  right_inv _ := rfl

def marshal : Marshal PSS_WrapRequest :=
  .record view (.pair .uint32 (.pair .varstr32 (.pair .uint8 (.pair .uint8 .uint32))))

end PSS_WrapRequest

/-! ## Packets on their way -/

/-- What the writer is given to send. A SYNC gets its other fields when it is emitted. -/
inductive IPacketBase where
  | answer (uri : UInt32) (resCode : UInt16) (body : List UInt8)
  | route (router : PRouter)
  | routeS (router : PServerIdRouter)
  | proxy (router : PProxyRouter)
  | sync (dstId : UInt32) (base : RouterBase)
deriving DecidableEq

/-- The connection that asked, a server, or any server of a name. -/
inductive Destination where
  | peer
  | server (id : UInt32)
  | random (name : List UInt8)
deriving DecidableEq

/-- A name that ends in a server id is that server. -/
def Destination.named (name : List UInt8) : Destination :=
  if (DomainName.getSid name).1 then .server (DomainName.getSid name).2 else .random name

namespace IPacketBase

/-- `emit(conn, sd)`: where the packet goes. -/
def emit : IPacketBase → Destination
  | answer _ _ _ => .peer
  | route router => .named router.toName
  | routeS router => .server router.serverId
  | proxy router => .server router.serverId
  | sync dstId _ => .server dstId

/-- The uri, the result code and the load that its receiver dispatches. -/
def content : IPacketBase → UInt32 × UInt16 × List UInt8
  | answer uri resCode body => (uri, resCode, body)
  | route router => (router.base.ruri, router.base.resCode, router.base.load)
  | routeS router => (router.base.ruri, router.base.resCode, router.base.load)
  | proxy router => (router.base.ruri, router.base.resCode, router.base.load)
  | sync _ base => (base.ruri, base.resCode, base.load)

/-- The receiver is given `router`: as the packet or as its load. -/
def Carries (packet : IPacketBase) (router : PProxyRouter) : Prop :=
  packet = proxy router ∨
    packet.content = (PProxyRouter.uri, RES_SUCCESS, packLoad PProxyRouter.marshal router)

instance (packet : IPacketBase) (router : PProxyRouter) : Decidable (packet.Carries router) :=
  inferInstanceAs (Decidable (_ ∨ _))

end IPacketBase

/-! ## The writer -/

/-- A pointer to an object of another owner, who may destroy it. -/
inductive Pointer (Target : Type) where
  | null
  | valid (target : Target)
  | dangling
deriving DecidableEq

def Pointer.ofOption {Target : Type} : Option Target → Pointer Target
  | none => null
  | some target => valid target

/-- `ABRouteWriter`: whom the request in hand came from. -/
structure ABRouteWriter where
  tmpFrom : List UInt8
  pProxyInfo : Pointer CProxyInfo
  pWrapHead : Pointer PSS_WrapRequest
deriving DecidableEq

/-- What the writer asks the server: its name and its id. -/
structure IDaemonServer where
  fullName : List UInt8
  serverId : UInt32

namespace ABRouteWriter

/-- A new writer, and one that has no request in hand. -/
def neutral : ABRouteWriter := ⟨[], .null, .null⟩

def setFrom (rw : ABRouteWriter) (f : List UInt8) : ABRouteWriter := { rw with tmpFrom := f }

def SetProxyInfo (rw : ABRouteWriter) (p : Pointer CProxyInfo) : ABRouteWriter :=
  { rw with pProxyInfo := p }

def SetWrapHead (rw : ABRouteWriter) (pWrapHead : Pointer PSS_WrapRequest) : ABRouteWriter :=
  { rw with pWrapHead := pWrapHead }

variable (server : IDaemonServer) (rw : ABRouteWriter)

/-- `answer(uri, resCode, obj)`; the overload without a result code gives `RES_SUCCESS`. -/
def answer (uri : UInt32) (resCode : UInt16) (obj : List UInt8) : IPacketBase :=
  if rw.tmpFrom = [] then .answer uri resCode obj
  else .route ⟨routerBase server.fullName uri resCode obj, rw.tmpFrom⟩

def answerErr (uri : UInt32) (resCode : UInt16) : IPacketBase :=
  if rw.tmpFrom = [] then .answer uri resCode []
  else .route ⟨routerBase server.fullName uri resCode [], rw.tmpFrom⟩

/-- `route(to, uri, m)`. -/
def route (toName : List UInt8) (uri : UInt32) (m : List UInt8) : IPacketBase :=
  .route ⟨routerBase server.fullName uri RES_SUCCESS m, toName⟩

/-- `routeS(s, u, o)`. -/
def routeS (s u : UInt32) (o : List UInt8) : IPacketBase :=
  .routeS ⟨routerBase server.fullName u RES_SUCCESS o, s⟩

/-- `RouteSync(uSvrId, uUri, objMsg)`: the message is new but for its load. -/
def RouteSync (uSvrId uUri : UInt32) (objMsg : List UInt8) : IPacketBase :=
  .sync uSvrId (routerBase [] uUri RES_SUCCESS objMsg)

/-- The router of a forwarded request, which adds the server itself. -/
def forwarded (info : CProxyInfo) (uServerId uUri : UInt32) (objMsg : List UInt8) :
    PProxyRouter where
  base := routerBase rw.tmpFrom uUri RES_SUCCESS objMsg
  serverId := uServerId
  objProxyInfo := info.push server.serverId

/-- The router of an answer, which removes the server it goes to. -/
def returned (info : CProxyInfo) (uServerId uUri : UInt32) (uResCode : UInt16)
    (objMsg : List UInt8) : PProxyRouter where
  base := routerBase rw.tmpFrom uUri uResCode objMsg
  serverId := uServerId
  objProxyInfo := info.pop

/-- `RouteWithProxyInfo(uServerId, uUri, objMsg)`; there is no result when the proxy info
was destroyed. -/
def RouteWithProxyInfo (uServerId uUri : UInt32) (objMsg : List UInt8) :
    Option (List IPacketBase) :=
  match rw.pProxyInfo with
  | .valid info => some [.proxy (forwarded server rw info uServerId uUri objMsg)]
  | .null => some [routeS server uServerId uUri objMsg]
  | .dangling => none

/-- `RouteWithProxyInfo(strTo, uUri, objMsg)`: the router does not know the id yet. -/
def RouteWithProxyInfoTo (strTo : List UInt8) (uUri : UInt32) (objMsg : List UInt8) :
    Option (List IPacketBase) :=
  match rw.pProxyInfo with
  | .valid info =>
      some [route server strTo PProxyRouter.uri
        (packLoad PProxyRouter.marshal (forwarded server rw info (-1) uUri objMsg))]
  | .null => some [route server strTo uUri objMsg]
  | .dangling => none

/-- `AnswerWithProxyInfo(uUri, uResCode, objMsg)`. -/
def AnswerWithProxyInfo (uUri : UInt32) (uResCode : UInt16) (objMsg : List UInt8) :
    Option (List IPacketBase) :=
  match rw.pProxyInfo with
  | .valid info =>
      match info.vecProxyId.getLast? with
      | some uServerId => some [.proxy (returned rw info uServerId uUri uResCode objMsg)]
      | none => some [answer server rw uUri RES_SUCCESS objMsg]
  | .null => some [answer server rw uUri RES_SUCCESS objMsg]
  | .dangling => none

/-- The branch of `AnswerProxyReliable` for an empty chain. -/
def answerReliable (uUri : UInt32) (objMsg : List UInt8) : List IPacketBase :=
  if rw.tmpFrom = [] then [] -- from empty!, can't answer
  else
    let (res, uServerId) := DomainName.getSid rw.tmpFrom
    if res then [RouteSync uServerId uUri objMsg] else []

/-- `AnswerProxyReliable(uUri, uResCode, objMsg)`. -/
def AnswerProxyReliable (uUri : UInt32) (uResCode : UInt16) (objMsg : List UInt8) :
    Option (List IPacketBase) :=
  match rw.pProxyInfo with
  | .valid info =>
      match info.vecProxyId.getLast? with
      | some uServerId =>
          some [RouteSync uServerId PProxyRouter.uri (packLoad PProxyRouter.marshal
            (returned rw info uServerId uUri uResCode objMsg))]
      | none => some (answerReliable rw uUri objMsg)
  | .null => some (answerReliable rw uUri objMsg)
  | .dangling => none

/-- `AnswerWithWrapHead(uUri, objMsg)`: the answer is wrapped as the request was. -/
def AnswerWithWrapHead (uUri : UInt32) (objMsg : List UInt8) : Option (List IPacketBase) :=
  match rw.pWrapHead with
  | .valid head =>
      AnswerWithProxyInfo server rw PSS_WrapRequest.wrapUri RES_SUCCESS
        (packLoad PSS_WrapRequest.marshal
          { uri := uUri, strPacket := objMsg, retryCount := head.retryCount,
            routerNumber := head.routerNumber, taskId := head.taskId })
  | .null => AnswerWithProxyInfo server rw uUri RES_SUCCESS objMsg
  | .dangling => none

/-! ## Answers along the chain -/

/-- The ids that an answer has to go back to, the next one last. -/
def chain (info : Option CProxyInfo) : List UInt32 := (info.map CProxyInfo.vecProxyId).getD []

/-- Where the request came from at first. -/
def requester : Destination := if rw.tmpFrom = [] then .peer else .named rw.tmpFrom

/-- The packet goes to the last id of the chain, with that id popped. -/
def ToLast (info : CProxyInfo) (last uri : UInt32) (resCode : UInt16) (body : List UInt8)
    (packet : IPacketBase) : Prop :=
  packet.emit = .server last ∧
    packet.Carries ⟨routerBase rw.tmpFrom uri resCode body, last, info.pop⟩

/-- The packet goes to the requester. -/
def ToRequester (uri : UInt32) (resCode : UInt16) (body : List UInt8) (packet : IPacketBase) :
    Prop :=
  packet.emit = rw.requester ∧ packet.content = (uri, resCode, body)

/-- Exactly one packet is sent, to the last id of the chain or, when none is left, to the
requester. -/
def AnswersBack (info : Option CProxyInfo) (uri : UInt32) (resCode : UInt16) (body : List UInt8)
    (sent : Option (List IPacketBase)) : Prop :=
  ∃ packet, sent = some [packet] ∧
    match info, (chain info).getLast? with
    | some info, some last => rw.ToLast info last uri resCode body packet
    | _, _ => rw.ToRequester uri resCode body packet

section Answers

variable {server rw} {info : CProxyInfo} {last : UInt32}

theorem AnswerWithProxyInfo_last (hlast : info.vecProxyId.getLast? = some last) (uri : UInt32)
    (resCode : UInt16) (body : List UInt8) :
    AnswerWithProxyInfo server (rw.SetProxyInfo (.valid info)) uri resCode body =
      some [.proxy (returned rw info last uri resCode body)] := by
  unfold AnswerWithProxyInfo SetProxyInfo
  dsimp only
  rw [hlast]
  rfl

theorem AnswerProxyReliable_last (hlast : info.vecProxyId.getLast? = some last) (uri : UInt32)
    (resCode : UInt16) (body : List UInt8) :
    AnswerProxyReliable (rw.SetProxyInfo (.valid info)) uri resCode body =
      some [RouteSync last PProxyRouter.uri
        (packLoad PProxyRouter.marshal (returned rw info last uri resCode body))] := by
  unfold AnswerProxyReliable SetProxyInfo
  dsimp only
  rw [hlast]
  rfl

theorem AnswerWithProxyInfo_empty {info : Option CProxyInfo} (hchain : chain info = [])
    (uri : UInt32) (resCode : UInt16) (body : List UInt8) :
    AnswerWithProxyInfo server (rw.SetProxyInfo (.ofOption info)) uri resCode body =
      some [answer server rw uri RES_SUCCESS body] := by
  cases info with
  | none => rfl
  | some info =>
      have hnone : info.vecProxyId.getLast? = none := by
        rw [show info.vecProxyId = [] from hchain]
        rfl
      unfold AnswerWithProxyInfo SetProxyInfo Pointer.ofOption
      dsimp only
      rw [hnone]
      rfl

theorem AnswerProxyReliable_empty {info : Option CProxyInfo} (hchain : chain info = [])
    (uri : UInt32) (resCode : UInt16) (body : List UInt8) :
    AnswerProxyReliable (rw.SetProxyInfo (.ofOption info)) uri resCode body =
      some (answerReliable rw uri body) := by
  cases info with
  | none => rfl
  | some info =>
      have hnone : info.vecProxyId.getLast? = none := by
        rw [show info.vecProxyId = [] from hchain]
        rfl
      unfold AnswerProxyReliable SetProxyInfo Pointer.ofOption
      dsimp only
      rw [hnone]
      rfl

/-- An answer to the requester goes where the request came from. -/
theorem answer_toRequester (server : IDaemonServer) (rw : ABRouteWriter) (uri : UInt32)
    (resCode : UInt16) (body : List UInt8) :
    rw.ToRequester uri resCode body (answer server rw uri resCode body) := by
  unfold ToRequester requester answer
  split
  · exact ⟨rfl, rfl⟩
  · exact ⟨rfl, rfl⟩

theorem requester_server {sid : UInt32} :
    rw.requester = .server sid ↔ rw.tmpFrom ≠ [] ∧ DomainName.getSid rw.tmpFrom = (true, sid) := by
  unfold requester Destination.named
  rcases hget : DomainName.getSid rw.tmpFrom with ⟨res, found⟩
  by_cases hfrom : rw.tmpFrom = []
  · simp [hfrom]
  · cases res
    · simp [hfrom]
    · simp [hfrom]

/-- Reliably an answer goes to a server only. -/
theorem answerReliable_server {sid : UInt32} (hserver : rw.requester = .server sid) (uri : UInt32)
    (body : List UInt8) : answerReliable rw uri body = [RouteSync sid uri body] := by
  obtain ⟨hfrom, hget⟩ := requester_server.mp hserver
  unfold answerReliable
  rw [if_neg hfrom, hget]
  rfl

theorem answerReliable_none (hnone : ∀ sid, rw.requester ≠ .server sid) (uri : UInt32)
    (body : List UInt8) : answerReliable rw uri body = [] := by
  unfold answerReliable
  split
  · rfl
  next hfrom =>
    rcases hget : DomainName.getSid rw.tmpFrom with ⟨res, sid⟩
    cases res with
    | false => rfl
    | true => exact absurd (requester_server.mpr ⟨hfrom, hget⟩) (hnone sid)

end Answers

/-! ## There and back -/

/-- What the writer of the next server knows while it handles a router. -/
def receive (router : PProxyRouter) : ABRouteWriter :=
  (neutral.setFrom router.base.fromName).SetProxyInfo (.valid router.objProxyInfo)

/-- A server on the way, and what it forwards. -/
structure Hop where
  server : IDaemonServer
  uServerId : UInt32
  uUri : UInt32
  objMsg : List UInt8

/-- The router that the servers on the way hand on. -/
def travel (router : PProxyRouter) : List Hop → PProxyRouter
  | [] => router
  | hop :: rest =>
      travel (forwarded hop.server (receive router) router.objProxyInfo hop.uServerId hop.uUri
        hop.objMsg) rest

/-- The servers that answers go to, one after the other. -/
def retrace (router : PProxyRouter) : List (UInt32 × UInt16 × List UInt8) → List UInt32
  | [] => []
  | (uri, resCode, body) :: rest =>
      match router.objProxyInfo.vecProxyId.getLast? with
      | none => []
      | some last =>
          last :: retrace (returned (receive router) router.objProxyInfo last uri resCode body) rest

/-- Both ways of forwarding send one packet, which carries the router with the own id. -/
theorem RouteWithProxyInfo_carries (server : IDaemonServer) (router : PProxyRouter)
    (uServerId uri : UInt32) (toName body : List UInt8) :
    (∃ packet, RouteWithProxyInfo server (receive router) uServerId uri body = some [packet] ∧
      packet.Carries
        (forwarded server (receive router) router.objProxyInfo uServerId uri body)) ∧
    ∃ packet, RouteWithProxyInfoTo server (receive router) toName uri body = some [packet] ∧
      packet.Carries (forwarded server (receive router) router.objProxyInfo (-1) uri body) :=
  ⟨⟨_, rfl, Or.inl rfl⟩, _, rfl, Or.inr rfl⟩

theorem chain_travel (router : PProxyRouter) (hops : List Hop) :
    (travel router hops).objProxyInfo.vecProxyId =
      router.objProxyInfo.vecProxyId ++ hops.map fun hop => hop.server.serverId := by
  induction hops generalizing router with
  | nil => exact (List.append_nil _).symm
  | cons hop rest ih =>
      rw [travel, ih, List.map_cons]
      exact List.append_assoc _ _ _

theorem retrace_eq (router : PProxyRouter) (answers : List (UInt32 × UInt16 × List UInt8)) :
    retrace router answers =
      (router.objProxyInfo.vecProxyId.reverse).take answers.length := by
  induction answers generalizing router with
  | nil => rfl
  | cons first rest ih =>
      unfold retrace
      split
      next hnone =>
        rw [List.getLast?_eq_none_iff.mp hnone]
        rfl
      next last hlast =>
        have hchain := List.dropLast_append_getLast? last hlast
        have hreverse : router.objProxyInfo.vecProxyId.reverse =
            last :: router.objProxyInfo.vecProxyId.dropLast.reverse := by
          conv_lhs => rw [← hchain]
          exact List.reverse_append
        rw [ih, hreverse, List.length_cons, List.take_succ_cons]
        rfl

/-- As many answers as a request was forwarded times visit the servers in the reverse order. -/
theorem retrace_travel (router : PProxyRouter) (hops : List Hop)
    (answers : List (UInt32 × UInt16 × List UInt8)) (hcount : answers.length = hops.length) :
    retrace (travel router hops) answers =
      (hops.map fun hop => hop.server.serverId).reverse := by
  rw [retrace_eq, chain_travel, List.reverse_append]
  exact List.take_left' (by rw [List.length_reverse, List.length_map, hcount])

/-! ## Which answers come back -/

section Back

variable {server rw} {info : Option CProxyInfo} {uri : UInt32} {resCode : UInt16}
  {body : List UInt8} {sent : Option (List IPacketBase)}

theorem chain_cases (info : Option CProxyInfo) :
    chain info = [] ∨
      ∃ found last, info = some found ∧ found.vecProxyId.getLast? = some last := by
  cases info with
  | none => exact Or.inl rfl
  | some found =>
      cases hlast : found.vecProxyId.getLast? with
      | none => exact Or.inl (List.getLast?_eq_none_iff.mp hlast)
      | some last => exact Or.inr ⟨found, last, rfl, hlast⟩

theorem answersBack_last {found : CProxyInfo} {last : UInt32}
    (hlast : found.vecProxyId.getLast? = some last) :
    rw.AnswersBack (some found) uri resCode body sent ↔
      ∃ packet, sent = some [packet] ∧ rw.ToLast found last uri resCode body packet := by
  unfold AnswersBack
  rw [show (chain (some found)).getLast? = some last from hlast]

theorem answersBack_empty (hchain : chain info = []) :
    rw.AnswersBack info uri resCode body sent ↔
      ∃ packet, sent = some [packet] ∧ rw.ToRequester uri resCode body packet := by
  unfold AnswersBack
  rw [hchain]
  cases info with
  | none => exact Iff.rfl
  | some found => exact Iff.rfl

theorem chain_ne_nil {found : CProxyInfo} {last : UInt32}
    (hlast : found.vecProxyId.getLast? = some last) : chain (some found) ≠ [] := by
  intro hnil
  rw [show found.vecProxyId = [] from hnil] at hlast
  cases hlast

theorem toLast_proxy (rw : ABRouteWriter) (found : CProxyInfo) (last uri : UInt32)
    (resCode : UInt16) (body : List UInt8) :
    rw.ToLast found last uri resCode body (.proxy (returned rw found last uri resCode body)) :=
  ⟨rfl, Or.inl rfl⟩

theorem toLast_sync (rw : ABRouteWriter) (found : CProxyInfo) (last uri : UInt32)
    (resCode : UInt16) (body : List UInt8) :
    rw.ToLast found last uri resCode body
      (RouteSync last PProxyRouter.uri
        (packLoad PProxyRouter.marshal (returned rw found last uri resCode body))) :=
  ⟨rfl, Or.inr rfl⟩

/-- A SYNC is new, so its own result code is the one of success. -/
theorem toRequester_sync {sid : UInt32} (hserver : rw.requester = .server sid) (uri : UInt32)
    (body : List UInt8) :
    rw.ToRequester uri RES_SUCCESS body (RouteSync sid uri body) :=
  ⟨hserver.symm, rfl⟩

/-- Without a chain `AnswerWithProxyInfo` takes the overload that knows no result code. -/
theorem AnswerWithProxyInfo_back_iff :
    rw.AnswersBack info uri resCode body
        (AnswerWithProxyInfo server (rw.SetProxyInfo (.ofOption info)) uri resCode body) ↔
      chain info ≠ [] ∨ resCode = RES_SUCCESS := by
  obtain hchain | ⟨found, last, rfl, hlast⟩ := chain_cases info
  · rw [answersBack_empty hchain, AnswerWithProxyInfo_empty hchain]
    have hback := answer_toRequester server rw uri RES_SUCCESS body
    constructor
    · rintro ⟨packet, hsent, -, hcontent⟩
      cases hsent
      rw [hback.2] at hcontent
      exact Or.inr (congrArg (fun content => content.2.1) hcontent).symm
    · rintro (hne | rfl)
      · exact absurd hchain hne
      · exact ⟨_, rfl, hback⟩
  · rw [answersBack_last hlast]
    refine iff_of_true ?_ (Or.inl (chain_ne_nil hlast))
    exact ⟨_, AnswerWithProxyInfo_last hlast uri resCode body, toLast_proxy ..⟩

/-- Without a chain `AnswerProxyReliable` needs a server to answer to, and drops the result
code as well. -/
theorem AnswerProxyReliable_back_iff :
    rw.AnswersBack info uri resCode body
        (AnswerProxyReliable (rw.SetProxyInfo (.ofOption info)) uri resCode body) ↔
      chain info ≠ [] ∨ (∃ sid, rw.requester = .server sid) ∧ resCode = RES_SUCCESS := by
  obtain hchain | ⟨found, last, rfl, hlast⟩ := chain_cases info
  · rw [answersBack_empty hchain, AnswerProxyReliable_empty hchain]
    by_cases hserver : ∃ sid, rw.requester = .server sid
    · obtain ⟨sid, hsid⟩ := hserver
      rw [answerReliable_server hsid]
      have hback := toRequester_sync hsid uri body
      constructor
      · rintro ⟨packet, hsent, -, hcontent⟩
        cases hsent
        exact Or.inr ⟨⟨sid, hsid⟩, (congrArg (fun content => content.2.1) hcontent).symm⟩
      · rintro (hne | ⟨-, rfl⟩)
        · exact absurd hchain hne
        · exact ⟨_, rfl, hback⟩
    · rw [answerReliable_none fun sid hsid => hserver ⟨sid, hsid⟩]
      refine iff_of_false ?_ ?_
      · rintro ⟨packet, hsent, -⟩
        cases hsent
      · rintro (hne | ⟨hsome, -⟩)
        · exact hne hchain
        · exact hserver hsome
  · rw [answersBack_last hlast]
    refine iff_of_true ?_ (Or.inl (chain_ne_nil hlast))
    exact ⟨_, AnswerProxyReliable_last hlast uri resCode body, toLast_sync ..⟩

end Back

/-- An answer goes to the last id of the chain with that id popped, so that successive
answers visit the ids in reverse. When none is left it goes to the requester, reliably when
that is a server and not at all when it is none. -/
theorem answers_retrace (server : IDaemonServer) (rw : ABRouteWriter) (info : Option CProxyInfo)
    (uri : UInt32) (resCode : UInt16) (body : List UInt8) :
    (∀ found last, info = some found → found.vecProxyId.getLast? = some last →
      (∃ packet, AnswerWithProxyInfo server (rw.SetProxyInfo (.ofOption info)) uri resCode body =
          some [packet] ∧ rw.ToLast found last uri resCode body packet) ∧
      ∃ packet, AnswerProxyReliable (rw.SetProxyInfo (.ofOption info)) uri resCode body =
          some [packet] ∧ rw.ToLast found last uri resCode body packet) ∧
    (chain info = [] →
      (∃ packet code, AnswerWithProxyInfo server (rw.SetProxyInfo (.ofOption info)) uri resCode
          body = some [packet] ∧ rw.ToRequester uri code body packet ∧
          (resCode = RES_SUCCESS → code = resCode)) ∧
      ((∃ sid, rw.requester = .server sid) →
        ∃ packet code, AnswerProxyReliable (rw.SetProxyInfo (.ofOption info)) uri resCode body =
          some [packet] ∧ rw.ToRequester uri code body packet ∧
          (resCode = RES_SUCCESS → code = resCode)) ∧
      ((∀ sid, rw.requester ≠ .server sid) →
        AnswerProxyReliable (rw.SetProxyInfo (.ofOption info)) uri resCode body = some [])) ∧
    ∀ router hops answers, answers.length = hops.length →
      retrace (travel router hops) answers =
        (hops.map fun hop => hop.server.serverId).reverse := by
  refine ⟨?_, ?_, retrace_travel⟩
  · rintro found last rfl hlast
    exact ⟨⟨_, AnswerWithProxyInfo_last hlast uri resCode body, toLast_proxy ..⟩,
      _, AnswerProxyReliable_last hlast uri resCode body, toLast_sync ..⟩
  · intro hchain
    rw [AnswerWithProxyInfo_empty hchain, AnswerProxyReliable_empty hchain]
    have hanswer := answer_toRequester server rw uri RES_SUCCESS body
    refine ⟨⟨_, RES_SUCCESS, rfl, hanswer, Eq.symm⟩, ?_, ?_⟩
    · rintro ⟨sid, hsid⟩
      rw [answerReliable_server hsid]
      exact ⟨_, RES_SUCCESS, rfl, toRequester_sync hsid uri body, Eq.symm⟩
    · intro hnone
      rw [answerReliable_none hnone]

/-- A chain of two servers, and a direct request without one. -/
theorem answers_retrace_two :
    (∃ packet, AnswerWithProxyInfo ⟨[97], 9⟩ (neutral.SetProxyInfo (.valid ⟨[3, 4], []⟩)) 7 404
      [1] = some [packet] ∧ neutral.ToLast ⟨[3, 4], []⟩ 4 7 404 [1] packet) ∧
    AnswerProxyReliable neutral 7 404 [1] = some [] :=
  ⟨((answers_retrace ⟨[97], 9⟩ neutral (some ⟨[3, 4], []⟩) 7 404 [1]).1 _ 4 rfl rfl).1,
    ((answers_retrace ⟨[97], 9⟩ neutral none 7 404 [1]).2.1 rfl).2.2 (by
      intro sid hsid
      cases hsid)⟩

/-- A direct request is not answered reliably. -/
theorem direct_not_answered :
    AnswerProxyReliable (neutral.SetProxyInfo (.ofOption none)) 7 RES_SUCCESS [1] = some [] ∧
      ¬ neutral.AnswersBack none 7 RES_SUCCESS [1]
        (AnswerProxyReliable (neutral.SetProxyInfo (.ofOption none)) 7 RES_SUCCESS [1]) := by
  refine ⟨rfl, ?_⟩
  rintro ⟨packet, hsent, -⟩
  cases hsent

end ABRouteWriter

end ServiceFrame
