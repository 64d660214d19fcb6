import ServiceFrame.ServerLib.BRouteWriter

/-! # Wrapped requests on their way

A request that came wrapped is sent on with the wrap: its retry count, its router number
and its task id. `RouteWithWrapHead`, `AnswerWithWrapHead` and `RouteWithWrapHeadTrans` of
`ABRouteWriter` send a message so, over the proxies or directly, to a server or to a name.
-/

namespace ServiceFrame

open Foundation

/-- What `send` is given; a `PRoundRobinRouter` is a router that goes to the servers of its
name in turn. -/
inductive SentPacket where
  | base (packet : IPacketBase)
  | roundRobin (router : PRouter)
deriving DecidableEq

namespace SentPacket

/-- The uri, the result code and the load that its receiver dispatches. -/
def content : SentPacket → UInt32 × UInt16 × List UInt8
  | base packet => packet.content
  | roundRobin router => (router.base.ruri, router.base.resCode, router.base.load)

/-- A message reaches the server it is for: the receiver of the packet, or the one that a
proxy router among the loads goes to. -/
def Delivers (packet : SentPacket) (uri : UInt32) (load : List UInt8) : Prop :=
  packet.content = (uri, RES_SUCCESS, load) ∨
    ∃ router : PProxyRouter,
      packet.content = (PProxyRouter.uri, RES_SUCCESS, packLoad PProxyRouter.marshal router) ∧
      (router.base.ruri, router.base.resCode, router.base.load) = (uri, RES_SUCCESS, load)

end SentPacket

namespace PSS_WrapRequest

/-- A new request with a packet in it and `SetWrapOption` of another's options. -/
def wrap (head : PSS_WrapRequest) (uri : UInt32) (strPacket : List UInt8) : PSS_WrapRequest :=
  { uri := uri, strPacket := strPacket, retryCount := head.retryCount,
    routerNumber := head.routerNumber, taskId := head.taskId }

/-- Unmarshalling a load into any request gives `request`. -/
def Unwraps (load : List UInt8) (request : PSS_WrapRequest) : Prop :=
  ∀ target, marshal.pop target load = .ok (request, [])

end PSS_WrapRequest

namespace ABRouteWriter

variable (server : IDaemonServer) (rw : ABRouteWriter)

/-! ## The functions -/

/-- `route(from, to, uri, m)`. -/
def routeFrom (fromName toName : List UInt8) (uri : UInt32) (m : List UInt8) : SentPacket :=
  .base (.route ⟨routerBase fromName uri RES_SUCCESS m, toName⟩)

/-- `routeS(from, s, u, o)`. -/
def routeSFrom (fromName : List UInt8) (s u : UInt32) (o : List UInt8) : SentPacket :=
  .base (.routeS ⟨routerBase fromName u RES_SUCCESS o, s⟩)

/-- `GetRoundRobinPacket(from, to, uUri, obj)`. -/
def roundRobinPacket (toName : List UInt8) (uUri : UInt32) (obj : List UInt8) : SentPacket :=
  .roundRobin ⟨routerBase server.fullName uUri RES_SUCCESS obj, toName⟩

/-- `RouteRoundRobin(to, uri, obj)`. -/
def RouteRoundRobin (toName : List UInt8) (uri : UInt32) (obj : List UInt8) :
    Option (List SentPacket) :=
  match rw.pProxyInfo with
  | .valid info =>
      some [roundRobinPacket server toName PProxyRouter.uri
        (packLoad PProxyRouter.marshal (forwarded server rw info (-1) uri obj))]
  | .null => some [roundRobinPacket server toName uri obj]
  | .dangling => none

/-- The router of a request that is passed on as it came: the server adds itself not. -/
def passedOn (info : CProxyInfo) (uServerId uUri : UInt32) (objMsg : List UInt8) :
    PProxyRouter where
  base := routerBase rw.tmpFrom uUri RES_SUCCESS objMsg
  serverId := uServerId
  objProxyInfo := info

/-- `RouteWithWrapHead(uServerId, uUri, objMsg)`. -/
def RouteWithWrapHead (uServerId uUri : UInt32) (objMsg : List UInt8) :
    Option (List SentPacket) :=
  match rw.pWrapHead with
  | .valid head =>
      (RouteWithProxyInfo server rw uServerId PSS_WrapRequest.wrapUri
        (packLoad PSS_WrapRequest.marshal (head.wrap uUri objMsg))).map (·.map .base)
  | .null => (RouteWithProxyInfo server rw uServerId uUri objMsg).map (·.map .base)
  | .dangling => none

/-- `RouteWithWrapHead(strTo, uUri, objMsg, bRoundRobin)`. -/
def RouteWithWrapHeadTo (strTo : List UInt8) (uUri : UInt32) (objMsg : List UInt8)
    (bRoundRobin : Bool) : Option (List SentPacket) :=
  match rw.pWrapHead with
  | .valid head =>
      let objWrap := packLoad PSS_WrapRequest.marshal (head.wrap uUri objMsg)
      if bRoundRobin then RouteRoundRobin server rw strTo PSS_WrapRequest.wrapUri objWrap
      else
        (RouteWithProxyInfoTo server rw strTo PSS_WrapRequest.wrapUri objWrap).map (·.map .base)
  | .null =>
      if bRoundRobin then RouteRoundRobin server rw strTo uUri objMsg
      else (RouteWithProxyInfoTo server rw strTo uUri objMsg).map (·.map .base)
  | .dangling => none

/-- The end of `RouteWithWrapHeadTrans`, with the packet wrapped or not. -/
def passOn (uServerId uUri : UInt32) (objMsg : List UInt8) : Option (List SentPacket) :=
  match rw.pProxyInfo with
  | .valid info => some [.base (.proxy (passedOn rw info uServerId uUri objMsg))]
  | .null => some [routeSFrom rw.tmpFrom uServerId uUri objMsg]
  | .dangling => none

/-- `RouteWithWrapHeadTrans(uServerId, uUri, objMsg)`. -/
def RouteWithWrapHeadTrans (uServerId uUri : UInt32) (objMsg : List UInt8) :
    Option (List SentPacket) :=
  match rw.pWrapHead with
  | .valid head =>
      passOn rw uServerId PSS_WrapRequest.wrapUri
        (packLoad PSS_WrapRequest.marshal (head.wrap uUri objMsg))
  | .null => passOn rw uServerId uUri objMsg
  | .dangling => none

/-- The router in a load that goes to a name. -/
def passOnRouter (info : CProxyInfo) (strTo : List UInt8) (uUri : UInt32)
    (objMsg : List UInt8) : SentPacket :=
  routeFrom rw.tmpFrom strTo PProxyRouter.uri
    (packLoad PProxyRouter.marshal (passedOn rw info (-1) uUri objMsg))

/-- `RouteWithWrapHeadTrans(strTo, uUri, objMsg)`. -/
def RouteWithWrapHeadTransTo (strTo : List UInt8) (uUri : UInt32) (objMsg : List UInt8) :
    Option (List SentPacket) :=
  match rw.pWrapHead with
  | .valid head =>
      match rw.pProxyInfo with
      | .valid info =>
          some [passOnRouter rw info strTo PSS_WrapRequest.wrapUri
            (packLoad PSS_WrapRequest.marshal (head.wrap uUri objMsg))]
      -- the wrap is left behind here
      | .null => some [routeFrom rw.tmpFrom strTo uUri objMsg]
      | .dangling => none
  | .null =>
      match rw.pProxyInfo with
      | .valid info => some [passOnRouter rw info strTo uUri objMsg]
      | .null => some [routeFrom rw.tmpFrom strTo uUri objMsg]
      | .dangling => none
  | .dangling => none

/-- A call of one of them. -/
inductive WrapCall where
  | route (uServerId : UInt32)
  | routeTo (strTo : List UInt8) (bRoundRobin : Bool)
  | answer
  | trans (uServerId : UInt32)
  | transTo (strTo : List UInt8)
deriving DecidableEq

def WrapCall.sent (call : WrapCall) (uUri : UInt32) (objMsg : List UInt8) :
    Option (List SentPacket) :=
  match call with
  | route uServerId => RouteWithWrapHead server rw uServerId uUri objMsg
  | routeTo strTo bRoundRobin => RouteWithWrapHeadTo server rw strTo uUri objMsg bRoundRobin
  | answer => (AnswerWithWrapHead server rw uUri objMsg).map (·.map .base)
  | trans uServerId => RouteWithWrapHeadTrans rw uServerId uUri objMsg
  | transTo strTo => RouteWithWrapHeadTransTo rw strTo uUri objMsg

/-- One packet is sent; with a wrap head its message is a wrapped request with the options of
the head, from which the uri and the body come back, and without one it is just these. -/
def KeepsWrap (head : Option PSS_WrapRequest) (uri : UInt32) (body : List UInt8)
    (sent : Option (List SentPacket)) : Prop :=
  ∃ packet, sent = some [packet] ∧
    match head with
    | some head => ∃ load, packet.Delivers PSS_WrapRequest.wrapUri load ∧
        PSS_WrapRequest.Unwraps load (head.wrap uri body)
    | none => packet.Delivers uri body

/-! ## Wrapping and unwrapping -/

end ABRouteWriter

namespace PSS_WrapRequest

theorem unwraps_packLoad {request : PSS_WrapRequest} (hfits : request.strPacket.length < 2 ^ 32) :
    Unwraps (packLoad marshal request) request := by
  intro target
  have hpacked : packLoad marshal request =
      leBytes 4 request.uri.toNat ++ ((leBytes 4 request.strPacket.length ++ request.strPacket) ++
        (request.retryCount :: request.routerNumber ::
          (leBytes 4 request.taskId.toNat ++ []))) := by
    rw [List.append_nil]
    rfl
  have hfields : (Marshal.pair .uint32 (.pair .varstr32 (.pair .uint8 (.pair .uint8 .uint32)))).pop
      (view target) (packLoad marshal request) = .ok (view request, []) := by
    simp only [Marshal.pop, Marshal.popBoth, hpacked]
    rw [Unpack.popUint32_leBytes request.uri.toNat_lt]
    simp only [Except.bind]
    rw [Unpack.popVarstr32_append hfits]
    simp only [Unpack.popUint8]
    rw [Unpack.popUint32_leBytes request.taskId.toNat_lt]
    simp only [UInt32.ofNat_toNat]
    rfl
  rw [marshal, Marshal.pop, Marshal.popAs, ← marshal, hfields]
  rfl

/-- A packet is shorter than the load it comes out of. -/
theorem length_of_unwraps {load : List UInt8} {request : PSS_WrapRequest}
    (hunwraps : Unwraps load request) : request.strPacket.length < load.length := by
  obtain ⟨raw, hraw, rfl⟩ := Marshal.popAs_ok (hunwraps request)
  obtain ⟨behindUri, huri, hraw⟩ := Marshal.popBoth_ok hraw
  obtain ⟨behindPacket, hpacket, -⟩ := Marshal.popBoth_ok hraw
  have hfour := Unpack.length_popUint32 huri
  have hlength := Unpack.length_popVarstr32 hpacket
  change raw.2.1.length < load.length
  omega

end PSS_WrapRequest

namespace ABRouteWriter

/-- One packet is sent, and delivers the message. -/
def Sends (uri : UInt32) (load : List UInt8) (sent : Option (List SentPacket)) : Prop :=
  ∃ packet, sent = some [packet] ∧ packet.Delivers uri load

/-- The message that a call is to send. -/
def message (head : Option PSS_WrapRequest) (uri : UInt32) (body : List UInt8) :
    UInt32 × List UInt8 :=
  match head with
  | some head => (PSS_WrapRequest.wrapUri, packLoad PSS_WrapRequest.marshal (head.wrap uri body))
  | none => (uri, body)

theorem keepsWrap_of_sends {head : Option PSS_WrapRequest} {uri : UInt32} {body : List UInt8}
    (hfits : body.length < 2 ^ 32) {sent : Option (List SentPacket)}
    (hsends : Sends (message head uri body).1 (message head uri body).2 sent) :
    KeepsWrap head uri body sent := by
  obtain ⟨packet, hsent, hdelivers⟩ := hsends
  refine ⟨packet, hsent, ?_⟩
  cases head with
  | none => exact hdelivers
  | some head => exact ⟨_, hdelivers, PSS_WrapRequest.unwraps_packLoad hfits⟩

section Delivery

variable (server : IDaemonServer) (tmpFrom : List UInt8) (info : Option CProxyInfo)
  (pWrapHead : Pointer PSS_WrapRequest) (uri : UInt32) (load : List UInt8)

theorem RouteWithProxyInfo_sends (uServerId : UInt32) :
    Sends uri load ((RouteWithProxyInfo server ⟨tmpFrom, .ofOption info, pWrapHead⟩ uServerId uri
      load).map (·.map .base)) := by
  cases info with
  | none => exact ⟨_, rfl, Or.inl rfl⟩
  | some info => exact ⟨_, rfl, Or.inl rfl⟩

theorem RouteWithProxyInfoTo_sends (strTo : List UInt8) :
    Sends uri load ((RouteWithProxyInfoTo server ⟨tmpFrom, .ofOption info, pWrapHead⟩ strTo uri
      load).map (·.map .base)) := by
  cases info with
  | none => exact ⟨_, rfl, Or.inl rfl⟩
  | some info => exact ⟨_, rfl, Or.inr ⟨_, rfl, rfl⟩⟩

theorem RouteRoundRobin_sends (strTo : List UInt8) :
    Sends uri load
      (RouteRoundRobin server ⟨tmpFrom, .ofOption info, pWrapHead⟩ strTo uri load) := by
  cases info with
  | none => exact ⟨_, rfl, Or.inl rfl⟩
  | some info => exact ⟨_, rfl, Or.inr ⟨_, rfl, rfl⟩⟩

theorem answer_delivers (rw : ABRouteWriter) :
    (SentPacket.base (answer server rw uri RES_SUCCESS load)).Delivers uri load := by
  unfold answer
  split
  · exact Or.inl rfl
  · exact Or.inl rfl

theorem AnswerWithProxyInfo_sends :
    Sends uri load ((AnswerWithProxyInfo server ⟨tmpFrom, .ofOption info, pWrapHead⟩ uri
      RES_SUCCESS load).map (·.map .base)) := by
  obtain hchain | ⟨found, last, rfl, hlast⟩ := chain_cases info
  · have hanswer := @AnswerWithProxyInfo_empty server ⟨tmpFrom, .null, pWrapHead⟩ info hchain uri
      RES_SUCCESS load
    exact ⟨_, congrArg (Option.map (List.map SentPacket.base)) hanswer,
      answer_delivers server uri load _⟩
  · have hanswer := @AnswerWithProxyInfo_last server ⟨tmpFrom, .null, pWrapHead⟩ found last hlast
      uri RES_SUCCESS load
    exact ⟨_, congrArg (Option.map (List.map SentPacket.base)) hanswer, Or.inl rfl⟩

theorem passOn_sends (uServerId : UInt32) :
    Sends uri load (passOn ⟨tmpFrom, .ofOption info, pWrapHead⟩ uServerId uri load) := by
  cases info with
  | none => exact ⟨_, rfl, Or.inl rfl⟩
  | some info => exact ⟨_, rfl, Or.inl rfl⟩

end Delivery

variable (server : IDaemonServer) (tmpFrom : List UInt8) {info : Option CProxyInfo}
  {head : Option PSS_WrapRequest} (uri : UInt32) (body : List UInt8)

/-- All calls but one send the message in every configuration. -/
theorem sent_sends {call : WrapCall} (hcall : ∀ strTo, call ≠ .transTo strTo) :
    Sends (message head uri body).1 (message head uri body).2
      (call.sent server ⟨tmpFrom, .ofOption info, .ofOption head⟩ uri body) := by
  cases call with
  | route uServerId =>
      cases head with
      | none => exact RouteWithProxyInfo_sends ..
      | some head => exact RouteWithProxyInfo_sends ..
  | routeTo strTo bRoundRobin =>
      cases head with
      | none =>
          cases bRoundRobin with
          | false => exact RouteWithProxyInfoTo_sends ..
          | true => exact RouteRoundRobin_sends ..
      | some head =>
          cases bRoundRobin with
          | false => exact RouteWithProxyInfoTo_sends ..
          | true => exact RouteRoundRobin_sends ..
  | answer =>
      cases head with
      | none => exact AnswerWithProxyInfo_sends ..
      | some head => exact AnswerWithProxyInfo_sends ..
  | trans uServerId =>
      cases head with
      | none => exact passOn_sends ..
      | some head => exact passOn_sends ..
  | transTo strTo => exact absurd rfl (hcall strTo)

/-- The last one does so when there is no wrap, or a proxy. -/
theorem transTo_sends (strTo : List UInt8) (hkept : head = none ∨ info ≠ none) :
    Sends (message head uri body).1 (message head uri body).2
      (WrapCall.sent server ⟨tmpFrom, .ofOption info, .ofOption head⟩ (.transTo strTo) uri
        body) := by
  cases head with
  | none =>
      cases info with
      | none => exact ⟨_, rfl, Or.inl rfl⟩
      | some info => exact ⟨_, rfl, Or.inr ⟨_, rfl, rfl⟩⟩
  | some head =>
      cases info with
      | none => simp at hkept
      | some info => exact ⟨_, rfl, Or.inr ⟨_, rfl, rfl⟩⟩

theorem length_load_lt (router : PProxyRouter) :
    router.base.load.length < (packLoad PProxyRouter.marshal router).length := by
  simp only [packLoad, PProxyRouter.marshal, RouterBase.marshal, Marshal.packed, RouterBase.view,
    PProxyRouter.view, Equiv.coe_fn_mk, List.length_append, length_leBytes]
  omega

/-- A packet with the body itself does not deliver a load with the body in it. -/
theorem bare_not_wrapped {packet : SentPacket} (hbare : packet.content = (uri, RES_SUCCESS, body))
    {load : List UInt8} (hdelivers : packet.Delivers PSS_WrapRequest.wrapUri load)
    (head : PSS_WrapRequest) : ¬ PSS_WrapRequest.Unwraps load (head.wrap uri body) := by
  intro hunwraps
  have hless : body.length < load.length := PSS_WrapRequest.length_of_unwraps hunwraps
  rcases hdelivers with hload | ⟨router, hload, hrouter⟩
  · cases hbare.symm.trans hload
    exact Nat.lt_irrefl _ hless
  · cases hbare.symm.trans hload
    obtain ⟨-, -, rfl⟩ : _ ∧ _ ∧ router.base.load = load := by simpa using hrouter
    have hinside := length_load_lt router
    omega

/-- The wrap is kept on every path but one: `RouteWithWrapHeadTrans` to a name, where no
proxy info is set. -/
theorem keepsWrap_iff (server : IDaemonServer) (tmpFrom : List UInt8) (info : Option CProxyInfo)
    (head : Option PSS_WrapRequest) (call : WrapCall) (uri : UInt32) (body : List UInt8)
    (hfits : body.length < 2 ^ 32) :
    KeepsWrap head uri body
        (call.sent server ⟨tmpFrom, .ofOption info, .ofOption head⟩ uri body) ↔
      head = none ∨ info ≠ none ∨ ∀ strTo, call ≠ .transTo strTo := by
  constructor
  · intro hkeeps
    by_contra hbare
    obtain ⟨hhead, hbare⟩ := not_or.mp hbare
    obtain ⟨hinfo, hcall⟩ := not_or.mp hbare
    obtain ⟨strTo, rfl⟩ : ∃ strTo, call = .transTo strTo := by simpa using hcall
    obtain rfl : info = none := by simpa using hinfo
    obtain ⟨wrapHead, rfl⟩ := Option.ne_none_iff_exists'.mp hhead
    obtain ⟨packet, hsent, load, hdelivers, hunwraps⟩ := hkeeps
    cases hsent
    exact bare_not_wrapped uri body rfl hdelivers wrapHead hunwraps
  · intro hkept
    apply keepsWrap_of_sends hfits
    by_cases hcall : ∀ strTo, call ≠ .transTo strTo
    · exact sent_sends server tmpFrom uri body hcall
    · obtain ⟨strTo, rfl⟩ : ∃ strTo, call = .transTo strTo := by simpa using hcall
      refine transTo_sends server tmpFrom uri body strTo (hkept.imp_right ?_)
      exact fun hrest => hrest.resolve_right hcall

/-- An answer over one proxy. -/
theorem keepsWrap_answer :
    KeepsWrap (some ⟨0, [], 3, 2, 77⟩) 7 [1]
      (WrapCall.sent ⟨[97], 9⟩ ⟨[98], .valid ⟨[5], []⟩, .valid ⟨0, [], 3, 2, 77⟩⟩ .answer 7 [1]) :=
  (keepsWrap_iff ⟨[97], 9⟩ [98] (some ⟨[5], []⟩) (some ⟨0, [], 3, 2, 77⟩) .answer 7 [1]
    (by decide)).mpr (Or.inr (Or.inl nofun))

/-- A wrapped request that came directly and is passed on to a name loses the wrap. -/
theorem wrap_left_behind :
    ¬ KeepsWrap (some ⟨0, [], 3, 2, 77⟩) 7 [1]
      (WrapCall.sent ⟨[97], 9⟩ ⟨[98], .null, .valid ⟨0, [], 3, 2, 77⟩⟩ (.transTo [99]) 7 [1]) := by
  rintro ⟨packet, hsent, load, hdelivers, hunwraps⟩
  cases hsent
  exact bare_not_wrapped 7 [1] rfl hdelivers _ hunwraps

end ABRouteWriter

end ServiceFrame
