import ServiceFrame.Foundation.Run
import ServiceFrame.ServerLib.BRouteWriter

/-! # The context of the request in hand

`BRouteAppContext` of `server-lib`. A router is dispatched by its own load: what the writer
has to know is set before and cleared after the load is dispatched, which may be a router
again. A handler may leave with an exception; an `UnpackError` is caught by the dispatch
that called it, any other one leaves them all.
-/

namespace ServiceFrame

open Foundation

/-- `PBrachRoute::uri`. -/
def PBrachRoute.uri : UInt32 := (135 : UInt32) <<< 8 ||| ROUTE_SVID

/-- `PSS_PingRouter::uri`. -/
def PSS_PingRouter.uri : UInt32 := (140 : UInt32) <<< 8 ||| ROUTE_SVID

/-- `PSS_PingRouterRes::uri`. -/
def PSS_PingRouterRes.uri : UInt32 := (141 : UInt32) <<< 8 ||| ROUTE_SVID

namespace BRouteAppContext

/-- A `Request` whose head was read, with what the routing entries set. -/
structure RoutedRequest where
  uri : UInt32
  resCode : UInt16
  key : List UInt8
  toName : List UInt8
  up : Unpack
deriving DecidableEq

/-! ## Handlers -/

/-- A call of an answer function of the writer. -/
inductive AnswerCall where
  | answer (uri : UInt32) (resCode : UInt16) (obj : List UInt8)
  | answerErr (uri : UInt32) (resCode : UInt16)
  | answerWithProxyInfo (uri : UInt32) (resCode : UInt16) (obj : List UInt8)
  | answerProxyReliable (uri : UInt32) (resCode : UInt16) (obj : List UInt8)
  | answerWithWrapHead (uri : UInt32) (obj : List UInt8)

/-- How a handler is left: any exception but an `UnpackError` is `thrown`. -/
inductive Ending where
  | returned
  | unpackError
  | thrown
deriving DecidableEq

/-- What a handler does with a request. -/
structure Behaviour where
  calls : List AnswerCall
  ending : Ending

/-- The entries that the application added, and what their handlers do this time. -/
abbrev Handlers := UInt32 → Option (RoutedRequest → Behaviour)

variable (server : IDaemonServer)

/-- What a call sends; there is no result when it reads through a dangling pointer. -/
def AnswerCall.sends (rw : ABRouteWriter) : AnswerCall → Option (List IPacketBase)
  | answer uri resCode obj => some [ABRouteWriter.answer server rw uri resCode obj]
  | answerErr uri resCode => some [ABRouteWriter.answerErr server rw uri resCode]
  | answerWithProxyInfo uri resCode obj => rw.AnswerWithProxyInfo server uri resCode obj
  | answerProxyReliable uri resCode obj => rw.AnswerProxyReliable uri resCode obj
  | answerWithWrapHead uri obj => rw.AnswerWithWrapHead server uri obj

/-- All that the calls of a handler send, in their order. -/
def sendsAll (rw : ABRouteWriter) (calls : List AnswerCall) : Option (List IPacketBase) :=
  (calls.mapM (AnswerCall.sends server rw)).map List.flatten

/-! ## The entries of the context itself -/

/-- A routing entry: it sets the writer, dispatches the request that it carries, and clears
the writer. -/
structure Layer where
  enter : ABRouteWriter → ABRouteWriter
  request : ABRouteWriter → RoutedRequest
  leave : ABRouteWriter → ABRouteWriter

/-- The request that a router carries. -/
def carried (base : RouterBase) (toName : List UInt8) : RoutedRequest where
  uri := base.ruri
  resCode := base.resCode
  key := base.fromName
  toName := toName
  up := base.load

def OnRouteProxy (rt : PProxyRouter) : Layer where
  enter rw := (rw.setFrom rt.base.fromName).SetProxyInfo (.valid rt.objProxyInfo)
  request _ := carried rt.base []
  leave rw := (rw.SetProxyInfo .null).setFrom []

def route (rt : PRouter) : Layer where
  enter rw := rw.setFrom rt.base.fromName
  request _ := carried rt.base rt.toName
  leave rw := rw.setFrom []

def routeS (rt : PServerIdRouter) : Layer where
  enter rw := rw.setFrom rt.base.fromName
  request _ := carried rt.base []
  leave rw := rw.setFrom []

/-- `branch(br, conn)`: the load has a head of its own, which may be too short. -/
def branch (load : List UInt8) : Except UnpackError Layer :=
  (Unpack.popUint32 load).bind fun (_, up) =>
    (Unpack.popUint32 up).bind fun (uri, up) =>
      (Unpack.popUint16 up).bind fun (resCode, up) =>
        .ok {
          enter := fun rw => rw.setFrom []
          request := fun _ => { uri := uri, resCode := resCode, key := [], toName := [], up := up }
          leave := id }

def OnPSS_WrapRequest (p : PSS_WrapRequest) : Layer where
  enter rw := rw.SetWrapHead (.valid p)
  request rw :=
    { uri := p.uri, resCode := RES_SUCCESS, key := rw.tmpFrom, toName := [], up := p.strPacket }
  leave rw := rw.SetWrapHead .null

/-- What `requestDispatch` finds for a uri: nothing to call, a routing entry, or a handler. -/
inductive Entry where
  | nothing
  | layer (layer : Layer)
  | handler

/-- A routing entry is called when its message was unpacked, which is tried for a request
without an error only. -/
def Entry.called {Message : Type} (marshal : Marshal Message)
    (proc : Message → Except UnpackError Layer) (rq : RoutedRequest) : Entry :=
  if rq.resCode = RES_SUCCESS then
    match (marshal.pop marshal.fresh rq.up).bind fun (cmd, _) => proc cmd with
    | .ok found => .layer found
    | .error _ => .nothing
  else .nothing

/-- The form map. -/
def entry (rq : RoutedRequest) : Entry :=
  if rq.uri = PRouter.uri then .called PRouter.marshal (fun rt => .ok (route rt)) rq
  else if rq.uri = PServerIdRouter.uri then
    .called PServerIdRouter.marshal (fun rt => .ok (routeS rt)) rq
  else if rq.uri = PBrachRoute.uri then .called .varstr branch rq
  else if rq.uri = PProxyRouter.uri then
    .called PProxyRouter.marshal (fun rt => .ok (OnRouteProxy rt)) rq
  else if rq.uri = PSS_WrapRequest.wrapUri then
    .called PSS_WrapRequest.marshal (fun p => .ok (OnPSS_WrapRequest p)) rq
  else .handler

/-- `OnPing()`, or the handler that the application added. -/
def behaviour (handlers : Handlers) (rq : RoutedRequest) : Option Behaviour :=
  if rq.uri = PSS_PingRouter.uri then
    some ⟨[.answer PSS_PingRouterRes.uri RES_SUCCESS []], .returned⟩
  else (handlers rq.uri).map fun handler => handler rq

/-- What a dispatch leaves: the writer, what was sent, and whether an exception is on its way. -/
structure Dispatched where
  rw : ABRouteWriter
  sent : List IPacketBase
  thrown : Bool
deriving DecidableEq

/-- What the handler of a request does, when there is one. -/
def reached (handlers : Handlers) (rq : RoutedRequest) : Option Behaviour :=
  match entry rq with
  | .handler => behaviour handlers rq
  | _ => none

/-- A request that no routing entry takes; an `UnpackError` ends with it. -/
def serve (handlers : Handlers) (rw : ABRouteWriter) (rq : RoutedRequest) : Option Dispatched :=
  match reached handlers rq with
  | some does => (sendsAll server rw does.calls).map fun sent => ⟨rw, sent, does.ending = .thrown⟩
  | none => some ⟨rw, [], false⟩

/-! ### What is carried is shorter -/

section Shorter

variable {up rest : Unpack} {rq : RoutedRequest}

theorem length_load {target base : RouterBase}
    (hpop : RouterBase.marshal.pop target up = .ok (base, rest)) :
    base.load.length < up.length := by
  obtain ⟨fields, hfields, rfl⟩ := Marshal.popAs_ok hpop
  obtain ⟨afterTtl, httl, hfields⟩ := Marshal.popBoth_ok hfields
  obtain ⟨afterFrom, hfrom, hfields⟩ := Marshal.popBoth_ok hfields
  obtain ⟨afterUri, huri, hfields⟩ := Marshal.popBoth_ok hfields
  obtain ⟨afterCode, hcode, hload⟩ := Marshal.popBoth_ok hfields
  have httl := Unpack.length_popUint8 httl
  have hfrom := Unpack.length_popVarstr hfrom
  have huri := Unpack.length_popUint32 huri
  have hcode := Unpack.length_popUint16 hcode
  have hload := Unpack.length_popVarstr32 hload
  simp only [RouterBase.view, Equiv.coe_fn_symm_mk]
  omega

/-- A router starts with the fields that all routers have. -/
theorem length_router {Router Field : Type} {view : Router ≃ RouterBase × Field}
    {field : Marshal Field} {target router : Router}
    (hpop : (Marshal.record view (.pair RouterBase.marshal field)).pop target up =
      .ok (router, rest)) : (view router).1.load.length < up.length := by
  obtain ⟨fields, hfields, rfl⟩ := Marshal.popAs_ok hpop
  obtain ⟨behind, hbase, -⟩ := Marshal.popBoth_ok hfields
  rw [Equiv.apply_symm_apply]
  exact length_load hbase

theorem length_branch {load : List UInt8} {layer : Layer} (hbranch : branch load = .ok layer)
    (rw : ABRouteWriter) : (layer.request rw).up.length < load.length := by
  obtain ⟨⟨length, afterLength⟩, hlength, hbranch⟩ := Pack.bind_ok hbranch
  obtain ⟨⟨uri, afterUri⟩, huri, hbranch⟩ := Pack.bind_ok hbranch
  obtain ⟨⟨resCode, afterCode⟩, hcode, hbranch⟩ := Pack.bind_ok hbranch
  cases hbranch
  have hlength := Unpack.length_popUint32 hlength
  have huri := Unpack.length_popUint32 huri
  have hcode := Unpack.length_popUint16 hcode
  dsimp only
  omega

theorem length_wrap {target p : PSS_WrapRequest}
    (hpop : PSS_WrapRequest.marshal.pop target up = .ok (p, rest)) :
    p.strPacket.length < up.length := by
  obtain ⟨fields, hfields, rfl⟩ := Marshal.popAs_ok hpop
  obtain ⟨afterUri, huri, hfields⟩ := Marshal.popBoth_ok hfields
  obtain ⟨afterPacket, hpacket, -⟩ := Marshal.popBoth_ok hfields
  have huri := Unpack.length_popUint32 huri
  have hpacket := Unpack.length_popVarstr32 hpacket
  simp only [PSS_WrapRequest.view, Equiv.coe_fn_symm_mk]
  omega

/-- A routing entry was called for a message that was unpacked. -/
theorem called_layer {Message : Type} {marshal : Marshal Message}
    {proc : Message → Except UnpackError Layer} {layer : Layer}
    (hcalled : Entry.called marshal proc rq = .layer layer) :
    ∃ cmd rest, marshal.pop marshal.fresh rq.up = .ok (cmd, rest) ∧ proc cmd = .ok layer := by
  unfold Entry.called at hcalled
  split at hcalled
  · split at hcalled
    next hproc =>
      cases hcalled
      obtain ⟨⟨cmd, rest⟩, hpop, hproc⟩ := Pack.bind_ok hproc
      exact ⟨cmd, rest, hpop, hproc⟩
    next => cases hcalled
  · cases hcalled

/-- The routing entries, one by one. -/
theorem layer_cases {layer : Layer} (hlayer : entry rq = .layer layer) :
    (∃ rt rest, PRouter.marshal.pop PRouter.marshal.fresh rq.up = .ok (rt, rest) ∧
      layer = route rt) ∨
    (∃ rt rest, PServerIdRouter.marshal.pop PServerIdRouter.marshal.fresh rq.up = .ok (rt, rest) ∧
      layer = routeS rt) ∨
    (∃ load rest, rq.up.popVarstr = .ok (load, rest) ∧ branch load = .ok layer) ∨
    (∃ rt rest, PProxyRouter.marshal.pop PProxyRouter.marshal.fresh rq.up = .ok (rt, rest) ∧
      layer = OnRouteProxy rt) ∨
    ∃ p rest, PSS_WrapRequest.marshal.pop PSS_WrapRequest.marshal.fresh rq.up = .ok (p, rest) ∧
      layer = OnPSS_WrapRequest p := by
  unfold entry at hlayer
  split_ifs at hlayer
  · obtain ⟨rt, rest, hpop, hproc⟩ := called_layer hlayer
    cases hproc
    exact Or.inl ⟨rt, rest, hpop, rfl⟩
  · obtain ⟨rt, rest, hpop, hproc⟩ := called_layer hlayer
    cases hproc
    exact Or.inr (Or.inl ⟨rt, rest, hpop, rfl⟩)
  · obtain ⟨load, rest, hpop, hproc⟩ := called_layer hlayer
    exact Or.inr (Or.inr (Or.inl ⟨load, rest, hpop, hproc⟩))
  · obtain ⟨rt, rest, hpop, hproc⟩ := called_layer hlayer
    cases hproc
    exact Or.inr (Or.inr (Or.inr (Or.inl ⟨rt, rest, hpop, rfl⟩)))
  · obtain ⟨p, rest, hpop, hproc⟩ := called_layer hlayer
    cases hproc
    exact Or.inr (Or.inr (Or.inr (Or.inr ⟨p, rest, hpop, rfl⟩)))

theorem length_request {layer : Layer} (hlayer : entry rq = .layer layer) (rw : ABRouteWriter) :
    (layer.request rw).up.length < rq.up.length := by
  obtain ⟨rt, rest, hpop, rfl⟩ | ⟨rt, rest, hpop, rfl⟩ | ⟨load, rest, hpop, hbranch⟩ |
    ⟨rt, rest, hpop, rfl⟩ | ⟨p, rest, hpop, rfl⟩ := layer_cases hlayer
  · exact length_router hpop
  · exact length_router hpop
  · have hload := Unpack.length_popVarstr hpop
    have hrequest := length_branch hbranch rw
    omega
  · exact length_router hpop
  · exact length_wrap hpop

end Shorter

/-- `requestDispatch(request, conn)`. An exception that leaves the inner dispatch leaves the
routing entry before it clears the writer. -/
def requestDispatch (handlers : Handlers) (rw : ABRouteWriter) (rq : RoutedRequest) :
    Option Dispatched :=
  match _hentry : entry rq with
  | .layer layer =>
      (requestDispatch handlers (layer.enter rw) (layer.request rw)).map fun inner =>
        if inner.thrown then inner else { inner with rw := layer.leave inner.rw }
  | _ => serve server handlers rw rq
termination_by rq.up.length
decreasing_by exact length_request _hentry rw

/-- The request that is reached through all its layers, and what the writer was told about it:
the layers of one packet only add to each other, and nothing is taken back. -/
def scope (rw : ABRouteWriter) (rq : RoutedRequest) : ABRouteWriter × RoutedRequest :=
  match _hentry : entry rq with
  | .layer layer => scope (layer.enter rw) (layer.request rw)
  | _ => (rw, rq)
termination_by rq.up.length
decreasing_by exact length_request _hentry rw

section Dispatch

variable {server} {handlers : Handlers} {rw : ABRouteWriter} {rq : RoutedRequest} {layer : Layer}

end Dispatch

/-! ## What is left behind -/

/-- Each of the three is as it was, or cleared. -/
structure Cleared (before after : ABRouteWriter) : Prop where
  tmpFrom : after.tmpFrom = before.tmpFrom ∨ after.tmpFrom = []
  pProxyInfo : after.pProxyInfo = before.pProxyInfo ∨ after.pProxyInfo = .null
  pWrapHead : after.pWrapHead = before.pWrapHead ∨ after.pWrapHead = .null

/-- What the writer knows was not destroyed. -/
structure Sound (rw : ABRouteWriter) : Prop where
  pProxyInfo : rw.pProxyInfo ≠ .dangling
  pWrapHead : rw.pWrapHead ≠ .dangling

section Left

variable {server} {handlers : Handlers} {rw after : ABRouteWriter} {rq : RoutedRequest}
  {layer : Layer}

theorem Cleared.refl (rw : ABRouteWriter) : Cleared rw rw := ⟨.inl rfl, .inl rfl, .inl rfl⟩

end Left

/-! ## One dispatch -/

section Spec

variable {server} {handlers : Handlers} {rw : ABRouteWriter} {rq : RoutedRequest}
  {result : Dispatched}

end Spec

/-! ## A run of requests -/

/-- A request that comes in, and what the handlers do this time. -/
structure Event where
  handlers : Handlers
  rq : RoutedRequest

/-- The object that is pointed to is destroyed. -/
def destroyed {Target : Type} : Pointer Target → Pointer Target
  | .null => .null
  | .valid _ => .dangling
  | .dangling => .dangling

/-- An exception destroys the messages of the routing entries on its way. -/
def unwound (rw : ABRouteWriter) : ABRouteWriter :=
  { rw with pProxyInfo := destroyed rw.pProxyInfo, pWrapHead := destroyed rw.pWrapHead }

/-- The writer after a request, which an exception does not stop the server from. -/
def step (rw : ABRouteWriter) (event : Event) : Option ABRouteWriter :=
  (requestDispatch server event.handlers rw event.rq).map fun result =>
    if result.thrown then unwound result.rw else result.rw

/-- What the layers of a request tell a writer that knows nothing, and the request reached. -/
def own (rq : RoutedRequest) : ABRouteWriter × RoutedRequest := scope .neutral rq

section Runs

variable {server}

end Runs

end BRouteAppContext

end ServiceFrame
