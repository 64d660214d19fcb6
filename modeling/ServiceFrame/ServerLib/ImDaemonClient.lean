import ServiceFrame.ImLib.ImMLRouter
import ServiceFrame.ServerLib.BRouteWriter
import ServiceFrame.ServerLib.DaemonRoutes
import ServiceFrame.ServerLib.MultiServer
import ServiceFrame.ServerLib.NameChannel

/-! # Dispatch over the networks

`CImDaemonClient::dispatchByServerIdSV` of `server-lib` hands a packet to the server itself, or to
imbridges that forward it. A packet is taken to fit its buffer, so that what is sent are the bytes
that it packs to.

Channels send through the same call again, so that it is given fuel. What the network does and
what is drawn at random are parameters, by their number in the call. Left out: the counters of
`incStat`, and the logs.
-/

namespace ServiceFrame

open Foundation

open DaemonClient (NONE_SERVER_ID RunsAs SUFFIX_IMBRIDGE)

/-! ## Packets -/

namespace PSS_SyncRouter

def uri : UInt32 := (138 : UInt32) <<< 8 ||| ROUTE_SVID

/-- The bytes that `marshal` writes. -/
def packed (sync : PSS_SyncRouter RouterBase) : List UInt8 :=
  throughSeqId.packed sync.common ++ leBytes 8 sync.sendTime.toNat ++
    leBytes 4 sync.bridgeId.toNat

theorem marshal_packed {sync : PSS_SyncRouter RouterBase} {p q : Pack}
    (hput : sync.marshal p = .ok q) : Pack.Wrote p q sync.packed := by
  obtain ⟨timed, htimed, hbridge⟩ := Pack.bind_ok hput
  obtain ⟨common, hcommon, htime⟩ := Pack.bind_ok htimed
  exact ((throughSeqId.put_packed hcommon).trans (Pack.push_ok htime)).trans (Pack.push_ok hbridge)

/-- Only the bridge id differs, so the bytes tell it. -/
theorem packed_bridgeId {sync : PSS_SyncRouter RouterBase} {first second : UInt32}
    (hbytes : { sync with bridgeId := first }.packed = { sync with bridgeId := second }.packed) :
    first = second := by
  have hends : leBytes 4 first.toNat = leBytes 4 second.toNat := List.append_cancel_left hbytes
  have hfirst : leNat (leBytes 4 first.toNat) = first.toNat := leNat_leBytes first.toNat_lt
  rw [← UInt32.toNat_inj, ← hfirst, hends]
  exact leNat_leBytes second.toNat_lt

end PSS_SyncRouter

namespace PSS_AckRouter

def uri : UInt32 := (139 : UInt32) <<< 8 ||| ROUTE_SVID

/-- The bridge id is not sent. -/
def fields (ack : PSS_AckRouter) : UInt8 × UInt32 × UInt32 × UInt32 × UInt32 :=
  (ack.enType.code, ack.srcId, ack.dstId, ack.seqId, ack.expectId)

def marshal : Marshal (UInt8 × UInt32 × UInt32 × UInt32 × UInt32) :=
  .pair .uint8 (.pair .uint32 (.pair .uint32 (.pair .uint32 .uint32)))

end PSS_AckRouter

structure PSS_ForwardToServerEx where
  m_uSvrId : UInt32
  m_uUri : UInt32
  m_strCtx : List UInt8
deriving DecidableEq

namespace PSS_ForwardToServerEx

def uri : UInt32 := (14 : UInt32) <<< 8 ||| IMBRIDGE_SVID

def view : PSS_ForwardToServerEx ≃ UInt32 × UInt32 × List UInt8 where
  toFun msg := (msg.m_uSvrId, msg.m_uUri, msg.m_strCtx)
  invFun fields := ⟨fields.1, fields.2.1, fields.2.2⟩
  left_inv _ := rfl
  right_inv _ := rfl

def marshal : Marshal PSS_ForwardToServerEx :=
  .record view (.pair .uint32 (.pair .uint32 .varstr32))

end PSS_ForwardToServerEx

/-- What is handed to a dispatch. Only a SYNC and an ACK have the uris of these, so that the
casts are to what the packet is. -/
inductive Outgoing where
  | sync (p : PSS_SyncRouter RouterBase)
  | ack (p : PSS_AckRouter)
  | router (pr : PServerIdRouter)
  | other (uri : UInt32) (body : List UInt8)
      (huri : uri ≠ PSS_SyncRouter.uri ∧ uri ≠ PSS_AckRouter.uri)

namespace Outgoing

def uri : Outgoing → UInt32
  | sync _ => PSS_SyncRouter.uri
  | ack _ => PSS_AckRouter.uri
  | router _ => PServerIdRouter.uri
  | other uri _ _ => uri

/-- `PacketToString(obj, m_strCtx)`. -/
def bytes : Outgoing → List UInt8
  | sync p => p.packed
  | ack p => packLoad PSS_AckRouter.marshal p.fields
  | router pr => packLoad PServerIdRouter.marshal pr
  | other _ body _ => body

end Outgoing

/-! ## The dispatch -/

/-- What the client asks the server that it is part of. -/
structure IServer extends IDaemonServer where
  netType : UInt32

structure CImDaemonClient where
  client : ChannelClient
  server : Option IServer
  pServerSelector : Option CServerSelectorImp

/-- A call of `DaemonClient::dispatchByServerIdSV`. -/
structure Dispatch where
  obj : Outgoing
  attempt : Attempt

/-- What the calls so far have done. -/
structure DispatchRun where
  im : CImDaemonClient
  dispatches : List Dispatch
  /-- How many servers have been drawn. -/
  draws : Nat

/-- What the call leaves; the packet may have been written to. -/
structure Returned where
  run : DispatchRun
  obj : Outgoing
  outcome : Dispatched

/-- What is outside of the program. Nothing sets the `serverId` of a `PServerIdRouter`. -/
structure World where
  network : Nat → Network
  pick : Nat → Nat
  unset : Nat → UInt32

namespace CImDaemonClient

/-- The server with this id, unless it is the null server. -/
def getServerSV (im : CImDaemonClient) (s : Nat) : Option FavorStrSV :=
  (im.client.daemon.sid2FavorSV.find s).filter fun fa => fa.serverId ≠ NONE_SERVER_ID

def route (im : CImDaemonClient) (fa : FavorStrSV) : Option Nat :=
  im.client.daemon.mapGid2Route.find fa.groupId

/-- With a bridge, `uBridgeSid`; 0 is for any imbridge. -/
def useBridge (im : CImDaemonClient) (server : IServer) (fa : FavorStrSV) : Option Nat :=
  if fa.sstr = SUFFIX_IMBRIDGE then none
  else
    match im.route fa with
    | some uBridgeSid => if uBridgeSid ≠ 0 then some uBridgeSid else none
    | none =>
        if server.netType = CTL ∧ fa.dip = 0 then some 0
        else if server.netType = CNC ∧ fa.wip = 0 then some 0
        else none

end CImDaemonClient

namespace DispatchRun

variable (md5 : List UInt8 → UInt32) (world : World)

def start (im : CImDaemonClient) : DispatchRun := ⟨im, [], 0⟩

/-- `DaemonClient::dispatchByServerIdSV`. -/
def dispatchBase (run : DispatchRun) (serverId : Nat) (obj : Outgoing) :
    DispatchRun × Dispatched :=
  let (client, attempt) :=
    run.im.client.dispatchByServerIdSV serverId (world.network run.dispatches.length)
  ({ run with
      im := { run.im with client := client }
      dispatches := run.dispatches ++ [⟨obj, attempt⟩] },
    attempt.outcome)

/-- A `PServerIdRouter` with the message as its load. -/
def routerOf (run : DispatchRun) (server : IServer) (objMsg : PSS_ForwardToServerEx) : Outgoing :=
  .router ⟨routerBase server.fullName PSS_ForwardToServerEx.uri RES_SUCCESS
    (packLoad PSS_ForwardToServerEx.marshal objMsg), world.unset run.dispatches.length⟩

def forwardOf (serverId : Nat) (obj : Outgoing) : PSS_ForwardToServerEx :=
  ⟨serverId.toUInt32, obj.uri, obj.bytes⟩

/-- The loop over `vecBridgeSids`. -/
def multiRoute (server : IServer) (serverId : Nat) :
    DispatchRun → PSS_SyncRouter RouterBase → List UInt32 → Returned
  | run, p, [] => ⟨run, .sync p, .success⟩
  | run, p, it :: rest =>
      let p := { p with bridgeId := it }
      let (run, outcome) := run.dispatchBase world it.toNat
        (run.routerOf world server (forwardOf serverId (.sync p)))
      match outcome with
      | .exception => ⟨run, .sync p, .exception⟩
      | _ => multiRoute server serverId run p rest

/-- `vecBridgeSids`, if there is a selector. -/
def bridgesFor (run : DispatchRun) (server : IServer) (serverId : Nat) :
    Option (DispatchRun × List UInt32) :=
  match run.im.pServerSelector with
  | none => some (run, [])
  | some pServerSelector => do
      let (pServerSelector, _, vecBridgeSids) ← pServerSelector.hashMultiServer md5
        (server.serverId + serverId.toUInt32) 3 SUFFIX_IMBRIDGE
      some ({ run with im := { run.im with pServerSelector := some pServerSelector } },
        vecBridgeSids)

/-- A server is drawn for the channel of `name`. -/
def drawFor (run : DispatchRun) (name : String) (serverId : Nat) : DispatchRun × Nat :=
  let again := run.im.client.randomServer name serverId (world.pick run.draws)
  ({ run with
      im := { run.im with
        client := { run.im.client with ncs := run.im.client.ncs.set name again } }
      draws := run.draws + 1 },
    again)

section Virtual

-- what a channel calls, which is virtual
variable (dispatch : DispatchRun → Nat → Outgoing → Option Returned)

/-- `NameChannel::send`; it returns 0 unless there is no server. -/
def send (run : DispatchRun) (name : String) (serverId : Nat) (obj : Outgoing) :
    Option Returned := do
  let tried ← dispatch run serverId obj
  match tried.outcome with
  | .failure =>
      let (run, again) := tried.run.drawFor world name serverId
      if again ≠ NONE_SERVER_ID then
        let retried ← dispatch run again tried.obj
        match retried.outcome with
        | .exception => some retried
        | _ => some { retried with outcome := .success }
      else some { tried with run := run }
  | _ => some tried

def dispatchToServerRandom (run : DispatchRun) (server : IServer) (name : String)
    (obj : PSS_ForwardToServerEx) : Option Returned :=
  let rn := ChannelClient.routeName name
  let (run, serverId) :=
    match run.im.client.ncs.find rn with
    | some serverId => (run, serverId)
    | none => run.drawFor world rn NONE_SERVER_ID
  run.send world dispatch rn serverId (run.routerOf world server obj)

/-- The last part: one bridge, or any imbridge. -/
def oneRoute (run : DispatchRun) (server : IServer) (serverId uBridgeSid : Nat)
    (obj : Outgoing) : Option Returned :=
  let objMsg := forwardOf serverId obj
  if uBridgeSid ≠ 0 then
    let (run, outcome) := run.dispatchBase world uBridgeSid (run.routerOf world server objMsg)
    some ⟨run, obj, outcome⟩
  else do
    let sent ← run.dispatchToServerRandom world dispatch server SUFFIX_IMBRIDGE objMsg
    match sent.outcome with
    | .exception => some ⟨sent.run, obj, .exception⟩
    | _ => some ⟨sent.run, obj, .success⟩

def bridge (run : DispatchRun) (server : IServer) (serverId uBridgeSid : Nat) (obj : Outgoing) :
    Option Returned :=
  match obj with
  | .sync p =>
      if p.enType = .dataMultiRoute then do
        let (run, vecBridgeSids) ← run.bridgesFor md5 server serverId
        if vecBridgeSids ≠ [] then some (multiRoute world server serverId run p vecBridgeSids)
        else run.oneRoute world dispatch server serverId uBridgeSid obj
      else run.oneRoute world dispatch server serverId uBridgeSid obj
  | .ack p =>
      if p.enType = .dataMultiRoute then
        run.oneRoute world dispatch server serverId p.bridgeId.toNat obj
      else run.oneRoute world dispatch server serverId uBridgeSid obj
  | _ => run.oneRoute world dispatch server serverId uBridgeSid obj

/-- The body of the call. -/
def dispatchIn (run : DispatchRun) (serverId : Nat) (obj : Outgoing) : Option Returned :=
  let direct :=
    let (run, outcome) := run.dispatchBase world serverId obj
    some ⟨run, obj, outcome⟩
  if serverId = 0 then direct
  else
    match run.im.server, run.im.getServerSV serverId with
    | some server, some fa =>
        match run.im.useBridge server fa with
        | some uBridgeSid => run.bridge md5 world dispatch server serverId uBridgeSid obj
        | none => direct
    | _, _ => some ⟨run, obj, .failure⟩

end Virtual

def dispatchByServerIdSV : Nat → DispatchRun → Nat → Outgoing → Option Returned
  | 0, _, _, _ => none
  | fuel + 1, run, serverId, obj =>
      run.dispatchIn md5 world (dispatchByServerIdSV fuel) serverId obj

end DispatchRun

/-! ## What is to hold -/

namespace CImDaemonClient

/-- The own server has a line that the other is on, as `connectServerIdSV` tests it. -/
def Reachable (server : IServer) (fa : FavorStrSV) : Prop :=
  (server.netType &&& CTL = CTL ∧ fa.dip ≠ 0) ∨ (server.netType &&& CNC = CNC ∧ fa.wip ≠ 0)

/-- No bridge is needed. -/
def Directly (im : CImDaemonClient) (server : IServer) (fa : FavorStrSV) : Prop :=
  fa.sstr = SUFFIX_IMBRIDGE ∨ im.route fa = some 0 ∨
    (im.route fa = none ∧ Reachable server fa)

def LiveImbridge (im : CImDaemonClient) (id : Nat) : Prop :=
  ∃ fs, im.client.daemon.sid2FavorSV.find id = some fs ∧ RunsAs fs SUFFIX_IMBRIDGE

/-- The server is known, and so is the own net type. -/
def Known (im : CImDaemonClient) (serverId : Nat) (server : IServer) (fa : FavorStrSV) : Prop :=
  im.server = some server ∧ im.getServerSV serverId = some fa

end CImDaemonClient

/-- The copy for a bridge: a SYNC over several routes names it. -/
def Outgoing.copyFor (obj : Outgoing) (uBridgeId : UInt32) : Outgoing :=
  match obj with
  | sync p => if p.enType = .dataMultiRoute then sync { p with bridgeId := uBridgeId } else sync p
  | _ => obj

/-- The dispatch is of the server's id, the uri and the bytes, for an imbridge to forward. -/
def Dispatch.Forwards (dispatch : Dispatch) (serverId : Nat) (obj : Outgoing) : Prop :=
  ∃ pr, dispatch.obj = .router pr ∧ pr.base.ruri = PSS_ForwardToServerEx.uri ∧
    pr.base.load = packLoad PSS_ForwardToServerEx.marshal
      ⟨serverId.toUInt32, obj.uri, (obj.copyFor dispatch.attempt.serverId.toUInt32).bytes⟩

namespace CImDaemonClient

structure Bridges (im : CImDaemonClient) (serverId : Nat) (obj : Outgoing)
    (dispatches : List Dispatch) : Prop where
  forwards : ∀ dispatch ∈ dispatches, dispatch.Forwards serverId obj
  live : ∀ dispatch ∈ dispatches, im.LiveImbridge dispatch.attempt.serverId
  distinct : (dispatches.map fun dispatch => dispatch.attempt.serverId).Nodup
  back : ∀ p, obj = .ack p → p.enType = .dataMultiRoute → p.bridgeId ≠ 0 →
    dispatches.map (fun dispatch => dispatch.attempt.serverId) = [p.bridgeId.toNat]

structure Good (im : CImDaemonClient) (serverId : Nat) (obj : Outgoing) (last : Returned) :
    Prop where
  direct : ∀ server fa, im.Known serverId server fa → im.Directly server fa →
    ∃ attempt, attempt.serverId = serverId ∧ last.run.dispatches = [⟨obj, attempt⟩]
  bridged : ∀ server fa, im.Known serverId server fa → ¬ im.Directly server fa →
    im.Bridges serverId obj last.run.dispatches
  unknown : (∀ server fa, ¬ im.Known serverId server fa) → last.run.dispatches = []
  reports : last.outcome = .success →
    ∃ dispatch ∈ last.run.dispatches, dispatch.attempt.outcome = .success

/-- The call returns, whatever is outside of the program, and has done what it should. -/
def Sound (md5 : List UInt8 → UInt32) (im : CImDaemonClient) (serverId : Nat)
    (obj : Outgoing) : Prop :=
  ∀ world,
    (∃ fuel, DispatchRun.dispatchByServerIdSV md5 world fuel (.start im) serverId obj ≠ none) ∧
    ∀ fuel last,
      DispatchRun.dispatchByServerIdSV md5 world fuel (.start im) serverId obj = some last →
        im.Good serverId obj last

end CImDaemonClient

/-! ## When it does -/

/-- The bridge that is named: by the ACK of a SYNC over several routes, or by the route. -/
def Outgoing.namedBridge (obj : Outgoing) (uBridgeSid : Nat) : Nat :=
  match obj with
  | ack p => if p.enType = .dataMultiRoute then p.bridgeId.toNat else uBridgeSid
  | _ => uBridgeSid

/-- No server is delivered: the suffix is not registered, or has one server alone, or the chosen
values stand for none. -/
def CServerSelectorImp.OffersNone (md5 : List UInt8 → UInt32) (s : CServerSelectorImp)
    (uKey uValueCount : UInt32) (strSuffix : String) : Prop :=
  ∀ info, s.mapSuffix.find strSuffix = some info →
    s.Alone strSuffix info ∨
      (s.WalkEnds md5 uKey uValueCount strSuffix info ∧
        ∀ value ∈ s.chosen md5 uKey uValueCount strSuffix info,
          s.serverFor md5 uKey strSuffix info value = none)

namespace CImDaemonClient

/-- The selector, if there is one, has no imbridge for a SYNC over several routes. -/
def OffersNone (md5 : List UInt8 → UInt32) (im : CImDaemonClient) (server : IServer)
    (serverId : Nat) : Prop :=
  ∀ pServerSelector, im.pServerSelector = some pServerSelector →
    pServerSelector.OffersNone md5 (server.serverId + serverId.toUInt32) 3 SUFFIX_IMBRIDGE

/-- A server that is not reached directly is reached over one bridge, which is named and live;
without a route, the own server is on one line. -/
structure OverOneBridge (md5 : List UInt8 → UInt32) (im : CImDaemonClient) (serverId : Nat)
    (obj : Outgoing) (server : IServer) (fa : FavorStrSV) : Prop where
  oneLine : im.route fa = none → server.netType = CTL ∨ server.netType = CNC
  named : obj.namedBridge ((im.route fa).getD 0) ≠ 0
  live : im.LiveImbridge (obj.namedBridge ((im.route fa).getD 0))
  multi : ∀ p, obj = .sync p → p.enType = .dataMultiRoute →
    im.OffersNone md5 server serverId ∧
      p.bridgeId = (obj.namedBridge ((im.route fa).getD 0)).toUInt32

end CImDaemonClient

/-! ## The selector -/

section Selector

variable {md5 : List UInt8 → UInt32} {s : CServerSelectorImp} {uKey uValueCount : UInt32}
  {strSuffix : String}

theorem CServerSelectorImp.hashMultiServer_offers (md5 : List UInt8 → UInt32)
    (s : CServerSelectorImp) (uKey uValueCount : UInt32) (strSuffix : String) :
    (s.hashMultiServer md5 uKey uValueCount strSuffix = none ∧
        ¬ s.OffersNone md5 uKey uValueCount strSuffix) ∨
      ∃ next ret vecValues,
        s.hashMultiServer md5 uKey uValueCount strSuffix = some (next, ret, vecValues) ∧
          (vecValues = [] ↔ s.OffersNone md5 uKey uValueCount strSuffix) := by
  cases hinfo : s.mapSuffix.find strSuffix with
  | none =>
      have hanswer : s.hashMultiServer md5 uKey uValueCount strSuffix = some (s, true, []) := by
        rw [hashMultiServer, hinfo]
      refine .inr ⟨s, true, [], hanswer, fun _ info hsome => ?_, fun _ => rfl⟩
      rw [hinfo] at hsome
      cases hsome
  | some info =>
      have hnone : s.OffersNone md5 uKey uValueCount strSuffix ↔
          s.Alone strSuffix info ∨ (s.WalkEnds md5 uKey uValueCount strSuffix info ∧
            ∀ value ∈ s.chosen md5 uKey uValueCount strSuffix info,
              s.serverFor md5 uKey strSuffix info value = none) := by
        constructor
        · exact fun hoffers => hoffers info hinfo
        · intro hoffers other hother
          rw [hinfo, Option.some.injEq] at hother
          exact hother ▸ hoffers
      obtain ⟨halone, hstuck, hreturns⟩ := hashMultiServer_returns md5 uKey uValueCount hinfo
      by_cases hone : s.Alone strSuffix info
      · exact .inr ⟨s, true, [], halone hone, fun _ => hnone.mpr (.inl hone), fun _ => rfl⟩
      · by_cases hends : s.WalkEnds md5 uKey uValueCount strSuffix info
        · obtain ⟨last, values, hanswer, -, hvalues⟩ := hreturns hone hends
          refine .inr ⟨last, _, _, hanswer, ?_⟩
          rw [List.filterMap_eq_nil_iff, hnone]
          simp only [hvalues, hone, hends, false_or, true_and]
        · refine .inl ⟨hstuck hends, fun hoffers => ?_⟩
          rcases hnone.mp hoffers with hsingle | ⟨hwalk, -⟩
          · exact hone hsingle
          · exact hends hwalk

end Selector

/-! ## Single dispatches -/

theorem ChannelClient.dispatchByServerIdSV_serverId (client : ChannelClient) (serverId : Nat)
    (network : Network) : (client.dispatchByServerIdSV serverId network).2.serverId = serverId := by
  unfold dispatchByServerIdSV
  split
  · rfl
  · split
    · split
      · rfl
      · rfl
    · rfl

/-- Without connections to make, and when each send throws, no packet is accepted. -/
theorem ChannelClient.dispatchByServerIdSV_cut (client : ChannelClient) (serverId : Nat) :
    (client.dispatchByServerIdSV serverId ⟨false, true⟩).2.outcome = .failure := by
  unfold dispatchByServerIdSV
  split
  next cid hcid =>
    unfold dispatchById
    cases client.connects.find cid with
    | some conn => rfl
    | none => rfl
  next hnone =>
    have hconnect : client.connectServerIdSV serverId false = none := by
      unfold connectServerIdSV
      split
      · exact if_neg fun hmade => Bool.false_ne_true hmade.2
      · rfl
    rw [hconnect]

namespace DispatchRun

variable {md5 : List UInt8 → UInt32} {world : World}
  {dispatch : DispatchRun → Nat → Outgoing → Option Returned}

theorem dispatchBase_spec (world : World) (run : DispatchRun) (serverId : Nat) (obj : Outgoing) :
    ∃ next attempt, run.dispatchBase world serverId obj = (next, attempt.outcome) ∧
      next.dispatches = run.dispatches ++ [⟨obj, attempt⟩] ∧ attempt.serverId = serverId :=
  ⟨_, _, rfl, rfl, ChannelClient.dispatchByServerIdSV_serverId _ _ _⟩

theorem routerOf_forwards (world : World) (run : DispatchRun) (server : IServer) (serverId : Nat)
    {obj copy : Outgoing} {attempt : Attempt}
    (hcopy : obj.copyFor attempt.serverId.toUInt32 = copy) (huri : copy.uri = obj.uri) :
    (⟨run.routerOf world server (forwardOf serverId copy), attempt⟩ : Dispatch).Forwards
      serverId obj := by
  refine ⟨_, rfl, rfl, ?_⟩
  rw [hcopy, ← huri]
  rfl

/-! ## When nothing is accepted -/

/-- No connection can be made, and every send throws. -/
def cut : World := ⟨fun _ => ⟨false, true⟩, fun _ => 0, fun _ => 0⟩

def Refused (run : DispatchRun) : Prop :=
  ∀ dispatch ∈ run.dispatches, dispatch.attempt.outcome = .failure

theorem Refused.of_dispatches {run next : DispatchRun} (hrun : Refused run)
    (hsame : next.dispatches = run.dispatches) : Refused next := by
  rw [Refused, hsame]
  exact hrun

theorem dispatchBase_refused {run : DispatchRun} (hrun : Refused run) (serverId : Nat)
    (obj : Outgoing) :
    Refused (run.dispatchBase cut serverId obj).1 ∧
      (run.dispatchBase cut serverId obj).2 = .failure := by
  have hcut := run.im.client.dispatchByServerIdSV_cut serverId
  refine ⟨fun dispatch hdispatch => ?_, hcut⟩
  rcases List.mem_append.mp hdispatch with hbefore | hnow
  · exact hrun dispatch hbefore
  · rw [List.mem_singleton.mp hnow]
    exact hcut

theorem multiRoute_refused (server : IServer) (serverId : Nat) {run : DispatchRun}
    (hrun : Refused run) (p : PSS_SyncRouter RouterBase) (ids : List UInt32) :
    Refused (multiRoute cut server serverId run p ids).run ∧
      (multiRoute cut server serverId run p ids).outcome = .success := by
  induction ids generalizing run p with
  | nil => exact ⟨hrun, rfl⟩
  | cons it rest ih =>
      obtain ⟨hnext, hfailure⟩ := dispatchBase_refused hrun it.toNat
        (run.routerOf cut server (forwardOf serverId (.sync { p with bridgeId := it })))
      rw [multiRoute]
      dsimp only
      rw [hfailure]
      exact ih hnext _

/-- What a call does to a run in which nothing is accepted. -/
def KeepsRefused (dispatch : DispatchRun → Nat → Outgoing → Option Returned) : Prop :=
  ∀ run serverId obj last, Refused run → dispatch run serverId obj = some last →
    Refused last.run ∧ last.outcome ≠ .exception

theorem send_refused (hdispatch : KeepsRefused dispatch) {run : DispatchRun} (hrun : Refused run)
    {name : String} {serverId : Nat} {obj : Outgoing} {last : Returned}
    (hsend : run.send cut dispatch name serverId obj = some last) :
    Refused last.run ∧ last.outcome ≠ .exception := by
  obtain ⟨tried, htried, hsend⟩ := Option.bind_eq_some_iff.mp hsend
  obtain ⟨hnext, hthrown⟩ := hdispatch run serverId obj tried hrun htried
  cases houtcome : tried.outcome with
  | success =>
      rw [houtcome] at hsend
      cases hsend
      exact ⟨hnext, hthrown⟩
  | exception => exact absurd houtcome hthrown
  | failure =>
      rw [houtcome] at hsend
      dsimp only at hsend
      split at hsend
      next =>
        obtain ⟨retried, hretried, hlast⟩ := Option.bind_eq_some_iff.mp hsend
        have hdrawn : Refused (tried.run.drawFor cut name serverId).1 := hnext
        obtain ⟨hagain, hthrown⟩ := hdispatch _ _ _ retried hdrawn hretried
        split at hlast
        next hexception => exact absurd hexception hthrown
        next =>
          cases hlast
          exact ⟨hagain, nofun⟩
      next =>
        cases hsend
        exact ⟨hnext, nofun⟩

theorem dispatchToServerRandom_refused (hdispatch : KeepsRefused dispatch) {run : DispatchRun}
    (hrun : Refused run) {server : IServer} {name : String} {obj : PSS_ForwardToServerEx}
    {last : Returned}
    (hsent : run.dispatchToServerRandom cut dispatch server name obj = some last) :
    Refused last.run ∧ last.outcome ≠ .exception := by
  unfold dispatchToServerRandom at hsent
  dsimp only at hsent
  split at hsent
  · exact send_refused hdispatch hrun hsent
  · have hdrawn : Refused (run.drawFor cut (ChannelClient.routeName name) NONE_SERVER_ID).1 := hrun
    exact send_refused hdispatch hdrawn hsent

theorem oneRoute_refused (hdispatch : KeepsRefused dispatch) {run : DispatchRun}
    (hrun : Refused run) {server : IServer} {serverId uBridgeSid : Nat} {obj : Outgoing}
    {last : Returned}
    (hlast : run.oneRoute cut dispatch server serverId uBridgeSid obj = some last) :
    Refused last.run ∧ last.outcome ≠ .exception ∧ (uBridgeSid = 0 → last.outcome = .success) := by
  unfold oneRoute at hlast
  dsimp only at hlast
  split at hlast
  next hbridge =>
    obtain ⟨hnext, hfailure⟩ := dispatchBase_refused hrun uBridgeSid
      (run.routerOf cut server (forwardOf serverId obj))
    cases hlast
    dsimp only
    rw [hfailure]
    exact ⟨hnext, nofun, fun hzero => absurd hzero hbridge⟩
  next =>
    obtain ⟨sent, hsent, hlast⟩ := Option.bind_eq_some_iff.mp hlast
    obtain ⟨hnext, hthrown⟩ := dispatchToServerRandom_refused hdispatch hrun hsent
    split at hlast
    next hexception => exact absurd hexception hthrown
    next =>
      cases hlast
      exact ⟨hnext, nofun, fun _ => rfl⟩

/-! ## The routes of a packet -/

theorem bridgesFor_spec (md5 : List UInt8 → UInt32) (run : DispatchRun) (server : IServer)
    (serverId : Nat) :
    (run.bridgesFor md5 server serverId = none ∧ ¬ run.im.OffersNone md5 server serverId) ∨
      ∃ next vecBridgeSids, run.bridgesFor md5 server serverId = some (next, vecBridgeSids) ∧
        next.dispatches = run.dispatches ∧
        (vecBridgeSids = [] ↔ run.im.OffersNone md5 server serverId) := by
  unfold bridgesFor CImDaemonClient.OffersNone
  cases hselector : run.im.pServerSelector with
  | none =>
      refine .inr ⟨run, [], rfl, rfl, fun _ pServerSelector hsome => ?_, fun _ => rfl⟩
      cases hsome
  | some pServerSelector =>
      simp only [Option.some.injEq, forall_eq']
      rcases pServerSelector.hashMultiServer_offers md5 (server.serverId + serverId.toUInt32) 3
          SUFFIX_IMBRIDGE with ⟨hstuck, hoffers⟩ | ⟨next, ret, vecValues, hanswer, hoffers⟩
      · rw [hstuck]
        exact .inl ⟨rfl, hoffers⟩
      · rw [hanswer]
        exact .inr ⟨_, vecValues, rfl, rfl, hoffers⟩

theorem bridge_multi (md5 : List UInt8 → UInt32) (world : World)
    (dispatch : DispatchRun → Nat → Outgoing → Option Returned) (run : DispatchRun)
    (server : IServer) (serverId uBridgeSid : Nat) {p : PSS_SyncRouter RouterBase}
    (hmulti : p.enType = .dataMultiRoute) :
    run.bridge md5 world dispatch server serverId uBridgeSid (.sync p) =
      (run.bridgesFor md5 server serverId).bind fun bridges =>
        if bridges.2 ≠ [] then some (multiRoute world server serverId bridges.1 p bridges.2)
        else bridges.1.oneRoute world dispatch server serverId uBridgeSid (.sync p) :=
  if_pos hmulti

/-- Any other packet goes over the bridge that is named, or to any imbridge. -/
theorem bridge_single (md5 : List UInt8 → UInt32) (world : World)
    (dispatch : DispatchRun → Nat → Outgoing → Option Returned) (run : DispatchRun)
    (server : IServer) (serverId uBridgeSid : Nat) {obj : Outgoing}
    (hsingle : ∀ p, obj = .sync p → p.enType ≠ .dataMultiRoute) :
    run.bridge md5 world dispatch server serverId uBridgeSid obj =
      run.oneRoute world dispatch server serverId (obj.namedBridge uBridgeSid) obj := by
  cases obj with
  | sync p => exact if_neg (hsingle p rfl)
  | ack p =>
      unfold bridge Outgoing.namedBridge
      dsimp only
      split
      · rfl
      · rfl
  | router pr => rfl
  | other uri body huri => rfl

/-- A packet goes over several bridges, or over one, or to any imbridge. -/
theorem bridge_cases (md5 : List UInt8 → UInt32) (world : World)
    (dispatch : DispatchRun → Nat → Outgoing → Option Returned) (run : DispatchRun)
    (server : IServer) (serverId uBridgeSid : Nat) (obj : Outgoing) :
    ((∃ p, obj = .sync p ∧ p.enType = .dataMultiRoute) ∧
        ¬ run.im.OffersNone md5 server serverId ∧
        (run.bridge md5 world dispatch server serverId uBridgeSid obj = none ∨
          ∃ (next : DispatchRun) (p : PSS_SyncRouter RouterBase) (vecBridgeSids : List UInt32),
            next.dispatches = run.dispatches ∧
            run.bridge md5 world dispatch server serverId uBridgeSid obj =
              some (multiRoute world server serverId next p vecBridgeSids))) ∨
      ((∀ p, obj = .sync p → p.enType = .dataMultiRoute →
          run.im.OffersNone md5 server serverId) ∧
        ∃ next : DispatchRun, next.dispatches = run.dispatches ∧
          run.bridge md5 world dispatch server serverId uBridgeSid obj =
            next.oneRoute world dispatch server serverId (obj.namedBridge uBridgeSid) obj) := by
  by_cases hsync : ∃ p, obj = .sync p ∧ p.enType = .dataMultiRoute
  · obtain ⟨p, rfl, hmulti⟩ := hsync
    rw [bridge_multi md5 world dispatch run server serverId uBridgeSid hmulti]
    rcases run.bridgesFor_spec md5 server serverId with
      ⟨hstuck, hoffers⟩ | ⟨next, vecBridgeSids, hids, hsame, hoffers⟩
    · rw [hstuck]
      exact .inl ⟨⟨p, rfl, hmulti⟩, hoffers, .inl rfl⟩
    · rw [hids, Option.bind_some]
      dsimp only
      split
      next hsome =>
        exact .inl ⟨⟨p, rfl, hmulti⟩, fun hnone => hsome (hoffers.mpr hnone),
          .inr ⟨next, p, vecBridgeSids, hsame, rfl⟩⟩
      next hempty =>
        exact .inr ⟨fun _ _ _ => hoffers.mp (not_not.mp hempty), next, hsame, rfl⟩
  · have hsingle : ∀ p, obj = .sync p → p.enType ≠ .dataMultiRoute :=
      fun p hp hmulti => hsync ⟨p, hp, hmulti⟩
    exact .inr ⟨fun p hp hmulti => absurd hmulti (hsingle p hp), run, rfl,
      bridge_single md5 world dispatch run server serverId uBridgeSid hsingle⟩

theorem bridge_refused (hdispatch : KeepsRefused dispatch) {run : DispatchRun}
    (hrun : Refused run) {server : IServer} {serverId uBridgeSid : Nat} {obj : Outgoing}
    {last : Returned}
    (hlast : run.bridge md5 cut dispatch server serverId uBridgeSid obj = some last) :
    Refused last.run ∧ last.outcome ≠ .exception := by
  rcases run.bridge_cases md5 cut dispatch server serverId uBridgeSid obj with
    ⟨-, -, hstuck | ⟨next, p, vecBridgeSids, hsame, hmulti⟩⟩ | ⟨-, next, hsame, hone⟩
  · rw [hstuck] at hlast
    cases hlast
  · obtain ⟨hrefused, hsuccess⟩ :=
      multiRoute_refused server serverId (hrun.of_dispatches hsame) p vecBridgeSids
    rw [hmulti, Option.some.injEq] at hlast
    subst hlast
    refine ⟨hrefused, ?_⟩
    rw [hsuccess]
    decide
  · rw [hone] at hlast
    obtain ⟨hrefused, hthrown, -⟩ := oneRoute_refused hdispatch (hrun.of_dispatches hsame) hlast
    exact ⟨hrefused, hthrown⟩

theorem dispatchIn_refused (hdispatch : KeepsRefused dispatch) :
    KeepsRefused fun run serverId obj => run.dispatchIn md5 cut dispatch serverId obj := by
  intro run serverId obj last hrun hlast
  have hdirect : Refused (run.dispatchBase cut serverId obj).1 ∧
      (run.dispatchBase cut serverId obj).2 ≠ .exception := by
    obtain ⟨hnext, hfailure⟩ := dispatchBase_refused hrun serverId obj
    refine ⟨hnext, ?_⟩
    rw [hfailure]
    decide
  dsimp only [dispatchIn] at hlast
  split at hlast
  · cases hlast
    exact hdirect
  split at hlast
  · split at hlast
    · exact bridge_refused hdispatch hrun hlast
    · cases hlast
      exact hdirect
  · cases hlast
    exact ⟨hrun, nofun⟩

theorem dispatchByServerIdSV_refused (fuel : Nat) :
    KeepsRefused (dispatchByServerIdSV md5 cut fuel) := by
  induction fuel with
  | zero =>
      intro run serverId obj last _ hnone
      cases hnone
  | succ fuel ih => exact dispatchIn_refused ih

end DispatchRun

namespace CImDaemonClient

variable {im : CImDaemonClient} {server : IServer} {fa : FavorStrSV} {serverId : Nat}
  {obj : Outgoing}

/-! ## Which servers get a bridge -/

theorem reachable_ctl (htype : server.netType = CTL) : Reachable server fa ↔ fa.dip ≠ 0 := by
  have hcnc : ¬ CTL &&& CNC = CNC := by decide
  rw [Reachable, htype, and_iff_right (by decide), or_iff_left fun hwip => hcnc hwip.1]

theorem reachable_cnc (htype : server.netType = CNC) : Reachable server fa ↔ fa.wip ≠ 0 := by
  have hctl : ¬ CNC &&& CTL = CTL := by decide
  rw [Reachable, htype, or_iff_right fun hdip => hctl hdip.1, and_iff_right (by decide)]

theorem useBridge_directly (hdirectly : im.Directly server fa) : im.useBridge server fa = none := by
  unfold useBridge
  rcases hdirectly with himbridge | hroute | ⟨hroute, hreachable⟩
  · exact if_pos himbridge
  · rw [hroute]
    exact ite_self none
  · rw [hroute]
    have hdip : ¬(server.netType = CTL ∧ fa.dip = 0) :=
      fun ⟨htype, hzero⟩ => (reachable_ctl htype).mp hreachable hzero
    have hwip : ¬(server.netType = CNC ∧ fa.wip = 0) :=
      fun ⟨htype, hzero⟩ => (reachable_cnc htype).mp hreachable hzero
    dsimp only
    rw [if_neg hdip, if_neg hwip]
    exact ite_self none

/-- Another server has a bridge, unless its group has no route and the own server is not on one
line: then the packet goes to the server itself. -/
theorem useBridge_over (hdirectly : ¬ im.Directly server fa) :
    im.useBridge server fa =
      if im.route fa = none ∧ ¬(server.netType = CTL ∨ server.netType = CNC) then none
      else some ((im.route fa).getD 0) := by
  rw [Directly, not_or, not_or, not_and] at hdirectly
  obtain ⟨himbridge, hzero, hreachable⟩ := hdirectly
  unfold useBridge
  rw [if_neg himbridge]
  cases hroute : im.route fa with
  | some uBridgeSid =>
      have hsid : uBridgeSid ≠ 0 := by
        rintro rfl
        exact hzero hroute
      dsimp only
      rw [if_pos hsid, if_neg (fun h => nomatch h.1), Option.getD_some]
  | none =>
      have hfar := hreachable hroute
      dsimp only
      by_cases hctl : server.netType = CTL
      · have hdip : fa.dip = 0 := by rwa [reachable_ctl hctl, not_not] at hfar
        rw [if_pos ⟨hctl, hdip⟩, if_neg (fun h => h.2 (.inl hctl)), Option.getD_none]
      · rw [if_neg fun h => hctl h.1]
        by_cases hcnc : server.netType = CNC
        · have hwip : fa.wip = 0 := by rwa [reachable_cnc hcnc, not_not] at hfar
          rw [if_pos ⟨hcnc, hwip⟩, if_neg (fun h => h.2 (.inr hcnc)), Option.getD_none]
        · rw [if_neg fun h => hcnc h.1, if_pos ⟨rfl, fun hline => hline.elim hctl hcnc⟩]

/-! ## One bridge -/

theorem Known.unique {other : IServer} {another : FavorStrSV}
    (hknown : im.Known serverId server fa) (hother : im.Known serverId other another) :
    other = server ∧ another = fa := by
  obtain ⟨hserver, hfa⟩ := hknown
  obtain ⟨hsame, hsamefa⟩ := hother
  rw [hserver, Option.some.injEq] at hsame
  rw [hfa, Option.some.injEq] at hsamefa
  exact ⟨hsame.symm, hsamefa.symm⟩

/-- A packet is longer than what a router in it forwards. -/
theorem not_forwards_self {attempt : Attempt} :
    ¬(⟨obj, attempt⟩ : Dispatch).Forwards serverId obj := by
  rintro ⟨pr, hobj, -, hload⟩
  change obj = .router pr at hobj
  subst hobj
  have hlength := congrArg List.length hload
  have hbytes : (Outgoing.router pr).bytes.length ≥ pr.base.load.length := by
    simp only [Outgoing.bytes, packLoad, PServerIdRouter.marshal, RouterBase.marshal,
      PServerIdRouter.view, RouterBase.view, Marshal.packed, Equiv.coe_fn_mk, List.length_append]
    omega
  simp only [Outgoing.copyFor, packLoad, PSS_ForwardToServerEx.marshal, PSS_ForwardToServerEx.view,
    Marshal.packed, Equiv.coe_fn_mk, List.length_append, length_leBytes] at hlength
  omega

/-- What stands in a copy for one bridge is told by the bytes. -/
theorem forwards_once {world : World} {run : DispatchRun} {attempt : Attempt}
    (hforwards : (⟨run.routerOf world server (DispatchRun.forwardOf serverId obj), attempt⟩ :
      Dispatch).Forwards serverId obj) :
    ∀ p, obj = .sync p → p.enType = .dataMultiRoute →
      p.bridgeId = attempt.serverId.toUInt32 := by
  rintro p rfl hmulti
  obtain ⟨pr, hobj, -, hload⟩ := hforwards
  cases hobj
  change packLoad _ _ = packLoad _ _ at hload
  simp only [packLoad, PSS_ForwardToServerEx.marshal, PSS_ForwardToServerEx.view, Marshal.packed,
    Equiv.coe_fn_mk, DispatchRun.forwardOf, List.append_cancel_left_eq] at hload
  have hbytes := (List.append_inj hload (by rw [length_leBytes, length_leBytes])).2
  rw [Outgoing.copyFor, if_pos hmulti] at hbytes
  exact PSS_SyncRouter.packed_bridgeId hbytes

/-- One dispatch over the bridge that is named. -/
theorem bridges_one {world : World} {run : DispatchRun} {attempt : Attempt} {uBridgeSid : Nat}
    (hsid : attempt.serverId = obj.namedBridge uBridgeSid)
    (hlive : im.LiveImbridge (obj.namedBridge uBridgeSid))
    (hcopy : ∀ p, obj = .sync p → p.enType = .dataMultiRoute →
      p.bridgeId = (obj.namedBridge uBridgeSid).toUInt32) :
    im.Bridges serverId obj
      [⟨run.routerOf world server (DispatchRun.forwardOf serverId obj), attempt⟩] := by
  refine ⟨?_, ?_, List.nodup_singleton _, ?_⟩
  · intro dispatch hdispatch
    rw [List.mem_singleton.mp hdispatch]
    refine DispatchRun.routerOf_forwards world run server serverId ?_ rfl
    rw [hsid]
    cases obj with
    | sync p =>
        unfold Outgoing.copyFor
        dsimp only
        split
        next hmulti => rw [← hcopy p rfl hmulti]
        next => rfl
    | ack p => rfl
    | router pr => rfl
    | other uri body huri => rfl
  · intro dispatch hdispatch
    rw [List.mem_singleton.mp hdispatch]
    exact hsid ▸ hlive
  · rintro p rfl hmulti -
    rw [List.map_singleton, hsid, Outgoing.namedBridge, if_pos hmulti]

/-! ## Several bridges -/

/-- The copies go to the bridges in turn, and each names its own. An exception ends the loop. -/
theorem multiRoute_dispatches (world : World) (server : IServer) (serverId : Nat)
    {p : PSS_SyncRouter RouterBase} (hmulti : p.enType = .dataMultiRoute) (run : DispatchRun)
    (vecBridgeSids : List UInt32) :
    ∃ sent, (DispatchRun.multiRoute world server serverId run p vecBridgeSids).run.dispatches =
        run.dispatches ++ sent ∧
      sent.map (fun dispatch => dispatch.attempt.serverId) <+:
        vecBridgeSids.map UInt32.toNat ∧
      ∀ dispatch ∈ sent, dispatch.Forwards serverId (.sync p) := by
  induction vecBridgeSids generalizing run p with
  | nil => exact ⟨[], (List.append_nil _).symm, List.nil_prefix, nofun⟩
  | cons it rest ih =>
      obtain ⟨next, attempt, hbase, hnext, hid⟩ := run.dispatchBase_spec world it.toNat
        (run.routerOf world server
          (DispatchRun.forwardOf serverId (.sync { p with bridgeId := it })))
      have hcopy : (Outgoing.sync p).copyFor attempt.serverId.toUInt32 =
          .sync { p with bridgeId := it } := by
        rw [Outgoing.copyFor, if_pos hmulti, hid]
        exact congrArg (fun bridgeId => Outgoing.sync { p with bridgeId := bridgeId })
          UInt32.ofNat_toNat
      have hforwards := DispatchRun.routerOf_forwards world run server serverId hcopy rfl
      rw [DispatchRun.multiRoute, hbase]
      dsimp only
      have hfirst : [it.toNat] <+: it.toNat :: rest.map UInt32.toNat :=
        List.prefix_append [it.toNat] _
      split
      · refine ⟨[_], hnext, ?_, fun dispatch hdispatch => ?_⟩
        · rw [List.map_singleton, hid]
          exact hfirst
        · rw [List.mem_singleton.mp hdispatch]
          exact hforwards
      · obtain ⟨sent, hsent, hids, hlater⟩ := ih (p := { p with bridgeId := it }) hmulti next
        refine ⟨_ :: sent, by rw [hsent, hnext, List.append_assoc]; rfl, ?_, ?_⟩
        · rw [List.map_cons, List.map_cons, hid]
          exact List.prefix_cons_inj _ |>.mpr hids
        · intro dispatch hdispatch
          rcases List.mem_cons.mp hdispatch with hnow | hrest
          · rw [hnow]
            exact hforwards
          · obtain ⟨pr, hobj, hruri, hload⟩ := hlater dispatch hrest
            refine ⟨pr, hobj, hruri, hload.trans ?_⟩
            rw [Outgoing.copyFor, Outgoing.copyFor, if_pos hmulti, if_pos hmulti]
            rfl

/-- What the loop does is as it should be, where the bridges are; it returns true though, whatever
becomes of the copies. -/
theorem multiRoute_bridges (world : World) (server : IServer) (serverId : Nat)
    {p : PSS_SyncRouter RouterBase} (hmulti : p.enType = .dataMultiRoute) {run : DispatchRun}
    (hrun : run.dispatches = []) {vecBridgeSids : List UInt32} (hnodup : vecBridgeSids.Nodup)
    (hlive : ∀ it ∈ vecBridgeSids, im.LiveImbridge it.toNat) :
    im.Bridges serverId (.sync p)
      (DispatchRun.multiRoute world server serverId run p vecBridgeSids).run.dispatches := by
  obtain ⟨sent, hsent, hids, hforwards⟩ :=
    multiRoute_dispatches world server serverId hmulti run vecBridgeSids
  rw [hrun, List.nil_append] at hsent
  rw [hsent]
  refine ⟨hforwards, fun dispatch hdispatch => ?_, ?_, nofun⟩
  · obtain ⟨it, hit, hid⟩ := List.mem_map.mp (hids.subset (List.mem_map_of_mem hdispatch))
    exact hid ▸ hlive it hit
  · exact (hnodup.map fun _ _ heq => UInt32.toNat_inj.mp heq).sublist hids.sublist

/-! ## The call -/

section Call

variable {md5 : List UInt8 → UInt32}

/-- Fuel is for the calls in the call. -/
theorem sound_iff_body : im.Sound md5 serverId obj ↔ ∀ world,
    (∃ fuel, (DispatchRun.start im).dispatchIn md5 world
      (DispatchRun.dispatchByServerIdSV md5 world fuel) serverId obj ≠ none) ∧
    ∀ fuel last, (DispatchRun.start im).dispatchIn md5 world
      (DispatchRun.dispatchByServerIdSV md5 world fuel) serverId obj = some last →
        im.Good serverId obj last := by
  constructor
  · intro hsound world
    obtain ⟨⟨fuel, hreturns⟩, hgood⟩ := hsound world
    refine ⟨?_, fun fuel last hlast => hgood (fuel + 1) last hlast⟩
    cases fuel with
    | zero => exact absurd rfl hreturns
    | succ fuel => exact ⟨fuel, hreturns⟩
  · intro hbody world
    obtain ⟨⟨fuel, hreturns⟩, hgood⟩ := hbody world
    refine ⟨⟨fuel + 1, hreturns⟩, fun fuel last hlast => ?_⟩
    cases fuel with
    | zero => cases hlast
    | succ fuel => exact hgood fuel last hlast

theorem start_refused (im : CImDaemonClient) : DispatchRun.Refused (.start im) :=
  fun _ hdispatch => nomatch hdispatch

/-- Where one dispatch of the packet itself is made. -/
theorem dispatchIn_direct (md5 : List UInt8 → UInt32) (world : World)
    (dispatch : DispatchRun → Nat → Outgoing → Option Returned) (obj : Outgoing)
    (hknown : im.Known serverId server fa) (hbridge : im.useBridge server fa = none) :
    ∃ next attempt, (DispatchRun.start im).dispatchIn md5 world dispatch serverId obj =
        some ⟨next, obj, attempt.outcome⟩ ∧
      next.dispatches = [⟨obj, attempt⟩] ∧ attempt.serverId = serverId := by
  obtain ⟨next, attempt, hbase, hnext, hid⟩ :=
    (DispatchRun.start im).dispatchBase_spec world serverId obj
  refine ⟨next, attempt, ?_, hnext, hid⟩
  have hserver : (DispatchRun.start im).im.server = some server := hknown.1
  have hfa : (DispatchRun.start im).im.getServerSV serverId = some fa := hknown.2
  have hnone : (DispatchRun.start im).im.useBridge server fa = none := hbridge
  unfold DispatchRun.dispatchIn
  rw [hbase, hserver, hfa]
  dsimp only
  rw [hnone]
  exact ite_self _

theorem dispatchIn_bridge (md5 : List UInt8 → UInt32) (world : World)
    (dispatch : DispatchRun → Nat → Outgoing → Option Returned) (obj : Outgoing)
    (hid : serverId ≠ 0) (hknown : im.Known serverId server fa) {uBridgeSid : Nat}
    (hbridge : im.useBridge server fa = some uBridgeSid) :
    (DispatchRun.start im).dispatchIn md5 world dispatch serverId obj =
      (DispatchRun.start im).bridge md5 world dispatch server serverId uBridgeSid obj := by
  have hserver : (DispatchRun.start im).im.server = some server := hknown.1
  have hfa : (DispatchRun.start im).im.getServerSV serverId = some fa := hknown.2
  have hsome : (DispatchRun.start im).im.useBridge server fa = some uBridgeSid := hbridge
  unfold DispatchRun.dispatchIn
  rw [hserver, hfa]
  dsimp only
  rw [hsome, if_neg hid]

theorem dispatchIn_unknown (world : World)
    (dispatch : DispatchRun → Nat → Outgoing → Option Returned) (hid : serverId ≠ 0)
    (hunknown : ∀ server fa, ¬ im.Known serverId server fa) :
    (DispatchRun.start im).dispatchIn md5 world dispatch serverId obj =
      some ⟨.start im, obj, .failure⟩ := by
  unfold DispatchRun.dispatchIn
  rw [if_neg hid]
  split
  next server fa hserver hfa => exact absurd ⟨hserver, hfa⟩ (hunknown server fa)
  next => rfl

theorem sound_unknown (hid : serverId ≠ 0) (hunknown : ∀ server fa, ¬ im.Known serverId server fa) :
    im.Sound md5 serverId obj := by
  rw [sound_iff_body]
  intro world
  simp only [dispatchIn_unknown world _ hid hunknown]
  refine ⟨⟨0, nofun⟩, fun _ last hlast => ?_⟩
  cases hlast
  exact ⟨fun server fa hknown => absurd hknown (hunknown server fa),
    fun server fa hknown => absurd hknown (hunknown server fa), fun _ => rfl, nofun⟩

theorem sound_directly (hknown : im.Known serverId server fa)
    (hdirectly : im.Directly server fa) : im.Sound md5 serverId obj := by
  rw [sound_iff_body]
  intro world
  have hdirect := fun fuel => dispatchIn_direct md5 world
    (DispatchRun.dispatchByServerIdSV md5 world fuel) obj hknown (useBridge_directly hdirectly)
  refine ⟨⟨0, ?_⟩, fun fuel last hlast => ?_⟩
  · obtain ⟨next, attempt, hcall, -⟩ := hdirect 0
    rw [hcall]
    exact nofun
  · obtain ⟨next, attempt, hcall, hnext, hattempt⟩ := hdirect fuel
    rw [hcall, Option.some.injEq] at hlast
    subst hlast
    refine ⟨fun _ _ _ _ => ⟨attempt, hattempt, hnext⟩, fun other another hother hover => ?_,
      fun hunknown => absurd hknown (hunknown server fa), fun hsuccess => ?_⟩
    · obtain ⟨rfl, rfl⟩ := hknown.unique hother
      exact absurd hdirectly hover
    · rw [hnext]
      exact ⟨_, List.mem_singleton_self _, hsuccess⟩

/-- Neither network is the own one, so that the packet is not given to a bridge. -/
theorem not_sound_noLine (hknown : im.Known serverId server fa)
    (hover : ¬ im.Directly server fa) (hline : im.useBridge server fa = none) :
    ¬ im.Sound md5 serverId obj := by
  rw [sound_iff_body]
  intro hsound
  obtain ⟨next, attempt, hcall, hnext, -⟩ := dispatchIn_direct md5 DispatchRun.cut
    (DispatchRun.dispatchByServerIdSV md5 DispatchRun.cut 0) obj hknown hline
  have hgood := (hsound DispatchRun.cut).2 0 _ hcall
  have hforwards := (hgood.bridged server fa hknown hover).forwards
  rw [hnext] at hforwards
  exact not_forwards_self (hforwards _ (List.mem_singleton_self _))

/-- When nothing is accepted, a call that is sound does not return true. -/
theorem not_good_refused {last : Returned} (hrefused : last.run.Refused)
    (hsuccess : last.outcome = .success) : ¬ im.Good serverId obj last := by
  intro hgood
  obtain ⟨dispatch, hdispatch, haccepted⟩ := hgood.reports hsuccess
  rw [hrefused dispatch hdispatch] at haccepted
  cases haccepted

/-- The world in which nothing is accepted tells the routes that wait for no answer. -/
theorem named_of_sound (hid : serverId ≠ 0) (hknown : im.Known serverId server fa)
    (hover : ¬ im.Directly server fa) {uBridgeSid : Nat}
    (hbridge : im.useBridge server fa = some uBridgeSid) (hsound : im.Sound md5 serverId obj) :
    obj.namedBridge uBridgeSid ≠ 0 ∧ im.LiveImbridge (obj.namedBridge uBridgeSid) ∧
      ∀ p, obj = .sync p → p.enType = .dataMultiRoute → im.OffersNone md5 server serverId ∧
        p.bridgeId = (obj.namedBridge uBridgeSid).toUInt32 := by
  obtain ⟨⟨fuel, hreturns⟩, hgood⟩ := sound_iff_body.mp hsound DispatchRun.cut
  replace hgood := hgood fuel
  rw [dispatchIn_bridge md5 DispatchRun.cut _ obj hid hknown hbridge] at hreturns hgood
  obtain ⟨last, hlast⟩ := Option.ne_none_iff_exists'.mp hreturns
  rcases (DispatchRun.start im).bridge_cases md5 DispatchRun.cut
      (DispatchRun.dispatchByServerIdSV md5 DispatchRun.cut fuel) server serverId uBridgeSid obj
    with ⟨-, -, hstuck | ⟨next, p, vecBridgeSids, hsame, hmulti⟩⟩ | ⟨hoffers, next, hsame, hone⟩
  · exact absurd hstuck hreturns
  · obtain ⟨hrefused, hsuccess⟩ := DispatchRun.multiRoute_refused server serverId
      ((start_refused im).of_dispatches hsame) p vecBridgeSids
    exact absurd (hgood _ hmulti) (not_good_refused hrefused hsuccess)
  · have hlastGood := hgood last hlast
    rw [hone] at hlast
    obtain ⟨hrefused, -, hrandom⟩ := DispatchRun.oneRoute_refused
      (DispatchRun.dispatchByServerIdSV_refused fuel) ((start_refused im).of_dispatches hsame) hlast
    have hnamed : obj.namedBridge uBridgeSid ≠ 0 :=
      fun hzero => not_good_refused hrefused (hrandom hzero) hlastGood
    obtain ⟨after, attempt, hbase, hafter, hattempt⟩ := next.dispatchBase_spec DispatchRun.cut
      (obj.namedBridge uBridgeSid)
      (next.routerOf DispatchRun.cut server (DispatchRun.forwardOf serverId obj))
    rw [DispatchRun.oneRoute, if_pos hnamed, hbase] at hlast
    cases hlast
    have hbridges := hlastGood.bridged server fa hknown hover
    dsimp only at hbridges
    rw [hafter, hsame] at hbridges
    have hlive := hbridges.live _ (List.mem_singleton_self _)
    have hforwards := hbridges.forwards _ (List.mem_singleton_self _)
    refine ⟨hnamed, hattempt ▸ hlive, fun p hp hmulti => ⟨hoffers p hp hmulti, ?_⟩⟩
    rw [← hattempt]
    exact forwards_once hforwards p hp hmulti

theorem sound_of_named (hid : serverId ≠ 0) (hknown : im.Known serverId server fa)
    (hover : ¬ im.Directly server fa) {uBridgeSid : Nat}
    (hbridge : im.useBridge server fa = some uBridgeSid)
    (hnamed : obj.namedBridge uBridgeSid ≠ 0)
    (hlive : im.LiveImbridge (obj.namedBridge uBridgeSid))
    (hcopy : ∀ p, obj = .sync p → p.enType = .dataMultiRoute →
      im.OffersNone md5 server serverId ∧
        p.bridgeId = (obj.namedBridge uBridgeSid).toUInt32) :
    im.Sound md5 serverId obj := by
  rw [sound_iff_body]
  intro world
  have hreturned : ∀ fuel, ∃ after attempt sent, (DispatchRun.start im).dispatchIn md5 world
        (DispatchRun.dispatchByServerIdSV md5 world fuel) serverId obj =
          some ⟨after, obj, attempt.outcome⟩ ∧
      im.Bridges serverId obj after.dispatches ∧ after.dispatches = [⟨sent, attempt⟩] := by
    intro fuel
    rw [dispatchIn_bridge md5 world _ obj hid hknown hbridge]
    rcases (DispatchRun.start im).bridge_cases md5 world
        (DispatchRun.dispatchByServerIdSV md5 world fuel) server serverId uBridgeSid obj
      with ⟨⟨p, hp, hmulti⟩, hoffers, -⟩ | ⟨-, next, hsame, hone⟩
    · exact absurd (hcopy p hp hmulti).1 hoffers
    · obtain ⟨after, attempt, hbase, hafter, hattempt⟩ := next.dispatchBase_spec world
        (obj.namedBridge uBridgeSid)
        (next.routerOf world server (DispatchRun.forwardOf serverId obj))
      rw [hsame] at hafter
      refine ⟨after, attempt, _, ?_, ?_, hafter⟩
      · rw [hone, DispatchRun.oneRoute, if_pos hnamed, hbase]
      · rw [hafter]
        exact bridges_one hattempt hlive fun p hp hmulti => (hcopy p hp hmulti).2
  refine ⟨⟨0, ?_⟩, fun fuel last hlast => ?_⟩
  · obtain ⟨after, attempt, sent, hsome, -⟩ := hreturned 0
    rw [hsome]
    exact nofun
  · obtain ⟨after, attempt, sent, hsome, hbridges, hsent⟩ := hreturned fuel
    rw [hsome, Option.some.injEq] at hlast
    subst hlast
    refine ⟨fun other another hother hdirectly => ?_, fun _ _ _ _ => hbridges,
      fun hunknown => absurd hknown (hunknown server fa), fun hsuccess => ?_⟩
    · obtain ⟨rfl, rfl⟩ := hknown.unique hother
      exact absurd hdirectly hover
    · dsimp only
      rw [hsent]
      exact ⟨_, List.mem_singleton_self _, hsuccess⟩

end Call

/-- The call does what it should just when the packet can go to the server itself, or goes over
one bridge that is named and live. -/
theorem sound_iff_overOneBridge (md5 : List UInt8 → UInt32) (im : CImDaemonClient)
    {serverId : Nat} (hid : serverId ≠ 0) (obj : Outgoing) :
    im.Sound md5 serverId obj ↔
      ∀ server fa, im.Known serverId server fa → ¬ im.Directly server fa →
        im.OverOneBridge md5 serverId obj server fa := by
  by_cases hunknown : ∀ server fa, ¬ im.Known serverId server fa
  · exact iff_of_true (sound_unknown hid hunknown)
      fun server fa hknown => absurd hknown (hunknown server fa)
  · simp only [not_forall, not_not] at hunknown
    obtain ⟨server, fa, hknown⟩ := hunknown
    have hsame : (∀ server fa, im.Known serverId server fa → ¬ im.Directly server fa →
          im.OverOneBridge md5 serverId obj server fa) ↔
        (¬ im.Directly server fa → im.OverOneBridge md5 serverId obj server fa) := by
      refine ⟨fun hall => hall server fa hknown, fun hone other another hother => ?_⟩
      obtain ⟨rfl, rfl⟩ := hknown.unique hother
      exact hone
    rw [hsame]
    by_cases hdirectly : im.Directly server fa
    · exact iff_of_true (sound_directly hknown hdirectly) fun hover => absurd hdirectly hover
    · have huse := useBridge_over hdirectly
      split at huse
      next hline =>
        refine iff_of_false (not_sound_noLine hknown hdirectly huse) fun hone => ?_
        exact hline.2 ((hone hdirectly).oneLine hline.1)
      next hline =>
        constructor
        · intro hsound _
          obtain ⟨hnamed, hlive, hmulti⟩ := named_of_sound hid hknown hdirectly huse hsound
          refine ⟨fun hnone => ?_, hnamed, hlive, hmulti⟩
          by_contra hneither
          exact hline ⟨hnone, hneither⟩
        · intro hone
          obtain ⟨-, hnamed, hlive, hmulti⟩ := hone hdirectly
          exact sound_of_named hid hknown hdirectly huse hnamed hlive hmulti

/-- A server of the other network. -/
def imct : FavorStrSV := ⟨"imct", 0, 7, 80, 9, 2, .RUNNING⟩

/-- A server on the one network, which knows just one on the other. -/
def crossNet : CImDaemonClient where
  client := { ChannelClient.new (some 1) with
    daemon := (DaemonClient.new (some 1)).onServerAddSV imct }
  server := some ⟨⟨[], 1⟩, CTL⟩
  pServerSelector := none

/-- It also knows an imbridge, and the route that an imrouter of the group told it. -/
def crossNetRouted : CImDaemonClient where
  client := { ChannelClient.new (some 1) with
    daemon := ((((DaemonClient.new (some 1)).onServerAddSV imct).onServerAddSV
      ⟨"imbridge", 1, 2, 80, 5, 1, .RUNNING⟩).onServerAddSV
      ⟨"imrouter", 0, 3, 80, 6, 2, .RUNNING⟩).onRouteNotify (OrderedMap.empty.set 2 5) }
  server := some ⟨⟨[], 1⟩, CTL⟩
  pServerSelector := none

/-- A SYNC over several routes, which names the imbridge. -/
def namingSync : Outgoing :=
  .sync { PSS_SyncRouter.new .dataMultiRoute (routerBase [] 2 RES_SUCCESS [3]) 1 9 1 with
    bridgeId := 5 }

theorem sound_iff_overOneBridge_routed : crossNetRouted.Sound (fun _ => 0) 9 namingSync := by
  rw [sound_iff_overOneBridge (fun _ => 0) crossNetRouted (by decide) namingSync]
  rintro server fa ⟨hserver, hfa⟩ -
  cases hserver
  have himct : crossNetRouted.getServerSV 9 = some imct := rfl
  rw [himct, Option.some.injEq] at hfa
  subst hfa
  refine ⟨fun _ => .inl rfl, by decide, ⟨_, rfl, rfl, rfl⟩, fun p hp _ => ?_⟩
  cases hp
  exact ⟨nofun, rfl⟩

/-- Without an imbridge nothing is dispatched, and true is returned. -/
theorem crossNet_unreported :
    ¬ crossNet.Sound (fun _ => 0) 9 (.other 2 [3] (by decide)) := by
  intro hsound
  obtain ⟨-, hgood⟩ := hsound DispatchRun.cut
  obtain ⟨dispatch, hnone, -⟩ := (hgood 2 _ rfl).reports rfl
  exact nomatch hnone

end CImDaemonClient

end ServiceFrame
