import Mathlib.Logic.Function.Basic
import ServiceFrame.Foundation.Bytes
import ServiceFrame.Foundation.Run

/-! # The requests of the dao proxy

`ReqFSM` of `dao_proxy`, with the parts of `ThriftPxMsgHandler::process`,
`daoheadresponse` and the timers that create it, call it and destroy it. Objects are
numbered as they are created, and stay on record when they are destroyed: a member
that is read or written then is noted, and what it holds there is what it held last.

What the rest of the process, the network and the clients answer comes with each
event. Left out: the statistics, the times, and what is sent to the dao.
-/

namespace ServiceFrame

open Foundation

/-- What is put into a thrift packet. -/
inductive ThriftPack where
  | fnameNotFound (seqid : Int) (fname : String)
  | unknownException (seqid : Int) (fname : String) (exceptionDesc : String)
  | upperLayer (dat : List UInt8)

structure RouteReq where
  context : String
  callerName : String
  traceDebug : String

structure RouteResp where
  context : String
  issetContext : Bool
  resultCode : Int
  traceDebug : String
  coding : Int
  upperLayer : Option ThriftPack

/-- A packet for the client, with the head when the request had one. -/
structure Response where
  pack : ThriftPack
  head : Option (Int × RouteResp)

/-- What `getConnectById` and `sendBin` do with the response. -/
inductive Client where
  | gone
  | accepts
  | throws
deriving DecidableEq

structure Answers where
  /-- `check_and_get_tickets`. -/
  licenceRt : Int
  /-- `dao_select`: the result, and the server with its group. -/
  daoSelect : Int
  server : String × Int
  selectBestConnection : Int
  getConnection : Int
  sendPack : Int
  /-- The id that `schedule` gives; none is 0. -/
  schedule : Option Nat
  client : Client
  /-- `trace_debug_mytag`. -/
  mytag : String

/-- `start` sends a response. -/
def Answers.Responds (answers : Answers) : Prop :=
  answers.licenceRt = 0 ∧ (answers.daoSelect < 0 ∨
    (0 ≤ answers.selectBestConnection ∧ 0 ≤ answers.getConnection ∧ answers.sendPack < 0))

/-- `start` sends the request to the dao, and waits. -/
def Answers.Sends (answers : Answers) : Prop :=
  answers.licenceRt = 0 ∧ 0 ≤ answers.daoSelect ∧ 0 ≤ answers.selectBestConnection ∧
    0 ≤ answers.getConnection ∧ 0 ≤ answers.sendPack

structure ReqFSM where
  timerId : Nat
  fsmId : Nat
  appName : String
  toGroupid : Int
  reqConnectionId : Nat
  fname : String
  thriftHeadid : Int
  selectServerName : String
  returnFunctionName : String
  routeResp : RouteResp
  headofthriftHeadid : Int
  /-- How often it was destroyed, whether a member was used after that, and what was
  sent to the client. -/
  destroyed : Nat
  used : Bool
  responses : List Response

/-- An object with its members as the constructor leaves them. -/
def ReqFSM.new (fsmId : Nat) : ReqFSM where
  timerId := 0
  fsmId := fsmId
  appName := ""
  toGroupid := 0
  reqConnectionId := 0
  fname := ""
  thriftHeadid := 0
  selectServerName := ""
  returnFunctionName := ""
  routeResp := ⟨"", false, 0, "", 0, none⟩
  headofthriftHeadid := 0
  destroyed := 0
  used := false
  responses := []

/-- The requests of the process. -/
structure ReqFSMs where
  processpid : Nat
  fsms : Nat → ReqFSM
  created : Nat
  /-- `g_pFSMContainer`: which object an id is found for. -/
  container : Nat → Option Nat
  /-- `g_pTimerContainer`: the object that the timer with an id is for. -/
  timers : Nat → Option Nat

/-- A call without a head, or the one in the upper layer of a `RouteReq`, which comes
with the sequence id of its own. -/
structure ProxyRequest where
  cid : Nat
  seqid : Int
  fnameFull : String
  routeHeader : Option (RouteReq × Int)

namespace ReqFSMs

def init (processpid : Nat) : ReqFSMs where
  processpid := processpid
  fsms _ := .new 0
  created := 0
  container _ := none
  timers _ := none

def modify (s : ReqFSMs) (req : Nat) (change : ReqFSM → ReqFSM) : ReqFSMs :=
  { s with fsms := Function.update s.fsms req (change (s.fsms req)) }

/-- A member is read or written. -/
def use (s : ReqFSMs) (req : Nat) : ReqFSMs :=
  if (s.fsms req).destroyed = 0 then s else s.modify req fun fsm => { fsm with used := true }

/-- `TimerContainer::cancel`. -/
def cancel (s : ReqFSMs) (timerId : Nat) : ReqFSMs :=
  { s with timers := Function.update s.timers timerId none }

/-- `~ReqFSM`. -/
def delete (s : ReqFSMs) (req : Nat) : ReqFSMs :=
  let s := s.use req
  let s := if (s.fsms req).timerId ≠ 0 then s.cancel (s.fsms req).timerId else s
  s.modify req fun fsm => { fsm with timerId := 0, destroyed := fsm.destroyed + 1 }

def createFSM (s : ReqFSMs) (fsmId : Nat) : ReqFSMs :=
  { s with
    fsms := Function.update s.fsms s.created (.new fsmId)
    created := s.created + 1
    container := Function.update s.container fsmId (some s.created) }

def findFSM (s : ReqFSMs) (fsmId : Nat) : Option Nat := s.container fsmId

def destroyFSM (s : ReqFSMs) (fsmId : Nat) : ReqFSMs :=
  match s.container fsmId with
  | some req => delete { s with container := Function.update s.container fsmId none } req
  | none => s

def finish (s : ReqFSMs) (req : Nat) : ReqFSMs :=
  let s := s.use req
  s.destroyFSM (s.fsms req).fsmId

def startTimer (s : ReqFSMs) (req : Nat) (schedule : Option Nat) : ReqFSMs :=
  let s := s.use req
  let s :=
    if (s.fsms req).timerId ≠ 0 then
      (s.cancel (s.fsms req).timerId).modify req fun fsm => { fsm with timerId := 0 }
    else s
  match schedule with
  | some timerId =>
      let s := { s with timers := Function.update s.timers timerId (some req) }
      s.modify req fun fsm => { fsm with timerId := timerId }
  | none => s.modify req fun fsm => { fsm with timerId := 0 }

/-- The response as it goes out, with the head filled in. -/
def routed (mytag : String) (additionDebug : Option String) (pack : ThriftPack)
    (resp : RouteResp) : RouteResp :=
  { resp with
    resultCode := 0
    traceDebug := mytag ++ additionDebug.getD "" ++ "//@" ++ resp.traceDebug
    coding := 0
    upperLayer := some pack }

def fillHead (s : ReqFSMs) (req : Nat) (pack : ThriftPack) (additionDebug : Option String)
    (mytag : String) : ReqFSMs :=
  if (s.fsms req).routeResp.issetContext then
    s.modify req fun fsm => { fsm with routeResp := routed mytag additionDebug pack fsm.routeResp }
  else s

def sendRespThriftPacket (s : ReqFSMs) (req : Nat) (pack : ThriftPack)
    (additionDebug : Option String) (answers : Answers) : ReqFSMs :=
  let s := (s.use req).fillHead req pack additionDebug answers.mytag
  match answers.client with
  | .gone => s
  | .accepts =>
      s.modify req fun fsm =>
        let head :=
          if fsm.routeResp.issetContext then some (fsm.headofthriftHeadid, fsm.routeResp) else none
        { fsm with responses := fsm.responses ++ [⟨pack, head⟩] }
  | .throws => s.finish req

/-- The members that `start` sets first. -/
def called (thhedid : Int) (cid : Nat) (returnFunction : String) (routeHeader : Option RouteReq)
    (fname : String) (fsm : ReqFSM) : ReqFSM :=
  let fsm := { fsm with
    thriftHeadid := thhedid
    reqConnectionId := cid
    fname := fname
    returnFunctionName := returnFunction }
  match routeHeader with
  | none => { fsm with appName := "" }
  | some header =>
      { fsm with
        appName := header.callerName
        routeResp := { fsm.routeResp with
          context := header.context
          resultCode := 0
          traceDebug := header.traceDebug
          coding := 0
          issetContext := true } }

def start (s : ReqFSMs) (req : Nat) (thhedid : Int) (cid : Nat) (returnFunction : String)
    (routeHeader : Option RouteReq) (fname : String) (answers : Answers) : ReqFSMs :=
  let s := (s.use req).modify req (called thhedid cid returnFunction routeHeader fname)
  if answers.licenceRt ≠ 0 then s.finish req
  else if answers.daoSelect = -2 then
    (s.sendRespThriftPacket req (.fnameNotFound thhedid returnFunction)
      (some "no_dao") answers).finish req
  else if answers.daoSelect < 0 then
    (s.sendRespThriftPacket req (.unknownException thhedid returnFunction "dao busy")
      (some "dao_busy") answers).finish req
  else if answers.selectBestConnection < 0 then s.finish req
  else
    let s := (s.use req).modify req fun fsm => { fsm with toGroupid := answers.server.2 }
    if answers.getConnection < 0 then s.finish req
    else if answers.sendPack < 0 then
      (s.sendRespThriftPacket req (.unknownException thhedid returnFunction "network error")
        (some "send_fail") answers).finish req
    else
      ((s.startTimer req answers.schedule).use req).modify req fun fsm =>
        { fsm with selectServerName := answers.server.1 }

def onResponse (s : ReqFSMs) (req : Nat) (traceDebug : String) (upperLayer : List UInt8)
    (answers : Answers) : ReqFSMs :=
  let s := (s.use req).modify req fun fsm =>
    { fsm with routeResp := { fsm.routeResp with traceDebug := traceDebug } }
  (s.sendRespThriftPacket req (.upperLayer upperLayer) none answers).finish req

def handleTimeout (s : ReqFSMs) (req : Nat) (answers : Answers) : ReqFSMs :=
  let s := s.use req
  let s := s.sendRespThriftPacket req
    (.unknownException (s.fsms req).thriftHeadid (s.fsms req).returnFunctionName "network error")
    (some "timeout") answers
  (s.use req).finish req

/-- The name without what follows its first dot, unless it begins with the dot. -/
def servicePrefix (fname : String) : String :=
  if fname.toList.head? = some '.' then fname
  else String.ofList (fname.toList.takeWhile (· ≠ '.'))

/-- `ThriftPxMsgHandler::process`, with the id that `new_id` gives. -/
def process (s : ReqFSMs) (fsmId : Nat) (request : ProxyRequest) (answers : Answers) : ReqFSMs :=
  let req := s.created
  let s := s.createFSM fsmId
  match request.routeHeader with
  | some (header, seqid) =>
      let s := (s.use req).modify req fun fsm => { fsm with headofthriftHeadid := seqid }
      s.start req request.seqid request.cid request.fnameFull (some header)
        (servicePrefix request.fnameFull) answers
  | none =>
      s.start req request.seqid request.cid request.fnameFull none
        (servicePrefix request.fnameFull) answers

def decodingPidFsmid (processpid : Nat) (context : List UInt8) : Option Nat :=
  if context.length ≠ 16 then none
  else if leNat (context.take 8) ≠ processpid then none
  else some (leNat (context.drop 8))

/-- The request that a response is for. -/
def awaits (s : ReqFSMs) (context : List UInt8) : Option Nat :=
  (decodingPidFsmid s.processpid context).bind s.findFSM

def daoheadresponse (s : ReqFSMs) (context : List UInt8) (traceDebug : String)
    (upperLayer : List UInt8) (answers : Answers) : ReqFSMs :=
  match s.awaits context with
  | some req => s.onResponse req traceDebug upperLayer answers
  | none => s

inductive Event where
  | process (fsmId : Nat) (request : ProxyRequest) (answers : Answers)
  | daoheadresponse (context : List UInt8) (traceDebug : String) (upperLayer : List UInt8)
      (answers : Answers)
  | timeout (timerId : Nat) (answers : Answers)

/-- The ids that the id maps give are not in use, and a timer id is not 0. A timer is
gone when it calls its handler. -/
def step (s : ReqFSMs) : Event → Option ReqFSMs
  | .process fsmId request answers =>
      if s.container fsmId = none ∧
          (answers.schedule.all fun timerId => timerId ≠ 0 ∧ s.timers timerId = none) then
        some (s.process fsmId request answers)
      else none
  | .daoheadresponse context traceDebug upperLayer answers =>
      some (s.daoheadresponse context traceDebug upperLayer answers)
  | .timeout timerId answers => do
      let req ← s.timers timerId
      some ((s.cancel timerId).handleTimeout req answers)

/-! ## One request among the others -/

variable {s next last : ReqFSMs} {req timerId : Nat} {answers : Answers}

/-- A request that can finish: its id is found, and no timer but its own is for it. -/
structure Live (s : ReqFSMs) (req : Nat) : Prop where
  destroyed : (s.fsms req).destroyed = 0
  used : (s.fsms req).used = false
  container : ∀ id, s.container id = some req ↔ id = (s.fsms req).fsmId
  timers : ∀ id, s.timers id = some req → id = (s.fsms req).timerId ∧ id ≠ 0
  own : ∀ other, s.timers (s.fsms req).timerId = some other → other = req

/-- A request that is over. -/
structure Settled (s : ReqFSMs) (req : Nat) : Prop where
  destroyed : (s.fsms req).destroyed = 1
  used : (s.fsms req).used = false
  responses : (s.fsms req).responses.length ≤ 1
  container : ∀ id, s.container id ≠ some req
  timers : ∀ id, s.timers id ≠ some req

/-- A request that waits for the dao, with a timer that runs. -/
structure Waiting (s : ReqFSMs) (req : Nat) : Prop extends Live s req where
  responses : (s.fsms req).responses = []
  timer : s.timers (s.fsms req).timerId = some req

/-- Nothing happened to the other requests. -/
structure Frame (s next : ReqFSMs) (req : Nat) : Prop where
  fsms : ∀ other, other ≠ req → next.fsms other = s.fsms other
  container : ∀ other, other ≠ req → ∀ id, next.container id = some other ↔
    s.container id = some other
  timers : ∀ other, other ≠ req → ∀ id, next.timers id = some other ↔ s.timers id = some other

/-- Nor was one created. -/
structure Apart (s next : ReqFSMs) (req : Nat) : Prop extends Frame s next req where
  created : next.created = s.created

theorem Apart.refl (s : ReqFSMs) (req : Nat) : Apart s s req where
  created := rfl
  fsms _ _ := rfl
  container _ _ _ := Iff.rfl
  timers _ _ _ := Iff.rfl

theorem Apart.trans (hfirst : Apart s next req) (hsecond : Apart next last req) :
    Apart s last req where
  created := hsecond.created.trans hfirst.created
  fsms other hother := (hsecond.fsms other hother).trans (hfirst.fsms other hother)
  container other hother id :=
    (hsecond.container other hother id).trans (hfirst.container other hother id)
  timers other hother id := (hsecond.timers other hother id).trans (hfirst.timers other hother id)

theorem modify_apart (s : ReqFSMs) (req : Nat) (change : ReqFSM → ReqFSM) :
    Apart s (s.modify req change) req where
  created := rfl
  fsms _ hother := Function.update_of_ne hother _ _
  container _ _ _ := Iff.rfl
  timers _ _ _ := Iff.rfl

@[simp] theorem modify_self (s : ReqFSMs) (req : Nat) (change : ReqFSM → ReqFSM) :
    (s.modify req change).fsms req = change (s.fsms req) :=
  Function.update_self _ _ _

theorem Settled.congr (hsettled : Settled s req) {other : Nat} (hapart : Frame s next other)
    (hother : req ≠ other) : Settled next req where
  destroyed := hapart.fsms req hother ▸ hsettled.destroyed
  used := hapart.fsms req hother ▸ hsettled.used
  responses := hapart.fsms req hother ▸ hsettled.responses
  container id hid := hsettled.container id ((hapart.container req hother id).mp hid)
  timers id hid := hsettled.timers id ((hapart.timers req hother id).mp hid)

theorem Waiting.congr (hwaiting : Waiting s req) {other : Nat} (hapart : Frame s next other)
    (hother : req ≠ other) : Waiting next req := by
  have htimer : next.timers (next.fsms req).timerId = some req := by
    rw [hapart.fsms req hother, hapart.timers req hother]
    exact hwaiting.timer
  refine ⟨⟨?_, ?_, ?_, ?_, ?_⟩, ?_, htimer⟩
  · rw [hapart.fsms req hother]
    exact hwaiting.destroyed
  · rw [hapart.fsms req hother]
    exact hwaiting.used
  · intro id
    rw [hapart.fsms req hother, hapart.container req hother]
    exact hwaiting.container id
  · intro id hid
    rw [hapart.fsms req hother]
    exact hwaiting.timers id ((hapart.timers req hother id).mp hid)
  · intro third hthird
    rw [htimer, Option.some.injEq] at hthird
    exact hthird.symm
  · rw [hapart.fsms req hother]
    exact hwaiting.responses

/-! ## The handlers -/

theorem Live.use (hlive : Live s req) : s.use req = s := if_pos hlive.destroyed

/-- Members that say nothing about ids change freely. -/
theorem Live.modify (hlive : Live s req) {change : ReqFSM → ReqFSM}
    (hkept : ∀ fsm, (change fsm).destroyed = fsm.destroyed ∧ (change fsm).used = fsm.used ∧
      (change fsm).fsmId = fsm.fsmId ∧ (change fsm).timerId = fsm.timerId) :
    Live (s.modify req change) req := by
  obtain ⟨hdestroyed, hused, hfsmId, htimerId⟩ := hkept (s.fsms req)
  constructor
  · rw [modify_self, hdestroyed]
    exact hlive.destroyed
  · rw [modify_self, hused]
    exact hlive.used
  · intro id
    rw [modify_self, hfsmId]
    exact hlive.container id
  · intro id hid
    rw [modify_self, htimerId]
    exact hlive.timers id hid
  · intro other hother
    rw [modify_self, htimerId] at hother
    exact hlive.own other hother

/-- Without its only key a request is gone, and the others are not. -/
theorem update_none_iff {map : Nat → Option Nat} {key : Nat}
    (honly : ∀ id, map id = some req → id = key)
    (hkey : ∀ other, map key = some other → other = req) (other id : Nat) :
    Function.update map key none id = some other ↔ map id = some other ∧ other ≠ req := by
  rw [Function.update_apply]
  split
  next hid =>
    apply iff_of_false nofun
    rintro ⟨hother, hdiff⟩
    exact hdiff (hkey other (hid ▸ hother))
  next hid =>
    constructor
    · intro hother
      refine ⟨hother, ?_⟩
      rintro rfl
      exact hid (honly id hother)
    · exact And.left

/-- A live request that is destroyed, and is found by no id any more, is over. -/
theorem Live.settle (hlive : Live s req) (hresponses : (s.fsms req).responses.length ≤ 1)
    {container timers : Nat → Option Nat}
    (hcontainer : ∀ other id,
      container id = some other ↔ s.container id = some other ∧ other ≠ req)
    (htimers : ∀ other id, timers id = some other ↔ s.timers id = some other ∧ other ≠ req)
    (hnext : next = ReqFSMs.modify { s with container, timers } req
      fun fsm => { fsm with timerId := 0, destroyed := fsm.destroyed + 1 }) :
    Settled next req ∧ Apart s next req := by
  subst hnext
  refine ⟨⟨?_, ?_, ?_, ?_, ?_⟩, ⟨⟨?_, ?_, ?_⟩, rfl⟩⟩
  · rw [modify_self]
    exact congrArg (· + 1) hlive.destroyed
  · rw [modify_self]
    exact hlive.used
  · rw [modify_self]
    exact hresponses
  · intro id hid
    exact ((hcontainer req id).mp hid).2 rfl
  · intro id hid
    exact ((htimers req id).mp hid).2 rfl
  · intro other hother
    exact Function.update_of_ne hother _ _
  · intro other hother id
    exact (hcontainer other id).trans (and_iff_left hother)
  · intro other hother id
    exact (htimers other id).trans (and_iff_left hother)

/-- `end()` destroys a live request, and takes its timer and its id with it. -/
theorem Live.finish (hlive : Live s req) (hresponses : (s.fsms req).responses.length ≤ 1) :
    Settled (s.finish req) req ∧ Apart s (s.finish req) req ∧
      (s.finish req).container ((s.finish req).fsms req).fsmId = none := by
  have hfound : s.container (s.fsms req).fsmId = some req := (hlive.container _).mpr rfl
  have hfinish : s.finish req = delete
      { s with container := Function.update s.container (s.fsms req).fsmId none } req := by
    rw [ReqFSMs.finish, hlive.use, destroyFSM, hfound]
  have huse : ReqFSMs.use
      { s with container := Function.update s.container (s.fsms req).fsmId none } req =
        { s with container := Function.update s.container (s.fsms req).fsmId none } :=
    if_pos hlive.destroyed
  have hcontainer : ∀ other id, Function.update s.container (s.fsms req).fsmId none id =
      some other ↔ s.container id = some other ∧ other ≠ req :=
    update_none_iff (fun id hid => (hlive.container id).mp hid) fun other hother =>
      (Option.some.inj (hfound.symm.trans hother)).symm
  rw [hfinish, delete, huse]
  dsimp only
  split
  next htimer =>
    have htimers : ∀ other id, Function.update s.timers (s.fsms req).timerId none id =
        some other ↔ s.timers id = some other ∧ other ≠ req :=
      update_none_iff (fun id hid => (hlive.timers id hid).1) hlive.own
    obtain ⟨hsettled, hapart⟩ := hlive.settle hresponses hcontainer htimers rfl
    refine ⟨hsettled, hapart, ?_⟩
    rw [modify_self]
    exact Function.update_self _ _ _
  next htimer =>
    -- no timer was started, and `delete` cancels none
    rw [not_not] at htimer
    have htimers : ∀ other id, s.timers id = some other ↔
        s.timers id = some other ∧ other ≠ req := by
      intro other id
      refine ⟨fun hother => ⟨hother, ?_⟩, And.left⟩
      rintro rfl
      obtain ⟨hsame, hnonzero⟩ := hlive.timers id hother
      exact hnonzero (hsame.trans htimer)
    obtain ⟨hsettled, hapart⟩ := hlive.settle hresponses hcontainer htimers rfl
    refine ⟨hsettled, hapart, ?_⟩
    rw [modify_self]
    exact Function.update_self _ _ _

theorem Live.fill (hlive : Live s req) (pack : ThriftPack) (additionDebug : Option String)
    (mytag : String) :
    Live (s.fillHead req pack additionDebug mytag) req ∧
      Apart s (s.fillHead req pack additionDebug mytag) req ∧
      ((s.fillHead req pack additionDebug mytag).fsms req).responses =
        (s.fsms req).responses := by
  unfold fillHead
  split
  · refine ⟨hlive.modify fun _ => ⟨rfl, rfl, rfl, rfl⟩, modify_apart _ _ _, ?_⟩
    rw [modify_self]
  · exact ⟨hlive, Apart.refl s req, rfl⟩

/-- The response goes out at most once, and leaves the request as it is unless
`sendBin` throws. -/
theorem Live.send (hlive : Live s req) (hnew : (s.fsms req).responses = []) (pack : ThriftPack)
    (additionDebug : Option String) (hclient : answers.client ≠ .throws) :
    Live (s.sendRespThriftPacket req pack additionDebug answers) req ∧
      Apart s (s.sendRespThriftPacket req pack additionDebug answers) req ∧
      ((s.sendRespThriftPacket req pack additionDebug answers).fsms req).responses.length ≤ 1 := by
  obtain ⟨hfilled, hapart, hresponses⟩ := hlive.fill pack additionDebug answers.mytag
  unfold sendRespThriftPacket
  rw [hlive.use]
  dsimp only
  cases hanswer : answers.client with
  | gone => exact ⟨hfilled, hapart, by simp [hresponses, hnew]⟩
  | accepts =>
      refine ⟨hfilled.modify fun _ => ⟨rfl, rfl, rfl, rfl⟩, hapart.trans (modify_apart _ _ _), ?_⟩
      rw [modify_self]
      simp [hresponses, hnew]
  | throws => exact absurd hanswer hclient

theorem Live.respond (hlive : Live s req) (hnew : (s.fsms req).responses = [])
    (pack : ThriftPack) (additionDebug : Option String) (hclient : answers.client ≠ .throws) :
    Settled ((s.sendRespThriftPacket req pack additionDebug answers).finish req) req ∧
      Apart s ((s.sendRespThriftPacket req pack additionDebug answers).finish req) req := by
  obtain ⟨hlive', hapart, hresponses⟩ := hlive.send hnew pack additionDebug hclient
  obtain ⟨hsettled, hapart', -⟩ := hlive'.finish hresponses
  exact ⟨hsettled, hapart.trans hapart'⟩

/-- When `sendBin` throws the request is over before it is finished, and that is a use
of it. -/
theorem Live.respond_throws_eq (hlive : Live s req) (hnew : (s.fsms req).responses = [])
    (pack : ThriftPack) (additionDebug : Option String) (hclient : answers.client = .throws) :
    ∃ settled, Settled settled req ∧ Apart s settled req ∧
      (s.sendRespThriftPacket req pack additionDebug answers).finish req =
        settled.modify req fun fsm => { fsm with used := true } := by
  obtain ⟨hfilled, hapart, hresponses⟩ := hlive.fill pack additionDebug answers.mytag
  obtain ⟨hsettled, hapart', hgone⟩ := hfilled.finish (by simp [hresponses, hnew])
  have hsend : s.sendRespThriftPacket req pack additionDebug answers =
      (s.fillHead req pack additionDebug answers.mytag).finish req := by
    rw [sendRespThriftPacket, hlive.use, hclient]
  rw [hsend]
  refine ⟨_, hsettled, hapart.trans hapart', ?_⟩
  generalize (s.fillHead req pack additionDebug answers.mytag).finish req = settled
    at hsettled hgone ⊢
  have huse : settled.use req = settled.modify req fun fsm => { fsm with used := true } :=
    if_neg (by rw [hsettled.destroyed]; decide)
  have hnone : (settled.modify req fun fsm => { fsm with used := true }).container
      ((settled.modify req fun fsm => { fsm with used := true }).fsms req).fsmId = none := by
    rw [modify_self]
    exact hgone
  rw [ReqFSMs.finish, huse, destroyFSM, hnone]

/-- When `sendBin` throws the request is destroyed once, and used after that. -/
theorem Live.respond_throws (hlive : Live s req) (hnew : (s.fsms req).responses = [])
    (pack : ThriftPack) (additionDebug : Option String) (hclient : answers.client = .throws) :
    (((s.sendRespThriftPacket req pack additionDebug answers).finish req).fsms req).destroyed = 1 ∧
      (((s.sendRespThriftPacket req pack additionDebug answers).finish req).fsms req).used =
        true := by
  obtain ⟨settled, hsettled, -, hfinish⟩ :=
    hlive.respond_throws_eq hnew pack additionDebug hclient
  rw [hfinish, modify_self]
  exact ⟨hsettled.destroyed, rfl⟩

theorem Live.startTimer (hlive : Live s req) (hidle : (s.fsms req).timerId = 0)
    (hnew : (s.fsms req).responses = []) (hnonzero : timerId ≠ 0)
    (hfree : s.timers timerId = none) :
    Waiting (s.startTimer req (some timerId)) req ∧
      Apart s (s.startTimer req (some timerId)) req := by
  have hnone : ∀ id, s.timers id ≠ some req := by
    intro id hid
    obtain ⟨hsame, hid'⟩ := hlive.timers id hid
    exact hid' (hsame.trans hidle)
  have hstart : s.startTimer req (some timerId) =
      ReqFSMs.modify { s with timers := Function.update s.timers timerId (some req) } req
        fun fsm => { fsm with timerId := timerId } := by
    rw [ReqFSMs.startTimer, hlive.use, if_neg (not_not.mpr hidle)]
  rw [hstart]
  -- the new timer's id was free, so no other request loses its timer
  have htimers : ∀ other id, Function.update s.timers timerId (some req) id = some other ↔
      (id = timerId ∧ other = req) ∨ s.timers id = some other := by
    intro other id
    rw [Function.update_apply]
    split
    next hid =>
      rw [hid, hfree]
      simp [eq_comm]
    next hid => simp [hid]
  refine ⟨⟨⟨?_, ?_, ?_, ?_, ?_⟩, ?_, ?_⟩, ⟨⟨?_, fun _ _ _ => Iff.rfl, ?_⟩, rfl⟩⟩
  · rw [modify_self]
    exact hlive.destroyed
  · rw [modify_self]
    exact hlive.used
  · intro id
    rw [modify_self]
    exact hlive.container id
  · intro id hid
    rw [modify_self]
    rcases (htimers req id).mp hid with ⟨hsame, -⟩ | hold
    · exact ⟨hsame, hsame ▸ hnonzero⟩
    · exact absurd hold (hnone id)
  · intro other hother
    rw [modify_self] at hother
    rcases (htimers other timerId).mp hother with ⟨-, hsame⟩ | hold
    · exact hsame
    · rw [hfree] at hold
      cases hold
  · rw [modify_self]
    exact hnew
  · rw [modify_self]
    exact (htimers req timerId).mpr (Or.inl ⟨rfl, rfl⟩)
  · intro other hother
    exact Function.update_of_ne hother _ _
  · intro other hother id
    refine (htimers other id).trans ?_
    rw [or_iff_right (fun hnew => hother hnew.2)]

/-- A request that `start` works on. -/
structure Fresh (s : ReqFSMs) (req : Nat) : Prop extends Live s req where
  idle : (s.fsms req).timerId = 0
  responses : (s.fsms req).responses = []

theorem Fresh.modify (hfresh : Fresh s req) (change : ReqFSM → ReqFSM)
    (hkept : ∀ fsm, (change fsm).destroyed = fsm.destroyed ∧ (change fsm).used = fsm.used ∧
      (change fsm).fsmId = fsm.fsmId ∧ (change fsm).timerId = fsm.timerId ∧
      (change fsm).responses = fsm.responses) : Fresh (s.modify req change) req := by
  refine ⟨hfresh.toLive.modify fun fsm => ?_, ?_, ?_⟩
  · obtain ⟨hdestroyed, hused, hfsmId, htimerId, -⟩ := hkept fsm
    exact ⟨hdestroyed, hused, hfsmId, htimerId⟩
  · rw [modify_self, (hkept _).2.2.2.1, hfresh.idle]
  · rw [modify_self, (hkept _).2.2.2.2, hfresh.responses]

theorem called_kept (thhedid : Int) (cid : Nat) (returnFunction : String)
    (routeHeader : Option RouteReq) (fname : String) (fsm : ReqFSM) :
    let change := called thhedid cid returnFunction routeHeader fname
    (change fsm).destroyed = fsm.destroyed ∧ (change fsm).used = fsm.used ∧
      (change fsm).fsmId = fsm.fsmId ∧ (change fsm).timerId = fsm.timerId ∧
      (change fsm).responses = fsm.responses := by
  cases routeHeader with
  | none => exact ⟨rfl, rfl, rfl, rfl, rfl⟩
  | some header => exact ⟨rfl, rfl, rfl, rfl, rfl⟩

theorem Fresh.finish (hfresh : Fresh s req) :
    Settled (s.finish req) req ∧ Apart s (s.finish req) req := by
  obtain ⟨hsettled, hapart, -⟩ := hfresh.toLive.finish (by simp [hfresh.responses])
  exact ⟨hsettled, hapart⟩

/-- The exceptions that `start` answers with. -/
def refusals (thhedid : Int) (returnFunction : String) : List ThriftPack :=
  [.fnameNotFound thhedid returnFunction, .unknownException thhedid returnFunction "dao busy",
    .unknownException thhedid returnFunction "network error"]

/-- What `start` comes to: it gives the request up, answers it, or sends it to the dao. -/
theorem Fresh.start_cases (hfresh : Fresh s req) (thhedid : Int) (cid : Nat)
    (returnFunction : String) (routeHeader : Option RouteReq) (fname : String)
    (answers : Answers) :
    ∃ mid groupid, Fresh mid req ∧ Apart s mid req ∧ mid.timers = s.timers ∧
      mid.fsms req = { called thhedid cid returnFunction routeHeader fname (s.fsms req) with
        toGroupid := groupid } ∧
      ((¬answers.Responds ∧ ¬answers.Sends ∧
          s.start req thhedid cid returnFunction routeHeader fname answers = mid.finish req) ∨
        (answers.Responds ∧ ∃ pack ∈ refusals thhedid returnFunction, ∃ debug,
          s.start req thhedid cid returnFunction routeHeader fname answers =
            (mid.sendRespThriftPacket req pack (some debug) answers).finish req) ∨
        (answers.Sends ∧ s.start req thhedid cid returnFunction routeHeader fname answers =
          ((mid.startTimer req answers.schedule).use req).modify req fun fsm =>
            { fsm with selectServerName := answers.server.1 })) := by
  have hcalled := hfresh.modify _ (called_kept thhedid cid returnFunction routeHeader fname)
  have hapart := modify_apart s req (called thhedid cid returnFunction routeHeader fname)
  have hmember := modify_self s req (called thhedid cid returnFunction routeHeader fname)
  generalize hlast : s.start req thhedid cid returnFunction routeHeader fname answers = last
  rw [ReqFSMs.start, hfresh.toLive.use] at hlast
  dsimp only at hlast
  generalize hbegun : s.modify req (called thhedid cid returnFunction routeHeader fname) = begun
    at hcalled hapart hmember hlast
  have htimers : begun.timers = s.timers := hbegun ▸ rfl
  have hgrouped := hcalled.modify (fun fsm => { fsm with toGroupid := answers.server.2 })
    fun _ => ⟨rfl, rfl, rfl, rfl, rfl⟩
  have hapart' := hapart.trans (modify_apart begun req fun fsm =>
    { fsm with toGroupid := answers.server.2 })
  have hmember' : (begun.modify req fun fsm => { fsm with toGroupid := answers.server.2 }).fsms
      req = { called thhedid cid returnFunction routeHeader fname (s.fsms req) with
        toGroupid := answers.server.2 } := by
    rw [modify_self, hmember]
  -- Only behind `selectBestConnection` has the request its group.
  unfold Answers.Responds Answers.Sends
  split at hlast
  next hlicence =>
    exact ⟨_, _, hcalled, hapart, htimers, hmember,
      Or.inl ⟨fun h => hlicence h.1, fun h => hlicence h.1, hlast.symm⟩⟩
  next hlicence =>
    rw [not_not] at hlicence
    split at hlast
    next hselect =>
      exact ⟨_, _, hcalled, hapart, htimers, hmember, Or.inr (Or.inl ⟨⟨hlicence, Or.inl (by omega)⟩,
        .fnameNotFound thhedid returnFunction, .head _, _, hlast.symm⟩)⟩
    next =>
      split at hlast
      next hselect =>
        exact ⟨_, _, hcalled, hapart, htimers, hmember, Or.inr (Or.inl ⟨⟨hlicence, Or.inl hselect⟩,
          .unknownException thhedid returnFunction "dao busy", .tail _ (.head _), _, hlast.symm⟩)⟩
      next hselect =>
        split at hlast
        next hbest =>
          exact ⟨_, _, hcalled, hapart, htimers, hmember,
            Or.inl ⟨by omega, by omega, hlast.symm⟩⟩
        next hbest =>
          rw [hcalled.toLive.use] at hlast
          split at hlast
          next hconnection =>
            exact ⟨_, _, hgrouped, hapart', htimers, hmember',
              Or.inl ⟨by omega, by omega, hlast.symm⟩⟩
          next hconnection =>
            split at hlast
            next hsend =>
              exact ⟨_, _, hgrouped, hapart', htimers, hmember', Or.inr (Or.inl
                ⟨⟨hlicence, Or.inr ⟨by omega, by omega, hsend⟩⟩,
                  .unknownException thhedid returnFunction "network error",
                  .tail _ (.tail _ (.head _)), _, hlast.symm⟩)⟩
            next hsend =>
              exact ⟨_, _, hgrouped, hapart', htimers, hmember', Or.inr (Or.inr
                ⟨⟨hlicence, by omega, by omega, by omega, by omega⟩, hlast.symm⟩)⟩

/-- `start` finishes the request, or leaves it waiting. -/
theorem Fresh.start (hfresh : Fresh s req) (thhedid : Int) (cid : Nat) (returnFunction : String)
    (routeHeader : Option RouteReq) (fname : String)
    (hclient : answers.Responds → answers.client ≠ .throws)
    (hschedule : answers.Sends → ∃ timerId, answers.schedule = some timerId ∧ timerId ≠ 0 ∧
      s.timers timerId = none) :
    (Settled (s.start req thhedid cid returnFunction routeHeader fname answers) req ∨
      Waiting (s.start req thhedid cid returnFunction routeHeader fname answers) req) ∧
      Apart s (s.start req thhedid cid returnFunction routeHeader fname answers) req := by
  obtain ⟨mid, groupid, hmid, hapart, htimers, -, hcases⟩ :=
    hfresh.start_cases thhedid cid returnFunction routeHeader fname answers
  rcases hcases with ⟨-, -, hstart⟩ | ⟨hresponds, pack, -, debug, hstart⟩ | ⟨hsends, hstart⟩
  · obtain ⟨hsettled, hapart'⟩ := hmid.finish
    rw [hstart]
    exact ⟨Or.inl hsettled, hapart.trans hapart'⟩
  · obtain ⟨hsettled, hapart'⟩ :=
      hmid.toLive.respond hmid.responses pack (some debug) (hclient hresponds)
    rw [hstart]
    exact ⟨Or.inl hsettled, hapart.trans hapart'⟩
  · obtain ⟨timerId, htimer, hnonzero, hfree⟩ := hschedule hsends
    obtain ⟨hwaiting, hapart'⟩ := hmid.toLive.startTimer hmid.idle hmid.responses hnonzero
      (htimers ▸ hfree)
    rw [hstart, htimer, hwaiting.toLive.use]
    refine ⟨Or.inr ⟨hwaiting.toLive.modify fun _ => ⟨rfl, rfl, rfl, rfl⟩, ?_, ?_⟩,
      (hapart.trans hapart').trans (modify_apart _ _ _)⟩
    · rw [modify_self]
      exact hwaiting.responses
    · rw [modify_self]
      exact hwaiting.timer

theorem Waiting.onResponse (hwaiting : Waiting s req) (traceDebug : String)
    (upperLayer : List UInt8) (hclient : answers.client ≠ .throws) :
    Settled (s.onResponse req traceDebug upperLayer answers) req ∧
      Apart s (s.onResponse req traceDebug upperLayer answers) req := by
  unfold ReqFSMs.onResponse
  rw [hwaiting.toLive.use]
  dsimp only
  have hlive : Live (s.modify req fun fsm =>
      { fsm with routeResp := { fsm.routeResp with traceDebug := traceDebug } }) req :=
    hwaiting.toLive.modify fun _ => ⟨rfl, rfl, rfl, rfl⟩
  obtain ⟨hsettled, hapart⟩ := hlive.respond (by rw [modify_self]; exact hwaiting.responses)
    (.upperLayer upperLayer) none hclient
  exact ⟨hsettled, (modify_apart _ _ _).trans hapart⟩

theorem finish_use (s : ReqFSMs) (req : Nat) : (s.use req).finish req = s.finish req := by
  have huse : (s.use req).use req = s.use req := by
    by_cases hdestroyed : (s.fsms req).destroyed = 0
    · have hsame : s.use req = s := if_pos hdestroyed
      rw [hsame, hsame]
    · have hstill :
          ((s.modify req fun fsm => { fsm with used := true }).fsms req).destroyed ≠ 0 := by
        rwa [modify_self]
      have hmarked : s.use req = s.modify req fun fsm => { fsm with used := true } :=
        if_neg hdestroyed
      rw [hmarked, use, if_neg hstill, modify, modify_self]
      simp only [modify, Function.update_idem]
  rw [finish, huse, finish]

/-- A timer that fires is gone, and its request can still finish. -/
theorem Waiting.expire (hwaiting : Waiting s req) :
    Live (s.cancel (s.fsms req).timerId) req ∧ Apart s (s.cancel (s.fsms req).timerId) req := by
  have htimers : ∀ other id, (s.cancel (s.fsms req).timerId).timers id = some other ↔
      s.timers id = some other ∧ other ≠ req :=
    update_none_iff (fun id hid => (hwaiting.timers id hid).1) hwaiting.own
  refine ⟨⟨hwaiting.destroyed, hwaiting.used, hwaiting.container, ?_, ?_⟩,
    ⟨⟨fun _ _ => rfl, fun _ _ _ => Iff.rfl, ?_⟩, rfl⟩⟩
  · intro id hid
    exact absurd rfl ((htimers req id).mp hid).2
  · intro other hother
    exact hwaiting.own other ((htimers other _).mp hother).1
  · intro other hother id
    exact (htimers other id).trans (and_iff_left hother)

theorem Live.handleTimeout (hlive : Live s req) (hnew : (s.fsms req).responses = []) :
    (answers.client ≠ .throws → Settled (s.handleTimeout req answers) req ∧
      Apart s (s.handleTimeout req answers) req) ∧
    ((s.handleTimeout req answers).fsms req).destroyed = 1 := by
  unfold ReqFSMs.handleTimeout
  rw [hlive.use]
  dsimp only
  rw [finish_use]
  refine ⟨fun hclient => hlive.respond hnew _ _ hclient, ?_⟩
  by_cases hclient : answers.client = .throws
  · exact (hlive.respond_throws hnew _ _ hclient).1
  · exact (hlive.respond hnew _ _ hclient).1.destroyed

/-! ## Every run -/

structure Inv (s : ReqFSMs) : Prop where
  born : ∀ req < s.created, Settled s req ∨ Waiting s req
  container : ∀ req, s.created ≤ req → ∀ id, s.container id ≠ some req
  timers : ∀ req, s.created ≤ req → ∀ id, s.timers id ≠ some req

theorem init_inv (processpid : Nat) : Inv (init processpid) where
  born req hreq := absurd hreq (Nat.not_lt_zero req)
  container _ _ _ := nofun
  timers _ _ _ := nofun

/-- What holds of the other requests when one is at work. -/
structure Others (s : ReqFSMs) (req : Nat) : Prop where
  born : ∀ other < s.created, other ≠ req → Settled s other ∨ Waiting s other
  container : ∀ other, s.created ≤ other → ∀ id, s.container id ≠ some other
  timers : ∀ other, s.created ≤ other → ∀ id, s.timers id ≠ some other

theorem Inv.others (hinv : Inv s) (req : Nat) : Others s req where
  born other hother _ := hinv.born other hother
  container := hinv.container
  timers := hinv.timers

theorem Others.inv (hothers : Others s req) (hreq : req < s.created) (hapart : Apart s next req)
    (hnext : Settled next req ∨ Waiting next req) : Inv next := by
  refine ⟨?_, ?_, ?_⟩
  · intro other hother
    rw [hapart.created] at hother
    by_cases hsame : other = req
    · exact hsame ▸ hnext
    · rcases hothers.born other hother hsame with hsettled | hwaiting
      · exact Or.inl (hsettled.congr hapart.toFrame hsame)
      · exact Or.inr (hwaiting.congr hapart.toFrame hsame)
  · intro other hother id hid
    rw [hapart.created] at hother
    have hdiff : other ≠ req := by omega
    exact hothers.container other hother id ((hapart.container other hdiff id).mp hid)
  · intro other hother id hid
    rw [hapart.created] at hother
    have hdiff : other ≠ req := by omega
    exact hothers.timers other hother id ((hapart.timers other hdiff id).mp hid)

/-- A request that is found, or has a timer, waits. -/
theorem Inv.waiting (hinv : Inv s) {id : Nat}
    (hfound : s.container id = some req ∨ s.timers id = some req) :
    req < s.created ∧ Waiting s req := by
  have hreq : req < s.created := by
    by_contra hreq
    rcases hfound with hfound | hfound
    · exact hinv.container req (Nat.not_lt.mp hreq) id hfound
    · exact hinv.timers req (Nat.not_lt.mp hreq) id hfound
  refine ⟨hreq, ?_⟩
  rcases hinv.born req hreq with hsettled | hwaiting
  · rcases hfound with hfound | hfound
    · exact absurd hfound (hsettled.container id)
    · exact absurd hfound (hsettled.timers id)
  · exact hwaiting

/-- No timer has the id that stands for none. -/
theorem Inv.timers_zero (hinv : Inv s) : s.timers 0 = none := by
  by_contra hsome
  obtain ⟨req, hreq⟩ := Option.ne_none_iff_exists'.mp hsome
  exact ((hinv.waiting (Or.inr hreq)).2.timers 0 hreq).2 rfl

/-- A request that is created has its id, and no timer. -/
theorem createFSM_fresh {fsmId : Nat} (hfree : s.container fsmId = none)
    (hcontainer : ∀ id, s.container id ≠ some s.created)
    (htimers : ∀ id, s.timers id ≠ some s.created) (hzero : s.timers 0 = none) :
    Fresh (s.createFSM fsmId) s.created ∧ Frame s (s.createFSM fsmId) s.created := by
  have hself : (s.createFSM fsmId).fsms s.created = ReqFSM.new fsmId := Function.update_self _ _ _
  have hfound : ∀ req id, (s.createFSM fsmId).container id = some req ↔
      (id = fsmId ∧ req = s.created) ∨ s.container id = some req := by
    intro req id
    change Function.update s.container fsmId (some s.created) id = some req ↔ _
    rw [Function.update_apply]
    split
    next hid =>
      rw [hid, hfree]
      simp [eq_comm]
    next hid => simp [hid]
  refine ⟨⟨⟨?_, ?_, ?_, ?_, ?_⟩, ?_, ?_⟩, fun req hreq => Function.update_of_ne hreq _ _, ?_,
    fun _ _ _ => Iff.rfl⟩
  · rw [hself]
    rfl
  · rw [hself]
    rfl
  · intro id
    rw [hself, hfound]
    simp [hcontainer id, ReqFSM.new]
  · intro id hid
    exact absurd hid (htimers id)
  · intro other hother
    rw [hself] at hother
    exact absurd (hother.symm.trans hzero) nofun
  · rw [hself]
    rfl
  · rw [hself]
    rfl
  · intro req hreq id
    rw [hfound, or_iff_right (fun hnew => hreq hnew.2)]

/-- A request is created among the others. -/
theorem Inv.create (hinv : Inv s) {fsmId : Nat} (hfree : s.container fsmId = none) :
    Fresh (s.createFSM fsmId) s.created ∧ Others (s.createFSM fsmId) s.created := by
  obtain ⟨hfresh, hframe⟩ := createFSM_fresh hfree (hinv.container s.created (le_refl _))
    (hinv.timers s.created (le_refl _)) hinv.timers_zero
  refine ⟨hfresh, ?_, ?_, ?_⟩
  · intro req hreq hdiff
    rcases hinv.born req (lt_of_le_of_ne (Nat.lt_succ_iff.mp hreq) hdiff) with hsettled | hwaiting
    · exact Or.inl (hsettled.congr hframe hdiff)
    · exact Or.inr (hwaiting.congr hframe hdiff)
  · intro req hreq id hid
    have hdiff : req ≠ s.created := Nat.ne_of_gt hreq
    exact hinv.container req (Nat.le_of_succ_le hreq) id ((hframe.container req hdiff id).mp hid)
  · intro req hreq id hid
    exact hinv.timers req (Nat.le_of_succ_le hreq) id hid

/-- No response is lost to a connection that throws, and a request that waits has a
timer. -/
def Keeps (s : ReqFSMs) : Event → Prop
  | .process _ _ answers =>
      (answers.Responds → answers.client ≠ .throws) ∧ (answers.Sends → answers.schedule ≠ none)
  | .daoheadresponse context _ _ answers =>
      (s.awaits context).isSome → answers.client ≠ .throws
  | .timeout _ answers => answers.client ≠ .throws

theorem Inv.process (hinv : Inv s) {fsmId : Nat} (hfree : s.container fsmId = none)
    (request : ProxyRequest) (hclient : answers.Responds → answers.client ≠ .throws)
    (hschedule : answers.Sends → ∃ timerId, answers.schedule = some timerId ∧ timerId ≠ 0 ∧
      s.timers timerId = none) : Inv (s.process fsmId request answers) := by
  obtain ⟨hfresh, hothers⟩ := hinv.create hfree
  unfold ReqFSMs.process
  dsimp only
  cases request.routeHeader with
  | none =>
      obtain ⟨hnext, hapart⟩ := hfresh.start request.seqid request.cid request.fnameFull none
        (servicePrefix request.fnameFull) hclient hschedule
      exact hothers.inv (Nat.lt_succ_self _) hapart hnext
  | some head =>
      obtain ⟨header, seqid⟩ := head
      dsimp only
      rw [hfresh.toLive.use]
      have hheaded := hfresh.modify (fun fsm => { fsm with headofthriftHeadid := seqid })
        fun _ => ⟨rfl, rfl, rfl, rfl, rfl⟩
      obtain ⟨hnext, hapart⟩ := hheaded.start request.seqid request.cid request.fnameFull
        (some header) (servicePrefix request.fnameFull) hclient hschedule
      exact hothers.inv (Nat.lt_succ_self _) ((modify_apart _ _ _).trans hapart) hnext

theorem Inv.step (hinv : Inv s) {event : Event} (hkeeps : Keeps s event)
    (hstep : s.step event = some next) : Inv next := by
  cases event with
  | process fsmId request answers =>
      change (if _ then some (s.process fsmId request answers) else none) = some next at hstep
      split at hstep
      next hids =>
        cases hstep
        refine hinv.process hids.1 request hkeeps.1 fun hsends => ?_
        obtain ⟨timerId, htimer⟩ := Option.ne_none_iff_exists'.mp (hkeeps.2 hsends)
        have hfree := hids.2
        rw [htimer, Option.all_some, decide_eq_true_eq] at hfree
        exact ⟨timerId, htimer, hfree⟩
      next => cases hstep
  | daoheadresponse context traceDebug upperLayer answers =>
      cases hstep
      unfold ReqFSMs.daoheadresponse
      cases hfound : s.awaits context with
      | none => exact hinv
      | some req =>
          obtain ⟨id, -, hid⟩ := Option.bind_eq_some_iff.mp hfound
          obtain ⟨hreq, hwaiting⟩ := hinv.waiting (Or.inl hid)
          obtain ⟨hsettled, hapart⟩ :=
            hwaiting.onResponse traceDebug upperLayer (hkeeps (by rw [hfound]; rfl))
          exact (hinv.others req).inv hreq hapart (Or.inl hsettled)
  | timeout timerId answers =>
      obtain ⟨req, htimer, hnext⟩ := Option.bind_eq_some_iff.mp hstep
      cases hnext
      obtain ⟨hreq, hwaiting⟩ := hinv.waiting (Or.inr htimer)
      obtain ⟨rfl, -⟩ := hwaiting.timers timerId htimer
      obtain ⟨hlive, hapart⟩ := hwaiting.expire
      obtain ⟨hsettled, hapart'⟩ := (hlive.handleTimeout hwaiting.responses).1 hkeeps
      exact (hinv.others req).inv hreq (hapart.trans hapart') (Or.inl hsettled)

/-- Everything goes well, as far as the client lets it. -/
def answered (client : Client) : Answers :=
  ⟨0, 0, ("dao", 1), 0, 0, 0, some 1, client, "proxy"⟩

/-- A request is sent to the dao and answered; the second answer comes too late. -/
def served : List Event :=
  [.process 5 ⟨3, 9, "online.get", none⟩ (answered .accepts),
    .daoheadresponse (leBytes 8 7 ++ leBytes 8 5) "dao" [1, 2] (answered .accepts),
    .daoheadresponse (leBytes 8 7 ++ leBytes 8 5) "dao" [1, 2] (answered .gone)]

/-- There is no dao for the request, and its client throws. -/
def refused : Event :=
  .process 5 ⟨3, 9, "online.get", none⟩ ⟨0, -2, ("", 0), 0, 0, 0, none, .throws, "proxy"⟩

end ReqFSMs

end ServiceFrame
