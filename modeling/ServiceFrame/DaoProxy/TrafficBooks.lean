import ServiceFrame.DaoProxy.InFlight
import ServiceFrame.DaoProxy.ReqAnswered
import ServiceFrame.DaoProxy.TrafficStat

/-! # The books of the proxy

The requests of the dao proxy together with the calls of `TrafficStat` that they make, and the
timer that swaps its tables. An object that its client's exception destroyed is read as it was
left.
-/

namespace ServiceFrame

open Foundation

/-- `ErrorCodeObj`. -/
def errorCodeObj (s : String) : Int :=
  if s = "no_error" then 0
  else if s = "unknown_error" then 1
  else if s = "network_error" then 101
  else if s = "daobusy" then 201
  else if s = "authorize_fail" then 100101
  else if s = "no_licence" then 100102
  else if s = "throttled" then 100103
  else if s = "nodao" then 100104
  else -1

namespace ReqFSMs

variable {Num : Type} [Floating Num]

/-- What `start` says of a call that it sends. -/
def sendCall (request : ProxyRequest) (answers : Answers) : TrafficCall where
  toGid := answers.server.2
  daoserver := answers.server.1
  appName := request.routeHeader.map (·.1.callerName)
  daoName := some (servicePrefix request.fnameFull)

/-- What `onResponse` and `handle_timeout` say of it: an empty name is none. -/
def recvCall (fsm : ReqFSM) : TrafficCall where
  toGid := fsm.toGroupid
  daoserver := fsm.selectServerName
  appName := if fsm.appName = "" then none else some fsm.appName
  daoName := some fsm.fname

/-- What `start` counts. -/
def startTraffic (request : ProxyRequest) (answers : Answers) (tables : TrafficTables Num) :
    TrafficTables Num :=
  if answers.licenceRt ≠ 0 then
    if answers.licenceRt = 2 then tables.statErrorOne (errorCodeObj "no_licence")
    else if answers.licenceRt = 1 then tables.statErrorOne (errorCodeObj "throttled")
    else if answers.licenceRt = 3 then tables.statErrorOne (errorCodeObj "throttled")
    else tables
  else if answers.daoSelect = -2 then tables.statErrorOne (errorCodeObj "nodao")
  else if answers.daoSelect < 0 then tables.statErrorOne (errorCodeObj "daobusy")
  else if answers.selectBestConnection < 0 then tables.statErrorOne (errorCodeObj "unknown_error")
  else if answers.getConnection < 0 then tables.statErrorOne (errorCodeObj "unknown_error")
  else if answers.sendPack < 0 then tables.statErrorOne (errorCodeObj "network_error")
  else tables.statSendOne (sendCall request answers) 1

/-- What `onResponse` counts, `udiffTime` microseconds after the call was sent. -/
def responseTraffic (fsm : ReqFSM) (udiffTime : UInt64) (tables : TrafficTables Num) :
    TrafficTables Num :=
  let udiffTime := if udiffTime > 10000000 then 10000000 else udiffTime
  tables.statRecvOne (recvCall fsm) 1 (Floating.float ((udiffTime.toNat : Int) : Num))

def timeoutTraffic (fsm : ReqFSM) (tables : TrafficTables Num) : TrafficTables Num :=
  tables.statRecvOne (recvCall fsm) (-1) (Floating.float 0.0)

def traffic (s : ReqFSMs) (udiffTime : UInt64) (tables : TrafficTables Num) :
    Event → TrafficTables Num
  | .process _ request answers => startTraffic request answers tables
  | .daoheadresponse context _ _ _ =>
      match s.awaits context with
      | some req => responseTraffic (s.fsms req) udiffTime tables
      | none => tables
  | .timeout timerId _ =>
      match s.timers timerId with
      | some req => timeoutTraffic (s.fsms req) tables
      | none => tables

end ReqFSMs

structure TrafficBooks (Num : Type) where
  fsms : ReqFSMs
  stat : TrafficStat Num

namespace TrafficBooks

variable {Num : Type} [Floating Num]

inductive Event where
  | fsm (event : ReqFSMs.Event) (udiffTime : UInt64)
  | swap

def start (processpid : Nat) : TrafficBooks Num := ⟨.init processpid, .new⟩

def step (books : TrafficBooks Num) : Event → Option (TrafficBooks Num)
  | .fsm event udiffTime =>
      (books.fsms.step event).map fun fsms =>
        { fsms := fsms
          stat := { books.stat with
            current := books.fsms.traffic udiffTime books.stat.current event } }
  | .swap => some { books with stat := books.stat.swapStat }

/-- The tables that were swapped, the last first. -/
def record (past : List (TrafficTables Num)) (books : TrafficBooks Num) :
    Event → List (TrafficTables Num)
  | .swap => books.stat.current :: past
  | .fsm _ _ => past

end TrafficBooks

/-! ## The requests on their way -/

/-- What is said of a call when it ends. -/
def TrafficCall.answered (call : TrafficCall) : TrafficCall :=
  { call with appName := call.appName.filter (· ≠ "") }

instance (answers : Answers) : Decidable answers.Sends :=
  inferInstanceAs (Decidable (answers.licenceRt = 0 ∧ 0 ≤ answers.daoSelect ∧
    0 ≤ answers.selectBestConnection ∧ 0 ≤ answers.getConnection ∧ 0 ≤ answers.sendPack))

namespace ReqFSMs

variable {s next : ReqFSMs} {req fsmId : Nat} {answers : Answers} {request : ProxyRequest}

/-- How many of the requests that are on their way are for the line. -/
def onWay (s : ReqFSMs) (line : TrafficLine) : Nat :=
  (List.range s.created).countP fun req =>
    (s.fsms req).destroyed = 0 ∧ (recvCall (s.fsms req)).On line

/-- Of a call that is sent the request keeps all that its end will say. -/
theorem Fresh.start_sends (hfresh : Fresh s req) (thhedid : Int) (cid : Nat)
    (returnFunction : String) (routeHeader : Option RouteReq) (fname : String)
    (hsends : answers.Sends) (hschedule : ∀ timerId, answers.schedule = some timerId →
      timerId ≠ 0 ∧ s.timers timerId = none) :
    let last := s.start req thhedid cid returnFunction routeHeader fname answers
    Open last req ∧ ∃ timerId, last.fsms req =
      { called thhedid cid returnFunction routeHeader fname (s.fsms req) with
        toGroupid := answers.server.2
        timerId := timerId
        selectServerName := answers.server.1 } := by
  obtain ⟨hlicence, hselect, hbest, hconnection, hsend⟩ := hsends
  have hcalled := hfresh.modify _ (called_kept thhedid cid returnFunction routeHeader fname)
  have hgrouped := hcalled.modify (fun fsm => { fsm with toGroupid := answers.server.2 })
    fun _ => ⟨rfl, rfl, rfl, rfl, rfl⟩
  obtain ⟨hopen, -, timerId, hself⟩ := hgrouped.sent answers.server.1 hschedule
  have hmember : ((s.modify req (called thhedid cid returnFunction routeHeader fname)).modify req
      fun fsm => { fsm with toGroupid := answers.server.2 }).fsms req =
      { called thhedid cid returnFunction routeHeader fname (s.fsms req) with
        toGroupid := answers.server.2 } := by
    rw [modify_self, modify_self]
  rw [hmember] at hself
  dsimp only
  rw [ReqFSMs.start, hfresh.toLive.use]
  dsimp only
  rw [if_neg (not_not.mpr hlicence), if_neg (by omega), if_neg (by omega), if_neg (by omega),
    hcalled.toLive.use, if_neg (by omega), if_neg (by omega)]
  exact ⟨hopen, timerId, hself⟩

/-- After `start` a request is on its way if it was sent, and else it is gone. -/
theorem Kept.process_spec (hkept : Kept s)
    (hstep : s.step (.process fsmId request answers) = some next) :
    next.created = s.created + 1 ∧ (∀ other, other ≠ s.created → next.fsms other = s.fsms other) ∧
      (answers.Sends → (next.fsms s.created).destroyed = 0 ∧
        recvCall (next.fsms s.created) = (sendCall request answers).answered) ∧
      (¬answers.Sends → (next.fsms s.created).destroyed ≠ 0) := by
  obtain ⟨rfl, hfree, hschedule⟩ := step_process hstep
  obtain ⟨hfresh, -⟩ := hkept.create hfree
  have htouches := hkept.process hfree request hschedule
  have hcreated := htouches.born (s.created + 1) (by omega)
  have hself := htouches.self
  refine ⟨by omega, htouches.frame.fsms, fun hsends => ?_, fun hsends => ?_⟩
  · rw [process_eq s fsmId request answers hfresh]
    obtain ⟨hopen, timerId, hlast⟩ := (hfresh.headed request).start_sends request.seqid
      request.cid request.fnameFull (request.routeHeader.map Prod.fst)
      (servicePrefix request.fnameFull) hsends hschedule
    refine ⟨hopen.destroyed, ?_⟩
    rw [hlast]
    cases hroute : request.routeHeader with
    | none => simp [recvCall, sendCall, called, TrafficCall.answered, hroute]
    | some header => simp [recvCall, sendCall, called, TrafficCall.answered, hroute, Option.filter]
  · rw [process_eq s fsmId request answers hfresh]
    obtain ⟨mid, groupid, hmid, -, -, -, hcases⟩ :=
      (hfresh.headed request).start_cases request.seqid request.cid request.fnameFull
        (request.routeHeader.map Prod.fst) (servicePrefix request.fnameFull) answers
    obtain ⟨-, -, hstart⟩ | ⟨-, pack, -, debug, hstart⟩ | ⟨hthis, -⟩ := hcases
    · rw [hstart]
      exact hmid.finish.1.gone.destroyed
    · rw [hstart]
      exact (hmid.toLive.respond_gone hmid.responses pack (some debug) answers).1.destroyed
    · exact absurd hthis hsends

/-- A request that the dao answers, or whose time is over, was on its way and is gone. -/
structure Ends (s next : ReqFSMs) (req : Nat) : Prop where
  born : req < s.created
  created : next.created = s.created
  others : ∀ other, other ≠ req → next.fsms other = s.fsms other
  alive : (s.fsms req).destroyed = 0
  gone : (next.fsms req).destroyed ≠ 0

theorem Kept.response_ends (hkept : Kept s) {context : List UInt8}
    (hfound : s.awaits context = some req) (traceDebug : String) (upperLayer : List UInt8)
    (answers : Answers) :
    Ends s (s.daoheadresponse context traceDebug upperLayer answers) req := by
  obtain ⟨id, -, hid⟩ := Option.bind_eq_some_iff.mp hfound
  obtain ⟨hreq, hopen⟩ := hkept.open (Or.inl hid)
  obtain ⟨hgone, hapart⟩ := hopen.onResponse traceDebug upperLayer answers
  rw [ReqFSMs.daoheadresponse, hfound]
  exact ⟨hreq, hapart.created, hapart.fsms, hopen.destroyed, hgone.destroyed⟩

theorem Kept.timeout_ends (hkept : Kept s) {timerId : Nat} (htimer : s.timers timerId = some req)
    (answers : Answers) : Ends s ((s.cancel timerId).handleTimeout req answers) req := by
  obtain ⟨hreq, hopen⟩ := hkept.open (Or.inr htimer)
  obtain ⟨hgone, hapart⟩ := hopen.handleTimeout htimer answers
  exact ⟨hreq, hapart.created, hapart.fsms, hopen.destroyed, hgone.destroyed⟩

/-- The request that ends was counted on its way. -/
theorem Ends.onWay (hends : Ends s next req) (line : TrafficLine) :
    s.onWay line = next.onWay line + if (recvCall (s.fsms req)).On line then 1 else 0 := by
  have hcount := countP_range_of_ne
    (fun other => (s.fsms other).destroyed = 0 ∧ (recvCall (s.fsms other)).On line)
    (fun other => (next.fsms other).destroyed = 0 ∧ (recvCall (next.fsms other)).On line)
    hends.born fun other hother => by rw [hends.others other hother]
  simp only [hends.alive, hends.gone, true_and, false_and, decide_false, Bool.false_eq_true,
    if_false, Nat.add_zero, decide_eq_true_eq] at hcount
  rw [ReqFSMs.onWay, ReqFSMs.onWay, hends.created]
  exact hcount

/-- A request that is sent is counted on its way, for the lines that its end will be for. -/
theorem Kept.process_onWay (hkept : Kept s)
    (hstep : s.step (.process fsmId request answers) = some next) (line : TrafficLine) :
    next.onWay line = s.onWay line +
      if answers.Sends ∧ (recvCall (next.fsms s.created)).On line then 1 else 0 := by
  obtain ⟨hcreated, hothers, hsent, hrefused⟩ := hkept.process_spec hstep
  have hold : ∀ other ∈ List.range s.created,
      (decide ((next.fsms other).destroyed = 0 ∧ (recvCall (next.fsms other)).On line) = true ↔
      decide ((s.fsms other).destroyed = 0 ∧ (recvCall (s.fsms other)).On line) = true) := by
    intro other hother
    rw [hothers other (Nat.ne_of_lt (List.mem_range.mp hother))]
  rw [ReqFSMs.onWay, hcreated, List.range_succ, List.countP_append, List.countP_singleton,
    List.countP_congr hold, ReqFSMs.onWay]
  by_cases hsends : answers.Sends
  · simp only [(hsent hsends).1, hsends, true_and, decide_eq_true_eq]
  · simp only [hrefused hsends, hsends, false_and, decide_false, Bool.false_eq_true, if_false]

end ReqFSMs

/-! ## What a step puts into the books -/

/-- No application without a name. -/
def TrafficLine.Named : TrafficLine → Prop
  | .app name => name ≠ ""
  | .appDao name _ => name ≠ ""
  | _ => True

/-- What is said at the end of a call is said for the same lines, but for those of an
application without a name. -/
theorem TrafficCall.answered_on (call : TrafficCall) {line : TrafficLine} (hnamed : line.Named) :
    call.answered.On line ↔ call.On line := by
  have happ : ∀ name : String, name ≠ "" →
      (call.appName.filter (· ≠ "") = some name ↔ call.appName = some name) := by
    intro name hname
    rw [Option.filter_eq_some_iff]
    exact and_iff_left_of_imp fun _ => decide_eq_true hname
  cases line with
  | app name => exact happ name hnamed
  | appDao app dao => exact and_congr_left' (happ app hnamed)
  | _ => exact Iff.rfl

theorem ReqFSMs.named_of_recvCall {fsm : ReqFSM} {line : TrafficLine}
    (hon : (recvCall fsm).On line) : line.Named := by
  have happ : ∀ name : String, (recvCall fsm).appName = some name → name ≠ "" := by
    intro name hname
    rw [recvCall] at hname
    split at hname
    next => cases hname
    next hne =>
      cases hname
      exact hne
  cases line with
  | app name => exact happ name hon
  | appDao app dao => exact happ app hon.1
  | _ => trivial

namespace TrafficTables

variable {Num : Type} [Floating Num] {tables : TrafficTables Num} {call : TrafficCall}

/-- What was sent, and neither came back nor was given up. -/
def net (tables : TrafficTables Num) (line : TrafficLine) : Int :=
  (tables.line line).count .send - (tables.line line).count .recv - (tables.line line).count .drop

theorem net_new (line : TrafficLine) : (new : TrafficTables Num).net line = 0 := by
  rw [net, line_new]
  rfl

theorem net_each {change : EachSTAT Num → EachSTAT Num} {more : Counter → Int}
    (hadds : Adds change more) (line : TrafficLine) : (tables.each call change).net line =
      tables.net line + if call.On line then more .send - more .recv - more .drop else 0 := by
  rw [net, count_line_each hadds, count_line_each hadds, count_line_each hadds, net]
  split <;> omega

theorem net_statSendOne (line : TrafficLine) : (tables.statSendOne call 1).net line =
    tables.net line + if call.On line then 1 else 0 :=
  net_each (adds_send 1) line

/-- An answer and a timeout each close one call. -/
theorem net_statRecvOne {recvCnt : Int} (hcnt : recvCnt = 1 ∨ recvCnt = -1) (respTime : Num)
    (line : TrafficLine) : (tables.statRecvOne call recvCnt respTime).net line =
      tables.net line - if call.On line then 1 else 0 := by
  obtain rfl | rfl := hcnt
  · refine (net_each (adds_recv respTime 1) line).trans ?_
    dsimp only
    split <;> omega
  · refine (net_each adds_drop line).trans ?_
    dsimp only
    split <;> omega

/-- What is not for the line does not change it. -/
theorem line_statRecvOne {line : TrafficLine} (hoff : ¬call.On line) (recvCnt : Int)
    (respTime : Num) : (tables.statRecvOne call recvCnt respTime).line line = tables.line line := by
  unfold statRecvOne
  split
  next => rw [line_each, if_neg hoff]
  next => rw [line_each, if_neg hoff]

theorem net_statErrorOne (errorCode : Int) (line : TrafficLine) :
    (tables.statErrorOne errorCode).net line = tables.net line := by
  cases line <;> rfl

theorem count_statSendOne (line : TrafficLine) (sendCnt : Int) {counter : Counter}
    (hcounter : counter ≠ .send) : ((tables.statSendOne call sendCnt).line line).count counter =
      (tables.line line).count counter := by
  refine (count_line_each (adds_send sendCnt) counter line).trans ?_
  cases counter with
  | send => exact absurd rfl hcounter
  | recv => rw [ite_self, Int.add_zero]
  | drop => rw [ite_self, Int.add_zero]

end TrafficTables

namespace ReqFSMs

variable {Num : Type} [Floating Num] {s next : ReqFSMs} {tables after : TrafficTables Num}

/-- What one step of the requests does to the tables. -/
structure Booked (s next : ReqFSMs) (tables after : TrafficTables Num) : Prop where
  agree : tables.Agree → after.Agree
  net : ∀ line : TrafficLine, line.Named →
    after.net line - next.onWay line = tables.net line - s.onWay line
  unnamed : ∀ line : TrafficLine, ¬line.Named → ∀ counter, counter ≠ .send →
    (after.line line).count counter = (tables.line line).count counter

/-- What `start` counts: the call that it sends, or an error. -/
theorem startTraffic_cases (request : ProxyRequest) (answers : Answers)
    (tables : TrafficTables Num) :
    (answers.Sends ∧
      startTraffic request answers tables = tables.statSendOne (sendCall request answers) 1) ∨
    (¬answers.Sends ∧ ∃ code, startTraffic request answers tables = tables.statErrorOne code) ∨
    (¬answers.Sends ∧ answers.licenceRt ∉ [0, 1, 2, 3] ∧
      startTraffic request answers tables = tables) := by
  unfold startTraffic Answers.Sends
  split
  next hlicence =>
    split
    next => exact Or.inr (Or.inl ⟨fun hsends => hlicence hsends.1, _, rfl⟩)
    next htwo =>
      split
      next => exact Or.inr (Or.inl ⟨fun hsends => hlicence hsends.1, _, rfl⟩)
      next hone =>
        split
        next => exact Or.inr (Or.inl ⟨fun hsends => hlicence hsends.1, _, rfl⟩)
        next hthree =>
          exact Or.inr (Or.inr ⟨fun hsends => hlicence hsends.1, by simp_all, rfl⟩)
  next hlicence =>
    split
    next => exact Or.inr (Or.inl ⟨by omega, _, rfl⟩)
    next =>
      split
      next => exact Or.inr (Or.inl ⟨by omega, _, rfl⟩)
      next =>
        split
        next => exact Or.inr (Or.inl ⟨by omega, _, rfl⟩)
        next =>
          split
          next => exact Or.inr (Or.inl ⟨by omega, _, rfl⟩)
          next =>
            split
            next => exact Or.inr (Or.inl ⟨by omega, _, rfl⟩)
            next => exact Or.inl ⟨⟨by omega, by omega, by omega, by omega, by omega⟩, rfl⟩

theorem Kept.process_booked (hkept : Kept s) {fsmId : Nat} {request : ProxyRequest}
    {answers : Answers} (hstep : s.step (.process fsmId request answers) = some next) :
    Booked s next tables (startTraffic request answers tables) := by
  obtain ⟨-, -, hsent, -⟩ := hkept.process_spec hstep
  have honWay := hkept.process_onWay hstep
  obtain ⟨hsends, htraffic⟩ | ⟨hsends, hrest⟩ := (or_congr_right
    (and_or_left.symm)).mp (startTraffic_cases request answers tables)
  · rw [htraffic]
    refine ⟨fun hagree => hagree.statSendOne rfl 1, fun line hnamed => ?_,
      fun line _ counter hcounter => TrafficTables.count_statSendOne line 1 hcounter⟩
    have hon : (recvCall (next.fsms s.created)).On line ↔ (sendCall request answers).On line := by
      rw [(hsent hsends).2]
      exact TrafficCall.answered_on _ hnamed
    rw [TrafficTables.net_statSendOne, honWay]
    simp only [hsends, true_and, hon]
    split <;> omega
  · have hsame : ∀ line, next.onWay line = s.onWay line := by
      intro line
      rw [honWay, if_neg fun hboth => hsends hboth.1]
      rfl
    obtain ⟨code, htraffic⟩ | ⟨-, htraffic⟩ := hrest
    · rw [htraffic]
      refine ⟨fun hagree => hagree.statErrorOne code, fun line _ => ?_,
        fun line _ counter _ => by cases line <;> rfl⟩
      rw [TrafficTables.net_statErrorOne, hsame]
    · rw [htraffic]
      exact ⟨id, fun line _ => by rw [hsame], fun _ _ _ _ => rfl⟩

/-- The end of a request takes it out of the books. -/
theorem Ends.booked {req : Nat} (hends : Ends s next req) {recvCnt : Int}
    (hcnt : recvCnt = 1 ∨ recvCnt = -1) (respTime : Num) :
    Booked s next tables (tables.statRecvOne (recvCall (s.fsms req)) recvCnt respTime) where
  agree hagree := hagree.statRecvOne rfl recvCnt respTime
  net line _ := by
    have honWay := hends.onWay line
    rw [TrafficTables.net_statRecvOne hcnt]
    by_cases hon : (recvCall (s.fsms req)).On line
    · rw [if_pos hon] at honWay
      rw [if_pos hon]
      omega
    · rw [if_neg hon] at honWay
      rw [if_neg hon]
      omega
  unnamed line hunnamed counter _ := by
    rw [TrafficTables.line_statRecvOne fun hon => hunnamed (named_of_recvCall hon)]

theorem Kept.booked (hkept : Kept s) {event : Event} (hstep : s.step event = some next)
    (udiffTime : UInt64) : Booked s next tables (s.traffic udiffTime tables event) := by
  cases event with
  | process fsmId request answers => exact hkept.process_booked hstep
  | daoheadresponse context traceDebug upperLayer answers =>
      cases hstep
      rw [traffic]
      cases hfound : s.awaits context with
      | none =>
          rw [ReqFSMs.daoheadresponse, hfound]
          exact ⟨id, fun _ _ => rfl, fun _ _ _ _ => rfl⟩
      | some req =>
          exact (hkept.response_ends hfound traceDebug upperLayer answers).booked (Or.inl rfl) _
  | timeout timerId answers =>
      obtain ⟨req, htimer, hnext⟩ := Option.bind_eq_some_iff.mp hstep
      cases hnext
      rw [traffic, htimer]
      exact (hkept.timeout_ends htimer answers).booked (Or.inr rfl) _

end ReqFSMs

/-! ## Every run -/

namespace TrafficBooks

variable {Num : Type} [Floating Num] {books next : TrafficBooks Num}
  {past later : List (TrafficTables Num)}

/-- The books and the tables that were swapped. -/
structure Inv (books : TrafficBooks Num) (past : List (TrafficTables Num)) : Prop where
  kept : books.fsms.Kept
  net : ∀ line : TrafficLine, line.Named →
    ((books.stat.current :: past).map (·.net line)).sum = books.fsms.onWay line
  unnamed : ∀ line : TrafficLine, ¬line.Named → ∀ tables ∈ books.stat.current :: past,
    ∀ counter, counter ≠ .send → (tables.line line).count counter = 0
  agree : ∀ tables ∈ books.stat.current :: past, tables.Agree
  log : books.stat.Kept past
  last : books.stat.last = past.headD .new

theorem start_inv (processpid : Nat) : Inv (start processpid : TrafficBooks Num) [] where
  kept := ReqFSMs.init_kept processpid
  net line _ := by
    rw [start, TrafficStat.new, List.map_singleton, List.sum_singleton, TrafficTables.net_new]
    rfl
  unnamed line _ tables htables counter _ := by
    obtain rfl := List.mem_singleton.mp htables
    rw [start, TrafficStat.new, TrafficTables.line_new, EachSTAT.count_new]
  agree tables htables := by
    obtain rfl := List.mem_singleton.mp htables
    exact TrafficTables.new_agree
  log := TrafficStat.new_kept
  last := rfl

theorem Inv.swap (hinv : Inv books past) :
    Inv { books with stat := books.stat.swapStat } (books.stat.current :: past) where
  kept := hinv.kept
  net line hnamed := by
    rw [List.map_cons, List.sum_cons, hinv.net line hnamed]
    exact (congrArg (· + _) (TrafficTables.net_new line)).trans (Int.zero_add _)
  unnamed line hunnamed := by
    refine List.forall_mem_cons.mpr ⟨fun counter _ => ?_, hinv.unnamed line hunnamed⟩
    exact (congrArg (EachSTAT.count · counter) (TrafficTables.line_new line)).trans
      (EachSTAT.count_new counter)
  agree := List.forall_mem_cons.mpr ⟨TrafficTables.new_agree, hinv.agree⟩
  log := hinv.log.swapStat
  last := rfl

theorem Inv.fsm (hinv : Inv books past) {event : ReqFSMs.Event} {fsms : ReqFSMs}
    (hstep : books.fsms.step event = some fsms) (udiffTime : UInt64) :
    Inv ⟨fsms, { books.stat with
      current := books.fsms.traffic udiffTime books.stat.current event }⟩ past := by
  have hbooked : ReqFSMs.Booked books.fsms fsms books.stat.current
      (books.fsms.traffic udiffTime books.stat.current event) := hinv.kept.booked hstep udiffTime
  obtain ⟨hagree, hnet, hunnamed⟩ := hbooked
  refine ⟨hinv.kept.step_kept hstep, fun line hnamed => ?_, fun line hline => ?_, ?_,
    ⟨hinv.log.incseq, hinv.log.histroy, hinv.log.size⟩, hinv.last⟩
  · have hbefore := hinv.net line hnamed
    have hafter := hnet line hnamed
    rw [List.map_cons, List.sum_cons] at hbefore ⊢
    dsimp only at hafter ⊢
    omega
  · obtain ⟨hcurrent, hpast⟩ := List.forall_mem_cons.mp (hinv.unnamed line hline)
    refine List.forall_mem_cons.mpr ⟨fun counter hcounter => ?_, hpast⟩
    exact (hunnamed line hline counter hcounter).trans (hcurrent counter hcounter)
  · obtain ⟨hcurrent, hpast⟩ := List.forall_mem_cons.mp hinv.agree
    exact List.forall_mem_cons.mpr ⟨hagree hcurrent, hpast⟩

theorem run_inv {processpid : Nat} {events : List Event}
    (hrun : run (recorded record step) (start processpid, []) events = some (books, past)) :
    Inv books past := by
  have hstep : ∀ (state : TrafficBooks Num × List (TrafficTables Num)) event next,
      Inv state.1 state.2 → recorded record step state event = some next → Inv next.1 next.2 := by
    rintro ⟨books, past⟩ event next hinv hnext
    obtain ⟨after, hafter, rfl⟩ := Option.map_eq_some_iff.mp hnext
    cases event with
    | fsm event udiffTime =>
        obtain ⟨fsms, hfsms, rfl⟩ := Option.map_eq_some_iff.mp hafter
        exact hinv.fsm hfsms udiffTime
    | swap =>
        cases hafter
        exact hinv.swap
  exact run_invariant hstep (start_inv processpid) hrun

/-- A call is sent, the tables are swapped, a call is refused, another one is sent, and the dao
answers the first one. -/
def bookedCalls : List Event :=
  let answers := ReqFSMs.answered .accepts
  [.fsm (.process 6 ReqFSMs.routedCall answers) 0, .swap,
    .fsm (.process 7 ⟨3, 10, "online.get", none⟩ { answers with
      licenceRt := 2
      schedule := none }) 0,
    .fsm (.process 8 ⟨3, 11, "online.get", none⟩ { answers with schedule := some 9 }) 0,
    .fsm (.daoheadresponse (leBytes 8 7 ++ leBytes 8 6) "dao" ReqFSMs.daoReply answers) 300]

/-- The history shows the last 3600 tables with their numbers, and in each of them, in the ones
that are filled and in those of the last ten seconds, the six tables agree. -/
theorem histroy_agrees (processpid : Nat) (events : List Event) (books : TrafficBooks Num)
    (past : List (TrafficTables Num))
    (hrun : run (recorded record step) (start processpid, []) events = some (books, past))
    (start leng : Int) :
    books.stat.getSomeHistroy start leng =
      (((TrafficStat.texts past).take 3600).drop start.toNat).take (leng - max 0 (-start)).toNat ∧
    (∀ text ∈ books.stat.getSomeHistroy start leng, text.2.Agree) ∧
    books.stat.current.Agree ∧ books.stat.last.Agree := by
  have hinv := run_inv hrun
  obtain ⟨hcurrent, hpast⟩ := List.forall_mem_cons.mp hinv.agree
  have hshown : books.stat.getSomeHistroy start leng =
      (((TrafficStat.texts past).take 3600).drop start.toNat).take
        (leng - max 0 (-start)).toNat := by
    rw [TrafficStat.getSomeHistroy, TrafficStat.someHistroy_eq, hinv.log.histroy, Int.sub_zero,
      Int.zero_sub]
  refine ⟨hshown, fun text htext => ?_, hcurrent, ?_⟩
  · rw [hshown] at htext
    have hmem := List.mem_of_mem_take (List.mem_of_mem_drop (List.mem_of_mem_take htext))
    exact TrafficStat.agree_of_mem_texts hpast hmem
  · rw [hinv.last]
    cases past with
    | nil => exact TrafficTables.new_agree
    | cons tables rest => exact hpast tables List.mem_cons_self

theorem histroy_agrees_booked : ∃ (books : TrafficBooks Rat) (past : List (TrafficTables Rat)),
    run (recorded record step) (start 7, []) bookedCalls = some (books, past) ∧
      (books.stat.getSomeHistroy 0 10).map Prod.fst = [1, 0] ∧
      ∀ text ∈ books.stat.getSomeHistroy 0 10, text.2.Agree :=
  ⟨_, _, rfl, rfl, (histroy_agrees 7 bookedCalls _ _ rfl 0 10).2.1⟩

/-! ## Each request is counted once -/

/-- The errors and the calls of the tables. -/
def counted (tables : TrafficTables Num) : Int :=
  tables.errorCount.total id + tables.stat.sendNum

end TrafficBooks

end ServiceFrame
