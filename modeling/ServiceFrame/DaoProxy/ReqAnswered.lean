import ServiceFrame.DaoProxy.ReqFSM

/-! # The answer to a request

Which requests of the dao proxy are answered, whatever the clients of the other requests do,
and whether the dao answers in time, late or never.
-/

namespace ServiceFrame

open Foundation

/-- `readI32`; the highest byte comes first. -/
def readI32 (bytes : List UInt8) : Option (Int32 × List UInt8) :=
  if bytes.length < 4 then none
  else some (Int32.ofNat (leNat (bytes.take 4).reverse), bytes.drop 4)

/-- `readStringBody`, for a string that nobody asks for. -/
def skipString (size : Int32) (bytes : List UInt8) : Option (List UInt8) :=
  if size < 0 ∨ bytes.length < size.toInt.toNat then none else some (bytes.drop size.toInt.toNat)

/-- The sequence id that `TBinaryProtocol::readMessageBegin` finds, with `VERSION_1` in front
or in the older layout. -/
def messageSeqid (bytes : List UInt8) : Option Int := do
  let (sz, rest) ← readI32 bytes
  if sz < 0 then
    if sz.toUInt32 &&& 0xffff0000 ≠ 0x80010000 then none
    else
      let (size, rest) ← readI32 rest
      let rest ← skipString size rest
      let (seqid, _) ← readI32 rest
      some seqid.toInt
  else
    let rest ← skipString sz rest
    let (seqid, _) ← readI32 (rest.drop 1)
    some seqid.toInt

/-- The sequence id of the message in a packet. -/
def ThriftPack.seqid : ThriftPack → Option Int
  | .fnameNotFound seqid _ => some seqid
  | .unknownException seqid _ _ => some seqid
  | .upperLayer dat => messageSeqid dat

/-- A response to the request: it has the sequence id of the request, and, when the request
had a head, a head with the sequence id and the context of that. -/
structure Replies (request : ProxyRequest) (response : Response) : Prop where
  seqid : response.pack.seqid = some request.seqid
  head : match request.routeHeader with
    | none => response.head = none
    | some (header, seqid) => ∃ routeResp, response.head = some (seqid, routeResp) ∧
        routeResp.context = header.context ∧ routeResp.upperLayer = some response.pack

/-- `dao_select` refuses the request, or a connection to its dao is found. -/
def Answers.Reaches (answers : Answers) : Prop :=
  0 ≤ answers.daoSelect → 0 ≤ answers.selectBestConnection ∧ 0 ≤ answers.getConnection

namespace ReqFSMs

variable {s next last : ReqFSMs} {req : Nat} {answers : Answers} {request : ProxyRequest}

/-- The request that an event is for. -/
def reached (s : ReqFSMs) : Event → Option Nat
  | .process _ _ _ => some s.created
  | .daoheadresponse context _ _ _ => s.awaits context
  | .timeout timerId _ => s.timers timerId

/-- The client of the request is there, and the dao answers the call that it was sent. -/
def Alive (request : ProxyRequest) (req : Nat) (s : ReqFSMs) : Event → Prop
  | .process _ _ _ => True
  | .daoheadresponse context _ upperLayer answers => s.awaits context = some req →
      answers.client = .accepts ∧ messageSeqid upperLayer = some request.seqid
  | .timeout timerId answers => s.timers timerId = some req → answers.client = .accepts

/-! ## The response -/

theorem modify_responses (s : ReqFSMs) (req other : Nat) {change : ReqFSM → ReqFSM}
    (hkept : (change (s.fsms req)).responses = (s.fsms req).responses) :
    ((s.modify req change).fsms other).responses = (s.fsms other).responses := by
  change (Function.update s.fsms req (change (s.fsms req)) other).responses = _
  rw [Function.update_apply]
  split
  next hsame => rw [hkept, hsame]
  next => rfl

theorem use_responses (s : ReqFSMs) (req other : Nat) :
    ((s.use req).fsms other).responses = (s.fsms other).responses := by
  rw [use]
  split
  · rfl
  · apply modify_responses
    rfl

theorem delete_responses (s : ReqFSMs) (req other : Nat) :
    ((s.delete req).fsms other).responses = (s.fsms other).responses := by
  rw [← use_responses s req other]
  unfold delete
  dsimp only
  split
  · apply modify_responses
    rfl
  · apply modify_responses
    rfl

/-- Nothing is sent when a request is finished. -/
theorem finish_responses (s : ReqFSMs) (req other : Nat) :
    ((s.finish req).fsms other).responses = (s.fsms other).responses := by
  rw [← use_responses s req other]
  unfold finish destroyFSM
  dsimp only
  split
  · rw [delete_responses]
  · rfl

/-- The members that go into a response are those of the request. -/
structure Called (request : ProxyRequest) (fsm : ReqFSM) : Prop where
  thriftHeadid : fsm.thriftHeadid = request.seqid
  head : match request.routeHeader with
    | none => fsm.routeResp.issetContext = false
    | some (header, seqid) => fsm.routeResp.issetContext = true ∧
        fsm.routeResp.context = header.context ∧ fsm.headofthriftHeadid = seqid

/-- A client that accepts a response gets the right one. -/
theorem Live.answer (hlive : Live s req) (hnew : (s.fsms req).responses = [])
    (hcalled : Called request (s.fsms req)) (hclient : answers.client = .accepts)
    {pack : ThriftPack} (hpack : pack.seqid = some request.seqid) (additionDebug : Option String) :
    ∃ response, (((s.sendRespThriftPacket req pack additionDebug answers).finish req).fsms
      req).responses = [response] ∧ Replies request response := by
  rw [finish_responses, sendRespThriftPacket, hlive.use, hclient]
  dsimp only
  rw [modify_self, fillHead]
  have hhead := hcalled.head
  cases hroute : request.routeHeader with
  | none =>
      rw [hroute] at hhead
      simp only [hhead, hnew, Bool.false_eq_true, if_false, List.nil_append]
      refine ⟨_, rfl, hpack, ?_⟩
      rw [hroute]
  | some header =>
      rw [hroute] at hhead
      obtain ⟨hset, hcontext, hseqid⟩ := hhead
      rw [if_pos hset, modify_self]
      simp only [routed, hset, hnew, if_true, List.nil_append]
      refine ⟨_, rfl, hpack, ?_⟩
      rw [hroute]
      refine ⟨routed answers.mytag additionDebug pack (s.fsms req).routeResp, ?_, hcontext, rfl⟩
      rw [← hseqid, routed, hset]

/-! ## Requests whose clients do anything -/

/-- A request that no event is for any more. -/
structure Gone (s : ReqFSMs) (req : Nat) : Prop where
  destroyed : (s.fsms req).destroyed ≠ 0
  container : ∀ id, s.container id ≠ some req
  timers : ∀ id, s.timers id ≠ some req

/-- A request that was sent to the dao, with its timer if it was given one. -/
structure Open (s : ReqFSMs) (req : Nat) : Prop extends Live s req where
  responses : (s.fsms req).responses = []
  timer : s.timers (s.fsms req).timerId = some req ∨ (s.fsms req).timerId = 0

theorem Settled.gone (hsettled : Settled s req) : Gone s req where
  destroyed := by
    rw [hsettled.destroyed]
    decide
  container := hsettled.container
  timers := hsettled.timers

theorem Waiting.open (hwaiting : Waiting s req) : Open s req where
  toLive := hwaiting.toLive
  responses := hwaiting.responses
  timer := Or.inl hwaiting.timer

theorem Gone.congr (hgone : Gone s req) {other : Nat} (hframe : Frame s next other)
    (hother : req ≠ other) : Gone next req where
  destroyed := hframe.fsms req hother ▸ hgone.destroyed
  container id hid := hgone.container id ((hframe.container req hother id).mp hid)
  timers id hid := hgone.timers id ((hframe.timers req hother id).mp hid)

theorem Open.congr (hopen : Open s req) {other : Nat} (hframe : Frame s next other)
    (hother : req ≠ other) (hzero : next.timers 0 = none) : Open next req := by
  have hself := hframe.fsms req hother
  have htimers := hframe.timers req hother
  rcases hopen.timer with htimer | hidle
  · exact (Waiting.congr ⟨hopen.toLive, hopen.responses, htimer⟩ hframe hother).open
  · refine ⟨⟨?_, ?_, ?_, ?_, ?_⟩, ?_, ?_⟩
    · rw [hself]
      exact hopen.destroyed
    · rw [hself]
      exact hopen.used
    · intro id
      rw [hself, hframe.container req hother]
      exact hopen.container id
    · intro id hid
      rw [hself]
      exact hopen.timers id ((htimers id).mp hid)
    · intro third hthird
      rw [hself, hidle, hzero] at hthird
      cases hthird
    · rw [hself]
      exact hopen.responses
    · rw [hself]
      exact Or.inr hidle

/-- Whatever `sendBin` does, the request is gone after its answer. -/
theorem Live.respond_gone (hlive : Live s req) (hnew : (s.fsms req).responses = [])
    (pack : ThriftPack) (additionDebug : Option String) (answers : Answers) :
    Gone ((s.sendRespThriftPacket req pack additionDebug answers).finish req) req ∧
      Apart s ((s.sendRespThriftPacket req pack additionDebug answers).finish req) req := by
  by_cases hclient : answers.client = .throws
  · obtain ⟨settled, hsettled, hapart, hfinish⟩ :=
      hlive.respond_throws_eq hnew pack additionDebug hclient
    rw [hfinish]
    refine ⟨⟨?_, hsettled.container, hsettled.timers⟩, hapart.trans (modify_apart _ _ _)⟩
    rw [modify_self]
    exact hsettled.gone.destroyed
  · obtain ⟨hsettled, hapart⟩ := hlive.respond hnew pack additionDebug hclient
    exact ⟨hsettled.gone, hapart⟩

theorem modify_same {change : ReqFSM → ReqFSM} (hsame : change (s.fsms req) = s.fsms req) :
    s.modify req change = s := by
  rw [modify, hsame, Function.update_eq_self]

/-- A request that was sent is open, with or without a timer. -/
theorem Fresh.sent (hfresh : Fresh s req) {schedule : Option Nat} (server : String)
    (hschedule : ∀ timerId, schedule = some timerId → timerId ≠ 0 ∧ s.timers timerId = none) :
    let last := ((s.startTimer req schedule).use req).modify req fun fsm =>
      { fsm with selectServerName := server }
    Open last req ∧ Apart s last req ∧ ∃ timerId, last.fsms req =
      { s.fsms req with timerId := timerId, selectServerName := server } := by
  have hstarted : Open (s.startTimer req schedule) req ∧ Apart s (s.startTimer req schedule) req ∧
      ∃ timerId, (s.startTimer req schedule).fsms req = { s.fsms req with timerId := timerId } := by
    cases schedule with
    | none =>
        -- Without a timer the request keeps the id 0 that it has.
        have hidle : s.startTimer req none = s := by
          rw [startTimer, hfresh.toLive.use, if_neg (not_not.mpr hfresh.idle)]
          apply modify_same
          rw [← hfresh.idle]
        rw [hidle]
        exact ⟨⟨hfresh.toLive, hfresh.responses, Or.inr hfresh.idle⟩, Apart.refl s req, _, rfl⟩
    | some timerId =>
        obtain ⟨hnonzero, hfree⟩ := hschedule timerId rfl
        obtain ⟨hwaiting, hapart⟩ :=
          hfresh.toLive.startTimer hfresh.idle hfresh.responses hnonzero hfree
        refine ⟨hwaiting.open, hapart, timerId, ?_⟩
        rw [startTimer, hfresh.toLive.use, if_neg (not_not.mpr hfresh.idle)]
        exact modify_self _ _ _
  obtain ⟨hopen, hapart, timerId, hself⟩ := hstarted
  rw [hopen.toLive.use]
  refine ⟨⟨hopen.toLive.modify fun _ => ⟨rfl, rfl, rfl, rfl⟩, ?_, ?_⟩,
    hapart.trans (modify_apart _ _ _), timerId, ?_⟩
  · rw [modify_self]
    exact hopen.responses
  · rw [modify_self]
    exact hopen.timer
  · rw [modify_self, hself]

/-- `start` ends the request, or leaves it open. -/
theorem Fresh.start_open (hfresh : Fresh s req) (thhedid : Int) (cid : Nat)
    (returnFunction : String) (routeHeader : Option RouteReq) (fname : String)
    (hschedule : ∀ timerId, answers.schedule = some timerId →
      timerId ≠ 0 ∧ s.timers timerId = none) :
    (Gone (s.start req thhedid cid returnFunction routeHeader fname answers) req ∨
      Open (s.start req thhedid cid returnFunction routeHeader fname answers) req) ∧
      Apart s (s.start req thhedid cid returnFunction routeHeader fname answers) req := by
  obtain ⟨mid, groupid, hmid, hapart, htimers, -, hcases⟩ :=
    hfresh.start_cases thhedid cid returnFunction routeHeader fname answers
  rcases hcases with ⟨-, -, hstart⟩ | ⟨-, pack, -, debug, hstart⟩ | ⟨-, hstart⟩
  · obtain ⟨hsettled, hapart'⟩ := hmid.finish
    rw [hstart]
    exact ⟨Or.inl hsettled.gone, hapart.trans hapart'⟩
  · obtain ⟨hgone, hapart'⟩ :=
      hmid.toLive.respond_gone hmid.responses pack (some debug) answers
    rw [hstart]
    exact ⟨Or.inl hgone, hapart.trans hapart'⟩
  · rw [← htimers] at hschedule
    obtain ⟨hopen, hapart', -⟩ := hmid.sent answers.server.1 hschedule
    rw [hstart]
    exact ⟨Or.inr hopen, hapart.trans hapart'⟩

/-! ## One step -/

structure Kept (s : ReqFSMs) : Prop where
  born : ∀ req < s.created, Gone s req ∨ Open s req
  container : ∀ req, s.created ≤ req → ∀ id, s.container id ≠ some req
  timers : ∀ req, s.created ≤ req → ∀ id, s.timers id ≠ some req

/-- A step that is for one request, an old one or the next. -/
structure Touches (s next : ReqFSMs) (req : Nat) : Prop where
  frame : Frame s next req
  born : ∀ other, other ≠ req → (other < next.created ↔ other < s.created)
  self : req < next.created
  outcome : Gone next req ∨ Open next req

theorem init_kept (processpid : Nat) : Kept (init processpid) where
  born req hreq := absurd hreq (Nat.not_lt_zero req)
  container _ _ _ := nofun
  timers _ _ _ := nofun

/-- A request that is found, or has a timer, is open. -/
theorem Kept.open (hkept : Kept s) {id : Nat}
    (hfound : s.container id = some req ∨ s.timers id = some req) :
    req < s.created ∧ Open s req := by
  have hreq : req < s.created := by
    by_contra hreq
    rcases hfound with hfound | hfound
    · exact hkept.container req (Nat.not_lt.mp hreq) id hfound
    · exact hkept.timers req (Nat.not_lt.mp hreq) id hfound
  refine ⟨hreq, ?_⟩
  rcases hkept.born req hreq with hgone | hopen
  · rcases hfound with hfound | hfound
    · exact absurd hfound (hgone.container id)
    · exact absurd hfound (hgone.timers id)
  · exact hopen

/-- No timer has the id that stands for none. -/
theorem Kept.timers_zero (hkept : Kept s) : s.timers 0 = none := by
  by_contra hsome
  obtain ⟨req, hreq⟩ := Option.ne_none_iff_exists'.mp hsome
  exact ((hkept.open (Or.inr hreq)).2.timers 0 hreq).2 rfl

theorem Touches.timers_zero (htouches : Touches s next req) (hkept : Kept s) :
    next.timers 0 = none := by
  by_contra hsome
  obtain ⟨other, hother⟩ := Option.ne_none_iff_exists'.mp hsome
  by_cases hsame : other = req
  · subst hsame
    rcases htouches.outcome with hgone | hopen
    · exact hgone.timers 0 hother
    · exact (hopen.timers 0 hother).2 rfl
  · rw [htouches.frame.timers other hsame, hkept.timers_zero] at hother
    cases hother

theorem Touches.kept (htouches : Touches s next req) (hkept : Kept s) : Kept next := by
  refine ⟨?_, ?_, ?_⟩
  · intro other hother
    by_cases hsame : other = req
    · exact hsame ▸ htouches.outcome
    · rcases hkept.born other ((htouches.born other hsame).mp hother) with hgone | hopen
      · exact Or.inl (hgone.congr htouches.frame hsame)
      · exact Or.inr (hopen.congr htouches.frame hsame (htouches.timers_zero hkept))
  · intro other hother id hid
    have hdiff : other ≠ req := fun hsame => absurd htouches.self (Nat.not_lt.mpr (hsame ▸ hother))
    have hold : s.created ≤ other := Nat.not_lt.mp (mt (htouches.born other hdiff).mpr
      (Nat.not_lt.mpr hother))
    exact hkept.container other hold id ((htouches.frame.container other hdiff id).mp hid)
  · intro other hother id hid
    have hdiff : other ≠ req := fun hsame => absurd htouches.self (Nat.not_lt.mpr (hsame ▸ hother))
    have hold : s.created ≤ other := Nat.not_lt.mp (mt (htouches.born other hdiff).mpr
      (Nat.not_lt.mpr hother))
    exact hkept.timers other hold id ((htouches.frame.timers other hdiff id).mp hid)

/-- A request that is created is the next, and `start` works on it. -/
theorem Kept.create (hkept : Kept s) {fsmId : Nat} (hfree : s.container fsmId = none) :
    Fresh (s.createFSM fsmId) s.created ∧ Frame s (s.createFSM fsmId) s.created :=
  createFSM_fresh hfree (hkept.container s.created (le_refl _))
    (hkept.timers s.created (le_refl _)) hkept.timers_zero

/-- The head of the request is kept before `start` is called. -/
def headed (request : ProxyRequest) (fsm : ReqFSM) : ReqFSM :=
  match request.routeHeader with
  | none => fsm
  | some (_, seqid) => { fsm with headofthriftHeadid := seqid }

theorem process_eq (s : ReqFSMs) (fsmId : Nat) (request : ProxyRequest) (answers : Answers)
    (hfresh : Fresh (s.createFSM fsmId) s.created) :
    s.process fsmId request answers =
      ((s.createFSM fsmId).modify s.created (headed request)).start s.created request.seqid
        request.cid request.fnameFull (request.routeHeader.map Prod.fst)
        (servicePrefix request.fnameFull) answers := by
  unfold ReqFSMs.process
  dsimp only
  cases hroute : request.routeHeader with
  | none =>
      have hsame : (s.createFSM fsmId).modify s.created (headed request) = s.createFSM fsmId := by
        apply modify_same
        rw [headed, hroute]
      rw [hsame]
      rfl
  | some header =>
      rw [hfresh.toLive.use]
      have hheaded : headed request = fun fsm => { fsm with headofthriftHeadid := header.2 } := by
        funext fsm
        rw [headed, hroute]
      rw [hheaded]
      rfl

theorem Fresh.headed (hfresh : Fresh s req) (request : ProxyRequest) :
    Fresh (s.modify req (headed request)) req := by
  apply hfresh.modify
  intro fsm
  unfold ReqFSMs.headed
  cases request.routeHeader with
  | none => exact ⟨rfl, rfl, rfl, rfl, rfl⟩
  | some header => exact ⟨rfl, rfl, rfl, rfl, rfl⟩

theorem Kept.process (hkept : Kept s) {fsmId : Nat} (hfree : s.container fsmId = none)
    (request : ProxyRequest) (hschedule : ∀ timerId, answers.schedule = some timerId →
      timerId ≠ 0 ∧ s.timers timerId = none) :
    Touches s (s.process fsmId request answers) s.created := by
  obtain ⟨hfresh, hframe⟩ := hkept.create hfree
  have hapart := modify_apart (s.createFSM fsmId) s.created (ReqFSMs.headed request)
  obtain ⟨houtcome, hapart'⟩ := (hfresh.headed request).start_open request.seqid request.cid
    request.fnameFull (request.routeHeader.map Prod.fst) (servicePrefix request.fnameFull) hschedule
  rw [← process_eq s fsmId request answers hfresh] at houtcome hapart'
  have hcreated : (s.process fsmId request answers).created = s.created + 1 :=
    (hapart.trans hapart').created
  refine ⟨?_, ?_, ?_, houtcome⟩
  · have hframe' := (hapart.trans hapart').toFrame
    exact ⟨fun other hother => (hframe'.fsms other hother).trans (hframe.fsms other hother),
      fun other hother id =>
        (hframe'.container other hother id).trans (hframe.container other hother id),
      fun other hother id => (hframe'.timers other hother id).trans (hframe.timers other hother id)⟩
  · intro other hother
    rw [hcreated]
    omega
  · rw [hcreated]
    exact Nat.lt_succ_self _

/-- A request that was open ends, whatever its client does. -/
theorem Apart.touches (hapart : Apart s next req) (hreq : req < s.created) (hgone : Gone next req) :
    Touches s next req where
  frame := hapart.toFrame
  born other hother := by rw [hapart.created]
  self := hapart.created ▸ hreq
  outcome := Or.inl hgone

theorem Open.onResponse (hopen : Open s req) (traceDebug : String) (upperLayer : List UInt8)
    (answers : Answers) :
    Gone (s.onResponse req traceDebug upperLayer answers) req ∧
      Apart s (s.onResponse req traceDebug upperLayer answers) req := by
  unfold ReqFSMs.onResponse
  rw [hopen.toLive.use]
  dsimp only
  have hlive : Live (s.modify req fun fsm =>
      { fsm with routeResp := { fsm.routeResp with traceDebug := traceDebug } }) req :=
    hopen.toLive.modify fun _ => ⟨rfl, rfl, rfl, rfl⟩
  obtain ⟨hgone, hapart⟩ := hlive.respond_gone (by rw [modify_self]; exact hopen.responses)
    (.upperLayer upperLayer) none answers
  exact ⟨hgone, (modify_apart _ _ _).trans hapart⟩

/-- What `handle_timeout` answers. -/
theorem Live.handleTimeout_eq (hlive : Live s req) (answers : Answers) :
    s.handleTimeout req answers = (s.sendRespThriftPacket req
      (.unknownException (s.fsms req).thriftHeadid (s.fsms req).returnFunctionName "network error")
      (some "timeout") answers).finish req := by
  unfold ReqFSMs.handleTimeout
  rw [hlive.use]
  dsimp only
  rw [finish_use]

/-- A timer is that of an open request. -/
theorem Open.waiting (hopen : Open s req) {timerId : Nat} (htimer : s.timers timerId = some req) :
    Waiting s req ∧ timerId = (s.fsms req).timerId := by
  obtain ⟨rfl, -⟩ := hopen.timers timerId htimer
  exact ⟨⟨hopen.toLive, hopen.responses, htimer⟩, rfl⟩

theorem Open.handleTimeout (hopen : Open s req) {timerId : Nat}
    (htimer : s.timers timerId = some req) (answers : Answers) :
    Gone ((s.cancel timerId).handleTimeout req answers) req ∧
      Apart s ((s.cancel timerId).handleTimeout req answers) req := by
  obtain ⟨hwaiting, rfl⟩ := hopen.waiting htimer
  obtain ⟨hlive, hapart⟩ := hwaiting.expire
  rw [hlive.handleTimeout_eq]
  obtain ⟨hgone, hapart'⟩ := hlive.respond_gone hopen.responses
    (.unknownException (s.fsms req).thriftHeadid (s.fsms req).returnFunctionName "network error")
    (some "timeout") answers
  exact ⟨hgone, hapart.trans hapart'⟩

theorem step_process {fsmId : Nat} (hstep : s.step (.process fsmId request answers) = some next) :
    next = s.process fsmId request answers ∧ s.container fsmId = none ∧
      ∀ timerId, answers.schedule = some timerId → timerId ≠ 0 ∧ s.timers timerId = none := by
  change (if _ then some (s.process fsmId request answers) else none) = some next at hstep
  split at hstep
  next hids =>
    refine ⟨(Option.some.inj hstep).symm, hids.1, fun timerId htimer => ?_⟩
    have hfree := hids.2
    rw [htimer, Option.all_some, decide_eq_true_eq] at hfree
    exact hfree
  next => cases hstep

/-- An event works on the request that it is for, and on no other. -/
theorem Kept.step (hkept : Kept s) {event : Event} (hstep : s.step event = some next) :
    (s.reached event = none ∧ next = s) ∨
      ∃ req, s.reached event = some req ∧ Touches s next req := by
  cases event with
  | process fsmId request answers =>
      obtain ⟨rfl, hfree, hschedule⟩ := step_process hstep
      exact Or.inr ⟨s.created, rfl, hkept.process hfree request hschedule⟩
  | daoheadresponse context traceDebug upperLayer answers =>
      cases hstep
      unfold ReqFSMs.daoheadresponse
      cases hfound : s.awaits context with
      | none => exact Or.inl ⟨hfound, rfl⟩
      | some req =>
          obtain ⟨id, -, hid⟩ := Option.bind_eq_some_iff.mp hfound
          obtain ⟨hreq, hopen⟩ := hkept.open (Or.inl hid)
          obtain ⟨hgone, hapart⟩ := hopen.onResponse traceDebug upperLayer answers
          exact Or.inr ⟨req, hfound, hapart.touches hreq hgone⟩
  | timeout timerId answers =>
      obtain ⟨req, htimer, hnext⟩ := Option.bind_eq_some_iff.mp hstep
      cases hnext
      obtain ⟨hreq, hopen⟩ := hkept.open (Or.inr htimer)
      obtain ⟨hgone, hapart⟩ := hopen.handleTimeout htimer answers
      exact Or.inr ⟨req, htimer, hapart.touches hreq hgone⟩

theorem Kept.step_kept (hkept : Kept s) {event : Event} (hstep : s.step event = some next) :
    Kept next := by
  rcases hkept.step hstep with ⟨-, rfl⟩ | ⟨req, -, htouches⟩
  · exact hkept
  · exact htouches.kept hkept

/-! ## The request that is followed -/

/-- An open request has the members that go into its response, and one that is gone has its
response. -/
def Track (request : ProxyRequest) (s : ReqFSMs) (req : Nat) : Prop :=
  (Open s req ∧ Called request (s.fsms req)) ∨
    (Gone s req ∧ ∃ response, (s.fsms req).responses = [response] ∧ Replies request response)

theorem Track.congr (htrack : Track request s req) {other : Nat} (hframe : Frame s next other)
    (hother : req ≠ other) (hzero : next.timers 0 = none) : Track request next req := by
  unfold Track
  rw [hframe.fsms req hother]
  rcases htrack with ⟨hopen, hcalled⟩ | ⟨hgone, hresponse⟩
  · exact Or.inl ⟨hopen.congr hframe hother hzero, hcalled⟩
  · exact Or.inr ⟨hgone.congr hframe hother, hresponse⟩

/-- A request that an event is for was not answered before. -/
theorem Track.open (htrack : Track request s req) {id : Nat}
    (hfound : s.container id = some req ∨ s.timers id = some req) :
    Open s req ∧ Called request (s.fsms req) := by
  rcases htrack with hopen | ⟨hgone, -⟩
  · exact hopen
  · rcases hfound with hfound | hfound
    · exact absurd hfound (hgone.container id)
    · exact absurd hfound (hgone.timers id)

/-- The dao's answer is passed on. -/
theorem Open.onResponse_track (hopen : Open s req) (hcalled : Called request (s.fsms req))
    (traceDebug : String) {upperLayer : List UInt8} (hclient : answers.client = .accepts)
    (hseqid : messageSeqid upperLayer = some request.seqid) :
    Track request (s.onResponse req traceDebug upperLayer answers) req := by
  refine Or.inr ⟨(hopen.onResponse traceDebug upperLayer answers).1, ?_⟩
  unfold ReqFSMs.onResponse
  rw [hopen.toLive.use]
  dsimp only
  have hlive : Live (s.modify req fun fsm =>
      { fsm with routeResp := { fsm.routeResp with traceDebug := traceDebug } }) req :=
    hopen.toLive.modify fun _ => ⟨rfl, rfl, rfl, rfl⟩
  have hpack : (ThriftPack.upperLayer upperLayer).seqid = some request.seqid := hseqid
  apply hlive.answer _ _ hclient hpack
  · rw [modify_self]
    exact hopen.responses
  · rw [modify_self]
    exact ⟨hcalled.thriftHeadid, hcalled.head⟩

/-- Nobody answered in time. -/
theorem Open.handleTimeout_track (hopen : Open s req) (hcalled : Called request (s.fsms req))
    {timerId : Nat} (htimer : s.timers timerId = some req) (hclient : answers.client = .accepts) :
    Track request ((s.cancel timerId).handleTimeout req answers) req := by
  refine Or.inr ⟨(hopen.handleTimeout htimer answers).1, ?_⟩
  obtain ⟨hwaiting, rfl⟩ := hopen.waiting htimer
  obtain ⟨hlive, -⟩ := hwaiting.expire
  rw [hlive.handleTimeout_eq]
  apply hlive.answer hopen.responses hcalled hclient
  exact congrArg some hcalled.thriftHeadid

theorem Track.step (htrack : Track request s req) (hkept : Kept s) (hreq : req < s.created)
    {event : Event} (halive : Alive request req s event) (hstep : s.step event = some next) :
    req < next.created ∧ Track request next req := by
  rcases hkept.step hstep with ⟨-, rfl⟩ | ⟨other, hreached, htouches⟩
  · exact ⟨hreq, htrack⟩
  by_cases hsame : req = other
  · subst hsame
    refine ⟨htouches.self, ?_⟩
    cases event with
    | process fsmId request answers => exact absurd (Option.some.inj hreached) (Nat.ne_of_gt hreq)
    | daoheadresponse context traceDebug upperLayer answers =>
        obtain ⟨id, -, hid⟩ := Option.bind_eq_some_iff.mp hreached
        obtain ⟨hopen, hcalled⟩ := htrack.open (Or.inl hid)
        obtain ⟨hclient, hseqid⟩ := halive hreached
        have hnext : next = s.onResponse req traceDebug upperLayer answers := by
          rw [← Option.some.inj hstep, ReqFSMs.daoheadresponse]
          rw [show s.awaits context = some req from hreached]
        rw [hnext]
        exact hopen.onResponse_track hcalled traceDebug hclient hseqid
    | timeout timerId answers =>
        have htimer : s.timers timerId = some req := hreached
        obtain ⟨hopen, hcalled⟩ := htrack.open (Or.inr htimer)
        have hnext : next = (s.cancel timerId).handleTimeout req answers := by
          rw [ReqFSMs.step, htimer] at hstep
          exact (Option.some.inj hstep).symm
        rw [hnext]
        exact hopen.handleTimeout_track hcalled htimer (halive htimer)
  · -- the event was for another request, which the frame keeps apart
    exact ⟨(htouches.born req hsame).mpr hreq,
      htrack.congr htouches.frame hsame (htouches.timers_zero hkept)⟩

/-! ## Every run -/

/-- A reply to "online.get" with the sequence id 9, without a result. -/
def daoReply : List UInt8 :=
  [128, 1, 0, 2, 0, 0, 0, 10, 111, 110, 108, 105, 110, 101, 46, 103, 101, 116, 0, 0, 0, 9, 0]

/-- A call with a head. -/
def routedCall : ProxyRequest := ⟨3, 9, "online.get", some (⟨"context", "app", ""⟩, 4)⟩

end ReqFSMs

end ServiceFrame
