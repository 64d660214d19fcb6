import ServiceFrame.Foundation.SortedSet
import ServiceFrame.ServerLib.DaemonClient

/-! # The channels of a daemon client

`dispatchToServerRandom` of `server-lib` keeps a `NameChannel` for each suffix. A channel
remembers the id of a server, and two timers and a send that failed draw it again.

Of the connections that `DaemonClient` inherits, the ids and `bEnable` are kept, and the
server each was made for. Left out: the packets, the timers' periods, and what becomes
of the link with the daemon.
-/

namespace ServiceFrame

open Foundation

open DaemonClient (DAEMON_SERVERID NONE_SERVER_ID RunsAs)

structure ServerConn where
  /-- The server that `connectServerIdSV` made it for. -/
  serverId : Nat
  bEnable : Bool

structure ChannelClient where
  daemon : DaemonClient
  cid : Nat
  connects : OrderedMap Nat ServerConn
  toDelete : SortedSet natLess
  sid2cid : OrderedMap Nat Nat
  /-- The server id that each channel remembers. -/
  ncs : OrderedMap String Nat

/-- What becomes of a call of `dispatchByServerIdSV`. -/
inductive Dispatched where
  | success
  | failure
  /-- An exception leaves the call. -/
  | exception
deriving DecidableEq

structure Attempt where
  serverId : Nat
  outcome : Dispatched
  /-- The server whose connection took the packet. -/
  reached : Option Nat
deriving DecidableEq

/-- Whether `createClientConn` succeeds if it is called, and whether `send` throws. -/
structure Network where
  connects : Bool
  throws : Bool

namespace ChannelClient

def new (serverGroupId : Option Nat) : ChannelClient where
  daemon := .new serverGroupId
  cid := 0
  connects := .empty
  toDelete := .empty
  sid2cid := .empty
  ncs := .empty

/-! ## Connections -/

def setEnable (client : ChannelClient) (cid : Nat) (be : Bool) : ChannelClient :=
  match client.connects.find cid with
  | some conn => { client with connects := client.connects.set cid { conn with bEnable := be } }
  | none => client

/-- `setEnable(false)` and `toDelete.insert(cid)`. -/
def disable (client : ChannelClient) (cid : Nat) : ChannelClient :=
  { client.setEnable cid false with toDelete := client.toDelete.insert cid }

/-- A connection that is not enabled takes nothing, and says nothing. -/
def dispatchById (client : ChannelClient) (cid : Nat) (throws : Bool) :
    ChannelClient × Dispatched × Option Nat :=
  match client.connects.find cid with
  | some conn =>
      if throws then (client.disable cid, .failure, none)
      else (client, .success, if conn.bEnable then some conn.serverId else none)
  | none => (client, .failure, none)

def onConnCreate (client : ChannelClient) (serverId : Nat) : ChannelClient :=
  let cid := (client.cid + 1) % 2 ^ 32
  { client with
    cid := cid
    connects := client.connects.set cid ⟨serverId, true⟩
    sid2cid := client.sid2cid.set serverId cid }

def connectServerIdSV (client : ChannelClient) (serverId : Nat) (connects : Bool) :
    Option ChannelClient :=
  match client.daemon.sid2FavorSV.find serverId with
  | some fa =>
      if fa.serverId ≠ NONE_SERVER_ID ∧ connects then some (client.onConnCreate serverId)
      else none
  | none => none

def dispatchByServerIdSV (client : ChannelClient) (serverId : Nat) (network : Network) :
    ChannelClient × Attempt :=
  match client.sid2cid.find serverId with
  | some cid =>
      let (next, outcome, reached) := client.dispatchById cid network.throws
      (next, ⟨serverId, outcome, reached⟩)
  | none =>
      match client.connectServerIdSV serverId network.connects with
      | some next =>
          if network.throws then (next, ⟨serverId, .exception, none⟩)
          else (next, ⟨serverId, .success, some serverId⟩)
      | none => (client, ⟨serverId, .failure, none⟩)

/-- `DaemonClient::eraseConnect`, on a connection of the map. -/
def eraseConnect (client : ChannelClient) (cid : Nat) : ChannelClient :=
  if (client.connects.find cid).isSome then
    let sids := (client.sid2cid.entries.filter fun it => it.2 = cid).map Prod.fst
    { client with
      sid2cid := sids.foldl OrderedMap.erase client.sid2cid
      connects := client.connects.erase cid }
  else client

/-- One turn of the loop of `LazyDelConnManager::handle`. -/
def lazyDelete (client : ChannelClient) (cid : Nat) : ChannelClient :=
  match client.connects.find cid with
  | some conn => if conn.bEnable then client else client.eraseConnect cid
  | none => client

def handle (client : ChannelClient) : ChannelClient :=
  { client.toDelete.elems.foldl lazyDelete client with toDelete := .empty }

/-- The handlers of the daemon's messages; a removal takes the connection too. -/
def onServer (client : ChannelClient) (event : DaemonClient.Event) : Option ChannelClient := do
  let daemon ← client.daemon.step event
  let next := { client with daemon := daemon }
  match event with
  | .onServerRemoveSV serverId =>
      match client.sid2cid.find serverId with
      | some cid => some (next.eraseConnect cid)
      | none => some next
  | _ => some next

/-! ## Channels -/

def isServerRunning (client : ChannelClient) (serverId : Nat) : Bool :=
  match client.daemon.sid2FavorSV.find serverId with
  | some fs => fs.serverStatus = .RUNNING
  | none => false

def getServerIdsSV (client : ChannelClient) (name : String) : List Nat :=
  (client.daemon.sid2FavorSV.entries.filter fun it => it.2.sstr = name).map Prod.fst

/-- The id that `randomServer` leaves in a channel that has `serverId`. The shuffle puts
any of the running servers in front. -/
def randomServer (client : ChannelClient) (name : String) (serverId pick : Nat) : Nat :=
  let ids := (client.getServerIdsSV name).filter client.isServerRunning
  (ids[pick % ids.length]?).getD serverId

def checkRuning (client : ChannelClient) (name : String) (serverId pick : Nat) : Nat :=
  if client.isServerRunning serverId then serverId else client.randomServer name serverId pick

/-- A timer of a channel. -/
def onTimer (client : ChannelClient) (name : String) (refresh : Nat → Nat) : ChannelClient :=
  match client.ncs.find name with
  | some serverId => { client with ncs := client.ncs.set name (refresh serverId) }
  | none => client

/-- `NameChannel::send` on the channel of `name`, with the servers it tries. -/
def send (client : ChannelClient) (name : String) (serverId : Nat) (first : Network) (pick : Nat)
    (second : Network) : ChannelClient × List Attempt :=
  let (next, tried) := client.dispatchByServerIdSV serverId first
  match tried.outcome with
  | .failure =>
      let again := next.randomServer name serverId pick
      let next := { next with ncs := next.ncs.set name again }
      if again ≠ NONE_SERVER_ID then
        let (last, retried) := next.dispatchByServerIdSV again second
        (last, [tried, retried])
      else (next, [tried])
  | _ => (next, [tried])

/-- What follows the first '.', if there is one. -/
def routeName (name : String) : String :=
  match name.toList.dropWhile (· ≠ '.') with
  | _ :: rest => String.ofList rest
  | [] => name

/-- The server that a dispatch tries first; a new channel draws it. -/
def firstChoice (client : ChannelClient) (rn : String) (pick : Nat) : Nat :=
  (client.ncs.find rn).getD (client.randomServer rn NONE_SERVER_ID pick)

def dispatchToServerRandom (client : ChannelClient) (name : String) (created : Nat)
    (first : Network) (pick : Nat) (second : Network) : ChannelClient × List Attempt :=
  let rn := routeName name
  let serverId := client.firstChoice rn created
  send { client with ncs := client.ncs.set rn serverId } rn serverId first pick second

inductive Event where
  | server (event : DaemonClient.Event)
  | checkRuning (name : String) (pick : Nat)
  | randomServer (name : String) (pick : Nat)
  | dispatchToServerRandom (name : String) (created : Nat) (first : Network) (pick : Nat)
      (second : Network)
  | dispatchByServerIdSV (serverId : Nat) (network : Network)
  /-- From `onClose`, `onInitiativeClose`, `onError` and `onTimeout`. -/
  | eraseConnect (cid : Nat)
  | delayDelConn (cid : Nat)
  | setEnable (cid : Nat) (be : Bool)
  | handle

def step (client : ChannelClient) : Event → Option ChannelClient
  | .server event => client.onServer event
  | .checkRuning name pick =>
      some (client.onTimer name fun serverId => client.checkRuning name serverId pick)
  | .randomServer name pick =>
      some (client.onTimer name fun serverId => client.randomServer name serverId pick)
  | .dispatchToServerRandom name created first pick second =>
      some (client.dispatchToServerRandom name created first pick second).1
  | .dispatchByServerIdSV serverId network => some (client.dispatchByServerIdSV serverId network).1
  | .eraseConnect cid => some (client.eraseConnect cid)
  | .delayDelConn cid => some (client.disable cid)
  | .setEnable cid be => some (client.setEnable cid be)
  | .handle => some client.handle

/-! ## Connections belong to their servers -/

/-- What `sid2cid` names for a server is a connection that was made for it. -/
def Linked (client : ChannelClient) : Prop :=
  ∀ id cid, client.sid2cid.find id = some cid →
    ∃ conn, client.connects.find cid = some conn ∧ conn.serverId = id

/-- The id of the next connection is not in use. -/
def NextFresh (client : ChannelClient) : Prop :=
  client.connects.find ((client.cid + 1) % 2 ^ 32) = none

/-- A connection that is made gets an id of its own. -/
def Fresh (client : ChannelClient) : Event → Prop
  | .dispatchToServerRandom _ _ _ _ _ => client.NextFresh
  | .dispatchByServerIdSV _ _ => client.NextFresh
  | _ => True

instance (client : ChannelClient) : Decidable (NextFresh client) :=
  inferInstanceAs (Decidable (_ = none))

instance (client : ChannelClient) : (event : Event) → Decidable (Fresh client event)
  | .dispatchToServerRandom _ _ _ _ _ => inferInstanceAs (Decidable (NextFresh client))
  | .dispatchByServerIdSV _ _ => inferInstanceAs (Decidable (NextFresh client))
  | .server _ | .checkRuning _ _ | .randomServer _ _ | .eraseConnect _ | .delayDelConn _
  | .setEnable _ _ | .handle => instDecidableTrue

variable {client next : ChannelClient} {id cid : Nat} {rn : String} {network : Network}

theorem setEnable_frame (client : ChannelClient) (cid : Nat) (be : Bool) :
    ∃ connects, client.setEnable cid be = { client with connects := connects } ∧
      ∀ other, connects.find other = (client.connects.find other).map fun conn =>
        if other = cid then { conn with bEnable := be } else conn := by
  unfold setEnable
  split
  next conn hfind =>
    refine ⟨_, rfl, fun other => ?_⟩
    rw [OrderedMap.find_set, Function.update_apply]
    split
    next hother => rw [hother, hfind, Option.map_some]
    next => rw [Option.map_id']
  next hfind =>
    refine ⟨client.connects, rfl, fun other => ?_⟩
    by_cases hother : other = cid
    · rw [hother, hfind, Option.map_none]
    · simp only [if_neg hother, Option.map_id']

theorem setEnable_linked (hlinked : Linked client) (cid : Nat) (be : Bool) :
    Linked (client.setEnable cid be) := by
  obtain ⟨connects, hsame, hfind⟩ := client.setEnable_frame cid be
  rw [hsame]
  intro id other hother
  obtain ⟨conn, hconn, hserver⟩ := hlinked id other hother
  refine ⟨if other = cid then { conn with bEnable := be } else conn, ?_, ?_⟩
  · exact (hfind other).trans (congrArg _ hconn)
  · split
    · exact hserver
    · exact hserver

theorem onConnCreate_linked (hlinked : Linked client) (hfresh : NextFresh client) (id : Nat) :
    Linked (client.onConnCreate id) := by
  intro other cid hcid
  change (client.sid2cid.set id _).find other = some cid at hcid
  change ∃ conn, (client.connects.set _ ⟨id, true⟩).find cid = some conn ∧ conn.serverId = other
  rw [OrderedMap.find_set, Function.update_apply] at hcid
  rw [OrderedMap.find_set]
  split at hcid
  next hother =>
    cases hcid
    exact ⟨⟨id, true⟩, Function.update_self _ _ _, hother.symm⟩
  next =>
    obtain ⟨conn, hconn, hserver⟩ := hlinked other cid hcid
    have hdiff : cid ≠ (client.cid + 1) % 2 ^ 32 := by
      rintro rfl
      rw [hfresh] at hconn
      cases hconn
    exact ⟨conn, by rw [Function.update_of_ne hdiff, hconn], hserver⟩

theorem eraseConnect_linked (hlinked : Linked client) (cid : Nat) :
    Linked (client.eraseConnect cid) := by
  unfold eraseConnect
  split
  next =>
    intro id other hother
    change (List.foldl OrderedMap.erase client.sid2cid _).find id = some other at hother
    change ∃ conn, (client.connects.erase cid).find other = some conn ∧ conn.serverId = id
    rw [OrderedMap.foldl_find OrderedMap.find_erase] at hother
    split at hother
    next => cases hother
    next hkept =>
      obtain ⟨conn, hconn, hserver⟩ := hlinked id other hother
      have hdiff : other ≠ cid := by
        rintro rfl
        apply hkept
        rw [List.mem_map]
        exact ⟨(id, other), List.mem_filter.mpr ⟨OrderedMap.mem_entries.mpr hother, by simp⟩, rfl⟩
      exact ⟨conn, by rw [OrderedMap.find_erase, Function.update_of_ne hdiff, hconn], hserver⟩
  next => exact hlinked

/-- There is a connection to the server. -/
def Connected (client : ChannelClient) (id : Nat) : Prop := (client.sid2cid.find id).isSome

/-- There is one, and it is enabled. -/
def Live (client : ChannelClient) (id : Nat) : Prop :=
  ∃ cid conn, client.sid2cid.find id = some cid ∧ client.connects.find cid = some conn ∧
    conn.bEnable = true

/-- A connection is made: the server is known, and the network lets it be. -/
def Connectable (client : ChannelClient) (id : Nat) (connects : Bool) : Prop :=
  ¬ Connected client id ∧ connects = true ∧
    ∃ fa, client.daemon.sid2FavorSV.find id = some fa ∧ fa.serverId ≠ NONE_SERVER_ID

theorem dispatchByServerIdSV_cases (hlinked : Linked client) (id : Nat) (network : Network) :
    (∃ cid conn, client.sid2cid.find id = some cid ∧ client.connects.find cid = some conn ∧
        client.dispatchByServerIdSV id network =
          if network.throws then (client.disable cid, ⟨id, .failure, none⟩)
          else (client, ⟨id, .success, if conn.bEnable then some id else none⟩)) ∨
      (client.Connectable id network.connects ∧
        client.dispatchByServerIdSV id network =
          (client.onConnCreate id,
            if network.throws then ⟨id, .exception, none⟩ else ⟨id, .success, some id⟩)) ∨
      (¬ client.Connected id ∧ ¬ client.Connectable id network.connects ∧
        client.dispatchByServerIdSV id network = (client, ⟨id, .failure, none⟩)) := by
  unfold dispatchByServerIdSV
  split
  next cid hcid =>
    obtain ⟨conn, hconn, hserver⟩ := hlinked id cid hcid
    refine Or.inl ⟨cid, conn, hcid, hconn, ?_⟩
    subst hserver
    simp only [dispatchById, hconn]
    split <;> rfl
  next hnone =>
    have hunconnected : ¬ client.Connected id := by
      rw [Connected, hnone]
      exact Bool.false_ne_true
    unfold connectServerIdSV
    cases hfind : client.daemon.sid2FavorSV.find id with
    | none =>
        refine Or.inr (Or.inr ⟨hunconnected, ?_, rfl⟩)
        rintro ⟨-, -, fa, hfa, -⟩
        rw [hfind] at hfa
        cases hfa
    | some fa =>
        by_cases hmade : fa.serverId ≠ NONE_SERVER_ID ∧ network.connects = true
        · refine Or.inr (Or.inl ⟨⟨hunconnected, hmade.2, fa, hfind, hmade.1⟩, ?_⟩)
          simp only [if_pos hmade]
          split <;> rfl
        · refine Or.inr (Or.inr ⟨hunconnected, ?_, ?_⟩)
          · rintro ⟨-, hconnects, found, hfound, hid⟩
            rw [hfind] at hfound
            cases hfound
            exact hmade ⟨hid, hconnects⟩
          · simp only [if_neg hmade]

theorem dispatchByServerIdSV_linked (hlinked : Linked client) (hfresh : NextFresh client)
    (id : Nat) (network : Network) : Linked (client.dispatchByServerIdSV id network).1 := by
  rcases client.dispatchByServerIdSV_cases hlinked id network with
    ⟨cid, conn, -, -, hsame⟩ | ⟨-, hsame⟩ | ⟨-, -, hsame⟩
  · rw [hsame]
    split
    · exact setEnable_linked hlinked cid false
    · exact hlinked
  · rw [hsame]
    exact onConnCreate_linked hlinked hfresh id
  · rw [hsame]
    exact hlinked

/-- A dispatch that failed made no connection, so the next one has the same id. -/
theorem dispatchByServerIdSV_fresh (hlinked : Linked client) (hfresh : NextFresh client)
    (hfailed : (client.dispatchByServerIdSV id network).2.outcome = .failure) :
    NextFresh (client.dispatchByServerIdSV id network).1 := by
  rcases client.dispatchByServerIdSV_cases hlinked id network with
    ⟨cid, conn, -, -, hsame⟩ | ⟨-, hsame⟩ | ⟨-, -, hsame⟩
  · rw [hsame]
    split
    · obtain ⟨connects, hdisable, hfind⟩ := client.setEnable_frame cid false
      rw [disable, hdisable]
      exact (hfind _).trans (by rw [hfresh, Option.map_none])
    · exact hfresh
  · rw [hsame] at hfailed
    cases hthrows : network.throws with
    | true =>
        rw [hthrows, if_pos rfl] at hfailed
        cases hfailed
    | false =>
        rw [hthrows, if_neg Bool.false_ne_true] at hfailed
        cases hfailed
  · rw [hsame]
    exact hfresh

theorem send_linked (hlinked : Linked client) (hfresh : NextFresh client) (rn : String)
    (id : Nat) (first : Network) (pick : Nat) (second : Network) :
    Linked (client.send rn id first pick second).1 := by
  have hnext := dispatchByServerIdSV_linked hlinked hfresh id first
  unfold send
  dsimp only
  split
  next hfailed =>
    split
    · refine dispatchByServerIdSV_linked ?_ ?_ _ second
      · exact hnext
      · exact dispatchByServerIdSV_fresh hlinked hfresh hfailed
    · exact hnext
  next => exact hnext

theorem onTimer_linked (hlinked : Linked client) (name : String) (refresh : Nat → Nat) :
    Linked (client.onTimer name refresh) := by
  unfold onTimer
  split
  · exact hlinked
  · exact hlinked

theorem onServer_linked (hlinked : Linked client) {event : DaemonClient.Event}
    (hnext : client.onServer event = some next) : Linked next := by
  obtain ⟨daemon, -, hrest⟩ := Option.bind_eq_some_iff.mp hnext
  have hdaemon : Linked { client with daemon := daemon } := hlinked
  split at hrest
  next serverId =>
    split at hrest
    next cid _ =>
      cases hrest
      exact eraseConnect_linked hdaemon cid
    next =>
      cases hrest
      exact hdaemon
  next =>
    cases hrest
    exact hdaemon

theorem lazyDelete_linked (hlinked : Linked client) (cid : Nat) :
    Linked (client.lazyDelete cid) := by
  unfold lazyDelete
  split
  · split
    · exact hlinked
    · exact eraseConnect_linked hlinked cid
  · exact hlinked

theorem handle_linked (hlinked : Linked client) : Linked client.handle := by
  have hloop : Linked (client.toDelete.elems.foldl lazyDelete client) :=
    List.foldlRecOn _ lazyDelete hlinked fun _ hlinked cid _ => lazyDelete_linked hlinked cid
  exact hloop

theorem step_linked {event : Event} (hlinked : Linked client) (hfresh : Fresh client event)
    (hnext : client.step event = some next) : Linked next := by
  cases event with
  | server event => exact onServer_linked hlinked hnext
  | checkRuning name pick =>
      cases hnext
      exact onTimer_linked hlinked name _
  | randomServer name pick =>
      cases hnext
      exact onTimer_linked hlinked name _
  | dispatchToServerRandom name created first pick second =>
      cases hnext
      refine send_linked ?_ ?_ _ _ first pick second
      · exact hlinked
      · exact hfresh
  | dispatchByServerIdSV serverId network =>
      cases hnext
      exact dispatchByServerIdSV_linked hlinked hfresh serverId network
  | eraseConnect cid =>
      cases hnext
      exact eraseConnect_linked hlinked cid
  | delayDelConn cid =>
      cases hnext
      exact setEnable_linked hlinked cid false
  | setEnable cid be =>
      cases hnext
      exact setEnable_linked hlinked cid be
  | handle =>
      cases hnext
      exact handle_linked hlinked

/-! ## What a dispatch reaches -/

def KnownAs (client : ChannelClient) (rn : String) (id : Nat) : Prop :=
  ∃ fs, client.daemon.sid2FavorSV.find id = some fs ∧ fs.sstr = rn

def RunningAs (client : ChannelClient) (rn : String) (id : Nat) : Prop :=
  ∃ fs, client.daemon.sid2FavorSV.find id = some fs ∧ RunsAs fs rn

/-- Some other server of the suffix is running. -/
def Another (client : ChannelClient) (rn : String) (id : Nat) : Prop :=
  ∃ other, other ≠ id ∧ client.RunningAs rn other

/-- What the attempts of one dispatch are for. -/
structure ByName (client : ChannelClient) (rn : String) (tried : List Attempt) : Prop where
  /-- A packet that is dispatched goes to one server, known under the suffix. -/
  reached : ∀ attempt ∈ tried, attempt.outcome = .success →
    ∃ id, tried.filterMap Attempt.reached = [id] ∧ client.KnownAs rn id
  /-- After a first choice that fails it is tried on a running server of the suffix. -/
  retried : ∀ attempt rest, tried = attempt :: rest → attempt.outcome ≠ .success →
    client.Another rn attempt.serverId →
      ∃ again, rest = [again] ∧ client.RunningAs rn again.serverId

def DispatchesByName (client : ChannelClient) : Event → Prop
  | .dispatchToServerRandom name created first pick second =>
      client.ByName (routeName name)
        (client.dispatchToServerRandom name created first pick second).2
  | _ => True

/-- A server that the packet gets through to is known under the suffix, and its connection
is enabled. -/
def Takes (client : ChannelClient) (rn : String) (id : Nat) (network : Network) : Prop :=
  network.throws = false →
    (client.Connected id → client.Live id ∧ client.KnownAs rn id) ∧
      (client.Connectable id network.connects → client.KnownAs rn id)

/-- `dispatchByServerIdSV` answers false. -/
def Refuses (client : ChannelClient) (id : Nat) (network : Network) : Prop :=
  client.Connected id ∧ network.throws = true ∨
    ¬ client.Connected id ∧ ¬ client.Connectable id network.connects

/-- What a dispatch finds: the first choice takes the packet as it should, or lets a retry
be, and the retry is of a server that takes it. -/
structure Finds (client : ChannelClient) (rn : String) (id : Nat) (first : Network) (pick : Nat)
    (second : Network) : Prop where
  choice : client.Takes rn id first
  /-- No exception leaves while another server runs. -/
  caught : client.Connectable id first.connects → first.throws = true → ¬ client.Another rn id
  drawn : client.Refuses id first → client.Another rn id →
    client.randomServer rn id pick ≠ NONE_SERVER_ID
  /-- A connection whose send threw is not enabled any more. -/
  retry : client.Refuses id first → client.randomServer rn id pick ≠ NONE_SERVER_ID →
    if client.randomServer rn id pick = id ∧ (client.sid2cid.find id).isSome then
      second.throws = true
    else client.Takes rn (client.randomServer rn id pick) second

def FindsByName (client : ChannelClient) : Event → Prop
  | .dispatchToServerRandom name created first pick second =>
      client.Finds (routeName name) (client.firstChoice (routeName name) created) first pick
        second
  | _ => True

/-! ## One attempt -/

section Attempt

variable (hlinked : Linked client)

include hlinked

theorem attempt_serverId (id : Nat) (network : Network) :
    (client.dispatchByServerIdSV id network).2.serverId = id := by
  rcases client.dispatchByServerIdSV_cases hlinked id network with
    ⟨cid, conn, -, -, hsame⟩ | ⟨-, hsame⟩ | ⟨-, -, hsame⟩
  · rw [hsame]
    split <;> rfl
  · rw [hsame]
    dsimp only
    split <;> rfl
  · rw [hsame]

theorem attempt_refuses (id : Nat) (network : Network) :
    (client.dispatchByServerIdSV id network).2.outcome = .failure ↔
      client.Refuses id network := by
  rcases client.dispatchByServerIdSV_cases hlinked id network with
    ⟨cid, conn, hcid, -, hsame⟩ | ⟨hmade, hsame⟩ | ⟨hunconnected, hunmade, hsame⟩
  · have hconnected : client.Connected id := by
      rw [Connected, hcid]
      rfl
    rw [hsame]
    cases hthrows : network.throws with
    | true => exact iff_of_true rfl (Or.inl ⟨hconnected, hthrows⟩)
    | false =>
        apply iff_of_false nofun
        rintro (⟨-, hthrows'⟩ | ⟨hunconnected, -⟩)
        · rw [hthrows] at hthrows'
          cases hthrows'
        · exact hunconnected hconnected
  · rw [hsame]
    refine iff_of_false ?_ ?_
    · dsimp only
      split <;> nofun
    · rintro (⟨hconnected, -⟩ | ⟨-, hunmade⟩)
      · exact hmade.1 hconnected
      · exact hunmade hmade
  · rw [hsame]
    exact iff_of_true rfl (Or.inr ⟨hunconnected, hunmade⟩)

theorem attempt_exception (id : Nat) (network : Network) :
    (client.dispatchByServerIdSV id network).2.outcome = .exception ↔
      client.Connectable id network.connects ∧ network.throws = true := by
  rcases client.dispatchByServerIdSV_cases hlinked id network with
    ⟨cid, conn, hcid, -, hsame⟩ | ⟨hmade, hsame⟩ | ⟨-, hunmade, hsame⟩
  · rw [hsame]
    refine iff_of_false ?_ ?_
    · split <;> nofun
    · rintro ⟨⟨hunconnected, -⟩, -⟩
      rw [Connected, hcid] at hunconnected
      exact hunconnected rfl
  · rw [hsame]
    cases hthrows : network.throws with
    | true => exact iff_of_true rfl ⟨hmade, rfl⟩
    | false => exact iff_of_false nofun fun h => Bool.false_ne_true h.2
  · rw [hsame]
    exact iff_of_false nofun fun h => hunmade h.1

theorem attempt_reached (id : Nat) (network : Network)
    (hreached : (client.dispatchByServerIdSV id network).2.reached ≠ none) :
    (client.dispatchByServerIdSV id network).2.outcome = .success ∧
      (client.dispatchByServerIdSV id network).2.reached = some id := by
  rcases client.dispatchByServerIdSV_cases hlinked id network with
    ⟨cid, conn, -, -, hsame⟩ | ⟨-, hsame⟩ | ⟨-, -, hsame⟩
  · rw [hsame] at hreached ⊢
    cases hthrows : network.throws with
    | true =>
        rw [hthrows] at hreached
        exact absurd rfl hreached
    | false =>
        rw [hthrows] at hreached
        refine ⟨rfl, ?_⟩
        cases henabled : conn.bEnable with
        | true => rfl
        | false =>
            rw [henabled] at hreached
            exact absurd rfl hreached
  · rw [hsame] at hreached ⊢
    cases hthrows : network.throws with
    | true =>
        rw [hthrows] at hreached
        exact absurd rfl hreached
    | false => exact ⟨rfl, rfl⟩
  · rw [hsame] at hreached
    exact absurd rfl hreached

/-- The packet reaches a server of the suffix if the attempt succeeds. -/
theorem attempt_takes (rn : String) (id : Nat) (network : Network) :
    ((client.dispatchByServerIdSV id network).2.outcome = .success →
        (client.dispatchByServerIdSV id network).2.reached = some id ∧ client.KnownAs rn id) ↔
      client.Takes rn id network := by
  rcases client.dispatchByServerIdSV_cases hlinked id network with
    ⟨cid, conn, hcid, hconn, hsame⟩ | ⟨hmade, hsame⟩ | ⟨hunconnected, hunmade, hsame⟩
  · have hconnected : client.Connected id := by
      rw [Connected, hcid]
      rfl
    have hlive : client.Live id ↔ conn.bEnable = true := by
      constructor
      · rintro ⟨cid', conn', hcid', hconn', henabled⟩
        rw [hcid] at hcid'
        cases hcid'
        rw [hconn] at hconn'
        cases hconn'
        exact henabled
      · exact fun henabled => ⟨cid, conn, hcid, hconn, henabled⟩
    rw [hsame, Takes]
    cases hthrows : network.throws with
    | true => exact iff_of_true nofun nofun
    | false =>
        have hreached : (if conn.bEnable then some id else none) = some id ↔
            client.Live id := by
          rw [hlive]
          cases conn.bEnable with
          | true => exact iff_of_true rfl rfl
          | false => exact iff_of_false nofun nofun
        constructor
        · intro hall _
          obtain ⟨hgot, hknown⟩ := hall rfl
          exact ⟨fun _ => ⟨hreached.mp hgot, hknown⟩, fun _ => hknown⟩
        · intro hall _
          obtain ⟨hgot, hknown⟩ := (hall rfl).1 hconnected
          exact ⟨hreached.mpr hgot, hknown⟩
  · rw [hsame, Takes]
    cases hthrows : network.throws with
    | true => exact iff_of_true nofun nofun
    | false =>
        constructor
        · intro hall _
          exact ⟨fun hconnected => absurd hconnected hmade.1, fun _ => (hall rfl).2⟩
        · intro hall _
          exact ⟨rfl, (hall rfl).2 hmade⟩
  · rw [hsame, Takes]
    refine iff_of_true nofun fun _ => ⟨fun hconnected => ?_, fun hmade => ?_⟩
    · exact absurd hconnected hunconnected
    · exact absurd hmade hunmade

theorem attempt_daemon (id : Nat) (network : Network) :
    (client.dispatchByServerIdSV id network).1.daemon = client.daemon := by
  rcases client.dispatchByServerIdSV_cases hlinked id network with
    ⟨cid, conn, -, -, hsame⟩ | ⟨-, hsame⟩ | ⟨-, -, hsame⟩
  · rw [hsame]
    split
    · obtain ⟨connects, hdisable, -⟩ := client.setEnable_frame cid false
      rw [disable, hdisable]
    · rfl
  · rw [hsame]
    rfl
  · rw [hsame]

end Attempt

/-! ## The retry -/

/-- The connection that is disabled is its server's only one, and no other server's. -/
theorem live_disable (hlinked : Linked client) {cid : Nat}
    (hcid : client.sid2cid.find id = some cid) (again : Nat) :
    (client.disable cid).Live again ↔ again ≠ id ∧ client.Live again := by
  obtain ⟨connects, hdisable, hfind⟩ := client.setEnable_frame cid false
  rw [disable, hdisable]
  constructor
  · rintro ⟨cid', conn', hcid', hconn', henabled⟩
    change client.sid2cid.find again = some cid' at hcid'
    change connects.find cid' = some conn' at hconn'
    rw [hfind] at hconn'
    obtain ⟨conn, hconn, rfl⟩ := Option.map_eq_some_iff.mp hconn'
    have hdiff : cid' ≠ cid := by
      intro hsame
      rw [if_pos hsame] at henabled
      cases henabled
    rw [if_neg hdiff] at henabled
    refine ⟨?_, cid', conn, hcid', hconn, henabled⟩
    rintro rfl
    rw [hcid] at hcid'
    cases hcid'
    exact hdiff rfl
  · rintro ⟨hother, cid', conn', hcid', hconn', henabled⟩
    have hdiff : cid' ≠ cid := by
      rintro rfl
      obtain ⟨conn, hconn, hserver⟩ := hlinked id cid' hcid
      obtain ⟨conn'', hconn'', hserver'⟩ := hlinked again cid' hcid'
      rw [hconn] at hconn''
      cases hconn''
      exact hother (hserver'.symm.trans hserver)
    refine ⟨cid', conn', hcid', ?_, henabled⟩
    change connects.find cid' = some conn'
    rw [hfind, hconn', Option.map_some, if_neg hdiff]

/-- An attempt that failed changed nothing but the connection whose send threw. -/
theorem failed_takes (hlinked : Linked client)
    (hfailed : (client.dispatchByServerIdSV id network).2.outcome = .failure)
    (rn : String) (again : Nat) (second : Network) :
    (client.dispatchByServerIdSV id network).1.Takes rn again second ↔
      if again = id ∧ (client.sid2cid.find id).isSome then second.throws = true
      else client.Takes rn again second := by
  rcases client.dispatchByServerIdSV_cases hlinked id network with
    ⟨cid, conn, hcid, hconn, hsame⟩ | ⟨hmade, hsame⟩ | ⟨hunconnected, -, hsame⟩
  · have hthrows : network.throws = true := by
      by_contra hquiet
      rw [hsame, if_neg hquiet] at hfailed
      cases hfailed
    have htakes : (client.disable cid).Takes rn again second ↔ (second.throws = false →
        (client.Connected again → (again ≠ id ∧ client.Live again) ∧ client.KnownAs rn again) ∧
          (client.Connectable again second.connects → client.KnownAs rn again)) := by
      obtain ⟨connects, hdisable, -⟩ := client.setEnable_frame cid false
      rw [Takes, live_disable hlinked hcid, disable, hdisable]
      exact Iff.rfl
    rw [hsame, if_pos hthrows, htakes]
    by_cases hagain : again = id
    · subst hagain
      have hconnected : (client.sid2cid.find again).isSome = true := by
        rw [hcid]
        rfl
      rw [if_pos ⟨rfl, hconnected⟩]
      constructor
      · intro hall
        by_contra hquiet
        exact ((hall (Bool.eq_false_iff.mpr hquiet)).1 hconnected).1.1 rfl
      · intro hthrows' hquiet
        rw [hthrows'] at hquiet
        cases hquiet
    · rw [if_neg fun h => hagain h.1, and_iff_right hagain]
      exact Iff.rfl
  · rw [hsame] at hfailed
    dsimp only at hfailed
    split at hfailed <;> cases hfailed
  · rw [hsame, if_neg fun h => hunconnected h.2]

theorem mem_running {rn : String} :
    id ∈ (client.getServerIdsSV rn).filter client.isServerRunning ↔ client.RunningAs rn id := by
  have hids : id ∈ client.getServerIdsSV rn ↔ client.KnownAs rn id := by
    rw [getServerIdsSV, List.mem_map]
    constructor
    · rintro ⟨⟨key, fs⟩, hmem, rfl⟩
      obtain ⟨hmem, hsuffix⟩ := List.mem_filter.mp hmem
      exact ⟨fs, OrderedMap.mem_entries.mp hmem, of_decide_eq_true hsuffix⟩
    · rintro ⟨fs, hfind, hsuffix⟩
      exact ⟨(id, fs), List.mem_filter.mpr
        ⟨OrderedMap.mem_entries.mpr hfind, decide_eq_true hsuffix⟩, rfl⟩
  rw [List.mem_filter, hids, isServerRunning]
  constructor
  · rintro ⟨⟨fs, hfind, hsuffix⟩, hrunning⟩
    rw [hfind] at hrunning
    exact ⟨fs, hfind, of_decide_eq_true hrunning, hsuffix⟩
  · rintro ⟨fs, hfind, hrunning, hsuffix⟩
    rw [hfind]
    exact ⟨⟨fs, hfind, hsuffix⟩, decide_eq_true hrunning⟩

/-- The draw is of a running server, when there is one. -/
theorem randomServer_running {rn : String} (hrunning : ∃ other, client.RunningAs rn other)
    (id pick : Nat) : client.RunningAs rn (client.randomServer rn id pick) := by
  obtain ⟨other, hother⟩ := hrunning
  have hpos : 0 < ((client.getServerIdsSV rn).filter client.isServerRunning).length :=
    List.length_pos_of_mem (mem_running.mpr hother)
  have hbound := Nat.mod_lt pick hpos
  simp only [randomServer, List.getElem?_eq_getElem hbound, Option.getD_some]
  exact mem_running.mp (List.getElem_mem hbound)

/-- One attempt reaches the server it is for, or none. -/
theorem reached_one (hlinked : Linked client) (rn : String) (id : Nat) (network : Network) :
    (∃ other, [(client.dispatchByServerIdSV id network).2].filterMap Attempt.reached = [other] ∧
        client.KnownAs rn other) ↔
      (client.dispatchByServerIdSV id network).2.reached = some id ∧ client.KnownAs rn id := by
  have hreached := attempt_reached hlinked id network
  cases hgot : (client.dispatchByServerIdSV id network).2.reached with
  | none =>
      rw [List.filterMap_cons_none hgot]
      exact iff_of_false nofun nofun
  | some other =>
      rw [hgot] at hreached
      obtain ⟨-, hsame⟩ := hreached nofun
      cases hsame
      rw [List.filterMap_cons_some hgot]
      constructor
      · rintro ⟨found, hfound, hknown⟩
        cases hfound
        exact ⟨rfl, hknown⟩
      · exact fun h => ⟨id, rfl, h.2⟩

theorem randomServer_congr (hdaemon : next.daemon = client.daemon) (rn : String)
    (id pick : Nat) : next.randomServer rn id pick = client.randomServer rn id pick := by
  have hrunning : next.isServerRunning = client.isServerRunning := by
    funext id
    rw [isServerRunning, isServerRunning, hdaemon]
  have hids : next.getServerIdsSV rn = client.getServerIdsSV rn := by
    rw [getServerIdsSV, getServerIdsSV, hdaemon]
  simp only [randomServer, hrunning, hids]

theorem byName_one {tried : Attempt} (hreached : tried.outcome = .success →
      ∃ other, [tried].filterMap Attempt.reached = [other] ∧ client.KnownAs rn other)
    (hretried : tried.outcome ≠ .success → ¬ client.Another rn tried.serverId) :
    client.ByName rn [tried] := by
  constructor
  · intro attempt hmem hsuccess
    cases List.mem_singleton.mp hmem
    exact hreached hsuccess
  · intro attempt rest htried hfailed hanother
    cases htried
    exact absurd hanother (hretried hfailed)

/-- Without a retry the first choice decides. -/
theorem send_byName_once (hlinked : Linked client) {first second : Network} {pick : Nat}
    (hkept : (client.dispatchByServerIdSV id first).2.outcome ≠ .failure) :
    client.ByName rn (client.send rn id first pick second).2 ↔
      client.Finds rn id first pick second := by
  have hserver := attempt_serverId hlinked id first
  have htakes := attempt_takes hlinked rn id first
  have hthrown := attempt_exception hlinked id first
  have hone := reached_one hlinked rn id first
  have hrefused : ¬ client.Refuses id first := hkept ∘ (attempt_refuses hlinked id first).mpr
  have htried : (client.send rn id first pick second).2 =
      [(client.dispatchByServerIdSV id first).2] := by
    unfold send
    dsimp only
    split
    next hfailed => exact absurd hfailed hkept
    next => rfl
  rw [htried]
  constructor
  · rintro ⟨hreached, hretried⟩
    refine ⟨htakes.mp fun hsuccess => ?_, fun hmade hthrows hanother => ?_,
      fun hrefuses => absurd hrefuses hrefused, fun hrefuses => absurd hrefuses hrefused⟩
    · exact hone.mp (hreached _ List.mem_cons_self hsuccess)
    · have hexception := hthrown.mpr ⟨hmade, hthrows⟩
      obtain ⟨again, hnone, -⟩ := hretried _ [] rfl (by rw [hexception]; nofun)
        (by rwa [hserver])
      cases hnone
  · intro hfinds
    refine byName_one (fun hsuccess => ?_) (fun hfailed => ?_)
    · exact hone.mpr (htakes.mpr hfinds.choice hsuccess)
    · rw [hserver]
      cases houtcome : (client.dispatchByServerIdSV id first).2.outcome with
      | success => exact absurd houtcome hfailed
      | failure => exact absurd houtcome hkept
      | exception =>
          obtain ⟨hmade, hthrows⟩ := hthrown.mp houtcome
          exact hfinds.caught hmade hthrows

/-- A first choice that fails is no choice at all, and the retry decides. -/
theorem send_byName_again (hlinked : Linked client) (hfresh : NextFresh client)
    {first second : Network} {pick : Nat}
    (hfailed : (client.dispatchByServerIdSV id first).2.outcome = .failure) :
    client.ByName rn (client.send rn id first pick second).2 ↔
      client.Finds rn id first pick second := by
  have hserver := attempt_serverId hlinked id first
  have hrefuses := (attempt_refuses hlinked id first).mp hfailed
  have hdaemon := attempt_daemon hlinked id first
  have hchoice : client.Takes rn id first := by
    refine (attempt_takes hlinked rn id first).mp fun hsuccess => ?_
    rw [hfailed] at hsuccess
    cases hsuccess
  have hcaught : client.Connectable id first.connects → ¬ first.throws = true := by
    intro hmade hthrows
    have hexception := (attempt_exception hlinked id first).mpr ⟨hmade, hthrows⟩
    rw [hfailed] at hexception
    cases hexception
  have hnone : (client.dispatchByServerIdSV id first).2.reached = none := by
    by_contra hgot
    have hsuccess := (attempt_reached hlinked id first hgot).1
    rw [hfailed] at hsuccess
    cases hsuccess
  have hagain := randomServer_congr hdaemon rn id pick
  have htaken := failed_takes hlinked hfailed rn (client.randomServer rn id pick) second
  unfold send
  dsimp only
  rw [hfailed, hagain]
  dsimp only
  split
  next hdrawn =>
    -- the channel has the new id, which no attempt looks at
    let drawn : ChannelClient := { (client.dispatchByServerIdSV id first).1 with
      ncs := (client.dispatchByServerIdSV id first).1.ncs.set rn (client.randomServer rn id pick) }
    have hlinked' : Linked drawn := dispatchByServerIdSV_linked hlinked hfresh id first
    have hknown : drawn.KnownAs = client.KnownAs := by
      unfold KnownAs
      rw [← hdaemon]
    have htakes := attempt_takes hlinked' rn (client.randomServer rn id pick) second
    have hone := reached_one hlinked' rn (client.randomServer rn id pick) second
    have hserver' := attempt_serverId hlinked' (client.randomServer rn id pick) second
    change _ ↔ (client.dispatchByServerIdSV id first).1.Takes rn _ second at htakes
    rw [htaken] at htakes
    rw [hknown] at hone htakes
    change client.ByName rn [_, (drawn.dispatchByServerIdSV _ second).2] ↔ _
    generalize (drawn.dispatchByServerIdSV (client.randomServer rn id pick) second).2 = retried
      at htakes hone hserver' ⊢
    constructor
    · rintro ⟨hreached, -⟩
      refine ⟨hchoice, fun hmade hthrows => absurd hthrows (hcaught hmade), fun _ _ => hdrawn,
        fun _ _ => htakes.mp fun hsuccess => hone.mp ?_⟩
      have hgot := hreached retried (List.mem_cons_of_mem _ List.mem_cons_self) hsuccess
      rwa [List.filterMap_cons_none hnone] at hgot
    · intro hfinds
      constructor
      · intro attempt hmem hsuccess
        rw [List.filterMap_cons_none hnone]
        rcases List.mem_cons.mp hmem with rfl | hmem
        · rw [hfailed] at hsuccess
          cases hsuccess
        · cases List.mem_singleton.mp hmem
          exact hone.mpr (htakes.mpr (hfinds.retry hrefuses hdrawn) hsuccess)
      · rintro attempt rest htried - ⟨other, -, hother⟩
        cases htried
        refine ⟨retried, rfl, ?_⟩
        rw [hserver']
        exact randomServer_running ⟨other, hother⟩ id pick
  next hnothing =>
    constructor
    · rintro ⟨-, hretried⟩
      refine ⟨hchoice, fun hmade hthrows => absurd hthrows (hcaught hmade),
        fun _ hanother => ?_, fun _ hdrawn => absurd hdrawn hnothing⟩
      obtain ⟨again, hnil, -⟩ := hretried _ [] rfl (by rw [hfailed]; nofun) (by rwa [hserver])
      cases hnil
    · intro hfinds
      refine byName_one (fun hsuccess => ?_) (fun _ hanother => ?_)
      · rw [hfailed] at hsuccess
        cases hsuccess
      · rw [hserver] at hanother
        exact hnothing (hfinds.drawn hrefuses hanother)

/-- A dispatch reaches a server by its name exactly when it finds one. -/
theorem send_byName (hlinked : Linked client) (hfresh : NextFresh client) (rn : String) (id : Nat)
    (first : Network) (pick : Nat) (second : Network) :
    client.ByName rn (client.send rn id first pick second).2 ↔
      client.Finds rn id first pick second := by
  by_cases hfailed : (client.dispatchByServerIdSV id first).2.outcome = .failure
  · exact send_byName_again hlinked hfresh hfailed
  · exact send_byName_once hlinked hfailed

theorem step_byName (hlinked : Linked client) {event : Event} (hfresh : Fresh client event) :
    DispatchesByName client event ↔ FindsByName client event := by
  cases event with
  | dispatchToServerRandom name created first pick second =>
      have hsend := @send_byName { client with
          ncs := client.ncs.set (routeName name) (client.firstChoice (routeName name) created) }
        hlinked hfresh (routeName name) (client.firstChoice (routeName name) created) first pick
        second
      -- what a channel remembers is not among the things a dispatch finds
      constructor
      · intro hbyName
        obtain ⟨hchoice, hcaught, hdrawn, hretry⟩ :=
          hsend.mp ⟨hbyName.reached, hbyName.retried⟩
        exact ⟨hchoice, hcaught, hdrawn, hretry⟩
      · intro hfinds
        obtain ⟨hreached, hretried⟩ :=
          hsend.mpr ⟨hfinds.choice, hfinds.caught, hfinds.drawn, hfinds.retry⟩
        exact ⟨hreached, hretried⟩
  | _ => exact Iff.rfl

theorem new_linked (serverGroupId : Option Nat) : Linked (new serverGroupId) := nofun

/-- While every connection gets an id of its own, the dispatches of a run reach servers by
their names exactly when each of them finds one. -/
theorem dispatches_byName_iff (serverGroupId : Option Nat) (events : List Event)
    (hfresh : Along step Fresh (new serverGroupId) events) :
    Along step DispatchesByName (new serverGroupId) events ↔
      Along step FindsByName (new serverGroupId) events :=
  along_congr (fun _ _ _ hlinked hfresh hnext => step_linked hlinked hfresh hnext)
    (fun _ _ hlinked hfresh => step_byName hlinked hfresh) (new_linked serverGroupId) hfresh

/-- A channel's server takes another suffix and goes on running. -/
def renamed : List Event :=
  [.server (.onServerAddSV ⟨"online", 1, 2, 3, 7, 1, .RUNNING⟩),
    .dispatchToServerRandom "im.online" 0 ⟨true, false⟩ 0 ⟨true, false⟩,
    .server (.onServersStatusChangeSV 7 "router" .RUNNING),
    .checkRuning "online" 0,
    .dispatchToServerRandom "im.online" 0 ⟨true, false⟩ 0 ⟨true, false⟩]

theorem dispatches_byName_iff_renamed :
    Along step DispatchesByName (new none) renamed ↔ Along step FindsByName (new none) renamed :=
  dispatches_byName_iff none renamed (by decide +kernel)

/-- The channel keeps it. -/
theorem renamed_misses : ¬ Along step DispatchesByName (new none) renamed := by
  rintro ⟨-, hlater⟩
  obtain ⟨-, hlater⟩ := hlater _ rfl
  obtain ⟨-, hlater⟩ := hlater _ rfl
  obtain ⟨-, hlater⟩ := hlater _ rfl
  obtain ⟨hlast, -⟩ := hlater _ rfl
  have hlast : ByName _ _ _ := hlast
  obtain ⟨id, hid, fs, hfind, hsuffix⟩ :=
    hlast.reached ⟨7, .success, some 7⟩ (by decide +kernel) rfl
  have hseven : [id] = [7] := hid.symm.trans (by decide +kernel)
  cases hseven
  have hfs : some fs = some ⟨"router", 1, 2, 3, 7, 1, .RUNNING⟩ :=
    hfind.symm.trans (by decide +kernel)
  cases hfs
  revert hsuffix
  decide +kernel

end ChannelClient

end ServiceFrame
