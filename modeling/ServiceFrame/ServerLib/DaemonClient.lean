import Mathlib.Algebra.Group.Nat.Defs
import Mathlib.Data.List.Induction
import Mathlib.Data.String.Basic
import ServiceFrame.Foundation.OrderedMap
import ServiceFrame.Foundation.Run

/-! # The servers a daemon client knows

`DaemonClient` of `server-lib` keeps every server the daemon told it of, in
`sid2FavorSV`, and the ids of the running ones by suffix, in `m_mapSuffix2Srvs`. The
handlers of the daemon's messages update both. Left out: the connections and the
calls of the watchers.
-/

namespace ServiceFrame

open Foundation

/-- The status comes off the wire; `other` stands for the values without a name. -/
inductive ServerStatus where
  | INITIAL
  | WAITING
  | READY
  | RUNNING
  | other (value : Nat)
deriving DecidableEq

structure FavorStrSV where
  sstr : String
  dip : Nat
  wip : Nat
  port : Nat
  serverId : Nat
  groupId : Nat
  serverStatus : ServerStatus
deriving DecidableEq

structure CSrvRollingInfo where
  uCounter : Nat
  vecSrvId : List Nat

structure DaemonClient where
  sid2FavorSV : OrderedMap Nat FavorStrSV
  mapSuffix2Srvs : OrderedMap String CSrvRollingInfo
  /-- The imbridge on the way to a group. -/
  mapGid2Route : OrderedMap Nat Nat
  /-- How many imrouters a group has. -/
  mapImrouterCount : OrderedMap Nat UInt32
  /-- The group id of `server`, if there is one. -/
  serverGroupId : Option Nat

namespace DaemonClient

def new (serverGroupId : Option Nat) : DaemonClient where
  sid2FavorSV := .empty
  mapSuffix2Srvs := .empty
  mapGid2Route := .empty
  mapImrouterCount := .empty
  serverGroupId := serverGroupId

def DAEMON_SERVERID : Nat := 0

def NONE_SERVER_ID : Nat := 0xffffffff

def DAEMON_PORT : Nat := 2000

def SUFFIX_IMROUTER : String := "imrouter"

def suffixMapAdd (client : DaemonClient) (fs : FavorStrSV) : DaemonClient :=
  if fs.serverStatus = .RUNNING then
    let info := (client.mapSuffix2Srvs.find fs.sstr).getD ⟨0, []⟩
    { client with
      mapSuffix2Srvs := client.mapSuffix2Srvs.set fs.sstr
        { info with vecSrvId := info.vecSrvId ++ [fs.serverId] } }
  else client

def suffixMapDel (client : DaemonClient) (uSrvId : Nat) (strSuffix : String) : DaemonClient :=
  match client.mapSuffix2Srvs.find strSuffix with
  | some info =>
      { client with
        mapSuffix2Srvs := client.mapSuffix2Srvs.set strSuffix
          { info with vecSrvId := info.vecSrvId.erase uSrvId } }
  | none => client

/-- Another imrouter of its group. -/
def countImrouter (client : DaemonClient) (fs : FavorStrSV) : DaemonClient :=
  if fs.sstr = SUFFIX_IMROUTER then
    match client.mapImrouterCount.find fs.groupId with
    | some count =>
        { client with mapImrouterCount := client.mapImrouterCount.set fs.groupId (count + 1) }
    | none => { client with mapImrouterCount := client.mapImrouterCount.set fs.groupId 1 }
  else client

def onServerAddSV (client : DaemonClient) (fs : FavorStrSV) : DaemonClient :=
  let client := client.countImrouter fs
  let client := (client.suffixMapDel fs.serverId fs.sstr).suffixMapAdd fs
  if client.sid2FavorSV.find fs.serverId = some fs then client
  else { client with sid2FavorSV := client.sid2FavorSV.set fs.serverId fs }

/-- An imrouter less; without one left, the own group has no routes. -/
def dropImrouter (client : DaemonClient) (fs : FavorStrSV) : DaemonClient :=
  if fs.sstr = SUFFIX_IMROUTER then
    match client.mapImrouterCount.find fs.groupId with
    | some count =>
        let count := count - 1
        if count = 0 then
          let client := { client with
            mapImrouterCount := client.mapImrouterCount.erase fs.groupId }
          if client.serverGroupId = some fs.groupId then
            { client with mapGid2Route := .empty }
          else client
        else { client with mapImrouterCount := client.mapImrouterCount.set fs.groupId count }
    | none => client
  else client

def onServerRemoveSV (client : DaemonClient) (serverId : Nat) : DaemonClient :=
  match client.sid2FavorSV.find serverId with
  | some fstr =>
      let client := (client.suffixMapDel fstr.serverId fstr.sstr).dropImrouter fstr
      { client with sid2FavorSV := client.sid2FavorSV.erase serverId }
  | none => client

/-- What the loops of both bulk handlers do with a server. -/
def favour (client : DaemonClient) (fs : FavorStrSV) : DaemonClient :=
  suffixMapAdd { client with sid2FavorSV := client.sid2FavorSV.set fs.serverId fs } fs

/-- The flag selects which call the watchers get. -/
def onServerRegisteredSV (client : DaemonClient) (fs : List FavorStrSV) (_bRecover : Bool) :
    DaemonClient :=
  fs.foldl (fun client it => (client.favour it).countImrouter it)
    { client with
      sid2FavorSV := .empty
      mapSuffix2Srvs := .empty
      mapGid2Route := .empty
      mapImrouterCount := .empty }

def onGetServersSV (client : DaemonClient) (favours : List FavorStrSV) (ifSuccess : Bool) :
    DaemonClient :=
  if ifSuccess then
    favours.foldl favour { client with sid2FavorSV := .empty, mapSuffix2Srvs := .empty }
  else client

def onServersStatusChangeSV (client : DaemonClient) (serverId : Nat) (name : String)
    (serverStatus : ServerStatus) : DaemonClient :=
  match client.sid2FavorSV.find serverId with
  | some itr =>
      let client := client.suffixMapDel itr.serverId itr.sstr
      let changed := { itr with serverStatus := serverStatus, sstr := name }
      suffixMapAdd { client with sid2FavorSV := client.sid2FavorSV.set serverId changed } changed
  | none => client

/-- The daemon itself, at the address `gethostbyname` answers. -/
def daemonFavor (client : DaemonClient) (dip : Nat) : FavorStrSV where
  sstr := ""
  dip := dip
  wip := 0
  port := DAEMON_PORT
  serverId := DAEMON_SERVERID
  groupId := client.serverGroupId.getD 0
  serverStatus := .INITIAL

def startSV (client : DaemonClient) (dip : Nat) : DaemonClient :=
  { client with
    sid2FavorSV := client.sid2FavorSV.set DAEMON_SERVERID (client.daemonFavor dip) }

/-- A notified route: `uint32_t(-1)` disables it, and 0 is the direct one. -/
def routeNotified (client : DaemonClient) (groupId imbridge : Nat) : DaemonClient :=
  if imbridge = 2 ^ 32 - 1 ∨ imbridge = 0 then
    { client with mapGid2Route := client.mapGid2Route.erase groupId }
  else if (client.sid2FavorSV.find imbridge).isSome ∧
      (client.mapImrouterCount.find groupId).isSome then
    { client with mapGid2Route := client.mapGid2Route.set groupId imbridge }
  else client

def onRouteNotify (client : DaemonClient) (mapGidServerIds : OrderedMap Nat Nat) :
    DaemonClient :=
  mapGidServerIds.entries.foldl (fun client it => client.routeNotified it.1 it.2) client

/-- The server that gets the message, if there is one. -/
def dispatchToServerRoundRobin (client : DaemonClient) (strSuffix : String) :
    DaemonClient × Option Nat :=
  match client.mapSuffix2Srvs.find strSuffix with
  | some info =>
      if info.vecSrvId = [] then (client, none)
      else
        let uCounter := (info.uCounter + 1) % 2 ^ 64
        ({ client with
            mapSuffix2Srvs := client.mapSuffix2Srvs.set strSuffix
              { info with uCounter := uCounter } },
          info.vecSrvId[uCounter % info.vecSrvId.length]?)
  | none => (client, none)

inductive Event where
  | onServerAddSV (fs : FavorStrSV)
  | onServerRemoveSV (serverId : Nat)
  | onServersStatusChangeSV (serverId : Nat) (name : String) (serverStatus : ServerStatus)
  | onServerRegisteredSV (fs : List FavorStrSV) (bRecover : Bool)
  | onGetServersSV (favours : List FavorStrSV) (ifSuccess : Bool)
  | startSV (dip : Nat)
  | onRouteNotify (mapGidServerIds : OrderedMap Nat Nat)
  | dispatchToServerRoundRobin (strSuffix : String)

def step (client : DaemonClient) : Event → Option DaemonClient
  | .onServerAddSV fs => some (client.onServerAddSV fs)
  | .onServerRemoveSV serverId => some (client.onServerRemoveSV serverId)
  | .onServersStatusChangeSV serverId name serverStatus =>
      some (client.onServersStatusChangeSV serverId name serverStatus)
  | .onServerRegisteredSV fs bRecover => some (client.onServerRegisteredSV fs bRecover)
  | .onGetServersSV favours ifSuccess => some (client.onGetServersSV favours ifSuccess)
  | .startSV dip => some (client.startSV dip)
  | .onRouteNotify mapGidServerIds => some (client.onRouteNotify mapGidServerIds)
  | .dispatchToServerRoundRobin strSuffix => some (client.dispatchToServerRoundRobin strSuffix).1

/-! ## What the tables hold -/

/-- The server runs, and has the suffix. -/
def RunsAs (fs : FavorStrSV) (suffix : String) : Prop :=
  fs.serverStatus = .RUNNING ∧ fs.sstr = suffix

instance (fs : FavorStrSV) (suffix : String) : Decidable (RunsAs fs suffix) :=
  inferInstanceAs (Decidable (_ ∧ _))

/-- The ids that take turns under a suffix. -/
def servers (client : DaemonClient) (suffix : String) : List Nat :=
  ((client.mapSuffix2Srvs.find suffix).map CSrvRollingInfo.vecSrvId).getD []

/-- Each suffix lists the running servers that have it, and each of them once. -/
def Coherent (client : DaemonClient) : Prop :=
  ∀ suffix, (client.servers suffix).Nodup ∧ ∀ id, id ∈ client.servers suffix ↔
    ∃ fs, client.sid2FavorSV.find id = some fs ∧ RunsAs fs suffix

variable {client next : DaemonClient} {fs : FavorStrSV} {suffix : String} {id : Nat}

theorem suffixMapAdd_servers (client : DaemonClient) (fs : FavorStrSV) (suffix : String) :
    (client.suffixMapAdd fs).servers suffix =
      client.servers suffix ++ if RunsAs fs suffix then [fs.serverId] else [] := by
  unfold suffixMapAdd
  split
  next hrunning =>
    rw [servers, OrderedMap.find_set, Function.update_apply]
    by_cases hsuffix : suffix = fs.sstr
    · subst hsuffix
      have hruns : RunsAs fs fs.sstr := ⟨hrunning, rfl⟩
      rw [if_pos rfl, if_pos hruns, servers]
      cases client.mapSuffix2Srvs.find fs.sstr with
      | none => rfl
      | some info => rfl
    · have hnot : ¬ RunsAs fs suffix := fun hruns => hsuffix hruns.2.symm
      rw [if_neg hsuffix, if_neg hnot, List.append_nil]
      rfl
  next hidle =>
    have hnot : ¬ RunsAs fs suffix := fun hruns => hidle hruns.1
    rw [if_neg hnot, List.append_nil]

theorem suffixMapDel_servers (client : DaemonClient) (id : Nat) (strSuffix suffix : String) :
    (client.suffixMapDel id strSuffix).servers suffix =
      if suffix = strSuffix then (client.servers suffix).erase id else client.servers suffix := by
  unfold suffixMapDel
  split
  next info hfind =>
    rw [servers, OrderedMap.find_set, Function.update_apply]
    split
    next hsuffix =>
      rw [hsuffix, servers, hfind]
      rfl
    next => rfl
  next hfind =>
    split
    next hsuffix =>
      rw [hsuffix, servers, hfind]
      rfl
    next => rfl

theorem suffixMapAdd_find (client : DaemonClient) (fs : FavorStrSV) :
    (client.suffixMapAdd fs).sid2FavorSV = client.sid2FavorSV := by
  unfold suffixMapAdd
  split <;> rfl

theorem suffixMapDel_find (client : DaemonClient) (id : Nat) (suffix : String) :
    (client.suffixMapDel id suffix).sid2FavorSV = client.sid2FavorSV := by
  unfold suffixMapDel
  split <;> rfl

/-- The counts of imrouters are apart from the two tables. -/
theorem countImrouter_frame (client : DaemonClient) (fs : FavorStrSV) :
    (client.countImrouter fs).sid2FavorSV = client.sid2FavorSV ∧
      (client.countImrouter fs).mapSuffix2Srvs = client.mapSuffix2Srvs := by
  unfold countImrouter
  split
  · split <;> exact ⟨rfl, rfl⟩
  · exact ⟨rfl, rfl⟩

theorem dropImrouter_frame (client : DaemonClient) (fs : FavorStrSV) :
    (client.dropImrouter fs).sid2FavorSV = client.sid2FavorSV ∧
      (client.dropImrouter fs).mapSuffix2Srvs = client.mapSuffix2Srvs := by
  unfold dropImrouter
  split
  · split
    · dsimp only
      split
      · split <;> exact ⟨rfl, rfl⟩
      · exact ⟨rfl, rfl⟩
    · exact ⟨rfl, rfl⟩
  · exact ⟨rfl, rfl⟩

theorem Coherent.congr (hcoherent : Coherent client)
    (hfind : next.sid2FavorSV.find = client.sid2FavorSV.find)
    (hservers : ∀ suffix, next.servers suffix = client.servers suffix) : Coherent next := by
  intro suffix
  rw [hservers, hfind]
  exact hcoherent suffix

/-- A server is gone when its id goes from the suffix it runs under. -/
theorem Coherent.remove (hcoherent : Coherent client)
    (hold : ∀ old, client.sid2FavorSV.find id = some old → old.serverStatus = .RUNNING →
      old.sstr = suffix) :
    Coherent { client.suffixMapDel id suffix with
      sid2FavorSV := client.sid2FavorSV.erase id } := by
  intro other
  change ((client.suffixMapDel id suffix).servers other).Nodup ∧ ∀ id',
    id' ∈ (client.suffixMapDel id suffix).servers other ↔
      ∃ fs, (client.sid2FavorSV.erase id).find id' = some fs ∧ RunsAs fs other
  obtain ⟨hnodup, hmem⟩ := hcoherent other
  have hgone : id ∉ (client.suffixMapDel id suffix).servers other := by
    rw [suffixMapDel_servers]
    split
    next => exact hnodup.not_mem_erase
    next hother =>
      intro hlisted
      obtain ⟨old, hfind, hrunning, hsuffix⟩ := (hmem id).mp hlisted
      exact hother (hsuffix ▸ hold old hfind hrunning)
  have hrest : ∀ id', id' ≠ id →
      (id' ∈ (client.suffixMapDel id suffix).servers other ↔ id' ∈ client.servers other) := by
    intro id' hdiff
    rw [suffixMapDel_servers]
    split
    · exact List.mem_erase_of_ne hdiff
    · exact Iff.rfl
  refine ⟨?_, ?_⟩
  · rw [suffixMapDel_servers]
    split
    · exact hnodup.erase id
    · exact hnodup
  · intro id'
    rw [OrderedMap.find_erase, Function.update_apply]
    split
    next hsame => simpa [hsame] using hgone
    next hdiff => rw [hrest id' hdiff, hmem]

/-- A step of the loops, and what else writes both tables. -/
def Enters (next client : DaemonClient) (fs : FavorStrSV) : Prop :=
  next.sid2FavorSV.find = Function.update client.sid2FavorSV.find fs.serverId (some fs) ∧
    ∀ suffix, next.servers suffix =
      client.servers suffix ++ if RunsAs fs suffix then [fs.serverId] else []

theorem favour_enters (client : DaemonClient) (fs : FavorStrSV) :
    Enters (client.favour fs) client fs := by
  refine ⟨?_, suffixMapAdd_servers _ fs⟩
  rw [favour, suffixMapAdd_find, OrderedMap.find_set]

/-- A server enters in order when its id did not run before. -/
theorem Coherent.enter (hcoherent : Coherent client) (henter : Enters next client fs)
    (hold : ∀ old, client.sid2FavorSV.find fs.serverId = some old →
      old.serverStatus ≠ .RUNNING) : Coherent next := by
  obtain ⟨hfind, hservers⟩ := henter
  intro suffix
  obtain ⟨hnodup, hmem⟩ := hcoherent suffix
  have hnew : fs.serverId ∉ client.servers suffix := by
    intro hlisted
    obtain ⟨old, hfound, hruns⟩ := (hmem fs.serverId).mp hlisted
    exact hold old hfound hruns.1
  rw [hservers, hfind]
  refine ⟨?_, ?_⟩
  · split
    · rw [← List.concat_eq_append]
      exact hnodup.concat hnew
    · rwa [List.append_nil]
  · intro id
    rw [List.mem_append, hmem, Function.update_apply]
    split
    next hruns =>
      rw [List.mem_singleton]
      split
      next hsame => simpa [hsame] using hruns
      next hdiff => simp [hdiff]
    next hnot =>
      split
      next hsame =>
        subst hsame
        rw [← hmem]
        simpa [hnew] using hnot
      next => simp

/-! ## The bulk handlers -/

/-- No server that runs comes again later in the list. -/
def Once (favours : List FavorStrSV) : Prop :=
  favours.Pairwise fun f g => f.serverStatus = .RUNNING → f.serverId ≠ g.serverId

instance (favours : List FavorStrSV) : Decidable (Once favours) :=
  inferInstanceAs (Decidable (favours.Pairwise _))

section Bulk

variable {turn : DaemonClient → FavorStrSV → DaemonClient}
  (hturn : ∀ client fs, Enters (turn client fs) client fs) {favours : List FavorStrSV}

include hturn

/-- What is known of an id came in the list. -/
theorem foldl_find (hempty : ∀ id, client.sid2FavorSV.find id = none)
    (hfind : (favours.foldl turn client).sid2FavorSV.find id = some fs) :
    fs ∈ favours ∧ fs.serverId = id := by
  induction favours using List.reverseRecOn with
  | nil =>
      rw [List.foldl_nil, hempty] at hfind
      cases hfind
  | append_singleton past last ih =>
      rw [List.foldl_append, List.foldl_cons, List.foldl_nil, (hturn _ last).1,
        Function.update_apply] at hfind
      split at hfind
      next hsame =>
        cases hfind
        exact ⟨List.mem_append_right _ List.mem_cons_self, hsame.symm⟩
      next =>
        obtain ⟨hmem, hid⟩ := ih hfind
        exact ⟨List.mem_append_left _ hmem, hid⟩

theorem foldl_servers (hempty : ∀ suffix, client.servers suffix = []) (suffix : String) :
    (favours.foldl turn client).servers suffix =
      (favours.filter (RunsAs · suffix)).map FavorStrSV.serverId := by
  induction favours using List.reverseRecOn with
  | nil => exact hempty suffix
  | append_singleton past last ih =>
      rw [List.foldl_append, List.foldl_cons, List.foldl_nil, (hturn _ last).2, ih,
        List.filter_append, List.map_append]
      by_cases hruns : RunsAs last suffix <;> simp [hruns]

/-- A list of favours leads to coherent tables exactly when its running servers
come once. -/
theorem foldl_coherent (hfind : ∀ id, client.sid2FavorSV.find id = none)
    (hservers : ∀ suffix, client.servers suffix = []) :
    Coherent (favours.foldl turn client) ↔ Once favours := by
  induction favours using List.reverseRecOn with
  | nil =>
      refine ⟨fun _ => List.Pairwise.nil, fun _ suffix => ?_⟩
      simp [hservers, hfind]
  | append_singleton past last ih =>
      have hlast := hturn (past.foldl turn client) last
      have hmem : ∀ {id suffix}, id ∈ (past.foldl turn client).servers suffix ↔
          ∃ fs ∈ past, RunsAs fs suffix ∧ fs.serverId = id := by
        intro id suffix
        rw [foldl_servers hturn hservers]
        simp [and_assoc]
      rw [Once, List.pairwise_append, List.foldl_append, List.foldl_cons, List.foldl_nil]
      constructor
      · intro hcoherent
        -- `last` takes over the entry of its id, so a running server of that id would be
        -- listed without an entry of its own, or twice
        have hlater : ∀ f ∈ past, f.serverStatus = .RUNNING → f.serverId ≠ last.serverId := by
          intro f hf hrunning hsame
          have hlisted : f.serverId ∈ (past.foldl turn client).servers f.sstr :=
            hmem.mpr ⟨f, hf, ⟨hrunning, rfl⟩, rfl⟩
          obtain ⟨hnodup, hids⟩ := hcoherent f.sstr
          rw [hlast.2] at hnodup hids
          obtain ⟨found, hfound, hruns⟩ := (hids f.serverId).mp (List.mem_append_left _ hlisted)
          rw [hlast.1, hsame, Function.update_self, Option.some.injEq] at hfound
          rw [← hfound] at hruns
          rw [if_pos hruns, ← hsame] at hnodup
          exact (List.nodup_append.mp hnodup).2.2 _ hlisted _ List.mem_cons_self rfl
        refine ⟨ih.mp ?_, List.pairwise_singleton _ _, ?_⟩
        · -- without `last` the entries of the listed servers were the same
          intro suffix
          obtain ⟨hnodup, hids⟩ := hcoherent suffix
          rw [hlast.2] at hnodup hids
          refine ⟨(List.nodup_append.mp hnodup).1, ?_⟩
          intro id
          constructor
          · intro hlisted
            obtain ⟨f, hf, hruns, hid⟩ := hmem.mp hlisted
            obtain ⟨found, hfound, hruns'⟩ := (hids id).mp (List.mem_append_left _ hlisted)
            rw [hlast.1, Function.update_of_ne (hid ▸ hlater f hf hruns.1)] at hfound
            exact ⟨found, hfound, hruns'⟩
          · rintro ⟨f, hf, hruns⟩
            obtain ⟨hpast, hid⟩ := foldl_find hturn hfind hf
            exact hmem.mpr ⟨f, hpast, hruns, hid⟩
        · intro f hf g hg
          rw [List.mem_singleton.mp hg]
          exact hlater f hf
      · rintro ⟨hpast, -, hlater⟩
        apply (ih.mpr hpast).enter hlast
        intro old hold hrunning
        obtain ⟨hmem, hid⟩ := foldl_find hturn hfind hold
        exact hlater old hmem last List.mem_cons_self hrunning hid

end Bulk

/-! ## The steps -/

/-- The entries stand under their own ids. -/
def Keyed (client : DaemonClient) : Prop :=
  ∀ id fs, client.sid2FavorSV.find id = some fs → fs.serverId = id

/-- The notification leaves both tables coherent. -/
def Keeps (client : DaemonClient) : Event → Prop
  | .onServerAddSV fs => ∀ old, client.sid2FavorSV.find fs.serverId = some old →
      old.serverStatus = .RUNNING → old.sstr = fs.sstr
  | .onServerRegisteredSV fs _ => Once fs
  | .onGetServersSV favours ifSuccess => ifSuccess = true → Once favours
  | .startSV _ => ∀ old, client.sid2FavorSV.find DAEMON_SERVERID = some old →
      old.serverStatus ≠ .RUNNING
  | _ => True

theorem onServerAddSV_enters (client : DaemonClient) (fs : FavorStrSV) :
    (client.onServerAddSV fs).sid2FavorSV.find =
        Function.update client.sid2FavorSV.find fs.serverId (some fs) ∧
      ∀ suffix, (client.onServerAddSV fs).servers suffix =
        (if suffix = fs.sstr then (client.servers suffix).erase fs.serverId
          else client.servers suffix) ++ if RunsAs fs suffix then [fs.serverId] else [] := by
  obtain ⟨hcount, hcount'⟩ := client.countImrouter_frame fs
  have hservers : ∀ suffix, (client.countImrouter fs).servers suffix = client.servers suffix := by
    intro suffix
    rw [servers, hcount', servers]
  have hsuffixes : ∀ suffix, (((client.countImrouter fs).suffixMapDel
      fs.serverId fs.sstr).suffixMapAdd fs).servers suffix =
        (if suffix = fs.sstr then (client.servers suffix).erase fs.serverId
          else client.servers suffix) ++ if RunsAs fs suffix then [fs.serverId] else [] := by
    intro suffix
    rw [suffixMapAdd_servers, suffixMapDel_servers, hservers]
  have hsame : (((client.countImrouter fs).suffixMapDel
      fs.serverId fs.sstr).suffixMapAdd fs).sid2FavorSV = client.sid2FavorSV := by
    rw [suffixMapAdd_find, suffixMapDel_find, hcount]
  unfold onServerAddSV
  dsimp only
  split
  next hknown =>
    rw [hsame] at hknown ⊢
    exact ⟨by rw [← hknown, Function.update_eq_self], hsuffixes⟩
  next =>
    refine ⟨?_, hsuffixes⟩
    rw [OrderedMap.find_set, hsame]

/-- `PServerAddStrSV` leaves the tables coherent unless it changes the suffix of a
server that ran. -/
theorem onServerAddSV_coherent (hcoherent : Coherent client) :
    Coherent (client.onServerAddSV fs) ↔ ∀ old,
      client.sid2FavorSV.find fs.serverId = some old → old.serverStatus = .RUNNING →
        old.sstr = fs.sstr := by
  obtain ⟨hfind, hservers⟩ := client.onServerAddSV_enters fs
  constructor
  · intro hafter old hold hrunning
    by_contra hsuffix
    have hlisted : fs.serverId ∈ (client.onServerAddSV fs).servers old.sstr := by
      rw [hservers, if_neg hsuffix, List.mem_append]
      exact Or.inl (((hcoherent old.sstr).2 fs.serverId).mpr ⟨old, hold, hrunning, rfl⟩)
    obtain ⟨found, hfound, hruns⟩ := ((hafter old.sstr).2 fs.serverId).mp hlisted
    rw [hfind, Function.update_self, Option.some.injEq] at hfound
    exact hsuffix (hfound ▸ hruns.2.symm)
  · intro hold
    refine ((hcoherent.remove hold).enter (favour_enters _ fs) ?_).congr ?_ ?_
    · intro old hgone
      rw [OrderedMap.find_erase, Function.update_self] at hgone
      cases hgone
    · rw [hfind, (favour_enters _ fs).1, OrderedMap.find_erase, Function.update_idem]
    · intro suffix
      rw [hservers, (favour_enters _ fs).2, ← suffixMapDel_servers]
      rfl

theorem onServerRemoveSV_coherent (hcoherent : Coherent client) (hkeyed : Keyed client)
    (serverId : Nat) : Coherent (client.onServerRemoveSV serverId) := by
  unfold onServerRemoveSV
  split
  next fstr hfound =>
    obtain ⟨-, hdrop⟩ :=
      (client.suffixMapDel fstr.serverId fstr.sstr).dropImrouter_frame fstr
    have hold : ∀ old, client.sid2FavorSV.find serverId = some old →
        old.serverStatus = .RUNNING → old.sstr = fstr.sstr := by
      intro old hold _
      rw [hfound] at hold
      cases hold
      rfl
    refine (hcoherent.remove hold).congr ?_ ?_
    · change (OrderedMap.erase _ serverId).find = (OrderedMap.erase _ serverId).find
      rw [(dropImrouter_frame _ fstr).1, suffixMapDel_find]
    · intro suffix
      change Option.getD (Option.map _ (OrderedMap.find
        (dropImrouter _ fstr).mapSuffix2Srvs suffix)) [] = _
      rw [hdrop, hkeyed serverId fstr hfound]
      rfl
  next => exact hcoherent

theorem onServersStatusChangeSV_coherent (hcoherent : Coherent client) (hkeyed : Keyed client)
    (serverId : Nat) (name : String) (serverStatus : ServerStatus) :
    Coherent (client.onServersStatusChangeSV serverId name serverStatus) := by
  unfold onServersStatusChangeSV
  split
  next itr hfound =>
    have hid := hkeyed serverId itr hfound
    subst hid
    have hold : ∀ old, client.sid2FavorSV.find itr.serverId = some old →
        old.serverStatus = .RUNNING → old.sstr = itr.sstr := by
      intro old hold _
      rw [hfound] at hold
      cases hold
      rfl
    refine ((hcoherent.remove hold).enter
      (favour_enters _ { itr with serverStatus := serverStatus, sstr := name }) ?_).congr ?_ ?_
    · intro old hgone
      rw [OrderedMap.find_erase, Function.update_self] at hgone
      cases hgone
    · rw [(favour_enters _ _).1, OrderedMap.find_erase, Function.update_idem,
        suffixMapAdd_find, OrderedMap.find_set, suffixMapDel_find]
    · intro suffix
      rw [(favour_enters _ _).2, suffixMapAdd_servers]
      rfl
  next => exact hcoherent

/-- The entry of the daemon is written past the suffixes. -/
theorem startSV_coherent (hcoherent : Coherent client) (dip : Nat) :
    Coherent (client.startSV dip) ↔ ∀ old,
      client.sid2FavorSV.find DAEMON_SERVERID = some old → old.serverStatus ≠ .RUNNING := by
  constructor
  · intro hafter old hold hrunning
    have hlisted : DAEMON_SERVERID ∈ (client.startSV dip).servers old.sstr :=
      ((hcoherent old.sstr).2 DAEMON_SERVERID).mpr ⟨old, hold, hrunning, rfl⟩
    obtain ⟨found, hfound, hruns⟩ := ((hafter old.sstr).2 DAEMON_SERVERID).mp hlisted
    rw [startSV, OrderedMap.find_set, Function.update_self, Option.some.injEq] at hfound
    rw [← hfound] at hruns
    cases hruns.1
  · intro hold
    have henter : Enters (client.startSV dip) client (client.daemonFavor dip) := by
      refine ⟨OrderedMap.find_set _ _ _, ?_⟩
      intro suffix
      have hnot : ¬ RunsAs (client.daemonFavor dip) suffix := by
        rintro ⟨hrunning, -⟩
        cases hrunning
      rw [if_neg hnot, List.append_nil]
      rfl
    exact hcoherent.enter henter hold

theorem onGetServersSV_coherent (hcoherent : Coherent client) (favours : List FavorStrSV)
    (ifSuccess : Bool) :
    Coherent (client.onGetServersSV favours ifSuccess) ↔ (ifSuccess = true → Once favours) := by
  unfold onGetServersSV
  split
  next hsuccess =>
    rw [foldl_coherent favour_enters (fun _ => rfl) (fun _ => rfl)]
    exact ⟨fun honce _ => honce, fun honce => honce hsuccess⟩
  next hfailed => exact ⟨fun _ hsuccess => absurd hsuccess hfailed, fun _ => hcoherent⟩

theorem registered_enters (client : DaemonClient) (fs : FavorStrSV) :
    Enters ((client.favour fs).countImrouter fs) client fs := by
  obtain ⟨hfind, hservers⟩ := favour_enters client fs
  obtain ⟨hcount, hcount'⟩ := (client.favour fs).countImrouter_frame fs
  refine ⟨hcount ▸ hfind, ?_⟩
  intro suffix
  rw [servers, hcount']
  exact hservers suffix

theorem onServerRegisteredSV_coherent (client : DaemonClient) (fs : List FavorStrSV)
    (bRecover : Bool) : Coherent (client.onServerRegisteredSV fs bRecover) ↔ Once fs :=
  foldl_coherent registered_enters (fun _ => rfl) (fun _ => rfl)

theorem onRouteNotify_frame (client : DaemonClient) (mapGidServerIds : OrderedMap Nat Nat) :
    (client.onRouteNotify mapGidServerIds).sid2FavorSV = client.sid2FavorSV ∧
      (client.onRouteNotify mapGidServerIds).mapSuffix2Srvs = client.mapSuffix2Srvs := by
  unfold onRouteNotify
  induction mapGidServerIds.entries generalizing client with
  | nil => exact ⟨rfl, rfl⟩
  | cons it rest ih =>
      obtain ⟨hfavors, hsuffixes⟩ := ih (client.routeNotified it.1 it.2)
      have hturn : (client.routeNotified it.1 it.2).sid2FavorSV = client.sid2FavorSV ∧
          (client.routeNotified it.1 it.2).mapSuffix2Srvs = client.mapSuffix2Srvs := by
        unfold routeNotified
        split
        · exact ⟨rfl, rfl⟩
        · split <;> exact ⟨rfl, rfl⟩
      exact ⟨hfavors.trans hturn.1, hsuffixes.trans hturn.2⟩

theorem dispatchToServerRoundRobin_frame (client : DaemonClient) (strSuffix : String) :
    (client.dispatchToServerRoundRobin strSuffix).1.sid2FavorSV = client.sid2FavorSV ∧
      ∀ suffix, (client.dispatchToServerRoundRobin strSuffix).1.servers suffix =
        client.servers suffix := by
  unfold dispatchToServerRoundRobin
  split
  next info hfind =>
    split
    · exact ⟨rfl, fun _ => rfl⟩
    · refine ⟨rfl, fun suffix => ?_⟩
      rw [servers, OrderedMap.find_set, Function.update_apply]
      split
      next hsuffix =>
        rw [hsuffix, servers, hfind]
        rfl
      next => rfl
  next => exact ⟨rfl, fun _ => rfl⟩

/-- Every notification is handled. -/
theorem forall_next {good : DaemonClient → Prop} {result : DaemonClient} :
    (∀ next, some result = some next → good next) ↔ good result := by
  refine ⟨fun hall => hall result rfl, ?_⟩
  rintro hresult next hnext
  cases hnext
  exact hresult

/-- A notification keeps the tables coherent exactly when it meets `Keeps`. -/
theorem step_coherent (hcoherent : Coherent client) (hkeyed : Keyed client) (event : Event) :
    (∀ next, client.step event = some next → Coherent next) ↔ Keeps client event := by
  cases event with
  | onServerAddSV fs => exact forall_next.trans (onServerAddSV_coherent hcoherent)
  | onServerRemoveSV serverId =>
      exact forall_next.trans (iff_true_intro (onServerRemoveSV_coherent hcoherent hkeyed serverId))
  | onServersStatusChangeSV serverId name serverStatus =>
      exact forall_next.trans (iff_true_intro
        (onServersStatusChangeSV_coherent hcoherent hkeyed serverId name serverStatus))
  | onServerRegisteredSV fs bRecover =>
      exact forall_next.trans (client.onServerRegisteredSV_coherent fs bRecover)
  | onGetServersSV favours ifSuccess =>
      exact forall_next.trans (onGetServersSV_coherent hcoherent favours ifSuccess)
  | startSV dip => exact forall_next.trans (startSV_coherent hcoherent dip)
  | onRouteNotify mapGidServerIds =>
      obtain ⟨hfavors, hsuffixes⟩ := client.onRouteNotify_frame mapGidServerIds
      refine forall_next.trans (iff_true_intro (hcoherent.congr ?_ ?_))
      · rw [hfavors]
      · intro suffix
        rw [servers, hsuffixes, servers]
  | dispatchToServerRoundRobin strSuffix =>
      obtain ⟨hfavors, hservers⟩ := client.dispatchToServerRoundRobin_frame strSuffix
      exact forall_next.trans (iff_true_intro (hcoherent.congr (by rw [hfavors]) hservers))

theorem Keyed.enter (hkeyed : Keyed client) (fs : FavorStrSV)
    (hfind : next.sid2FavorSV.find =
      Function.update client.sid2FavorSV.find fs.serverId (some fs)) : Keyed next := by
  intro id found hfound
  rw [hfind, Function.update_apply] at hfound
  split at hfound
  next hsame =>
    cases hfound
    exact hsame.symm
  next => exact hkeyed id found hfound

theorem step_keyed (hkeyed : Keyed client) {event : Event}
    (hstep : client.step event = some next) : Keyed next := by
  cases event with
  | onServerAddSV fs =>
      cases hstep
      exact hkeyed.enter fs (client.onServerAddSV_enters fs).1
  | onServerRemoveSV serverId =>
      cases hstep
      unfold onServerRemoveSV
      split
      next fstr hfound =>
        intro id found hfind
        change (OrderedMap.erase _ serverId).find id = some found at hfind
        rw [OrderedMap.find_erase, (dropImrouter_frame _ fstr).1, suffixMapDel_find,
          Function.update_apply] at hfind
        split at hfind
        · cases hfind
        · exact hkeyed id found hfind
      next => exact hkeyed
  | onServersStatusChangeSV serverId name serverStatus =>
      cases hstep
      unfold onServersStatusChangeSV
      split
      next itr hfound =>
        have hid := hkeyed serverId itr hfound
        subst hid
        apply hkeyed.enter { itr with serverStatus := serverStatus, sstr := name }
        rw [suffixMapAdd_find, OrderedMap.find_set, suffixMapDel_find]
      next => exact hkeyed
  | onServerRegisteredSV fs bRecover =>
      cases hstep
      intro id found hfind
      exact (foldl_find registered_enters (fun _ => rfl) hfind).2
  | onGetServersSV favours ifSuccess =>
      cases hstep
      unfold onGetServersSV
      split
      · intro id found hfind
        exact (foldl_find favour_enters (fun _ => rfl) hfind).2
      · exact hkeyed
  | startSV dip =>
      cases hstep
      exact hkeyed.enter (client.daemonFavor dip) (OrderedMap.find_set _ _ _)
  | onRouteNotify mapGidServerIds =>
      cases hstep
      unfold Keyed
      rw [(client.onRouteNotify_frame mapGidServerIds).1]
      exact hkeyed
  | dispatchToServerRoundRobin strSuffix =>
      cases hstep
      unfold Keyed
      rw [(client.dispatchToServerRoundRobin_frame strSuffix).1]
      exact hkeyed

theorem new_coherent (serverGroupId : Option Nat) : Coherent (new serverGroupId) := by
  intro suffix
  exact ⟨List.nodup_nil, fun id => by simp [servers, new]⟩

/-- The tables are coherent throughout a run exactly when each of its notifications
meets `Keeps`. -/
theorem coherent_iff_keeps (serverGroupId : Option Nat) (events : List Event) :
    Throughout step Coherent (new serverGroupId) events ↔
      Along step Keeps (new serverGroupId) events := by
  have hinv : ∀ client event next, Coherent client ∧ Keyed client → Keeps client event →
      step client event = some next → Coherent next ∧ Keyed next := by
    rintro client event next ⟨hcoherent, hkeyed⟩ hkeeps hstep
    exact ⟨(step_coherent hcoherent hkeyed event).mpr hkeeps next hstep,
      step_keyed hkeyed hstep⟩
  have hexact : ∀ client event, Coherent client ∧ Keyed client →
      ((∀ next, step client event = some next → Coherent next) ↔ Keeps client event) :=
    fun client event hstate => step_coherent hstate.1 hstate.2 event
  have hnew : Keyed (new serverGroupId) := by
    intro id fs hfind
    cases hfind
  exact throughout_iff_along (fun client => Coherent client ∧ Keyed client) hinv
    (fun client hstate => hstate.1) hexact ⟨new_coherent serverGroupId, hnew⟩ events

/-- A server that is added again with another suffix. -/
def readded : List Event :=
  [.onServerAddSV ⟨"online", 1, 2, 3, 7, 1, .RUNNING⟩,
    .onServerAddSV ⟨"router", 1, 2, 3, 7, 1, .RUNNING⟩]

/-- It stays in the list of the first suffix. -/
theorem readded_stale : ¬ Throughout step Coherent (new none) readded := by
  rintro ⟨-, hlater⟩
  obtain ⟨-, hlast⟩ := hlater _ rfl
  have hcoherent : Coherent _ := hlast _ rfl
  obtain ⟨found, hfound, -, hsuffix⟩ := ((hcoherent "online").2 7).mp (by decide +kernel)
  have hentry : ((new none).onServerAddSV ⟨"online", 1, 2, 3, 7, 1, .RUNNING⟩
      |>.onServerAddSV ⟨"router", 1, 2, 3, 7, 1, .RUNNING⟩).sid2FavorSV.find 7 =
        some ⟨"router", 1, 2, 3, 7, 1, .RUNNING⟩ := by
    decide +kernel
  rw [hentry, Option.some.injEq] at hfound
  subst hfound
  revert hsuffix
  decide

end DaemonClient

end ServiceFrame
