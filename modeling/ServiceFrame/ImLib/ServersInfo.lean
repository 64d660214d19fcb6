import ServiceFrame.ImLib.DoubleRoute

/-! # The servers by name and net type

`CImServersInfo` of `service/imlib/ImServersInfo.cpp` watches the daemon client and keeps, of the
running servers that have an address, the name and the net type. Sessions and linkds are left out.
-/

namespace ServiceFrame

open Foundation

def SUFFIX_SESSION : String := "se"

def SUFFIX_LINKD : String := "_lk"

structure CIMServer where
  m_sstr : String
  m_serverId : UInt32
  m_netType : UInt32
deriving DecidableEq

/-- `CIMServer()`. -/
def CIMServer.new : CIMServer := ⟨"", 0xFFFFFFFF, 0xFFFFFFFF⟩

structure CImServersContainer where
  m_mapServers : OrderedMap UInt32 CIMServer

namespace CImServersContainer

def empty : CImServersContainer := ⟨.empty⟩

/-- `insert` leaves an entry that there is. -/
def addServer (container : CImServersContainer) (srv : CIMServer) : CImServersContainer :=
  ⟨container.m_mapServers.insert srv.m_serverId srv⟩

def removeServer (container : CImServersContainer) (srvId : UInt32) : CImServersContainer :=
  ⟨container.m_mapServers.erase srvId⟩

/-- The ids of the servers that a query is for. -/
def getServers (container : CImServersContainer) (wanted : CIMServer → Bool) : List UInt32 :=
  (container.m_mapServers.entries.filter fun entry => wanted entry.2).map Prod.fst

def getServersByName (container : CImServersContainer) (name : String) : List UInt32 :=
  container.getServers fun srv => srv.m_sstr = name

def getServersByNameType (container : CImServersContainer) (name : String) (type : UInt32) :
    List UInt32 :=
  container.getServers fun srv => srv.m_netType = type ∧ srv.m_sstr = name

/-- Servers of both lines count for each net type. -/
def getServersByNameTypeEx (container : CImServersContainer) (name : String) (type : UInt32) :
    List UInt32 :=
  let multiLineType := CNC ||| CTL
  container.getServers fun srv =>
    (srv.m_netType = type ∨ srv.m_netType = multiLineType) ∧ srv.m_sstr = name

def getServerByID (container : CImServersContainer) (serverID : UInt32) : CIMServer :=
  (container.m_mapServers.find serverID).getD .new

theorem mem_getServers {container : CImServersContainer} {wanted : CIMServer → Bool}
    {id : UInt32} :
    id ∈ container.getServers wanted ↔
      ∃ srv, container.m_mapServers.find id = some srv ∧ wanted srv = true := by
  rw [getServers, List.mem_map]
  constructor
  · rintro ⟨entry, hentry, rfl⟩
    obtain ⟨hmem, hwanted⟩ := List.mem_filter.mp hentry
    exact ⟨entry.2, OrderedMap.mem_entries.mp hmem, hwanted⟩
  · rintro ⟨srv, hfind, hwanted⟩
    exact ⟨(id, srv), List.mem_filter.mpr ⟨OrderedMap.mem_entries.mpr hfind, hwanted⟩, rfl⟩

theorem mem_getServersByNameTypeEx {container : CImServersContainer} {name : String}
    {type id : UInt32} :
    id ∈ container.getServersByNameTypeEx name type ↔
      ∃ srv, container.m_mapServers.find id = some srv ∧
        (srv.m_netType = type ∨ srv.m_netType = CNC ||| CTL) ∧ srv.m_sstr = name := by
  rw [getServersByNameTypeEx]
  rw [mem_getServers]
  simp only [decide_eq_true_eq]

/-- What is there stays. -/
theorem find_addServer (container : CImServersContainer) (srv : CIMServer) :
    (container.addServer srv).m_mapServers.find = Function.update container.m_mapServers.find
      srv.m_serverId (some ((container.m_mapServers.find srv.m_serverId).getD srv)) :=
  OrderedMap.find_insert ..

end CImServersContainer

/-- `random_shuffle`, then `front()`: any of the ids, or `-1` when there is none. -/
def randomFront (pick : Nat) (vecIds : List UInt32) : UInt32 :=
  (vecIds[pick % vecIds.length]?).getD 0xFFFFFFFF

theorem randomFront_mem {vecIds : List UInt32} (hne : vecIds ≠ []) (pick : Nat) :
    randomFront pick vecIds ∈ vecIds := by
  have hlt := Nat.mod_lt pick (List.length_pos_iff.mpr hne)
  rw [randomFront, List.getElem?_eq_getElem hlt, Option.getD_some]
  exact List.getElem_mem hlt

structure CImServersInfo where
  m_srvContainer : CImServersContainer

namespace CImServersInfo

open DaemonClient (Tabled)

def new : CImServersInfo := ⟨.empty⟩

def randomServerIDByName (info : CImServersInfo) (pick : Nat) (name : String) : UInt32 :=
  randomFront pick (info.m_srvContainer.getServersByName name)

def randomServerIDByNameType (info : CImServersInfo) (pick : Nat) (name : String)
    (type : UInt32) : UInt32 :=
  randomFront pick (info.m_srvContainer.getServersByNameType name type)

def randomServerIDByNameTypeEx (info : CImServersInfo) (pick : Nat) (name : String)
    (type : UInt32) : UInt32 :=
  randomFront pick (info.m_srvContainer.getServersByNameTypeEx name type)

def getNetTypeByID (info : CImServersInfo) (serverID : UInt32) : UInt32 :=
  (info.m_srvContainer.getServerByID serverID).m_netType

/-! ## The handlers -/

def onAddSV (info : CImServersInfo) (fs : FavorStrSV) : CImServersInfo :=
  let type := getNetType fs
  if type = 0xFFFFFFFF then info
  else if fs.serverStatus = .RUNNING ∧ fs.sstr ≠ SUFFIX_SESSION ∧ fs.sstr ≠ SUFFIX_LINKD then
    ⟨info.m_srvContainer.addServer ⟨fs.sstr, fs.sid, type⟩⟩
  else info

def onServerRemovedSV (info : CImServersInfo) (fs : FavorStrSV) : CImServersInfo :=
  ⟨info.m_srvContainer.removeServer fs.sid⟩

def onRefreshSV (client : DaemonClient) : CImServersInfo :=
  client.getServersSV.foldl onAddSV ⟨.empty⟩

/-- The handlers. A change of status is handled as an addition. -/
def on (client : DaemonClient) (info : CImServersInfo) : WatcherCall → CImServersInfo
  | .onAddSV fs => info.onAddSV fs
  | .onServerStatusChangeSV fs => info.onAddSV fs
  | .onServerRemovedSV fs => info.onServerRemovedSV fs
  | .onRefreshSV => onRefreshSV client
  | .onRecoverRefreshSV => onRefreshSV client

/-! ## What is to be held -/

/-- The entry of a server, if it runs, has an address, and is no session or linkd. -/
def entryOf (fs : FavorStrSV) : Option CIMServer :=
  if getNetType fs ≠ 0xFFFFFFFF ∧ fs.serverStatus = .RUNNING ∧ fs.sstr ≠ SUFFIX_SESSION ∧
      fs.sstr ≠ SUFFIX_LINKD then
    some ⟨fs.sstr, fs.sid, getNetType fs⟩
  else none

/-- The container has the entries of the servers that the client knows, and no others. -/
def Mirrors (client : DaemonClient) (info : CImServersInfo) : Prop :=
  ∀ id, info.m_srvContainer.m_mapServers.find id = (client.known id).bind entryOf

/-- What the queries answer runs, under the name and with the net type. -/
structure Truthful (client : DaemonClient) (info : CImServersInfo) : Prop where
  byName : ∀ name, ∀ id ∈ info.m_srvContainer.getServersByName name,
    ∃ fs, client.known id = some fs ∧ DaemonClient.RunsAs fs name
  byNameType : ∀ name type, ∀ id ∈ info.m_srvContainer.getServersByNameType name type,
    ∃ fs, client.known id = some fs ∧ DaemonClient.RunsAs fs name ∧ getNetType fs = type
  byNameTypeEx : ∀ name type, ∀ id ∈ info.m_srvContainer.getServersByNameTypeEx name type,
    ∃ fs, client.known id = some fs ∧ DaemonClient.RunsAs fs name ∧
      (getNetType fs = type ∨ getNetType fs = CNC ||| CTL)

/-- A server that is added, or whose status changes, is not in the container, or belongs there
with the same name and net type. -/
def KeepsCall (client : DaemonClient) : Option WatcherCall → Prop
  | some (.onAddSV fs) | some (.onServerStatusChangeSV fs) =>
      ∀ srv, (client.known fs.sid).bind entryOf = some srv → entryOf fs = some srv
  | _ => True

def Keeps (st : Watched CImServersInfo) (message : DaemonNotice) : Prop :=
  KeepsCall st.client (st.client.notice message).2

/-! ## What the handlers do -/

variable {client next : DaemonClient} {info : CImServersInfo} {fs : FavorStrSV} {srv : CIMServer}
  {id : UInt32}

theorem entryOf_some (hentry : entryOf fs = some srv) :
    srv = ⟨fs.sstr, fs.sid, getNetType fs⟩ ∧ fs.serverStatus = .RUNNING := by
  unfold entryOf at hentry
  split at hentry
  next hheld =>
    cases hentry
    exact ⟨rfl, hheld.2.1⟩
  next => cases hentry

theorem onAddSV_eq (info : CImServersInfo) (fs : FavorStrSV) :
    info.onAddSV fs = match entryOf fs with
      | some srv => ⟨info.m_srvContainer.addServer srv⟩
      | none => info := by
  unfold onAddSV entryOf
  by_cases htype : getNetType fs = 0xFFFFFFFF
  · simp [htype]
  · by_cases hruns : fs.serverStatus = .RUNNING ∧ fs.sstr ≠ SUFFIX_SESSION ∧ fs.sstr ≠ SUFFIX_LINKD
    · simp [htype, hruns]
    · simp [htype, hruns]

/-- An addition puts in the entry of a server that has none. -/
theorem find_onAddSV (info : CImServersInfo) (fs : FavorStrSV) (id : UInt32) :
    (info.onAddSV fs).m_srvContainer.m_mapServers.find id =
      if id = fs.sid then
        (info.m_srvContainer.m_mapServers.find id).or (entryOf fs)
      else info.m_srvContainer.m_mapServers.find id := by
  rw [onAddSV_eq]
  cases hentry : entryOf fs with
  | none => simp
  | some srv =>
      obtain ⟨rfl, -⟩ := entryOf_some hentry
      dsimp only
      rw [CImServersContainer.find_addServer, Function.update_apply]
      dsimp only
      split
      next hid =>
        subst hid
        cases info.m_srvContainer.m_mapServers.find fs.sid <;> rfl
      next => rfl

/-- Of servers with different ids each is added under its own. -/
theorem find_foldl_onAddSV {servers : List FavorStrSV}
    (hdistinct : servers.Pairwise fun fs other => fs.sid ≠ other.sid)
    (hfresh : ∀ fs ∈ servers, info.m_srvContainer.m_mapServers.find fs.sid = none) :
    (servers.foldl onAddSV info).m_srvContainer.m_mapServers.find id = some srv ↔
      info.m_srvContainer.m_mapServers.find id = some srv ∨
        ∃ fs ∈ servers, fs.sid = id ∧ entryOf fs = some srv := by
  induction servers generalizing info with
  | nil => simp
  | cons fs rest ih =>
      obtain ⟨hfirst, hrest⟩ := List.pairwise_cons.mp hdistinct
      rw [List.foldl_cons, ih hrest, find_onAddSV]
      · simp only [List.exists_mem_cons_iff]
        rw [← or_assoc]
        apply or_congr_left
        split
        next hid =>
          rw [hid, hfresh fs List.mem_cons_self]
          simp
        next hid => simp [Ne.symm hid]
      · intro other hother
        rw [find_onAddSV, if_neg (hfirst other hother).symm]
        exact hfresh other (List.mem_cons_of_mem fs hother)

/-- A refresh makes the container anew. -/
theorem mirrors_refresh (htabled : Tabled client) : Mirrors client (onRefreshSV client) := by
  intro id
  refine Option.ext fun srv => ?_
  rw [onRefreshSV, find_foldl_onAddSV htabled.getServersSV_sids fun fs _ => rfl,
    Option.bind_eq_some_iff]
  constructor
  · rintro (hempty | ⟨fs, hmem, rfl, hentry⟩)
    · cases hempty
    · exact ⟨fs, htabled.mem_getServersSV.mp hmem, hentry⟩
  · rintro ⟨fs, hknown, hentry⟩
    have hid := htabled.known_sid hknown
    exact .inr ⟨fs, htabled.mem_getServersSV.mpr (hid ▸ hknown), hid, hentry⟩

/-- Whatever entry there is under the id of a new server stays. -/
theorem mirrors_add_iff (hmirrors : Mirrors client info)
    (hknown : next.known = Function.update client.known fs.sid (some fs)) :
    Mirrors next (info.onAddSV fs) ↔
      ∀ srv, (client.known fs.sid).bind entryOf = some srv → entryOf fs = some srv := by
  have hself : (info.onAddSV fs).m_srvContainer.m_mapServers.find fs.sid =
      ((client.known fs.sid).bind entryOf).or (entryOf fs) := by
    rw [find_onAddSV, if_pos rfl, hmirrors]
  constructor
  · intro hall srv hold
    have hsid := hall fs.sid
    rw [hself, hknown, Function.update_self, hold] at hsid
    exact hsid.symm
  · intro hkeeps id
    rw [hknown, Function.update_apply]
    split
    next hid =>
      rw [hid, hself]
      cases hold : (client.known fs.sid).bind entryOf with
      | none => rfl
      | some srv => exact (hkeeps srv hold).symm
    next hid => rw [find_onAddSV, if_neg hid, hmirrors]

theorem mirrors_removed (hmirrors : Mirrors client info)
    (hknown : next.known = Function.update client.known fs.sid none) :
    Mirrors next (info.onServerRemovedSV fs) := by
  intro id
  rw [hknown, Function.update_apply, onServerRemovedSV, CImServersContainer.removeServer,
    OrderedMap.find_erase, Function.update_apply]
  split
  next => rfl
  next => exact hmirrors id

theorem Mirrors.truthful (hmirrors : Mirrors client info) : Truthful client info := by
  have hheld : ∀ {id srv}, info.m_srvContainer.m_mapServers.find id = some srv →
      ∃ fs, client.known id = some fs ∧ DaemonClient.RunsAs fs srv.m_sstr ∧
        getNetType fs = srv.m_netType := by
    intro id srv hfind
    rw [hmirrors, Option.bind_eq_some_iff] at hfind
    obtain ⟨fs, hknown, hentry⟩ := hfind
    obtain ⟨rfl, hruns⟩ := entryOf_some hentry
    exact ⟨fs, hknown, ⟨hruns, rfl⟩, rfl⟩
  refine ⟨fun name id hid => ?_, fun name type id hid => ?_, fun name type id hid => ?_⟩
  · obtain ⟨srv, hfind, hname⟩ := CImServersContainer.mem_getServers.mp hid
    obtain ⟨fs, hknown, hruns, -⟩ := hheld hfind
    have hname : srv.m_sstr = name := by simpa using hname
    exact ⟨fs, hknown, hname ▸ hruns⟩
  · obtain ⟨srv, hfind, hwanted⟩ := CImServersContainer.mem_getServers.mp hid
    obtain ⟨fs, hknown, hruns, htype⟩ := hheld hfind
    obtain ⟨hsame, hname⟩ : srv.m_netType = type ∧ srv.m_sstr = name := by simpa using hwanted
    exact ⟨fs, hknown, hname ▸ hruns, htype.trans hsame⟩
  · obtain ⟨srv, hfind, hsame, hname⟩ := CImServersContainer.mem_getServersByNameTypeEx.mp hid
    obtain ⟨fs, hknown, hruns, htype⟩ := hheld hfind
    exact ⟨fs, hknown, hname ▸ hruns, hsame.imp htype.trans htype.trans⟩

/-! ## Runs -/

theorem mirrors_step_iff {st after : Watched CImServersInfo} {message : DaemonNotice}
    (htabled : Tabled st.client) (hmirrors : Mirrors st.client st.watcher)
    (hstep : Watched.step on st message = some after) :
    Mirrors after.client after.watcher ↔ Keeps st message := by
  obtain ⟨client, call, hnotice, rfl, htabled, hnoticed⟩ := Watched.step_spec htabled hstep
  rw [Keeps, hnotice]
  dsimp only [Watched.told]
  cases hnoticed with
  | quiet hknown =>
      refine iff_of_true (fun id => ?_) trivial
      rw [hknown]
      exact hmirrors id
  | enters hwire hcall hknown =>
      rcases hcall with rfl | rfl
      · exact mirrors_add_iff hmirrors hknown
      · exact mirrors_add_iff hmirrors hknown
  | leaves hold hknown => exact iff_of_true (mirrors_removed hmirrors hknown) trivial
  | refreshed hcall =>
      rcases hcall with rfl | rfl
      · exact iff_of_true (mirrors_refresh htabled) trivial
      · exact iff_of_true (mirrors_refresh htabled) trivial

/-- The client and the watcher when the connection to the daemon starts. -/
def start (serverGroupId : Option Nat) : Watched CImServersInfo := ⟨.new serverGroupId, new⟩

/-- The container mirrors the daemon's list, and no query answers a server that is down, gone, or
of another name or network, exactly in the runs whose messages all keep the entries. -/
theorem mirrors_throughout_iff (serverGroupId : Option Nat) (messages : List DaemonNotice) :
    Throughout (Watched.step on)
        (fun st => Mirrors st.client st.watcher ∧ Truthful st.client st.watcher)
        (start serverGroupId) messages ↔
      Along (Watched.step on) Keeps (start serverGroupId) messages := by
  apply throughout_iff_along fun st => Tabled st.client ∧ Mirrors st.client st.watcher
  · rintro st message next ⟨htabled, hmirrors⟩ hkeeps hstep
    have hmirrors' := (mirrors_step_iff htabled hmirrors hstep).mpr hkeeps
    cases hstep
    exact ⟨(DaemonClient.notice_spec htabled message).1, hmirrors'⟩
  · rintro st ⟨htabled, hmirrors⟩
    exact ⟨hmirrors, hmirrors.truthful⟩
  · rintro st message ⟨htabled, hmirrors⟩
    constructor
    · exact fun hall => (mirrors_step_iff htabled hmirrors rfl).mp (hall _ rfl).1
    · intro hkeeps next hstep
      have hmirrors' := (mirrors_step_iff htabled hmirrors hstep).mpr hkeeps
      exact ⟨hmirrors', hmirrors'.truthful⟩
  · exact ⟨DaemonClient.tabled_new serverGroupId, fun id => rfl⟩

/-- A server that stops running is answered still. -/
theorem stopped_server_answered :
    ∃ final, run (Watched.step on) (start none)
        [.onServerAddSV CDRouteServer.ctlServer,
          .onServersStatusChangeSV 5 "imct2" .READY] = some final ∧
      final.watcher.m_srvContainer.getServersByNameType "imct2" CTL = [5] ∧
      (final.client.known 5).map FavorStrSV.serverStatus = some .READY := by
  refine ⟨_, rfl, ?_, ?_⟩
  · decide +kernel
  · rfl

end CImServersInfo

end ServiceFrame
