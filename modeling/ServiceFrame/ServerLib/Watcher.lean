import ServiceFrame.ServerLib.DaemonRoutes

/-! # The watchers of a daemon client

What a `DaemonClient` tells an `IClientWatcher` when a message of the daemon comes. The watcher is
called when the table of the servers is up to date already, and can look into it. Left out is the
entry of the daemon itself, which `startSV` makes and which never runs.
-/

namespace ServiceFrame

open Foundation

namespace FavorStrSV

/-- On the wire, the numbers of a server are `uint32_t`. -/
structure OnWire (fs : FavorStrSV) : Prop where
  dip : fs.dip < 2 ^ 32
  wip : fs.wip < 2 ^ 32
  serverId : fs.serverId < 2 ^ 32
  groupId : fs.groupId < 2 ^ 32

def sid (fs : FavorStrSV) : UInt32 := UInt32.ofNat fs.serverId

def group (fs : FavorStrSV) : UInt32 := UInt32.ofNat fs.groupId

theorem toNat_sid {fs : FavorStrSV} (hwire : fs.OnWire) : fs.sid.toNat = fs.serverId :=
  UInt32.toNat_ofNat_of_lt' hwire.serverId

end FavorStrSV

/-- A server that came off the wire. -/
abbrev WireSV := { fs : FavorStrSV // fs.OnWire }

/-- The messages of the daemon about servers. -/
inductive DaemonNotice where
  | onServerAddSV (fs : WireSV)
  | onServerRemoveSV (serverId : UInt32)
  | onServersStatusChangeSV (serverId : UInt32) (name : String) (serverStatus : ServerStatus)
  | onServerRegisteredSV (fs : List WireSV) (bRecover : Bool)
  | onGetServersSV (favours : List WireSV) (ifSuccess : Bool)

/-- The calls of an `IClientWatcher`. -/
inductive WatcherCall where
  | onAddSV (fs : FavorStrSV)
  | onServerRemovedSV (fs : FavorStrSV)
  | onServerStatusChangeSV (fs : FavorStrSV)
  | onRefreshSV
  | onRecoverRefreshSV

namespace DaemonClient

/-- A message comes: the client after it, and the call that the watchers get, if they get one. -/
def notice (client : DaemonClient) : DaemonNotice → DaemonClient × Option WatcherCall
  | .onServerAddSV fs =>
      (client.onServerAddSV fs.1,
        if client.sid2FavorSV.find fs.1.serverId = some fs.1 then none else some (.onAddSV fs.1))
  | .onServerRemoveSV serverId =>
      (client.onServerRemoveSV serverId.toNat,
        (client.sid2FavorSV.find serverId.toNat).map .onServerRemovedSV)
  | .onServersStatusChangeSV serverId name serverStatus =>
      (client.onServersStatusChangeSV serverId.toNat name serverStatus,
        (client.sid2FavorSV.find serverId.toNat).map fun itr =>
          .onServerStatusChangeSV { itr with serverStatus := serverStatus, sstr := name })
  | .onServerRegisteredSV fs bRecover =>
      (client.onServerRegisteredSV (fs.map Subtype.val) bRecover,
        some (if bRecover then .onRecoverRefreshSV else .onRefreshSV))
  | .onGetServersSV favours ifSuccess =>
      (client.onGetServersSV (favours.map Subtype.val) ifSuccess,
        if ifSuccess then some .onRefreshSV else none)

def getServersSV (client : DaemonClient) : List FavorStrSV :=
  client.sid2FavorSV.entries.map Prod.snd

def getServersByNameSV (client : DaemonClient) (name : String) : List FavorStrSV :=
  client.getServersSV.filter fun fs => name = fs.sstr

/-- The server that the client knows under an id. -/
def known (client : DaemonClient) (id : UInt32) : Option FavorStrSV :=
  client.sid2FavorSV.find id.toNat

/-! ## The table -/

/-- Each server stands under its own id, and came off the wire. -/
def Tabled (client : DaemonClient) : Prop :=
  ∀ id fs, client.sid2FavorSV.find id = some fs → fs.serverId = id ∧ fs.OnWire

variable {client next : DaemonClient} {fs : FavorStrSV}

theorem tabled_new (serverGroupId : Option Nat) : Tabled (new serverGroupId) :=
  fun _ _ hfind => by cases hfind

theorem Tabled.set (htabled : Tabled client) (hwire : fs.OnWire)
    (hset : next.sid2FavorSV = client.sid2FavorSV.set fs.serverId fs) : Tabled next := by
  intro id other hfind
  rw [hset] at hfind
  by_cases hid : id = fs.serverId
  · rw [hid, OrderedMap.find_set_self] at hfind
    cases hfind
    exact ⟨hid.symm, hwire⟩
  · rw [OrderedMap.find_set_of_ne _ hid] at hfind
    exact htabled id other hfind

theorem Tabled.erase (htabled : Tabled client) {id : Nat}
    (herase : next.sid2FavorSV = client.sid2FavorSV.erase id) : Tabled next := by
  intro other fs hfind
  rw [herase] at hfind
  by_cases hother : other = id
  · rw [hother, OrderedMap.find_erase_self] at hfind
    cases hfind
  · rw [OrderedMap.find_erase_of_ne _ hother] at hfind
    exact htabled other fs hfind

theorem tabled_listed {favours : List WireSV}
    (hlisted : client.sid2FavorSV = listed (favours.map Subtype.val)) : Tabled client := by
  induction favours using List.reverseRecOn generalizing client with
  | nil =>
      intro id fs hfind
      rw [hlisted] at hfind
      cases hfind
  | append_singleton past last ih =>
      have htable : listed ((past ++ [last]).map Subtype.val) =
          (listed (past.map Subtype.val)).set last.1.serverId last.1 := by
        rw [listed, listed, List.map_append, List.foldl_append]
        rfl
      have hpast : Tabled { client with sid2FavorSV := listed (past.map Subtype.val) } := ih rfl
      exact hpast.set last.2 (hlisted.trans htable)

theorem Tabled.known_sid (htabled : Tabled client) {id : UInt32}
    (hknown : client.known id = some fs) : fs.sid = id := by
  rw [FavorStrSV.sid, (htabled _ _ hknown).1, UInt32.ofNat_toNat]

/-- The servers are those that are known under their ids. -/
theorem Tabled.mem_getServersSV (htabled : Tabled client) :
    fs ∈ client.getServersSV ↔ client.known fs.sid = some fs := by
  constructor
  · intro hmem
    obtain ⟨entry, hentry, rfl⟩ := List.mem_map.mp hmem
    have hfind := OrderedMap.mem_entries.mp hentry
    obtain ⟨hid, hwire⟩ := htabled _ _ hfind
    rw [known, FavorStrSV.toNat_sid hwire, hid]
    exact hfind
  · intro hknown
    exact List.mem_map.mpr ⟨_, OrderedMap.mem_entries.mpr hknown, rfl⟩

/-- No two of the servers have an id in common. -/
theorem Tabled.getServersSV_sids (htabled : Tabled client) :
    client.getServersSV.Pairwise fun fs other => fs.sid ≠ other.sid := by
  refine List.pairwise_map.mpr (client.sid2FavorSV.sorted.imp_of_mem ?_)
  intro entry other hentry hother hless hsame
  obtain ⟨hid, hwire⟩ := htabled _ _ (OrderedMap.mem_entries.mp hentry)
  obtain ⟨hid', hwire'⟩ := htabled _ _ (OrderedMap.mem_entries.mp hother)
  have hnat := congrArg UInt32.toNat hsame
  rw [FavorStrSV.toNat_sid hwire, FavorStrSV.toNat_sid hwire', hid, hid'] at hnat
  exact hless.ne hnat

theorem known_set (hwire : fs.OnWire)
    (hset : next.sid2FavorSV = client.sid2FavorSV.set fs.serverId fs) :
    next.known = Function.update client.known fs.sid (some fs) := by
  funext id
  rw [known, hset, Function.update_apply]
  split
  next hid => rw [hid, FavorStrSV.toNat_sid hwire, OrderedMap.find_set_self]
  next hid =>
    apply OrderedMap.find_set_of_ne
    intro hsame
    apply hid
    rw [FavorStrSV.sid, ← hsame, UInt32.ofNat_toNat]

theorem known_erase {id : UInt32}
    (herase : next.sid2FavorSV = client.sid2FavorSV.erase id.toNat) :
    next.known = Function.update client.known id none := by
  funext other
  rw [known, herase, Function.update_apply]
  split
  next hid => rw [hid, OrderedMap.find_erase_self]
  next hid =>
    exact OrderedMap.find_erase_of_ne _ fun hsame => hid (UInt32.toNat_inj.mp hsame)

/-- The server is in the table. -/
def Knows (client : DaemonClient) (fs : FavorStrSV) : Prop := client.known fs.sid = some fs

theorem Knows.unique {other : FavorStrSV} (hfs : client.Knows fs) (hother : client.Knows other)
    (hsid : fs.sid = other.sid) : fs = other := by
  unfold Knows at hfs hother
  rw [hsid, hother] at hfs
  exact (Option.some_inj.mp hfs).symm

theorem knows_quiet (hknown : next.known = client.known) : next.Knows = client.Knows := by
  funext fs
  rw [Knows, hknown]
  rfl

theorem knows_enter (hknown : next.known = Function.update client.known fs.sid (some fs))
    (other : FavorStrSV) :
    next.Knows other ↔ other = fs ∨ (other.sid ≠ fs.sid ∧ client.Knows other) := by
  unfold Knows
  rw [hknown, Function.update_apply]
  split
  next hsid =>
    rw [Option.some_inj]
    constructor
    · exact fun hsame => Or.inl hsame.symm
    · rintro (hsame | hother)
      · exact hsame.symm
      · exact absurd hsid hother.1
  next hsid =>
    constructor
    · exact fun hother => Or.inr ⟨hsid, hother⟩
    · rintro (rfl | hother)
      · exact absurd rfl hsid
      · exact hother.2

theorem knows_leave (hknown : next.known = Function.update client.known fs.sid none)
    (other : FavorStrSV) : next.Knows other ↔ other.sid ≠ fs.sid ∧ client.Knows other := by
  unfold Knows
  rw [hknown, Function.update_apply]
  split
  next hsid => exact iff_of_false (fun hnone => by cases hnone) fun hother => hother.1 hsid
  next hsid => exact (and_iff_right hsid).symm

theorem Tabled.mem_getServersByNameSV (htabled : Tabled client) {name : String} :
    fs ∈ client.getServersByNameSV name ↔ client.Knows fs ∧ fs.sstr = name := by
  rw [getServersByNameSV, List.mem_filter, htabled.mem_getServersSV, decide_eq_true_eq,
    eq_comm (a := name)]
  exact Iff.rfl

theorem not_knows_new (serverGroupId : Option Nat) : ¬ (new serverGroupId).Knows fs :=
  fun hknown => by cases hknown

/-- What a message does to the table, and which call it makes. -/
inductive Noticed (client next : DaemonClient) : Option WatcherCall → Prop where
  | quiet (hknown : next.known = client.known) : Noticed client next none
  | enters {fs : FavorStrSV} {call : WatcherCall} (hwire : fs.OnWire)
      (hcall : call = .onAddSV fs ∨ call = .onServerStatusChangeSV fs)
      (hknown : next.known = Function.update client.known fs.sid (some fs)) :
      Noticed client next (some call)
  | leaves {fs : FavorStrSV} (hold : client.known fs.sid = some fs)
      (hknown : next.known = Function.update client.known fs.sid none) :
      Noticed client next (some (.onServerRemovedSV fs))
  | refreshed {call : WatcherCall} (hcall : call = .onRefreshSV ∨ call = .onRecoverRefreshSV) :
      Noticed client next (some call)

theorem notice_add (htabled : Tabled client) (fs : WireSV) :
    Tabled (client.notice (.onServerAddSV fs)).1 ∧
      Noticed client (client.notice (.onServerAddSV fs)).1
        (client.notice (.onServerAddSV fs)).2 := by
  have hset := (client.onServerAddSV_counts fs.1).1
  have hknown := known_set fs.2 hset
  refine ⟨htabled.set fs.2 hset, ?_⟩
  unfold notice
  dsimp only
  split
  next hsame =>
    apply Noticed.quiet
    rw [hknown, Function.update_eq_self_iff, known, FavorStrSV.toNat_sid fs.2, hsame]
  next => exact Noticed.enters fs.2 (Or.inl rfl) hknown

theorem notice_remove (htabled : Tabled client) (serverId : UInt32) :
    Tabled (client.notice (.onServerRemoveSV serverId)).1 ∧
      Noticed client (client.notice (.onServerRemoveSV serverId)).1
        (client.notice (.onServerRemoveSV serverId)).2 := by
  unfold notice
  dsimp only
  cases hfind : client.sid2FavorSV.find serverId.toNat with
  | none =>
      have hsame : client.onServerRemoveSV serverId.toNat = client := by
        rw [onServerRemoveSV, hfind]
      rw [hsame]
      exact ⟨htabled, Noticed.quiet rfl⟩
  | some fs =>
      have herase := (onServerRemoveSV_counts hfind).1
      obtain rfl : fs.sid = serverId := htabled.known_sid hfind
      exact ⟨htabled.erase herase, Noticed.leaves hfind (known_erase herase)⟩

theorem notice_statusChange (htabled : Tabled client) (serverId : UInt32) (name : String)
    (serverStatus : ServerStatus) :
    Tabled (client.notice (.onServersStatusChangeSV serverId name serverStatus)).1 ∧
      Noticed client (client.notice (.onServersStatusChangeSV serverId name serverStatus)).1
        (client.notice (.onServersStatusChangeSV serverId name serverStatus)).2 := by
  unfold notice
  dsimp only
  cases hfind : client.sid2FavorSV.find serverId.toNat with
  | none =>
      have hsame : client.onServersStatusChangeSV serverId.toNat name serverStatus = client := by
        rw [onServersStatusChangeSV, hfind]
      rw [hsame]
      exact ⟨htabled, Noticed.quiet rfl⟩
  | some fs =>
      obtain ⟨hid, hwire⟩ := htabled _ _ hfind
      have hset := (onServersStatusChangeSV_counts hfind name serverStatus).1
      have hchanged : ({ fs with serverStatus := serverStatus, sstr := name } :
          FavorStrSV).OnWire := ⟨hwire.dip, hwire.wip, hwire.serverId, hwire.groupId⟩
      have hown : (client.onServersStatusChangeSV serverId.toNat name serverStatus).sid2FavorSV =
          client.sid2FavorSV.set fs.serverId
            { fs with serverStatus := serverStatus, sstr := name } := by rw [hset, hid]
      exact ⟨htabled.set hchanged hown,
        Noticed.enters hchanged (Or.inr rfl) (known_set hchanged hown)⟩

theorem notice_spec (htabled : Tabled client) (message : DaemonNotice) :
    Tabled (client.notice message).1 ∧
      Noticed client (client.notice message).1 (client.notice message).2 := by
  cases message with
  | onServerAddSV fs => exact notice_add htabled fs
  | onServerRemoveSV serverId => exact notice_remove htabled serverId
  | onServersStatusChangeSV serverId name serverStatus =>
      exact notice_statusChange htabled serverId name serverStatus
  | onServerRegisteredSV fs bRecover =>
      refine ⟨tabled_listed (client.onServerRegisteredSV_counts _ bRecover).1,
        Noticed.refreshed ?_⟩
      cases bRecover with
      | false => exact Or.inl rfl
      | true => exact Or.inr rfl
  | onGetServersSV favours ifSuccess =>
      cases ifSuccess with
      | false => exact ⟨htabled, Noticed.quiet rfl⟩
      | true =>
          exact ⟨tabled_listed (client.onGetServersSV_counts _).1,
            Noticed.refreshed (Or.inl rfl)⟩

end DaemonClient

/-! ## A client and a watcher of it -/

universe uState

/-- A client and the state of one of its watchers. -/
structure Watched (State : Type uState) where
  client : DaemonClient
  watcher : State

namespace Watched

variable {State : Type uState} (on : DaemonClient → State → WatcherCall → State)

/-- `on` is what the watcher does at a call. -/
def step (st : Watched State) (message : DaemonNotice) : Option (Watched State) :=
  let noticed := st.client.notice message
  some
    { client := noticed.1
      watcher :=
        match noticed.2 with
        | some call => on noticed.1 st.watcher call
        | none => st.watcher }

/-- The watcher after a call, if there is one. -/
def told (client : DaemonClient) (watcher : State) : Option WatcherCall → State
  | some call => on client watcher call
  | none => watcher

theorem step_eq (st : Watched State) (message : DaemonNotice) :
    step on st message = some
      ⟨(st.client.notice message).1,
        told on (st.client.notice message).1 st.watcher (st.client.notice message).2⟩ := by
  unfold step told
  rfl

variable {on} in
/-- What a step does: the client takes the message, and tells the watcher of it. -/
theorem step_spec {st next : Watched State} {message : DaemonNotice} (htabled : st.client.Tabled)
    (hstep : step on st message = some next) :
    ∃ client call, st.client.notice message = (client, call) ∧
      next = ⟨client, told on client st.watcher call⟩ ∧ client.Tabled ∧
      st.client.Noticed client call := by
  obtain ⟨hnext, hnoticed⟩ := DaemonClient.notice_spec htabled message
  rw [step_eq, Option.some.injEq] at hstep
  exact ⟨_, _, rfl, hstep.symm, hnext, hnoticed⟩

end Watched

end ServiceFrame
