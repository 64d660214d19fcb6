import ServiceFrame.ImLib.DoubleRoute
import ServiceFrame.ServerLib.ConsistentHash

/-! # Hashing in two levels

`CImOnHashHelper` of `service/imlib/ImOnlineHashHelper.cpp`: a circle of the groups of the online
servers, and a circle of the servers of each group. A user goes to a group by the first, and in it
to a server by the second. Only the groups with a server on the helper's own ISP are on the first.
-/

namespace ServiceFrame

open Foundation

/-- The users of each server. -/
abbrev SrvUids := OrderedMap UInt32 IdSet

structure CImOnHashHelper where
  hashGroup : ConsistentHash
  setGrpId : IdSet
  mapGrpConsisHash : OrderedMap UInt32 ConsistentHash

namespace CImOnHashHelper

def SUFFIX_IMONLINED : String := "imol"

/-- `PairHashMap_T`: a circle and its hash, `ENUM_FUNC_NEWHASH`. -/
def pairHashMap : ConsistentHash :=
  .new ConsistentHash.defaultNumberOfReplicas (.ofBytes newHash)

/-- Both constructors set `m_ISP` to `CTL` and the suffix to that of the online servers. -/
def new : CImOnHashHelper := ⟨pairHashMap, .empty, .empty⟩

def hashBySrvGrp (s : CImOnHashHelper) (key : UInt32) : UInt32 := s.hashGroup.getServer key

def hashInOneSrvGrp (s : CImOnHashHelper) (uUid uGroupId : UInt32) : UInt32 :=
  match s.mapGrpConsisHash.find uGroupId with
  | some ring => ring.getServer uUid
  | none => ConsistentHash.noServer

def doubleHash (s : CImOnHashHelper) (uUid : UInt32) : UInt32 :=
  let uGroupId := s.hashGroup.getServer uUid
  if uGroupId ≠ ConsistentHash.noServer then s.hashInOneSrvGrp uUid uGroupId
  else ConsistentHash.noServer

/-- `mapSrvUids[serverId].insert(uid)`. -/
def assign (mapSrvUids : SrvUids) (serverId uid : UInt32) : SrvUids :=
  mapSrvUids.set serverId (((mapSrvUids.find serverId).getD .empty).set uid ())

/-- The body of the loop over the users. -/
def batchUid (ring : ConsistentHash) (mapSrvUids : SrvUids) (uid : UInt32) : SrvUids :=
  if ring.getServer uid ≠ ConsistentHash.noServer then
    assign mapSrvUids (ring.getServer uid) uid
  else mapSrvUids

def batchHashInOneSrvGrp (s : CImOnHashHelper) (uGroupId : UInt32) (setUid : IdSet)
    (mapSrvUids : SrvUids) : SrvUids :=
  match s.mapGrpConsisHash.find uGroupId with
  | none => mapSrvUids
  | some ring => setUid.elems.foldl (batchUid ring) mapSrvUids

/-- The groups, in the order of the map. -/
def groups (s : CImOnHashHelper) : List UInt32 := s.mapGrpConsisHash.entries.map Prod.fst

def batchHashInAllSrvGrpEx (s : CImOnHashHelper) (uSrvGrp : UInt32) (setUids : IdSet)
    (mapSrv2Uids : SrvUids) : SrvUids :=
  s.groups.foldl (fun map uGroupId =>
    if uGroupId ≠ uSrvGrp then s.batchHashInOneSrvGrp uGroupId setUids map else map) mapSrv2Uids

/-- `BatchHashInAllSrvGrpEx` of one user. -/
def batchHashInAllSrvGrpExUid (s : CImOnHashHelper) (uSrvGrp uUid : UInt32) (setSrvs : IdSet) :
    IdSet :=
  s.groups.foldl (fun set uGroupId =>
    if uGroupId ≠ uSrvGrp ∧ s.hashInOneSrvGrp uUid uGroupId ≠ ConsistentHash.noServer then
      set.set (s.hashInOneSrvGrp uUid uGroupId) ()
    else set) setSrvs

/-- `net` is compared with the helper's own ISP, `CTL`. -/
def addHashNode (s : CImOnHashHelper) (uServerId uGroupId net : UInt32) : CImOnHashHelper :=
  let ring := (s.mapGrpConsisHash.find uGroupId).getD pairHashMap
  let added := { s with
    mapGrpConsisHash := s.mapGrpConsisHash.set uGroupId (ring.addServer uServerId) }
  if net = CTL ∧ (s.setGrpId.find uGroupId).isSome = false then
    { added with
      setGrpId := s.setGrpId.set uGroupId ()
      hashGroup := s.hashGroup.addServer uGroupId }
  else added

/-- A group leaves its circle when its own circle is empty. -/
def removeHashNode (s : CImOnHashHelper) (uServerId uGroupId : UInt32) : CImOnHashHelper :=
  match s.mapGrpConsisHash.find uGroupId with
  | some ring =>
      if (ring.removeServer uServerId).serverCircle.isEmpty then
        { mapGrpConsisHash := s.mapGrpConsisHash.erase uGroupId
          hashGroup := s.hashGroup.removeServer uGroupId
          setGrpId := s.setGrpId.erase uGroupId }
      else
        { s with
          mapGrpConsisHash := s.mapGrpConsisHash.set uGroupId (ring.removeServer uServerId) }
  | none => s

/-- What the loop of `onRefreshSV` and `onAddSV` do with a server of the suffix. -/
def addServer (s : CImOnHashHelper) (fs : FavorStrSV) : CImOnHashHelper :=
  if fs.serverStatus = .RUNNING then
    if fs.dip ≠ 0 then s.addHashNode fs.sid fs.group CTL
    else if fs.wip ≠ 0 then s.addHashNode fs.sid fs.group CNC
    else s
  else s

/-- The circles and the set are cleared. -/
def cleared (s : CImOnHashHelper) : CImOnHashHelper where
  hashGroup := { s.hashGroup with serverCircle := .empty }
  mapGrpConsisHash := .empty
  setGrpId := .empty

def onRefreshSV (s : CImOnHashHelper) (client : DaemonClient) : CImOnHashHelper :=
  (client.getServersByNameSV SUFFIX_IMONLINED).foldl addServer s.cleared

def onAddSV (s : CImOnHashHelper) (fs : FavorStrSV) : CImOnHashHelper :=
  if fs.sstr = SUFFIX_IMONLINED then s.addServer fs else s

def onServerRemovedSV (s : CImOnHashHelper) (fs : FavorStrSV) : CImOnHashHelper :=
  if fs.sstr = SUFFIX_IMONLINED then s.removeHashNode fs.sid fs.group else s

/-- The handlers. A change of status is handled as an addition. -/
def on (client : DaemonClient) (s : CImOnHashHelper) : WatcherCall → CImOnHashHelper
  | .onAddSV fs => s.onAddSV fs
  | .onServerStatusChangeSV fs => s.onAddSV fs
  | .onServerRemovedSV fs => s.onServerRemovedSV fs
  | .onRefreshSV => s.onRefreshSV client
  | .onRecoverRefreshSV => s.onRefreshSV client

/-! ## Nodes -/

/-- No two of the ids have a point in common on a circle of a helper. -/
def Apart (ids : UInt32 → Prop) : Prop :=
  ConsistentHash.Apart ConsistentHash.defaultNumberOfReplicas (.ofBytes newHash) ids

/-- The circle has the points of the ids, and no others. -/
def Circle (ring : ConsistentHash) (ids : UInt32 → Prop) : Prop :=
  ring.HasPoints ConsistentHash.defaultNumberOfReplicas (.ofBytes newHash) ids

theorem circle_pairHashMap : Circle pairHashMap fun _ => False :=
  ConsistentHash.hasPoints_new _ _

/-- Each group that has servers has a circle of them. -/
structure Rings (map : OrderedMap UInt32 ConsistentHash) (serves : UInt32 → UInt32 → Prop) :
    Prop where
  circle : ∀ uGroupId ring, map.find uGroupId = some ring → Circle ring (serves uGroupId)
  served : ∀ uGroupId, (map.find uGroupId).isSome ↔ ∃ uServerId, serves uGroupId uServerId

namespace Rings

variable {map : OrderedMap UInt32 ConsistentHash} {serves serves' : UInt32 → UInt32 → Prop}
  {uGroupId : UInt32}

theorem empty : Rings .empty fun _ _ => False where
  circle _ _ hfind := by cases hfind
  served _ := iff_of_false (fun hsome => by cases hsome) fun ⟨_, hnone⟩ => hnone

theorem none_iff (hmap : Rings map serves) :
    map.find uGroupId = none ↔ ∀ uServerId, ¬ serves uGroupId uServerId := by
  rw [← Option.not_isSome_iff_eq_none, hmap.served, not_exists]

/-- A group without servers has a new circle when one comes. -/
theorem circle_getD (hmap : Rings map serves) (uGroupId : UInt32) :
    Circle ((map.find uGroupId).getD pairHashMap) (serves uGroupId) := by
  cases hfind : map.find uGroupId with
  | some ring => exact hmap.circle uGroupId ring hfind
  | none =>
      exact circle_pairHashMap.congr fun uServerId =>
        iff_of_false id (hmap.none_iff.mp hfind uServerId)

/-- One group gets another circle. -/
theorem set (hmap : Rings map serves) {ring : ConsistentHash}
    (hring : Circle ring (serves' uGroupId)) (hsome : ∃ uServerId, serves' uGroupId uServerId)
    (hothers : ∀ group, group ≠ uGroupId → ∀ server, serves group server ↔ serves' group server) :
    Rings (map.set uGroupId ring) serves' where
  circle group other hfind := by
    rw [OrderedMap.find_set, Function.update_apply] at hfind
    split at hfind
    next hsame =>
      cases hfind
      rw [hsame]
      exact hring
    next hother => exact (hmap.circle group other hfind).congr (hothers group hother)
  served group := by
    rw [OrderedMap.find_set, Function.update_apply]
    split
    next hsame => exact iff_of_true rfl (hsame ▸ hsome)
    next hother => rw [hmap.served, exists_congr (hothers group hother)]

theorem erase (hmap : Rings map serves) (hnone : ∀ uServerId, ¬ serves' uGroupId uServerId)
    (hothers : ∀ group, group ≠ uGroupId → ∀ server, serves group server ↔ serves' group server) :
    Rings (map.erase uGroupId) serves' where
  circle group other hfind := by
    rw [OrderedMap.find_erase, Function.update_apply] at hfind
    split at hfind
    next => cases hfind
    next hother => exact (hmap.circle group other hfind).congr (hothers group hother)
  served group := by
    rw [OrderedMap.find_erase, Function.update_apply]
    split
    next hsame =>
      apply iff_of_false (fun hnot => by cases hnot)
      rintro ⟨server, hserves⟩
      exact hnone server (hsame ▸ hserves)
    next hother => rw [hmap.served, exists_congr (hothers group hother)]

end Rings

/-- The circles have the groups and the servers of each group. -/
structure Holds (s : CImOnHashHelper) (serves : UInt32 → UInt32 → Prop) (reach : UInt32 → Prop) :
    Prop where
  mem_iff : ∀ uGroupId, uGroupId ∈ s.setGrpId.elems ↔ reach uGroupId
  group : Circle s.hashGroup reach
  rings : Rings s.mapGrpConsisHash serves
  reached : ∀ uGroupId, reach uGroupId → ∃ uServerId, serves uGroupId uServerId

variable {s : CImOnHashHelper} {serves serves' : UInt32 → UInt32 → Prop}
  {reach reach' : UInt32 → Prop} {uServerId uGroupId net : UInt32}

theorem Holds.congr (hs : s.Holds serves reach)
    (hserves : ∀ uGroupId uServerId, serves uGroupId uServerId ↔ serves' uGroupId uServerId)
    (hreach : ∀ uGroupId, reach uGroupId ↔ reach' uGroupId) : s.Holds serves' reach' := by
  have hsame : serves = serves' := by
    funext uGroupId uServerId
    exact propext (hserves uGroupId uServerId)
  have hsame' : reach = reach' := funext fun uGroupId => propext (hreach uGroupId)
  exact hsame ▸ hsame' ▸ hs

theorem holds_new : new.Holds (fun _ _ => False) fun _ => False where
  mem_iff _ := iff_of_false List.not_mem_nil id
  group := circle_pairHashMap
  rings := Rings.empty
  reached _ hnone := hnone.elim

theorem Holds.cleared (hs : s.Holds serves reach) :
    s.cleared.Holds (fun _ _ => False) fun _ => False where
  mem_iff _ := iff_of_false List.not_mem_nil id
  group :=
    { hash_eq := hs.group.hash_eq
      replicas_eq := hs.group.replicas_eq
      find_iff := fun _ _ => iff_of_false (fun hfind => by cases hfind) fun hnone => hnone.1 }
  rings := Rings.empty
  reached _ hnone := hnone.elim

theorem addHashNode_map (s : CImOnHashHelper) (uServerId uGroupId net : UInt32) :
    (s.addHashNode uServerId uGroupId net).mapGrpConsisHash =
      s.mapGrpConsisHash.set uGroupId
        (((s.mapGrpConsisHash.find uGroupId).getD pairHashMap).addServer uServerId) := by
  unfold addHashNode
  dsimp only
  split <;> rfl

/-- A node comes: its server is on the circle of its group, and on the helper's ISP its group is on
the circle of the groups. -/
theorem Holds.addHashNode (hs : s.Holds serves reach)
    (hgroup : Apart fun other => other = uGroupId ∨ reach other)
    (hring : Apart fun other => other = uServerId ∨ serves uGroupId other) :
    (s.addHashNode uServerId uGroupId net).Holds
      (fun group server => (group = uGroupId ∧ server = uServerId) ∨ serves group server)
      fun group => (net = CTL ∧ group = uGroupId) ∨ reach group := by
  -- the set of groups and their circle get the group, or stay
  have hgroups : (∀ group, group ∈ (s.addHashNode uServerId uGroupId net).setGrpId.elems ↔
        (net = CTL ∧ group = uGroupId) ∨ reach group) ∧
      Circle (s.addHashNode uServerId uGroupId net).hashGroup
        fun group => (net = CTL ∧ group = uGroupId) ∨ reach group := by
    unfold CImOnHashHelper.addHashNode
    dsimp only
    split
    next hnew =>
      simp only [hnew.1, true_and]
      refine ⟨fun group => ?_, hs.group.addServer hgroup⟩
      rw [← hs.mem_iff]
      exact IdSet.mem_set _ _ _
    next hnot =>
      have hsame : ∀ group, reach group ↔ (net = CTL ∧ group = uGroupId) ∨ reach group := by
        refine fun group => (or_iff_right_of_imp ?_).symm
        rintro ⟨hnet, rfl⟩
        rw [← hs.mem_iff, IdSet.mem_elems]
        cases hfind : s.setGrpId.find group with
        | some found => rfl
        | none => exact absurd ⟨hnet, by rw [hfind]; rfl⟩ hnot
      exact ⟨fun group => (hs.mem_iff group).trans (hsame group), hs.group.congr hsame⟩
  refine ⟨hgroups.1, hgroups.2, ?_, ?_⟩
  · rw [addHashNode_map]
    refine hs.rings.set ?_ ⟨uServerId, Or.inl ⟨rfl, rfl⟩⟩ fun group hother server => ?_
    · exact ((hs.rings.circle_getD uGroupId).addServer hring).congr fun server => by simp
    · simp [hother]
  · rintro group (⟨-, rfl⟩ | hreach)
    · exact ⟨uServerId, Or.inl ⟨rfl, rfl⟩⟩
    · obtain ⟨server, hserves⟩ := hs.reached group hreach
      exact ⟨server, Or.inr hserves⟩

/-- The servers that are left in the groups when a node goes. -/
def Left (serves : UInt32 → UInt32 → Prop) (uServerId uGroupId group server : UInt32) : Prop :=
  ¬ (group = uGroupId ∧ server = uServerId) ∧ serves group server

/-- The groups that stay on their circle then: that of the node needs another server. -/
def Stays (serves : UInt32 → UInt32 → Prop) (reach : UInt32 → Prop)
    (uServerId uGroupId group : UInt32) : Prop :=
  reach group ∧ (group = uGroupId → ∃ server, server ≠ uServerId ∧ serves group server)

theorem left_iff_of_ne {group : UInt32} (hgroup : group ≠ uGroupId) (server : UInt32) :
    serves group server ↔ Left serves uServerId uGroupId group server :=
  (and_iff_right fun hboth => hgroup hboth.1).symm

theorem Holds.reached_left (hs : s.Holds serves reach) {group : UInt32}
    (hstays : Stays serves reach uServerId uGroupId group) :
    ∃ server, Left serves uServerId uGroupId group server := by
  by_cases hsame : group = uGroupId
  · obtain ⟨server, hother, hserves⟩ := hstays.2 hsame
    exact ⟨server, fun hboth => hother hboth.2, hserves⟩
  · obtain ⟨server, hserves⟩ := hs.reached group hstays.1
    exact ⟨server, fun hboth => hsame hboth.1, hserves⟩

theorem stays_iff_of_none (hnone : ∀ server, ¬ (server ≠ uServerId ∧ serves uGroupId server))
    (group : UInt32) :
    Stays serves reach uServerId uGroupId group ↔ group ≠ uGroupId ∧ reach group := by
  constructor
  · rintro ⟨hreach, hstays⟩
    refine ⟨?_, hreach⟩
    rintro rfl
    obtain ⟨server, hserver⟩ := hstays rfl
    exact hnone server hserver
  · exact fun hother => ⟨hother.2, fun hsame => absurd hsame hother.1⟩

theorem stays_iff_of_some (hsome : ∃ server, server ≠ uServerId ∧ serves uGroupId server)
    (group : UInt32) : Stays serves reach uServerId uGroupId group ↔ reach group := by
  apply and_iff_left
  rintro rfl
  exact hsome

/-- A node goes: a group stays on the circle of the groups while a server is left on its own. -/
theorem Holds.removeHashNode (hs : s.Holds serves reach)
    (hgroup : Apart fun other => other = uGroupId ∨ reach other)
    (hring : Apart fun other => other = uServerId ∨ serves uGroupId other) :
    (s.removeHashNode uServerId uGroupId).Holds (Left serves uServerId uGroupId)
      (Stays serves reach uServerId uGroupId) := by
  unfold CImOnHashHelper.removeHashNode
  cases hfind : s.mapGrpConsisHash.find uGroupId with
  | none =>
      have hnone := hs.rings.none_iff.mp hfind
      refine hs.congr (fun group server => ?_) fun group => ?_
      · refine (and_iff_right_of_imp fun hserves => ?_).symm
        rintro ⟨rfl, -⟩
        exact hnone server hserves
      · refine (and_iff_left_of_imp fun hreach => ?_).symm
        rintro rfl
        obtain ⟨server, hserves⟩ := hs.reached group hreach
        exact absurd hserves (hnone server)
  | some ring =>
      have hleft := (hs.rings.circle uGroupId ring hfind).removeServer hring
      have hempty := hleft.isEmpty_iff (by decide)
      dsimp only
      split
      next hlast =>
        -- the last server of the group went
        have hnone := hempty.mp hlast
        have hstays : ∀ group, group ≠ uGroupId ∧ reach group ↔
            Stays serves reach uServerId uGroupId group :=
          fun group => (stays_iff_of_none hnone group).symm
        refine ⟨fun group => ?_, (hs.group.removeServer hgroup).congr hstays,
          hs.rings.erase (fun server hserves => ?_) fun _ => left_iff_of_ne,
          fun _ => hs.reached_left⟩
        · rw [← hstays, ← hs.mem_iff]
          exact IdSet.mem_erase _ _ _
        · exact hnone server ⟨fun hserver => hserves.1 ⟨rfl, hserver⟩, hserves.2⟩
      next hmore =>
        have hsome : ∃ server, server ≠ uServerId ∧ serves uGroupId server := by
          by_contra hnone
          exact hmore (hempty.mpr fun server hserver => hnone ⟨server, hserver⟩)
        have hstays : ∀ group, reach group ↔ Stays serves reach uServerId uGroupId group :=
          fun group => (stays_iff_of_some hsome group).symm
        refine ⟨fun group => (hs.mem_iff group).trans (hstays group), hs.group.congr hstays,
          hs.rings.set (hleft.congr fun server => ?_) ?_ fun _ => left_iff_of_ne,
          fun _ => hs.reached_left⟩
        · simp [Left]
        · obtain ⟨server, hother, hserves⟩ := hsome
          exact ⟨server, fun hboth => hother hboth.2, hserves⟩

/-! ## Hashing -/

theorem Holds.hashInOneSrvGrp (hs : s.Holds serves reach)
    (hsome : ∃ server, serves uGroupId server) (uUid : UInt32) :
    serves uGroupId (s.hashInOneSrvGrp uUid uGroupId) := by
  obtain ⟨ring, hfind⟩ := Option.isSome_iff_exists.mp ((hs.rings.served uGroupId).mpr hsome)
  rw [CImOnHashHelper.hashInOneSrvGrp, hfind]
  exact (hs.rings.circle uGroupId ring hfind).getServer_mem (by decide) hsome uUid

/-- A user goes to a server of its group as soon as there is a group, when no number on the way is
that for no server. -/
theorem Holds.doubleHash (hs : s.Holds serves reach)
    (hnumbers : ∀ group, reach group → group ≠ ConsistentHash.noServer ∧
      ∀ server, serves group server → server ≠ ConsistentHash.noServer) (uUid : UInt32) :
    (s.doubleHash uUid = ConsistentHash.noServer ↔ ∀ group, ¬ reach group) ∧
      ((∃ group, reach group) → reach (s.hashBySrvGrp uUid) ∧
        serves (s.hashBySrvGrp uUid) (s.doubleHash uUid)) := by
  by_cases hsome : ∃ group, reach group
  · have hreach : reach (s.hashGroup.getServer uUid) :=
      hs.group.getServer_mem (by decide) hsome uUid
    obtain ⟨hgroup, hservers⟩ := hnumbers _ hreach
    have hserves := hs.hashInOneSrvGrp (hs.reached _ hreach) uUid
    have hsame : s.doubleHash uUid =
        s.hashInOneSrvGrp uUid (s.hashGroup.getServer uUid) := if_pos hgroup
    rw [hsame]
    exact ⟨iff_of_false (hservers _ hserves) (not_forall_not.mpr hsome),
      fun _ => ⟨hreach, hserves⟩⟩
  · have hnone := not_exists.mp hsome
    have hgroup : s.hashGroup.getServer uUid = ConsistentHash.noServer :=
      hs.group.getServer_none hnone uUid
    have hsame : s.doubleHash uUid = ConsistentHash.noServer := if_neg (not_not_intro hgroup)
    exact ⟨iff_of_true hsame hnone, fun hgroups => absurd hgroups hsome⟩

/-! ## The batch forms -/

/-- The user is in the server's set. -/
def Assigned (map : SrvUids) (server uid : UInt32) : Prop :=
  ∃ uids, map.find server = some uids ∧ uid ∈ uids.elems

/-- The sets get users, and no server gets a set without a user. -/
structure Extends (before after : SrvUids) (gets : UInt32 → UInt32 → Prop) : Prop where
  assigned : ∀ server uid, Assigned after server uid ↔
    gets server uid ∨ Assigned before server uid
  isSome : ∀ server, (after.find server).isSome ↔
    (∃ uid, gets server uid) ∨ (before.find server).isSome

namespace Extends

variable {before middle after map : SrvUids} {gets gets' : UInt32 → UInt32 → Prop}

theorem congr (hmap : Extends before after gets)
    (hsame : ∀ server uid, gets server uid ↔ gets' server uid) : Extends before after gets' where
  assigned server uid := by rw [hmap.assigned, hsame]
  isSome server := by rw [hmap.isSome, exists_congr (hsame server)]

theorem none (map : SrvUids) : Extends map map fun _ _ => False where
  assigned _ _ := (or_iff_right id).symm
  isSome _ := by simp

theorem trans (hfirst : Extends before middle gets) (hsecond : Extends middle after gets') :
    Extends before after fun server uid => gets server uid ∨ gets' server uid where
  assigned server uid := by rw [hsecond.assigned, hfirst.assigned, or_left_comm, or_assoc]
  isSome server := by rw [hsecond.isSome, hfirst.isSome, exists_or, or_left_comm, or_assoc]

theorem assign (map : SrvUids) (serverId uUid : UInt32) :
    Extends map (assign map serverId uUid) fun server uid => server = serverId ∧ uid = uUid where
  assigned server uid := by
    unfold Assigned CImOnHashHelper.assign
    rw [OrderedMap.find_set, Function.update_apply]
    split
    next hserver =>
      subst hserver
      cases map.find server with
      | none => simp [IdSet.elems, OrderedMap.empty, OrderedMap.set, setEntry]
      | some uids => simp
    next hserver => simp [hserver]
  isSome server := by
    unfold CImOnHashHelper.assign
    rw [OrderedMap.find_set, Function.update_apply]
    split
    next hserver => simp [hserver]
    next hserver => simp [hserver]

/-- What each turn of a loop assigns is assigned after it. -/
theorem foldl {Item : Type} {step : SrvUids → Item → SrvUids}
    {getsOf : Item → UInt32 → UInt32 → Prop}
    (hstep : ∀ map item, Extends map (step map item) (getsOf item)) (items : List Item)
    (map : SrvUids) :
    Extends map (items.foldl step map) fun server uid =>
      ∃ item ∈ items, getsOf item server uid := by
  induction items generalizing map with
  | nil => exact (Extends.none map).congr fun server uid => by simp
  | cons item rest ih =>
      exact ((hstep map item).trans (ih (step map item))).congr fun server uid => by simp

end Extends

theorem extends_batchUid (ring : ConsistentHash) (map : SrvUids) (uUid : UInt32) :
    Extends map (batchUid ring map uUid) fun server uid =>
      uid = uUid ∧ server = ring.getServer uUid ∧ server ≠ ConsistentHash.noServer := by
  unfold batchUid
  split
  next hserver =>
    refine (Extends.assign map _ _).congr fun server uid => ?_
    constructor
    · rintro ⟨rfl, rfl⟩
      exact ⟨rfl, rfl, hserver⟩
    · rintro ⟨rfl, rfl, -⟩
      exact ⟨rfl, rfl⟩
  next hserver =>
    refine (Extends.none map).congr fun server uid => iff_of_false id ?_
    rintro ⟨-, rfl, hnot⟩
    exact hserver hnot

/-- Each user is assigned to the server that it has in the group. -/
theorem extends_batchHashInOneSrvGrp (s : CImOnHashHelper) (uGroupId : UInt32) (setUid : IdSet)
    (map : SrvUids) :
    Extends map (s.batchHashInOneSrvGrp uGroupId setUid map) fun server uid =>
      uid ∈ setUid.elems ∧ server = s.hashInOneSrvGrp uid uGroupId ∧
        server ≠ ConsistentHash.noServer := by
  unfold batchHashInOneSrvGrp hashInOneSrvGrp
  cases s.mapGrpConsisHash.find uGroupId with
  | none =>
      refine (Extends.none map).congr fun server uid => iff_of_false id ?_
      rintro ⟨-, hserver, hnot⟩
      exact hnot hserver
  | some ring =>
      refine (Extends.foldl (extends_batchUid ring) setUid.elems map).congr fun server uid => ?_
      constructor
      · rintro ⟨_, hmem, rfl, hserver⟩
        exact ⟨hmem, hserver⟩
      · rintro ⟨hmem, hserver⟩
        exact ⟨uid, hmem, rfl, hserver⟩

/-- A group that is not in the map gives no server. -/
theorem mem_groups_of_hash {uUid : UInt32}
    (hserver : s.hashInOneSrvGrp uUid uGroupId ≠ ConsistentHash.noServer) :
    uGroupId ∈ s.groups := by
  unfold hashInOneSrvGrp at hserver
  cases hfind : s.mapGrpConsisHash.find uGroupId with
  | none =>
      rw [hfind] at hserver
      exact absurd rfl hserver
  | some ring => exact List.mem_map.mpr ⟨_, OrderedMap.mem_entries.mpr hfind, rfl⟩

theorem extends_batchHashInAllSrvGrpEx (s : CImOnHashHelper) (uSrvGrp : UInt32) (setUids : IdSet)
    (map : SrvUids) :
    Extends map (s.batchHashInAllSrvGrpEx uSrvGrp setUids map) fun server uid =>
      uid ∈ setUids.elems ∧ server ≠ ConsistentHash.noServer ∧
        ∃ uGroupId, uGroupId ≠ uSrvGrp ∧ server = s.hashInOneSrvGrp uid uGroupId := by
  have hturn : ∀ (map : SrvUids) (uGroupId : UInt32),
      Extends map
        (if uGroupId ≠ uSrvGrp then s.batchHashInOneSrvGrp uGroupId setUids map else map)
        fun server uid => uGroupId ≠ uSrvGrp ∧ uid ∈ setUids.elems ∧
          server = s.hashInOneSrvGrp uid uGroupId ∧ server ≠ ConsistentHash.noServer := by
    intro map uGroupId
    split
    next hgroup =>
      exact (s.extends_batchHashInOneSrvGrp uGroupId setUids map).congr fun server uid =>
        (and_iff_right hgroup).symm
    next hgroup =>
      exact (Extends.none map).congr fun server uid =>
        iff_of_false id fun hboth => hgroup hboth.1
  refine (Extends.foldl hturn s.groups map).congr fun server uid => ?_
  constructor
  · rintro ⟨uGroupId, -, hgroup, hmem, hserver, hnot⟩
    exact ⟨hmem, hnot, uGroupId, hgroup, hserver⟩
  · rintro ⟨hmem, hnot, uGroupId, hgroup, rfl⟩
    exact ⟨uGroupId, mem_groups_of_hash hnot, hgroup, hmem, rfl, hnot⟩

theorem mem_batchHashInAllSrvGrpExUid (s : CImOnHashHelper) (uSrvGrp uUid : UInt32)
    (setSrvs : IdSet) (server : UInt32) :
    server ∈ (s.batchHashInAllSrvGrpExUid uSrvGrp uUid setSrvs).elems ↔
      (server ≠ ConsistentHash.noServer ∧
        ∃ uGroupId, uGroupId ≠ uSrvGrp ∧ server = s.hashInOneSrvGrp uUid uGroupId) ∨
        server ∈ setSrvs.elems := by
  have hloop : ∀ (groups : List UInt32) (set : IdSet),
      server ∈ IdSet.elems (groups.foldl (fun set uGroupId =>
          if uGroupId ≠ uSrvGrp ∧ s.hashInOneSrvGrp uUid uGroupId ≠ ConsistentHash.noServer then
            set.set (s.hashInOneSrvGrp uUid uGroupId) ()
          else set) set) ↔
        (∃ uGroupId ∈ groups, (uGroupId ≠ uSrvGrp ∧
          s.hashInOneSrvGrp uUid uGroupId ≠ ConsistentHash.noServer) ∧
            server = s.hashInOneSrvGrp uUid uGroupId) ∨ server ∈ set.elems := by
    intro groups
    induction groups with
    | nil => exact fun set => by simp
    | cons uGroupId rest ih =>
        intro set
        rw [List.foldl_cons, ih, List.exists_mem_cons_iff, or_assoc, or_left_comm]
        split
        next hadds =>
          rw [IdSet.mem_set]
          simp only [hadds, ne_eq, not_false_eq_true, and_self, true_and]
        next hnot => simp only [hnot, false_and, false_or]
  refine (hloop s.groups setSrvs).trans (or_congr_left ?_)
  constructor
  · rintro ⟨uGroupId, -, ⟨hgroup, hnot⟩, rfl⟩
    exact ⟨hnot, uGroupId, hgroup, rfl⟩
  · rintro ⟨hnot, uGroupId, hgroup, rfl⟩
    exact ⟨uGroupId, mem_groups_of_hash hnot, ⟨hgroup, hnot⟩, rfl⟩

/-! ## What the events do -/

open DaemonClient (RunsAs)

/-- The server runs in the group. -/
def Serves (servers : FavorStrSV → Prop) (uGroupId uServerId : UInt32) : Prop :=
  ∃ fs, servers fs ∧ RunsAs fs SUFFIX_IMONLINED ∧ fs.group = uGroupId ∧ fs.sid = uServerId

/-- A server of the group runs that is reachable on the helper's ISP. -/
def Reaches (servers : FavorStrSV → Prop) (uGroupId : UInt32) : Prop :=
  ∃ fs, servers fs ∧ RunsAs fs SUFFIX_IMONLINED ∧ fs.group = uGroupId ∧ fs.dip ≠ 0

/-- The points of the groups, and of the servers of each group, do not collide. -/
structure Free (servers : FavorStrSV → Prop) : Prop where
  groups : Apart fun uGroupId => ∃ fs, servers fs ∧ fs.sstr = SUFFIX_IMONLINED ∧
    fs.group = uGroupId
  ids : ∀ uGroupId, Apart fun uServerId => ∃ fs, servers fs ∧ fs.sstr = SUFFIX_IMONLINED ∧
    fs.group = uGroupId ∧ fs.sid = uServerId

variable {servers after : FavorStrSV → Prop} {fs : FavorStrSV}

/-- The group of a server, next to those on the circle of the groups. -/
theorem Free.group (hfree : Free servers) (hfs : servers fs) (hname : fs.sstr = SUFFIX_IMONLINED) :
    Apart fun other => other = fs.group ∨ Reaches servers other := by
  refine hfree.groups.mono fun other hother => ?_
  rcases hother with rfl | ⟨server, hserver, hruns, hgroup, -⟩
  · exact ⟨fs, hfs, hname, rfl⟩
  · exact ⟨server, hserver, hruns.2, hgroup⟩

theorem Free.ring (hfree : Free servers) (hfs : servers fs) (hname : fs.sstr = SUFFIX_IMONLINED) :
    Apart fun other => other = fs.sid ∨ Serves servers fs.group other := by
  refine (hfree.ids fs.group).mono fun other hother => ?_
  rcases hother with rfl | ⟨server, hserver, hruns, hgroup⟩
  · exact ⟨fs, hfs, hname, rfl, rfl⟩
  · exact ⟨server, hserver, hruns.2, hgroup⟩

/-- A server is added if it runs and has an address. -/
theorem Holds.addServer (hs : s.Holds serves reach)
    (hgroup : Apart fun other => other = fs.group ∨ reach other)
    (hring : Apart fun other => other = fs.sid ∨ serves fs.group other) :
    (s.addServer fs).Holds
      (fun group server => (fs.serverStatus = .RUNNING ∧ (fs.dip ≠ 0 ∨ fs.wip ≠ 0) ∧
        group = fs.group ∧ server = fs.sid) ∨ serves group server)
      fun group => (fs.serverStatus = .RUNNING ∧ fs.dip ≠ 0 ∧ group = fs.group) ∨ reach group := by
  unfold CImOnHashHelper.addServer
  split
  next hruns =>
    split
    next hdip =>
      refine (hs.addHashNode hgroup hring).congr (fun group server => ?_) fun group => ?_
      · simp [hruns, hdip]
      · simp [hruns, hdip]
    next hdip =>
      have hnet : CNC ≠ CTL := CDRouteServer.ctl_ne_cnc.symm
      split
      next hwip =>
        refine (hs.addHashNode hgroup hring).congr (fun group server => ?_) fun group => ?_
        · simp [hruns, hwip]
        · simp [hdip, hnet]
      next hwip =>
        refine hs.congr (fun group server => ?_) fun group => ?_
        · simp [hdip, hwip]
        · simp [hdip]
  next hruns =>
    refine hs.congr (fun group server => ?_) fun group => ?_
    · simp [hruns]
    · simp [hruns]

section Enters

variable (henter : ∀ other, after other ↔ other = fs ∨ (other.sid ≠ fs.sid ∧ servers other))

include henter

theorem serves_enter {group server : UInt32} (hserves : Serves after group server) :
    (RunsAs fs SUFFIX_IMONLINED ∧ group = fs.group ∧ server = fs.sid) ∨
      Serves servers group server := by
  obtain ⟨other, hother, hruns, rfl, rfl⟩ := hserves
  rcases (henter other).mp hother with rfl | ⟨-, hserver⟩
  · exact Or.inl ⟨hruns, rfl, rfl⟩
  · exact Or.inr ⟨other, hserver, hruns, rfl, rfl⟩

theorem reaches_enter {group : UInt32} (hreach : Reaches after group) :
    (RunsAs fs SUFFIX_IMONLINED ∧ fs.dip ≠ 0 ∧ group = fs.group) ∨ Reaches servers group := by
  obtain ⟨other, hother, hruns, rfl, hdip⟩ := hreach
  rcases (henter other).mp hother with rfl | ⟨-, hserver⟩
  · exact Or.inl ⟨hruns, hdip, rfl⟩
  · exact Or.inr ⟨other, hserver, hruns, rfl, hdip⟩

/-- A server comes, or its data change. -/
theorem Holds.onAddSV (hs : s.Holds (Serves servers) (Reaches servers))
    (hserves : ∀ group server, Serves servers group server → Serves after group server)
    (hreaches : ∀ group, Reaches servers group → Reaches after group)
    (haddress : RunsAs fs SUFFIX_IMONLINED →
      fs.dip ≠ 0 ∨ fs.wip ≠ 0 ∨ Serves servers fs.group fs.sid)
    (hfree : Free after) : (s.onAddSV fs).Holds (Serves after) (Reaches after) := by
  have hfs : after fs := (henter fs).mpr (Or.inl rfl)
  unfold CImOnHashHelper.onAddSV
  split
  next hname =>
    have hgroup : Apart fun other => other = fs.group ∨ Reaches servers other :=
      (hfree.group hfs hname).mono fun other hother => hother.imp_right (hreaches other)
    have hring : Apart fun other => other = fs.sid ∨ Serves servers fs.group other :=
      (hfree.ring hfs hname).mono fun other hother => hother.imp_right (hserves fs.group other)
    refine (hs.addServer hgroup hring).congr (fun group server => ⟨?_, ?_⟩)
      fun group => ⟨?_, ?_⟩
    · rintro (⟨hruns, -, rfl, rfl⟩ | hserver)
      · exact ⟨fs, hfs, ⟨hruns, hname⟩, rfl, rfl⟩
      · exact hserves group server hserver
    · intro hserver
      rcases serves_enter henter hserver with ⟨hruns, rfl, rfl⟩ | hserver
      · rcases haddress hruns with hdip | hwip | hserver
        · exact Or.inl ⟨hruns.1, Or.inl hdip, rfl, rfl⟩
        · exact Or.inl ⟨hruns.1, Or.inr hwip, rfl, rfl⟩
        · exact Or.inr hserver
      · exact Or.inr hserver
    · rintro (⟨hruns, hdip, rfl⟩ | hreach)
      · exact ⟨fs, hfs, ⟨hruns, hname⟩, rfl, hdip⟩
      · exact hreaches group hreach
    · intro hreach
      exact (reaches_enter henter hreach).imp_left fun hboth => ⟨hboth.1.1, hboth.2⟩
  next hname =>
    refine hs.congr (fun group server => ⟨hserves group server, fun hserver => ?_⟩)
      fun group => ⟨hreaches group, fun hreach => ?_⟩
    · exact (serves_enter henter hserver).resolve_left fun hboth => hname hboth.1.2
    · exact (reaches_enter henter hreach).resolve_left fun hboth => hname hboth.1.2

end Enters

section Leaves

variable (hunique : ∀ other, servers other → other.sid = fs.sid → other = fs)
  (hleave : ∀ other, after other ↔ other.sid ≠ fs.sid ∧ servers other)

include hleave

theorem serves_leave_iff {group server : UInt32} :
    Serves after group server ↔ server ≠ fs.sid ∧ Serves servers group server := by
  constructor
  · rintro ⟨other, hother, hruns, hgroup, rfl⟩
    obtain ⟨hsid, hserver⟩ := (hleave other).mp hother
    exact ⟨hsid, other, hserver, hruns, hgroup, rfl⟩
  · rintro ⟨hsid, other, hserver, hruns, hgroup, rfl⟩
    exact ⟨other, (hleave other).mpr ⟨hsid, hserver⟩, hruns, hgroup, rfl⟩

theorem reaches_of_leave {group : UInt32} (hreach : Reaches after group) :
    Reaches servers group := by
  obtain ⟨other, hother, hruns⟩ := hreach
  exact ⟨other, ((hleave other).mp hother).2, hruns⟩

include hunique

/-- Only the group of the server that went can lose its last server on the ISP. -/
theorem reaches_leave {group : UInt32} (hreach : Reaches servers group) :
    (fs.sstr = SUFFIX_IMONLINED ∧ group = fs.group) ∨ Reaches after group := by
  obtain ⟨other, hserver, hruns, rfl, hdip⟩ := hreach
  by_cases hsid : other.sid = fs.sid
  · obtain rfl := hunique other hserver hsid
    exact Or.inl ⟨hruns.2, rfl⟩
  · exact Or.inr ⟨other, (hleave other).mpr ⟨hsid, hserver⟩, hruns, rfl, hdip⟩

/-- A server goes, and a group that is left has a server on the ISP if it had one. -/
theorem Holds.onServerRemovedSV (hs : s.Holds (Serves servers) (Reaches servers))
    (hfs : servers fs)
    (hkeeps : fs.sstr = SUFFIX_IMONLINED → (∃ server, Serves after fs.group server) →
      Reaches servers fs.group → Reaches after fs.group)
    (hfree : Free servers) : (s.onServerRemovedSV fs).Holds (Serves after) (Reaches after) := by
  have hserved : ∀ {group}, Serves servers group fs.sid →
      fs.sstr = SUFFIX_IMONLINED ∧ group = fs.group := by
    rintro _ ⟨other, hother, hruns, rfl, hsid⟩
    obtain rfl := hunique other hother hsid
    exact ⟨hruns.2, rfl⟩
  unfold CImOnHashHelper.onServerRemovedSV
  split
  next hname =>
    refine (hs.removeHashNode (hfree.group hfs hname) (hfree.ring hfs hname)).congr
      (fun group server => ?_)
      fun group => ⟨?_, fun hreach => ⟨reaches_of_leave hleave hreach, ?_⟩⟩
    · rw [serves_leave_iff hleave]
      refine and_congr_left fun hserver => ⟨?_, fun hother hboth => hother hboth.2⟩
      rintro hnot rfl
      exact hnot ⟨(hserved hserver).2, rfl⟩
    · rintro ⟨hreach, hstays⟩
      rcases reaches_leave hunique hleave hreach with ⟨-, rfl⟩ | hafter
      · obtain ⟨server, hother, hserver⟩ := hstays rfl
        exact hkeeps hname ⟨server, (serves_leave_iff hleave).mpr ⟨hother, hserver⟩⟩ hreach
      · exact hafter
    · rintro rfl
      obtain ⟨other, hother, hruns, hgroup, -⟩ := hreach
      obtain ⟨hsid, hserver⟩ := (hleave other).mp hother
      exact ⟨other.sid, hsid, other, hserver, hruns, hgroup, rfl⟩
  next hname =>
    refine hs.congr (fun group server => ?_) fun group => ⟨?_, reaches_of_leave hleave⟩
    · rw [serves_leave_iff hleave]
      refine (and_iff_right_of_imp ?_).symm
      rintro hserver rfl
      exact hname (hserved hserver).1
    · exact fun hreach => (reaches_leave hunique hleave hreach).resolve_left fun hboth =>
        hname hboth.1

end Leaves

/-- The loop of a refresh adds the servers that run and have an address. -/
theorem Holds.foldl_addServer (hs : s.Holds (fun _ _ => False) fun _ => False)
    {listed : List FavorStrSV} (hgroups : Apart fun group => ∃ fs ∈ listed, fs.group = group)
    (hids : ∀ group, Apart fun server => ∃ fs ∈ listed, fs.group = group ∧ fs.sid = server) :
    (listed.foldl CImOnHashHelper.addServer s).Holds
      (fun group server => ∃ fs ∈ listed, fs.serverStatus = .RUNNING ∧ (fs.dip ≠ 0 ∨ fs.wip ≠ 0) ∧
        group = fs.group ∧ server = fs.sid)
      fun group => ∃ fs ∈ listed, fs.serverStatus = .RUNNING ∧ fs.dip ≠ 0 ∧ group = fs.group := by
  induction listed using List.reverseRecOn with
  | nil => exact hs.congr (fun group server => by simp) fun group => by simp
  | append_singleton past last ih =>
      have hlast : last ∈ past ++ [last] := List.mem_append_right _ List.mem_cons_self
      have hpast := ih
        (hgroups.mono fun group hgroup => hgroup.imp fun fs hboth =>
          ⟨List.mem_append_left _ hboth.1, hboth.2⟩)
        fun group => (hids group).mono fun server hserver => hserver.imp fun fs hboth =>
          ⟨List.mem_append_left _ hboth.1, hboth.2⟩
      rw [List.foldl_append, List.foldl_cons, List.foldl_nil]
      refine (hpast.addServer (hgroups.mono fun group hgroup => ?_)
        ((hids last.group).mono fun server hserver => ?_)).congr
          (fun group server => ?_) fun group => ?_
      · rcases hgroup with rfl | ⟨fs, hfs, -, -, rfl⟩
        · exact ⟨last, hlast, rfl⟩
        · exact ⟨fs, List.mem_append_left _ hfs, rfl⟩
      · rcases hserver with rfl | ⟨fs, hfs, -, -, hgroup, rfl⟩
        · exact ⟨last, hlast, rfl, rfl⟩
        · exact ⟨fs, List.mem_append_left _ hfs, hgroup.symm, rfl⟩
      · simp [or_and_right, exists_or, or_comm]
      · simp [or_and_right, exists_or, or_comm]

variable {client : DaemonClient}

theorem Holds.onRefreshSV (hs : s.Holds serves reach) (htabled : client.Tabled)
    (haddress : ∀ fs, client.Knows fs → RunsAs fs SUFFIX_IMONLINED → fs.dip ≠ 0 ∨ fs.wip ≠ 0)
    (hfree : Free client.Knows) :
    (s.onRefreshSV client).Holds (Serves client.Knows) (Reaches client.Knows) := by
  have hlisted : ∀ fs, fs ∈ client.getServersByNameSV SUFFIX_IMONLINED ↔
      client.Knows fs ∧ fs.sstr = SUFFIX_IMONLINED := fun _ => htabled.mem_getServersByNameSV
  refine (hs.cleared.foldl_addServer (hfree.groups.mono fun group hgroup => ?_)
    fun group => (hfree.ids group).mono fun server hserver => ?_).congr
      (fun group server => ⟨?_, ?_⟩) fun group => ⟨?_, ?_⟩
  · obtain ⟨fs, hfs, hgroup⟩ := hgroup
    obtain ⟨hknows, hname⟩ := (hlisted fs).mp hfs
    exact ⟨fs, hknows, hname, hgroup⟩
  · obtain ⟨fs, hfs, hboth⟩ := hserver
    obtain ⟨hknows, hname⟩ := (hlisted fs).mp hfs
    exact ⟨fs, hknows, hname, hboth⟩
  · rintro ⟨fs, hfs, hruns, -, rfl, rfl⟩
    obtain ⟨hknows, hname⟩ := (hlisted fs).mp hfs
    exact ⟨fs, hknows, ⟨hruns, hname⟩, rfl, rfl⟩
  · rintro ⟨fs, hknows, hruns, rfl, rfl⟩
    exact ⟨fs, (hlisted fs).mpr ⟨hknows, hruns.2⟩, hruns.1, haddress fs hknows hruns, rfl, rfl⟩
  · rintro ⟨fs, hfs, hruns, hdip, rfl⟩
    obtain ⟨hknows, hname⟩ := (hlisted fs).mp hfs
    exact ⟨fs, hknows, ⟨hruns, hname⟩, rfl, hdip⟩
  · rintro ⟨fs, hknows, hruns, rfl, hdip⟩
    exact ⟨fs, (hlisted fs).mpr ⟨hknows, hruns.2⟩, hruns.1, hdip, rfl⟩

/-! ## Runs -/

/-- Both levels follow the servers that run; users go to a server on the ISP's groups as long as
there is one; and the batch forms assign the servers of the groups. -/
structure Current (st : Watched CImOnHashHelper) : Prop where
  group : Circle st.watcher.hashGroup (Reaches st.client.Knows)
  rings : Rings st.watcher.mapGrpConsisHash (Serves st.client.Knows)
  doubleHash_iff : ∀ uUid, st.watcher.doubleHash uUid = ConsistentHash.noServer ↔
    ∀ uGroupId, ¬ Reaches st.client.Knows uGroupId
  doubleHash_serves : (∃ uGroupId, Reaches st.client.Knows uGroupId) → ∀ uUid,
    Reaches st.client.Knows (st.watcher.hashBySrvGrp uUid) ∧
      Serves st.client.Knows (st.watcher.hashBySrvGrp uUid) (st.watcher.doubleHash uUid)
  batch : ∀ uGroupId setUid map,
    Extends map (st.watcher.batchHashInOneSrvGrp uGroupId setUid map) fun server uid =>
      uid ∈ setUid.elems ∧ server = st.watcher.hashInOneSrvGrp uid uGroupId ∧
        server ≠ ConsistentHash.noServer
  batchAll : ∀ uSrvGrp setUids map,
    Extends map (st.watcher.batchHashInAllSrvGrpEx uSrvGrp setUids map) fun server uid =>
      uid ∈ setUids.elems ∧ server ≠ ConsistentHash.noServer ∧
        ∃ uGroupId, uGroupId ≠ uSrvGrp ∧ server = st.watcher.hashInOneSrvGrp uid uGroupId
  batchUid : ∀ uSrvGrp uUid setSrvs server,
    server ∈ (st.watcher.batchHashInAllSrvGrpExUid uSrvGrp uUid setSrvs).elems ↔
      (server ≠ ConsistentHash.noServer ∧
        ∃ uGroupId, uGroupId ≠ uSrvGrp ∧ server = st.watcher.hashInOneSrvGrp uUid uGroupId) ∨
        server ∈ setSrvs.elems

def Collisionless (st : Watched CImOnHashHelper) : Prop := Free st.client.Knows

/-- No group on the ISP has the number for no server, nor has a server of it. -/
def Numbers (client : DaemonClient) : Prop :=
  ∀ uGroupId, Reaches client.Knows uGroupId → uGroupId ≠ ConsistentHash.noServer ∧
    ∀ uServerId, Serves client.Knows uGroupId uServerId → uServerId ≠ ConsistentHash.noServer

/-- What a call must be like. A server that is added, or whose status changes, leaves no group,
takes none off the ISP, and has an address if it runs. A server that is removed is not the last
one on the ISP of a group that it leaves behind. After a refresh all servers that run have an
address. -/
def KeepsCall (st : Watched CImOnHashHelper) (next : DaemonClient) : Option WatcherCall → Prop
  | some (.onAddSV fs) | some (.onServerStatusChangeSV fs) =>
      (∀ uGroupId uServerId, Serves st.client.Knows uGroupId uServerId →
        Serves next.Knows uGroupId uServerId) ∧
      (∀ uGroupId, Reaches st.client.Knows uGroupId → Reaches next.Knows uGroupId) ∧
      (RunsAs fs SUFFIX_IMONLINED →
        fs.dip ≠ 0 ∨ fs.wip ≠ 0 ∨ Serves st.client.Knows fs.group fs.sid)
  | some (.onServerRemovedSV fs) =>
      fs.sstr = SUFFIX_IMONLINED → (∃ uServerId, Serves next.Knows fs.group uServerId) →
        Reaches st.client.Knows fs.group → Reaches next.Knows fs.group
  | some .onRefreshSV | some .onRecoverRefreshSV =>
      ∀ fs, next.Knows fs → RunsAs fs SUFFIX_IMONLINED → fs.dip ≠ 0 ∨ fs.wip ≠ 0
  | none => True

def Keeps (st : Watched CImOnHashHelper) (message : DaemonNotice) : Prop :=
  KeepsCall st (st.client.notice message).1 (st.client.notice message).2 ∧
    Numbers (st.client.notice message).1

/-- What holds of a state in a run that keeps the circles. -/
structure Kept (st : Watched CImOnHashHelper) : Prop where
  tabled : st.client.Tabled
  holds : st.watcher.Holds (Serves st.client.Knows) (Reaches st.client.Knows)
  numbers : Numbers st.client

variable {st : Watched CImOnHashHelper}

theorem Kept.current (hst : Kept st) : Current st where
  group := hst.holds.group
  rings := hst.holds.rings
  doubleHash_iff uUid := (hst.holds.doubleHash hst.numbers uUid).1
  doubleHash_serves hsome uUid := (hst.holds.doubleHash hst.numbers uUid).2 hsome
  batch := st.watcher.extends_batchHashInOneSrvGrp
  batchAll := st.watcher.extends_batchHashInAllSrvGrpEx
  batchUid := st.watcher.mem_batchHashInAllSrvGrpExUid

/-- A call that keeps the circles. -/
theorem Kept.holds_call {call : Option WatcherCall} (hst : Kept st) (htabled : client.Tabled)
    (hnoticed : DaemonClient.Noticed st.client client call) (hkeeps : KeepsCall st client call)
    (hbefore : Free st.client.Knows) (hafter : Free client.Knows) :
    (Watched.told on client st.watcher call).Holds (Serves client.Knows)
      (Reaches client.Knows) := by
  cases hnoticed with
  | quiet hknown => exact DaemonClient.knows_quiet hknown ▸ hst.holds
  | enters hwire hcall hknown =>
      have henter := DaemonClient.knows_enter hknown
      rcases hcall with rfl | rfl
      · exact hst.holds.onAddSV henter hkeeps.1 hkeeps.2.1 hkeeps.2.2 hafter
      · exact hst.holds.onAddSV henter hkeeps.1 hkeeps.2.1 hkeeps.2.2 hafter
  | leaves hold hknown =>
      exact hst.holds.onServerRemovedSV (fun other hother => hother.unique hold)
        (DaemonClient.knows_leave hknown) hold hkeeps hbefore
  | refreshed hcall =>
      rcases hcall with rfl | rfl
      · exact hst.holds.onRefreshSV htabled hkeeps hafter
      · exact hst.holds.onRefreshSV htabled hkeeps hafter

theorem Kept.step {next : Watched CImOnHashHelper} {message : DaemonNotice} (hst : Kept st)
    (hkeeps : Keeps st message) (hbefore : Collisionless st) (hafter : Collisionless next)
    (hstep : Watched.step on st message = some next) : Kept next := by
  obtain ⟨htabled, hnoticed⟩ := DaemonClient.notice_spec hst.tabled message
  rw [Watched.step_eq] at hstep
  cases hstep
  exact ⟨htabled, hst.holds_call htabled hnoticed hkeeps.1 hbefore hafter, hkeeps.2⟩

/-- The client and the helper as they are when the connection to the daemon starts. -/
def start (serverGroupId : Option Nat) : Watched CImOnHashHelper := ⟨.new serverGroupId, new⟩

theorem kept_start (serverGroupId : Option Nat) : Kept (start serverGroupId) := by
  have hserves : ∀ uGroupId uServerId,
      ¬ Serves (start serverGroupId).client.Knows uGroupId uServerId := by
    rintro uGroupId uServerId ⟨fs, hknows, -⟩
    exact DaemonClient.not_knows_new serverGroupId hknows
  have hreaches : ∀ uGroupId, ¬ Reaches (start serverGroupId).client.Knows uGroupId := by
    rintro uGroupId ⟨fs, hknows, -⟩
    exact DaemonClient.not_knows_new serverGroupId hknows
  refine ⟨DaemonClient.tabled_new serverGroupId, ?_, fun uGroupId hreach => ?_⟩
  · exact holds_new.congr (fun uGroupId uServerId => iff_of_false id (hserves _ _))
      fun uGroupId => iff_of_false id (hreaches uGroupId)
  · exact absurd hreach (hreaches uGroupId)

/-- The circles follow the servers in every run whose messages all keep them and whose points do not
collide. -/
theorem circles_throughout (serverGroupId : Option Nat) (messages : List DaemonNotice)
    (hkeeps : Along (Watched.step on) Keeps (start serverGroupId) messages)
    (hfree : Throughout (Watched.step on) Collisionless (start serverGroupId) messages) :
    Throughout (Watched.step on) Current (start serverGroupId) messages :=
  throughout_of_along
    (fun _ _ next (hst : Kept _) hcond hstep =>
      hst.step hcond.1 hcond.2.1 (hcond.2.2 next hstep) hstep)
    (fun _ hst => hst.current) (kept_start serverGroupId) (along_and.mpr ⟨hkeeps, hfree.along⟩)

/-- Servers of one group, on the ISP or not. -/
def groupServer (dip wip : Bool) (serverId : UInt32) : WireSV :=
  ⟨{ sstr := SUFFIX_IMONLINED, dip := dip.toNat, wip := wip.toNat, port := 0,
     serverId := serverId.toNat, groupId := 1, serverStatus := .RUNNING },
   dip.toNat_lt.trans (by decide), wip.toNat_lt.trans (by decide), serverId.toNat_lt,
   (by decide : 1 < 2 ^ 32)⟩

/-- Two servers of a group do not collide. -/
theorem free_of_two
    (hservers : ∀ entry ∈ client.sid2FavorSV.entries,
      entry.2.group = 1 ∧ (entry.2.sid = 5 ∨ entry.2.sid = 6)) : Free client.Knows := by
  have hknown : ∀ fs, client.Knows fs → fs.group = 1 ∧ (fs.sid = 5 ∨ fs.sid = 6) :=
    fun fs hknows => hservers _ (OrderedMap.mem_entries.mpr hknows)
  -- undoing the last three bytes of the index, a point tells its server
  have hfive : ∀ position ∈ pairHashMap.points 5,
      position * 2445655651 % 2 ^ 32 / 256 = 9493819 := by
    decide +kernel
  have hsix : ∀ position ∈ pairHashMap.points 6,
      position * 2445655651 % 2 ^ 32 / 256 = 14748026 := by
    decide +kernel
  have hpoints : ∀ position ∈ pairHashMap.points 5, position ∉ pairHashMap.points 6 := by
    intro position hposition hposition'
    have hsame := (hfive position hposition).symm.trans (hsix position hposition')
    omega
  refine ⟨?_, fun uGroupId => ?_⟩
  · rintro _ _ ⟨fs, hfs, -, rfl⟩ ⟨other, hother, -, rfl⟩ - - -
    rw [(hknown fs hfs).1, (hknown other hother).1]
  · rintro _ _ ⟨fs, hfs, -, -, rfl⟩ ⟨other, hother, -, -, rfl⟩ position hposition hposition'
    change position ∈ pairHashMap.points _ at hposition hposition'
    rcases (hknown fs hfs).2 with hsid | hsid <;> rcases (hknown other hother).2 with hsid' | hsid'
    · rw [hsid, hsid']
    · rw [hsid] at hposition
      rw [hsid'] at hposition'
      exact absurd hposition' (hpoints position hposition)
    · rw [hsid] at hposition
      rw [hsid'] at hposition'
      exact absurd hposition (hpoints position hposition')
    · rw [hsid, hsid']

theorem numbers_of_two
    (hservers : ∀ entry ∈ client.sid2FavorSV.entries,
      entry.2.group = 1 ∧ (entry.2.sid = 5 ∨ entry.2.sid = 6)) : Numbers client := by
  rintro _ ⟨fs, hfs, -, rfl, -⟩
  refine ⟨?_, ?_⟩
  · rw [(hservers _ (OrderedMap.mem_entries.mpr hfs)).1]
    decide
  · rintro _ ⟨other, hother, -, -, rfl⟩
    rcases (hservers _ (OrderedMap.mem_entries.mpr hother)).2 with hsid | hsid
    · rw [hsid]
      decide
    · rw [hsid]
      decide

theorem not_reaches_of_dip (hservers : ∀ entry ∈ client.sid2FavorSV.entries, entry.2.dip = 0)
    (uGroupId : UInt32) : ¬ Reaches client.Knows uGroupId := by
  rintro ⟨fs, hknows, -, -, hdip⟩
  exact hdip (hservers _ (OrderedMap.mem_entries.mpr hknows))

/-- A server that comes and goes. -/
theorem circles_of_one :
    Throughout (Watched.step on) Current (start none)
      [.onServerAddSV (groupServer true false 5), .onServerRemoveSV 5] := by
  refine circles_throughout none _ ⟨⟨⟨?_, ?_, ?_⟩, ?_⟩, ?_⟩ ⟨?_, ?_⟩
  · rintro uGroupId uServerId ⟨fs, hknows, -⟩
    exact absurd hknows (DaemonClient.not_knows_new none)
  · rintro uGroupId ⟨fs, hknows, -⟩
    exact absurd hknows (DaemonClient.not_knows_new none)
  · exact fun _ => Or.inl (by decide)
  · exact numbers_of_two (by decide +kernel)
  · intro next hstep
    cases hstep
    refine ⟨⟨?_, numbers_of_two (by decide +kernel)⟩, fun _ _ => trivial⟩
    rintro - ⟨uServerId, fs, hknows, -⟩
    exact absurd (OrderedMap.mem_entries.mpr hknows) List.not_mem_nil
  · exact free_of_two (by decide +kernel)
  · intro next hstep
    cases hstep
    refine ⟨free_of_two (by decide +kernel), fun next hstep => ?_⟩
    cases hstep
    exact free_of_two (by decide +kernel)

/-- The last server on the ISP goes, and another one of the group stays. -/
theorem not_circles_of_mixed : ¬ ∀ serverGroupId messages,
    Throughout (Watched.step on) Collisionless (start serverGroupId) messages →
      Throughout (Watched.step on) Current (start serverGroupId) messages := by
  intro hall
  have hrun := hall none
    [.onServerAddSV (groupServer true false 5), .onServerAddSV (groupServer false true 6),
      .onServerRemoveSV 5] (by
      refine ⟨free_of_two (by decide +kernel), fun next hstep => ?_⟩
      cases hstep
      refine ⟨free_of_two (by decide +kernel), fun next hstep => ?_⟩
      cases hstep
      refine ⟨free_of_two (by decide +kernel), fun next hstep => ?_⟩
      cases hstep
      exact free_of_two (by decide +kernel))
  have hfinal : Current _ := ((hrun.2 _ rfl).2 _ rfl).2 _ rfl
  have hnone := (hfinal.doubleHash_iff 0).mpr (not_reaches_of_dip (by decide +kernel))
  revert hnone
  decide +kernel

end CImOnHashHelper

end ServiceFrame
