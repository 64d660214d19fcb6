import Mathlib.Data.List.Perm.Subperm
import ServiceFrame.ServerLib.Watcher

/-! # Two routes

`CDRouteServer` of `service/imlib/ImDoubleRoute.cpp` numbers the running servers of a name in the
order of their ids: those of the two net types, and all. Of a sequence id, a master and a slave are
taken by these numbers.
-/

namespace ServiceFrame

open Foundation

/-! ## Numbers -/

/-- There are no more ids than numbers. -/
theorem IdSet.length_le_of_nodup {ids : List UInt32} (hids : ids.Nodup) : ids.length ≤ 2 ^ 32 := by
  have hnodup : (ids.map UInt32.toNat).Nodup := hids.map fun _ _ heq => UInt32.toNat_inj.mp heq
  have hsubset : ids.map UInt32.toNat ⊆ List.range (2 ^ 32) := by
    intro value hvalue
    obtain ⟨id, -, rfl⟩ := List.mem_map.mp hvalue
    exact List.mem_range.mpr id.toNat_lt
  have hlength := (hnodup.subperm hsubset).length_le
  rwa [List.length_map, List.length_range] at hlength

/-- The loop that numbers ids, from `uNumber` on. -/
def numberFrom (uNumber : UInt32) (map : OrderedMap UInt32 UInt32) :
    List UInt32 → OrderedMap UInt32 UInt32
  | [] => map
  | id :: rest => numberFrom (uNumber + 1) (map.insert uNumber id) rest

def renumber (set : IdSet) : OrderedMap UInt32 UInt32 := numberFrom 0 .empty set.elems

theorem numberFrom_concat (uNumber : UInt32) (map : OrderedMap UInt32 UInt32) (past : List UInt32)
    (last : UInt32) : numberFrom uNumber map (past ++ [last]) =
      (numberFrom uNumber map past).insert (uNumber + UInt32.ofNat past.length) last := by
  induction past generalizing uNumber map with
  | nil => simp [numberFrom]
  | cons id rest ih =>
      rw [List.cons_append, numberFrom, ih, numberFrom, List.length_cons, UInt32.ofNat_add,
        UInt32.add_assoc, UInt32.add_comm 1]
      rfl

/-- The numbers are the places in the list. -/
theorem find_numberFrom {ids : List UInt32} (hroom : ids.length ≤ 2 ^ 32) (number : UInt32) :
    (numberFrom 0 .empty ids).find number = ids[number.toNat]? := by
  induction ids using List.reverseRecOn with
  | nil => rfl
  | append_singleton past last ih =>
      rw [List.length_append, List.length_singleton] at hroom
      have hplace : (UInt32.ofNat past.length).toNat = past.length :=
        UInt32.toNat_ofNat_of_lt' (show past.length < 2 ^ 32 by omega)
      have hpast := ih (by omega)
      rw [numberFrom_concat, UInt32.zero_add, OrderedMap.find_insert, Function.update_apply]
      by_cases hnumber : number = UInt32.ofNat past.length
      · rw [if_pos hnumber, ← hnumber, hpast, hnumber, hplace]
        simp
      · have hne : number.toNat ≠ past.length := by
          intro heq
          exact hnumber (UInt32.toNat_inj.mp (heq.trans hplace.symm))
        rw [if_neg hnumber, hpast, List.getElem?_append]
        split
        next => rfl
        next hge =>
          rw [List.getElem?_eq_none (by omega), List.getElem?_eq_none]
          rw [List.length_singleton]
          omega

theorem find_renumber (set : IdSet) (number : UInt32) :
    (renumber set).find number = set.elems[number.toNat]? :=
  find_numberFrom (IdSet.length_le_of_nodup (IdSet.elems_nodup set)) number

/-- The loop makes an entry of each id. -/
theorem entries_numberFrom {ids : List UInt32} (hroom : ids.length ≤ 2 ^ 32) :
    (numberFrom 0 .empty ids).entries =
      ids.zipIdx.map fun place => (UInt32.ofNat place.2, place.1) := by
  induction ids using List.reverseRecOn with
  | nil => rfl
  | append_singleton past last ih =>
      rw [List.length_append, List.length_singleton] at hroom
      have hpast := ih (by omega)
      have hplace : (UInt32.ofNat past.length).toNat = past.length :=
        UInt32.toNat_ofNat_of_lt' (show past.length < 2 ^ 32 by omega)
      have hlast : ∀ entry ∈ (numberFrom 0 .empty past).entries,
          entry.1 < UInt32.ofNat past.length := by
        intro entry hentry
        have hfind := OrderedMap.mem_entries.mp hentry
        rw [find_numberFrom (by omega)] at hfind
        rw [UInt32.lt_iff_toNat_lt, hplace]
        exact (List.getElem?_eq_some_iff.mp hfind).1
      have hnone : (numberFrom 0 .empty past).find (UInt32.ofNat past.length) = none := by
        rw [find_numberFrom (by omega), hplace]
        simp
      rw [numberFrom_concat, UInt32.zero_add, OrderedMap.insert, hnone, Option.isSome_none,
        if_neg Bool.false_ne_true, OrderedMap.entries_set_last hlast, hpast]
      simp [List.zipIdx_append]

theorem entries_renumber (set : IdSet) : (renumber set).entries.map Prod.snd = set.elems := by
  rw [renumber, entries_numberFrom (IdSet.length_le_of_nodup (IdSet.elems_nodup set)),
    List.map_map]
  exact List.zipIdx_map_fst 0 set.elems

/-- The ids of a `m_setServer…` and the numbers of its `m_mapServer…`. -/
structure Numbering where
  set : IdSet
  map : OrderedMap UInt32 UInt32

namespace Numbering

def empty : Numbering := ⟨.empty, .empty⟩

def insertId (numbering : Numbering) (id : UInt32) : Numbering :=
  { numbering with set := numbering.set.set id () }

def renumbered (numbering : Numbering) : Numbering :=
  { numbering with map := renumber numbering.set }

def insert (numbering : Numbering) (id : UInt32) : Numbering := (numbering.insertId id).renumbered

def erase (numbering : Numbering) (id : UInt32) : Numbering :=
  renumbered { numbering with set := numbering.set.erase id }

end Numbering

/-! ## The servers of a name -/

def CTL : UInt32 := 1

def CNC : UInt32 := 2

/-- The net type that a server's addresses make it. -/
def getNetType (fs : FavorStrSV) : UInt32 :=
  if fs.dip = 0 ∧ fs.wip ≠ 0 then CNC
  else if fs.dip ≠ 0 ∧ fs.wip = 0 then CTL
  else if fs.dip ≠ 0 ∧ fs.wip ≠ 0 then CNC ||| CTL
  else 0xFFFFFFFF

structure CDRouteServer where
  strServerName : String
  cnc : Numbering
  ctl : Numbering
  all : Numbering

namespace CDRouteServer

def new (strServerName : String) : CDRouteServer := ⟨strServerName, .empty, .empty, .empty⟩

/-- The numbering that a net type selects. -/
def numbering (s : CDRouteServer) (uNetType : UInt32) : Numbering :=
  if uNetType = CNC then s.cnc else if uNetType = CTL then s.ctl else s.all

/-- The `size()` of the map, cut to an `uint32_t`. -/
def getServerCount (s : CDRouteServer) (uNetType : UInt32) : UInt32 :=
  UInt32.ofNat (s.numbering uNetType).map.entries.length

def number2ServerId (s : CDRouteServer) (uNumber uNetType : UInt32) : UInt32 :=
  ((s.numbering uNetType).map.find uNumber).getD 0xFFFFFFFF

/-- The first number whose id it is. -/
def serverId2Number (s : CDRouteServer) (uServerId uNetType : UInt32) : UInt32 :=
  (((s.numbering uNetType).map.entries.find? fun entry => entry.2 = uServerId).map
    Prod.fst).getD 0xFFFFFFFF

/-- The numberings that a server counts in are updated: that of its net type, and that of all. -/
def updateTyped (s : CDRouteServer) (fs : FavorStrSV) (update : Numbering → Numbering) :
    CDRouteServer :=
  let uNetType := getNetType fs
  if uNetType = CTL then { s with ctl := update s.ctl, all := update s.all }
  else if uNetType = CNC then { s with cnc := update s.cnc, all := update s.all }
  else { s with all := update s.all }

/-- What the loop of `__FreshServerSet` does with a server. -/
def freshInsert (s : CDRouteServer) (fs : FavorStrSV) : CDRouteServer :=
  if fs.serverStatus = .RUNNING then s.updateTyped fs (·.insertId fs.sid) else s

/-- `__FreshServerSet`. Of the sets, only that of all servers is cleared. -/
def freshServerSet (s : CDRouteServer) (client : DaemonClient) : CDRouteServer :=
  let filled := (client.getServersByNameSV s.strServerName).foldl freshInsert
    { s with all := { s.all with set := .empty } }
  { filled with
    ctl := filled.ctl.renumbered
    cnc := filled.cnc.renumbered
    all := filled.all.renumbered }

def addServerToSet (s : CDRouteServer) (fs : FavorStrSV) : CDRouteServer :=
  if fs.sstr = s.strServerName ∧ fs.serverStatus = .RUNNING then
    s.updateTyped fs (·.insert fs.sid)
  else s

def delServerFromSet (s : CDRouteServer) (fs : FavorStrSV) : CDRouteServer :=
  if fs.sstr = s.strServerName then s.updateTyped fs (·.erase fs.sid) else s

/-- The handlers. A change of status is handled as an addition. -/
def on (client : DaemonClient) (s : CDRouteServer) : WatcherCall → CDRouteServer
  | .onAddSV fs => s.addServerToSet fs
  | .onServerStatusChangeSV fs => s.addServerToSet fs
  | .onServerRemovedSV fs => s.delServerFromSet fs
  | .onRefreshSV => s.freshServerSet client
  | .onRecoverRefreshSV => s.freshServerSet client

/-- The `number`th of the net type: `-1` without a server. The two route classes choose their
masters and slaves alike. -/
def routeId (s : CDRouteServer) (number uNetType : UInt32) : UInt32 :=
  if s.getServerCount uNetType = 0 then 0xFFFFFFFF
  else s.number2ServerId (number % s.getServerCount uNetType) uNetType

end CDRouteServer

namespace CDRouteImChat2

def new : CDRouteServer := .new "imct2"

def getMasterImChat2Id (s : CDRouteServer) (uSeqId uNetType : UInt32) : UInt32 :=
  s.routeId uSeqId uNetType

def getSlaveImChat2Id (s : CDRouteServer) (uSeqId uNetType : UInt32) : UInt32 :=
  s.routeId (uSeqId + 1) uNetType

end CDRouteImChat2

namespace CDRouteImBridge

def new : CDRouteServer := .new "imbridge"

def getMasterImBridgeId (s : CDRouteServer) (uSeqId uNetType : UInt32) : UInt32 :=
  s.routeId uSeqId uNetType

def getSlaveImBridgeId (s : CDRouteServer) (uSeqId uNetType : UInt32) : UInt32 :=
  s.routeId (uSeqId + 1) uNetType

end CDRouteImBridge

namespace CDRouteServer

/-! ## Dense numberings -/

/-- The server is one of those that a net type selects. -/
def Typed (uNetType : UInt32) (fs : FavorStrSV) : Prop :=
  (uNetType = CNC → getNetType fs = CNC) ∧ (uNetType = CTL → getNetType fs = CTL)

instance decidableTyped (uNetType : UInt32) (fs : FavorStrSV) : Decidable (Typed uNetType fs) :=
  inferInstanceAs (Decidable (_ ∧ _))

/-- The server runs under the name, with the net type. -/
def Serves (name : String) (uNetType : UInt32) (fs : FavorStrSV) : Prop :=
  DaemonClient.RunsAs fs name ∧ Typed uNetType fs

instance decidableServes (name : String) (uNetType : UInt32) (fs : FavorStrSV) :
    Decidable (Serves name uNetType fs) := inferInstanceAs (Decidable (_ ∧ _))

/-- The id is that of such a server now. -/
def Live (client : DaemonClient) (name : String) (uNetType id : UInt32) : Prop :=
  ∃ fs, client.known id = some fs ∧ Serves name uNetType fs

/-- The numbers of a net type are the places of the good ids in their order. -/
def Dense (s : CDRouteServer) (uNetType : UInt32) (good : UInt32 → Prop) : Prop :=
  ∃ ids : List UInt32, ids.Pairwise (· < ·) ∧ (∀ id, id ∈ ids ↔ good id) ∧
    (∀ number, (s.numbering uNetType).map.find number = ids[number.toNat]?) ∧
    (∀ number, number.toNat < ids.length →
      s.serverId2Number (s.number2ServerId number uNetType) uNetType = number) ∧
    ∀ id ∈ ids, s.number2ServerId (s.serverId2Number id uNetType) uNetType = id

/-- The maps are those that the loops make of the sets. -/
def Numbered (s : CDRouteServer) : Prop :=
  ∀ uNetType, (s.numbering uNetType).map = renumber (s.numbering uNetType).set

variable {s : CDRouteServer} {uNetType : UInt32} {good : UInt32 → Prop}

theorem numbered_new (name : String) : Numbered (new name) := by
  intro uNetType
  unfold numbering new
  split_ifs <;> rfl

theorem find_numbering (hs : Numbered s) (number : UInt32) :
    (s.numbering uNetType).map.find number = (s.numbering uNetType).set.elems[number.toNat]? := by
  rw [hs, find_renumber]

/-- An id is found at its place. -/
theorem serverId2Number_of_find (hs : Numbered s) {number id : UInt32}
    (hfind : (s.numbering uNetType).map.find number = some id) :
    s.serverId2Number id uNetType = number := by
  have hsome : ((s.numbering uNetType).map.entries.find? fun entry => entry.2 = id).isSome := by
    rw [List.find?_isSome]
    exact ⟨(number, id), OrderedMap.mem_entries.mpr hfind, by simp⟩
  obtain ⟨entry, hentry⟩ := Option.isSome_iff_exists.mp hsome
  have hvalue : entry.2 = id := by simpa using List.find?_some hentry
  have hother : (s.numbering uNetType).map.find entry.1 = some id := by
    rw [← hvalue]
    exact OrderedMap.mem_entries.mp (List.mem_of_find?_eq_some hentry)
  rw [find_numbering hs] at hfind hother
  have hplace : entry.1.toNat = number.toNat := by
    have hlt := (List.getElem?_eq_some_iff.mp hother).1
    exact (List.getElem?_inj hlt (IdSet.elems_nodup _)).mp (hother.trans hfind.symm)
  rw [serverId2Number, hentry]
  exact UInt32.toNat_inj.mp hplace

/-- A numbering that is kept is dense on the ids of its set. -/
theorem dense_iff (hs : Numbered s) :
    Dense s uNetType good ↔ ∀ id, id ∈ (s.numbering uNetType).set.elems ↔ good id := by
  constructor
  · rintro ⟨ids, hsorted, hids, hfind, -, -⟩ id
    have hsame : (s.numbering uNetType).set.elems = ids := by
      apply List.ext_getElem?
      intro place
      by_cases hplace : place < 2 ^ 32
      · have hnumber : (UInt32.ofNat place).toNat = place := UInt32.toNat_ofNat_of_lt' hplace
        rw [← hnumber, ← hfind, find_numbering hs]
      · have hlength := IdSet.length_le_of_nodup
          (IdSet.elems_nodup (s.numbering uNetType).set)
        have hlength' := IdSet.length_le_of_nodup (hsorted.imp fun hless => ne_of_lt hless)
        rw [List.getElem?_eq_none (by omega), List.getElem?_eq_none (by omega)]
    rw [hsame]
    exact hids id
  · intro hset
    have hgetD : ∀ {number id : UInt32}, (s.numbering uNetType).map.find number = some id →
        s.number2ServerId number uNetType = id := by
      intro number id hfind
      rw [number2ServerId, hfind]
      rfl
    refine ⟨_, IdSet.elems_sorted _, hset, find_numbering hs, ?_, ?_⟩
    · intro number hnumber
      have hfind : (s.numbering uNetType).map.find number = some _ :=
        (find_numbering hs number).trans (List.getElem?_eq_getElem hnumber)
      rw [hgetD hfind, serverId2Number_of_find hs hfind]
    · intro id hid
      obtain ⟨place, hplace, rfl⟩ := List.getElem_of_mem hid
      have hlength := IdSet.length_le_of_nodup (IdSet.elems_nodup (s.numbering uNetType).set)
      have hnumber : (UInt32.ofNat place).toNat = place :=
        UInt32.toNat_ofNat_of_lt' (show place < 2 ^ 32 by omega)
      have hfind : (s.numbering uNetType).map.find (UInt32.ofNat place) = some _ :=
        (find_numbering hs _).trans (by rw [hnumber]; exact List.getElem?_eq_getElem hplace)
      rw [serverId2Number_of_find hs hfind, hgetD hfind]

/-! ## What the handlers do to a numbering -/

variable {fs : FavorStrSV}

theorem ctl_ne_cnc : CTL ≠ CNC := by decide

theorem updateTyped_name (s : CDRouteServer) (fs : FavorStrSV) (update : Numbering → Numbering) :
    (s.updateTyped fs update).strServerName = s.strServerName := by
  unfold updateTyped
  dsimp only
  split_ifs <;> rfl

theorem updateTyped_numbering (s : CDRouteServer) (fs : FavorStrSV)
    (update : Numbering → Numbering) (uNetType : UInt32) :
    (s.updateTyped fs update).numbering uNetType =
      if Typed uNetType fs then update (s.numbering uNetType) else s.numbering uNetType := by
  unfold updateTyped numbering Typed
  by_cases hctl : getNetType fs = CTL
  · by_cases huCnc : uNetType = CNC
    · simp [hctl, huCnc, ctl_ne_cnc]
    · by_cases huCtl : uNetType = CTL
      · simp [hctl, huCtl, ctl_ne_cnc]
      · simp [hctl, huCnc, huCtl]
  · by_cases huCnc : uNetType = CNC
    · by_cases hcnc : getNetType fs = CNC
      · simp [hcnc, huCnc, ctl_ne_cnc.symm]
      · simp [hctl, hcnc, huCnc]
    · by_cases huCtl : uNetType = CTL
      · simp only [hctl, huCtl, ctl_ne_cnc, if_false, and_false, forall_true_left]
        split_ifs <;> rfl
      · simp only [hctl, huCtl, huCnc, if_false, false_implies, and_self, if_true]
        split_ifs <;> rfl

theorem addServerToSet_numbering (s : CDRouteServer) (fs : FavorStrSV) (uNetType : UInt32) :
    (s.addServerToSet fs).numbering uNetType =
      if Serves s.strServerName uNetType fs then (s.numbering uNetType).insert fs.sid
      else s.numbering uNetType := by
  have hserves : Serves s.strServerName uNetType fs ↔
      (fs.sstr = s.strServerName ∧ fs.serverStatus = .RUNNING) ∧ Typed uNetType fs :=
    and_congr_left' and_comm
  unfold addServerToSet
  split
  next hruns =>
    rw [updateTyped_numbering]
    simp [hserves, hruns]
  next hnot => simp [hserves, hnot]

theorem delServerFromSet_numbering (s : CDRouteServer) (fs : FavorStrSV) (uNetType : UInt32) :
    (s.delServerFromSet fs).numbering uNetType =
      if fs.sstr = s.strServerName ∧ Typed uNetType fs then (s.numbering uNetType).erase fs.sid
      else s.numbering uNetType := by
  unfold delServerFromSet
  split
  next hname =>
    rw [updateTyped_numbering]
    simp [hname]
  next hname => simp [hname]

theorem freshInsert_numbering (s : CDRouteServer) (fs : FavorStrSV) (uNetType : UInt32) :
    (s.freshInsert fs).numbering uNetType =
      if fs.serverStatus = .RUNNING ∧ Typed uNetType fs then
        (s.numbering uNetType).insertId fs.sid
      else s.numbering uNetType := by
  unfold freshInsert
  split
  next hruns =>
    rw [updateTyped_numbering]
    simp [hruns]
  next hruns => simp [hruns]

theorem handler_name (client : DaemonClient) (s : CDRouteServer) (call : WatcherCall) :
    (on client s call).strServerName = s.strServerName := by
  have hadd : ∀ fs, (s.addServerToSet fs).strServerName = s.strServerName := by
    intro fs
    unfold addServerToSet
    split
    · exact updateTyped_name s fs _
    · rfl
  have hloop : ∀ (servers : List FavorStrSV) (s : CDRouteServer),
      (servers.foldl freshInsert s).strServerName = s.strServerName := by
    intro servers
    induction servers with
    | nil => exact fun _ => rfl
    | cons fs rest ih =>
        intro s
        rw [List.foldl_cons, ih]
        unfold freshInsert
        split
        · exact updateTyped_name s fs _
        · rfl
  cases call with
  | onAddSV fs => exact hadd fs
  | onServerStatusChangeSV fs => exact hadd fs
  | onServerRemovedSV fs =>
      change (s.delServerFromSet fs).strServerName = s.strServerName
      unfold delServerFromSet
      split
      · exact updateTyped_name s fs _
      · rfl
  | onRefreshSV => exact hloop _ _
  | onRecoverRefreshSV => exact hloop _ _

/-- The handlers renumber what they change. -/
theorem numbered_on (client : DaemonClient) (hs : Numbered s) (call : WatcherCall) :
    Numbered (on client s call) := by
  have hadd : ∀ fs, Numbered (s.addServerToSet fs) := by
    intro fs uNetType
    rw [addServerToSet_numbering]
    split
    · rfl
    · exact hs uNetType
  have hfresh : Numbered (s.freshServerSet client) := by
    intro uNetType
    unfold numbering freshServerSet
    dsimp only
    split_ifs <;> rfl
  cases call with
  | onAddSV fs => exact hadd fs
  | onServerStatusChangeSV fs => exact hadd fs
  | onServerRemovedSV fs =>
      intro uNetType
      change ((s.delServerFromSet fs).numbering uNetType).map = _
      rw [on, delServerFromSet_numbering]
      split
      · rfl
      · exact hs uNetType
  | onRefreshSV => exact hfresh
  | onRecoverRefreshSV => exact hfresh

/-- What the loop of a refresh adds to the sets. -/
theorem mem_foldl_freshInsert (servers : List FavorStrSV) (s : CDRouteServer)
    (uNetType id : UInt32) :
    id ∈ ((servers.foldl freshInsert s).numbering uNetType).set.elems ↔
      id ∈ (s.numbering uNetType).set.elems ∨
        ∃ fs ∈ servers, fs.serverStatus = .RUNNING ∧ Typed uNetType fs ∧ id = fs.sid := by
  induction servers generalizing s with
  | nil => simp
  | cons fs rest ih =>
      rw [List.foldl_cons, ih, freshInsert_numbering]
      split
      next hruns =>
        have hinsert : id ∈ ((s.numbering uNetType).insertId fs.sid).set.elems ↔
            id = fs.sid ∨ id ∈ (s.numbering uNetType).set.elems := IdSet.mem_set _ _ _
        rw [hinsert]
        simp only [List.exists_mem_cons_iff, hruns, true_and]
        tauto
      next hnot =>
        simp only [List.exists_mem_cons_iff]
        tauto

variable {client : DaemonClient}

theorem mem_getServersByNameSV (htabled : client.Tabled) (name : String) (uNetType id : UInt32) :
    (∃ fs ∈ client.getServersByNameSV name,
        fs.serverStatus = .RUNNING ∧ Typed uNetType fs ∧ id = fs.sid) ↔
      Live client name uNetType id := by
  constructor
  · rintro ⟨fs, hmem, hruns, htyped, rfl⟩
    obtain ⟨hknows, hname⟩ := htabled.mem_getServersByNameSV.mp hmem
    exact ⟨fs, hknows, ⟨hruns, hname⟩, htyped⟩
  · rintro ⟨fs, hknown, hruns, htyped⟩
    obtain rfl := htabled.known_sid hknown
    exact ⟨fs, htabled.mem_getServersByNameSV.mpr ⟨hknown, hruns.2⟩, hruns.1, htyped, rfl⟩

/-- A refresh makes the set of all servers anew, and only adds to the other ones. -/
theorem mem_freshServerSet (htabled : client.Tabled) (s : CDRouteServer) (uNetType id : UInt32) :
    id ∈ ((s.freshServerSet client).numbering uNetType).set.elems ↔
      ((uNetType = CTL ∨ uNetType = CNC) ∧ id ∈ (s.numbering uNetType).set.elems) ∨
        Live client s.strServerName uNetType id := by
  have hset : ((s.freshServerSet client).numbering uNetType).set =
      (((client.getServersByNameSV s.strServerName).foldl freshInsert
        { s with all := { s.all with set := .empty } }).numbering uNetType).set := by
    unfold numbering freshServerSet
    dsimp only
    split_ifs <;> rfl
  have hstart : id ∈ (numbering { s with all := { s.all with set := .empty } }
        uNetType).set.elems ↔
      (uNetType = CTL ∨ uNetType = CNC) ∧ id ∈ (s.numbering uNetType).set.elems := by
    unfold numbering
    by_cases huCnc : uNetType = CNC
    · simp [huCnc]
    · by_cases huCtl : uNetType = CTL
      · simp [huCtl]
      · simp [huCnc, huCtl, IdSet.elems, OrderedMap.empty]
  rw [hset, mem_foldl_freshInsert, hstart, mem_getServersByNameSV htabled]

/-! ## Runs -/

/-- All three numberings are dense on the servers that the client knows to run. -/
def Current (st : Watched CDRouteServer) : Prop :=
  ∀ uNetType, Dense st.watcher uNetType (Live st.client st.watcher.strServerName uNetType)

/-- What a call must be like. A server that is added, or whose status changes, still counts where it
counted. After a refresh, the servers of the two net types of before still run, under the name and
with the type. -/
def KeepsCall (st : Watched CDRouteServer) (next : DaemonClient) : Option WatcherCall → Prop
  | some (.onAddSV fs) | some (.onServerStatusChangeSV fs) =>
      ∀ uNetType, Live st.client st.watcher.strServerName uNetType fs.sid →
        Serves st.watcher.strServerName uNetType fs
  | some .onRefreshSV | some .onRecoverRefreshSV =>
      ∀ uNetType, uNetType = CTL ∨ uNetType = CNC → ∀ id,
        Live st.client st.watcher.strServerName uNetType id →
          Live next st.watcher.strServerName uNetType id
  | _ => True

def Keeps (st : Watched CDRouteServer) (message : DaemonNotice) : Prop :=
  KeepsCall st (st.client.notice message).1 (st.client.notice message).2

/-- What holds of a state besides. -/
structure Kept (st : Watched CDRouteServer) : Prop where
  tabled : st.client.Tabled
  numbered : Numbered st.watcher

theorem live_update {next : DaemonClient} {sid : UInt32} {entry : Option FavorStrSV}
    (hknown : next.known = Function.update client.known sid entry) (name : String)
    (uNetType id : UInt32) :
    Live next name uNetType id ↔
      if id = sid then ∃ fs, entry = some fs ∧ Serves name uNetType fs
      else Live client name uNetType id := by
  unfold Live
  rw [hknown, Function.update_apply]
  split <;> rfl

theorem kept_step {st next : Watched CDRouteServer} {message : DaemonNotice} (hst : Kept st)
    (hstep : Watched.step on st message = some next) : Kept next := by
  cases hstep
  refine ⟨(DaemonClient.notice_spec hst.tabled message).1, ?_⟩
  dsimp only
  split
  · exact numbered_on _ hst.numbered _
  · exact hst.numbered

theorem current_iff {st : Watched CDRouteServer} (hst : Kept st) :
    Current st ↔ ∀ uNetType id, id ∈ (st.watcher.numbering uNetType).set.elems ↔
      Live st.client st.watcher.strServerName uNetType id :=
  forall_congr' fun _ => dense_iff hst.numbered

section Calls

variable {st : Watched CDRouteServer} {next : DaemonClient}

/-- A server enters, under the name or not. -/
theorem mem_add_iff (hset : ∀ uNetType id, id ∈ (st.watcher.numbering uNetType).set.elems ↔
      Live st.client st.watcher.strServerName uNetType id)
    (hknown : next.known = Function.update st.client.known fs.sid (some fs)) :
    (∀ uNetType id, id ∈ ((st.watcher.addServerToSet fs).numbering uNetType).set.elems ↔
        Live next st.watcher.strServerName uNetType id) ↔
      ∀ uNetType, Live st.client st.watcher.strServerName uNetType fs.sid →
        Serves st.watcher.strServerName uNetType fs := by
  have hmem : ∀ uNetType id,
      id ∈ ((st.watcher.addServerToSet fs).numbering uNetType).set.elems ↔
        (id = fs.sid ∧ Serves st.watcher.strServerName uNetType fs) ∨
          Live st.client st.watcher.strServerName uNetType id := by
    intro uNetType id
    rw [addServerToSet_numbering, ← hset]
    split
    next hserves =>
      have hinsert : id ∈ ((st.watcher.numbering uNetType).insert fs.sid).set.elems ↔
          id = fs.sid ∨ id ∈ (st.watcher.numbering uNetType).set.elems := IdSet.mem_set _ _ _
      rw [hinsert]
      simp [hserves]
    next hnot => simp [hnot]
  apply forall_congr'
  intro uNetType
  simp only [hmem, live_update hknown]
  constructor
  · intro hall hlive
    have hsid := (hall fs.sid).mp (Or.inr hlive)
    simpa using hsid
  · intro hkeeps id
    by_cases hid : id = fs.sid
    · simpa [hid] using hkeeps
    · simp [hid]

/-- The server that goes is in no set that it does not leave. -/
theorem mem_del (hset : ∀ uNetType id, id ∈ (st.watcher.numbering uNetType).set.elems ↔
      Live st.client st.watcher.strServerName uNetType id)
    (hold : st.client.known fs.sid = some fs)
    (hknown : next.known = Function.update st.client.known fs.sid none) (uNetType id : UInt32) :
    id ∈ ((st.watcher.delServerFromSet fs).numbering uNetType).set.elems ↔
      Live next st.watcher.strServerName uNetType id := by
  have hlive : Live st.client st.watcher.strServerName uNetType fs.sid ↔
      Serves st.watcher.strServerName uNetType fs := by
    unfold Live
    rw [hold]
    simp
  rw [delServerFromSet_numbering, live_update hknown]
  split
  next =>
    have herase : id ∈ ((st.watcher.numbering uNetType).erase fs.sid).set.elems ↔
        id ≠ fs.sid ∧ id ∈ (st.watcher.numbering uNetType).set.elems := IdSet.mem_erase _ _ _
    rw [herase, hset]
    by_cases hid : id = fs.sid
    · simp [hid]
    · simp [hid]
  next hnot =>
    rw [hset]
    by_cases hid : id = fs.sid
    · subst hid
      have hserves : ¬ Serves st.watcher.strServerName uNetType fs :=
        fun hserves => hnot ⟨hserves.1.2, hserves.2⟩
      rw [hlive]
      simp [hserves]
    · simp [hid]

theorem mem_fresh_iff (hset : ∀ uNetType id, id ∈ (st.watcher.numbering uNetType).set.elems ↔
      Live st.client st.watcher.strServerName uNetType id) (htabled : next.Tabled) :
    (∀ uNetType id, id ∈ ((st.watcher.freshServerSet next).numbering uNetType).set.elems ↔
        Live next st.watcher.strServerName uNetType id) ↔
      ∀ uNetType, uNetType = CTL ∨ uNetType = CNC → ∀ id,
        Live st.client st.watcher.strServerName uNetType id →
          Live next st.watcher.strServerName uNetType id := by
  simp only [mem_freshServerSet htabled, hset, or_iff_right_iff_imp, and_imp]
  exact forall_congr' fun uNetType =>
    ⟨fun hall htype id => hall id htype, fun hall id htype => hall htype id⟩

end Calls

theorem current_step_iff {st next : Watched CDRouteServer} {message : DaemonNotice} (hst : Kept st)
    (hcurrent : Current st) (hstep : Watched.step on st message = some next) :
    Current next ↔ Keeps st message := by
  have hnext := kept_step hst hstep
  rw [current_iff hst] at hcurrent
  rw [current_iff hnext]
  obtain ⟨client, call, hnotice, rfl, htabled, hnoticed⟩ := Watched.step_spec hst.tabled hstep
  rw [Keeps, hnotice]
  dsimp only [Watched.told]
  cases hnoticed with
  | quiet hknown =>
      refine iff_of_true (fun uNetType id => ?_) trivial
      rw [hcurrent]
      unfold Live
      rw [hknown]
  | enters hwire hcall hknown =>
      simp only [handler_name]
      rcases hcall with rfl | rfl
      · exact mem_add_iff hcurrent hknown
      · exact mem_add_iff hcurrent hknown
  | leaves hold hknown =>
      simp only [handler_name]
      exact iff_of_true (mem_del hcurrent hold hknown) trivial
  | refreshed hcall =>
      simp only [handler_name]
      rcases hcall with rfl | rfl
      · exact mem_fresh_iff hcurrent htabled
      · exact mem_fresh_iff hcurrent htabled

/-- The client and the route class as they are when the connection to the daemon starts. -/
def start (name : String) (serverGroupId : Option Nat) : Watched CDRouteServer :=
  ⟨.new serverGroupId, .new name⟩

theorem kept_start (name : String) (serverGroupId : Option Nat) :
    Kept (start name serverGroupId) :=
  ⟨DaemonClient.tabled_new serverGroupId, numbered_new name⟩

theorem current_start (name : String) (serverGroupId : Option Nat) :
    Current (start name serverGroupId) := by
  rw [current_iff (kept_start name serverGroupId)]
  intro uNetType id
  have hnone : ¬ Live (start name serverGroupId).client name uNetType id := by
    rintro ⟨fs, hknown, -⟩
    cases hknown
  refine iff_of_false ?_ hnone
  unfold numbering start new
  split_ifs <;> exact List.not_mem_nil

/-- The numberings stay dense and current exactly in the runs whose messages all keep them. -/
theorem numbering_throughout_iff (name : String) (serverGroupId : Option Nat)
    (messages : List DaemonNotice) :
    Throughout (Watched.step on) Current (start name serverGroupId) messages ↔
      Along (Watched.step on) Keeps (start name serverGroupId) messages := by
  apply throughout_iff_along (fun st => Kept st ∧ Current st)
  · rintro st message next ⟨hst, hcurrent⟩ hkeeps hstep
    exact ⟨kept_step hst hstep, (current_step_iff hst hcurrent hstep).mpr hkeeps⟩
  · exact fun st hst => hst.2
  · rintro st message ⟨hst, hcurrent⟩
    constructor
    · exact fun hall => (current_step_iff hst hcurrent rfl).mp (hall _ rfl)
    · exact fun hkeeps next hstep => (current_step_iff hst hcurrent hstep).mpr hkeeps
  · exact ⟨kept_start name serverGroupId, current_start name serverGroupId⟩

/-- A server of the net type CTL. -/
def ctlServer : WireSV :=
  ⟨{ sstr := "imct2", dip := 1, wip := 0, port := 0, serverId := 5, groupId := 1,
     serverStatus := .RUNNING }, by decide, by decide, by decide, by decide⟩

/-- A server that stops running keeps its number. -/
theorem not_current_of_stop : ¬ ∀ name serverGroupId messages,
    Throughout (Watched.step on) Current (start name serverGroupId) messages := by
  intro hall
  have hrun := hall "imct2" none
    [.onServerAddSV ctlServer, .onServersStatusChangeSV 5 "imct2" .READY]
  have hfinal : Current _ := (hrun.2 _ rfl).2 _ rfl
  obtain ⟨ids, -, hids, hfind, -⟩ := hfinal 0
  have hfound : ids[0]? = some 5 := (hfind 0).symm.trans (by decide +kernel)
  obtain ⟨fs, hknown, ⟨hruns, -⟩, -⟩ := (hids 5).mp (List.mem_of_getElem? hfound)
  have hready : some { ctlServer.1 with serverStatus := .READY } = some fs := hknown
  cases hready
  cases hruns

/-! ## Masters and slaves -/

/-- The ids that a net type has numbers for. -/
def ids (s : CDRouteServer) (uNetType : UInt32) : List UInt32 :=
  (s.numbering uNetType).map.entries.map Prod.snd

/-- What a master and a slave have to be. -/
def Routes (s : CDRouteServer) (uNetType master slave : UInt32) : Prop :=
  (2 ≤ (s.ids uNetType).length →
    master ≠ slave ∧ master ∈ s.ids uNetType ∧ slave ∈ s.ids uNetType) ∧
  ((s.ids uNetType).length = 1 → s.ids uNetType = [master] ∧ s.ids uNetType = [slave])

/-- The successor of the sequence id wraps around, and the number of servers leaves no remainder of
the last sequence id; or there are as many servers as ids. -/
def Wraps (count : Nat) (uSeqId : UInt32) : Prop :=
  2 ≤ count ∧ (count = 2 ^ 32 ∨ uSeqId = 0xFFFFFFFF ∧ count ∣ 2 ^ 32 - 1)

theorem ids_eq (hs : Numbered s) : s.ids uNetType = (s.numbering uNetType).set.elems := by
  rw [ids, hs, entries_renumber]

theorem find_ids (hs : Numbered s) (number : UInt32) :
    (s.numbering uNetType).map.find number = (s.ids uNetType)[number.toNat]? := by
  rw [ids_eq hs, find_numbering hs]

/-- A number that is not reduced by a count of all ids is taken modulo the count. -/
theorem routeId_eq (hs : Numbered s) (hpos : 0 < (s.ids uNetType).length)
    (hlt : (s.ids uNetType).length < 2 ^ 32) (number : UInt32) :
    (s.ids uNetType)[number.toNat % (s.ids uNetType).length]? =
      some (s.routeId number uNetType) := by
  have hcount : (s.getServerCount uNetType).toNat = (s.ids uNetType).length := by
    rw [getServerCount, ids, List.length_map]
    apply UInt32.toNat_ofNat_of_lt'
    rwa [ids, List.length_map] at hlt
  have hnonzero : s.getServerCount uNetType ≠ 0 := by
    intro hzero
    rw [hzero] at hcount
    exact hpos.ne hcount
  have hfind : (s.numbering uNetType).map.find (number % s.getServerCount uNetType) = _ :=
    find_ids hs _
  rw [UInt32.toNat_mod, hcount] at hfind
  have hplace := List.getElem?_eq_getElem (Nat.mod_lt number.toNat hpos)
  rw [routeId, if_neg hnonzero, number2ServerId, hfind, hplace]
  rfl

theorem routeId_of_full (hfull : (s.ids uNetType).length = 2 ^ 32) (number : UInt32) :
    s.routeId number uNetType = 0xFFFFFFFF := by
  rw [routeId, if_pos]
  rw [getServerCount]
  rw [ids, List.length_map] at hfull
  rw [hfull]
  rfl

/-- Neighbours have different remainders. -/
theorem mod_ne_succ_mod {count : Nat} (hcount : 2 ≤ count) (number : Nat) :
    number % count ≠ (number + 1) % count := by
  intro heq
  have hdvd : count ∣ number + 1 - number :=
    Nat.dvd_of_mod_eq_zero (Nat.sub_mod_eq_zero_of_mod_eq heq.symm)
  rw [Nat.add_sub_cancel_left] at hdvd
  have hle := Nat.le_of_dvd Nat.one_pos hdvd
  omega

/-- The remainders of a sequence id and of its successor differ but for a wrap. -/
theorem seq_mod_ne_iff {count : Nat} (hcount : 2 ≤ count) (uSeqId : UInt32) :
    uSeqId.toNat % count ≠ (uSeqId + 1).toNat % count ↔
      ¬ (uSeqId = 0xFFFFFFFF ∧ count ∣ 2 ^ 32 - 1) := by
  by_cases hlast : uSeqId = 0xFFFFFFFF
  · subst hlast
    have hnext : ((0xFFFFFFFF : UInt32) + 1).toNat = 0 := rfl
    have hvalue : (0xFFFFFFFF : UInt32).toNat = 2 ^ 32 - 1 := rfl
    rw [hnext, hvalue, Nat.zero_mod, Nat.dvd_iff_mod_eq_zero]
    simp
  · have hlt := uSeqId.toNat_lt
    have hne : uSeqId.toNat ≠ 2 ^ 32 - 1 := fun heq => hlast (UInt32.toNat_inj.mp heq)
    have hnext : (uSeqId + 1).toNat = uSeqId.toNat + 1 := by
      rw [UInt32.toNat_add]
      exact Nat.mod_eq_of_lt (by rw [UInt32.toNat_one]; omega)
    rw [hnext]
    exact iff_of_true (mod_ne_succ_mod hcount _) fun hwraps => hlast hwraps.1

/-- Master and slave are two servers, but for a wrap. -/
theorem routes_iff (hs : Numbered s) (uNetType uSeqId : UInt32) :
    Routes s uNetType (s.routeId uSeqId uNetType) (s.routeId (uSeqId + 1) uNetType) ↔
      ¬ Wraps (s.ids uNetType).length uSeqId := by
  have hnodup : (s.ids uNetType).Nodup := ids_eq hs ▸ IdSet.elems_nodup _
  have hle := IdSet.length_le_of_nodup hnodup
  by_cases hfull : (s.ids uNetType).length = 2 ^ 32
  · have hwraps : Wraps (s.ids uNetType).length uSeqId := ⟨by omega, Or.inl hfull⟩
    refine iff_of_false (fun hroutes => ?_) (not_not_intro hwraps)
    apply (hroutes.1 hwraps.1).1
    rw [routeId_of_full hfull, routeId_of_full hfull]
  rcases Nat.eq_zero_or_pos (s.ids uNetType).length with hzero | hpos
  · refine iff_of_true ⟨fun htwo => ?_, fun hone => ?_⟩ fun hwraps => ?_
    · omega
    · omega
    · have htwo := hwraps.1
      omega
  have hmaster := routeId_eq hs hpos (by omega) uSeqId
  have hslave := routeId_eq hs hpos (by omega) (uSeqId + 1)
  by_cases hone : (s.ids uNetType).length = 1
  · obtain ⟨id, hid⟩ := List.length_eq_one_iff.mp hone
    refine iff_of_true ⟨fun htwo => by omega, fun _ => ?_⟩ fun hwraps => ?_
    · rw [hid] at hmaster hslave ⊢
      simp only [List.length_singleton, Nat.mod_one, List.getElem?_cons_zero,
        Option.some.injEq] at hmaster hslave
      rw [← hmaster, ← hslave]
      exact ⟨rfl, rfl⟩
    · have htwo := hwraps.1
      omega
  have htwo : 2 ≤ (s.ids uNetType).length := by omega
  have hdifferent : s.routeId uSeqId uNetType ≠ s.routeId (uSeqId + 1) uNetType ↔
      ¬ (uSeqId = 0xFFFFFFFF ∧ (s.ids uNetType).length ∣ 2 ^ 32 - 1) := by
    rw [← seq_mod_ne_iff htwo, ne_eq, ne_eq, not_iff_not, ← Option.some_inj, ← hmaster, ← hslave,
      List.getElem?_inj (Nat.mod_lt _ hpos) hnodup]
  constructor
  · rintro hroutes ⟨-, hwraps⟩
    rcases hwraps with hwraps | hwraps
    · exact hfull hwraps
    · exact hdifferent.mp (hroutes.1 htwo).1 hwraps
  · intro hnot
    refine ⟨fun _ => ⟨hdifferent.mpr fun hwraps => hnot ⟨htwo, Or.inr hwraps⟩,
      List.mem_of_getElem? hmaster, List.mem_of_getElem? hslave⟩, fun hone' => by omega⟩

/-- In every run, both route classes find two servers but for a wrap. -/
theorem routes_throughout (name : String) (serverGroupId : Option Nat)
    (messages : List DaemonNotice) :
    Throughout (Watched.step on) (fun st => ∀ uNetType uSeqId,
        (Routes st.watcher uNetType
            (CDRouteImChat2.getMasterImChat2Id st.watcher uSeqId uNetType)
            (CDRouteImChat2.getSlaveImChat2Id st.watcher uSeqId uNetType) ↔
          ¬ Wraps (st.watcher.ids uNetType).length uSeqId) ∧
        (Routes st.watcher uNetType
            (CDRouteImBridge.getMasterImBridgeId st.watcher uSeqId uNetType)
            (CDRouteImBridge.getSlaveImBridgeId st.watcher uSeqId uNetType) ↔
          ¬ Wraps (st.watcher.ids uNetType).length uSeqId))
      (start name serverGroupId) messages :=
  throughout_of_along (fun _ _ _ (hst : Kept _) _ hstep => kept_step hst hstep)
    (fun _ hst uNetType uSeqId =>
      ⟨routes_iff hst.numbered uNetType uSeqId, routes_iff hst.numbered uNetType uSeqId⟩)
    (kept_start name serverGroupId) (along_trivial _ messages)

/-- With three servers, the last sequence id gives master and slave the same number. -/
theorem not_routes_of_three : ¬ ∀ name serverGroupId messages,
    Throughout (Watched.step on) (fun st => ∀ uNetType uSeqId,
        Routes st.watcher uNetType
          (CDRouteImChat2.getMasterImChat2Id st.watcher uSeqId uNetType)
          (CDRouteImChat2.getSlaveImChat2Id st.watcher uSeqId uNetType))
      (start name serverGroupId) messages := by
  intro hall
  have hrun := hall "imct2" none [.onServerAddSV ctlServer,
    .onServerAddSV ⟨{ ctlServer.1 with serverId := 6 }, by decide, by decide, by decide, by decide⟩,
    .onServerAddSV ⟨{ ctlServer.1 with serverId := 7 }, by decide, by decide, by decide, by decide⟩]
  have hfinal := ((((hrun.2 _ rfl).2 _ rfl).2 _ rfl) CTL 0xFFFFFFFF).1 (by decide +kernel)
  revert hfinal
  decide +kernel

end CDRouteServer

end ServiceFrame
