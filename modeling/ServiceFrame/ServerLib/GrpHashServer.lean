import ServiceFrame.ServerLib.ConsistentHash
import ServiceFrame.ServerLib.Watcher

/-! # Hashing to the servers of a suffix

`CTBaseDaemonClientW2` of `GrpHashServer.h` keeps, for each suffix it is registered for, the values
of the running servers and a circle of them: their ids, or their addresses. The events of the daemon
update these and a map of the servers, in which an address is looked up to find a server again.
-/

namespace ServiceFrame.Grp

open Foundation

structure CHashServerValueHelper2 where
  hash : ConsistentHash
  setServerValue : IdSet

namespace CHashServerValueHelper2

def new : CHashServerValueHelper2 :=
  ⟨.userConsistentFnvHash ConsistentHash.defaultNumberOfReplicas, .empty⟩

def isServerValueExist (helper : CHashServerValueHelper2) (uServerValue : UInt32) : Bool :=
  (helper.setServerValue.find uServerValue).isSome

def addServer (helper : CHashServerValueHelper2) (uServerValue : UInt32) :
    CHashServerValueHelper2 :=
  if helper.isServerValueExist uServerValue then helper
  else
    { hash := helper.hash.addServer uServerValue
      setServerValue := helper.setServerValue.set uServerValue () }

def removeServer (helper : CHashServerValueHelper2) (uServerValue : UInt32) :
    CHashServerValueHelper2 :=
  if helper.isServerValueExist uServerValue then
    { hash := helper.hash.removeServer uServerValue
      setServerValue := helper.setServerValue.erase uServerValue }
  else helper

def clearServer (helper : CHashServerValueHelper2) : CHashServerValueHelper2 where
  hash := helper.setServerValue.elems.foldl ConsistentHash.removeServer helper.hash
  setServerValue := .empty

def getServerValueByFactor (helper : CHashServerValueHelper2) (uFactor : UInt32) : UInt32 :=
  helper.hash.getServer uFactor

end CHashServerValueHelper2

inductive EHashServerValueType where
  | serverId
  | serverIp
deriving DecidableEq

structure CTBaseDaemonClientW2 where
  mapHashHelper : OrderedMap String CHashServerValueHelper2
  mapHashType : OrderedMap String EHashServerValueType
  mapServers : OrderedMap UInt32 FavorStrSV

namespace CTBaseDaemonClientW2

def new : CTBaseDaemonClientW2 := ⟨.empty, .empty, .empty⟩

def addServerName (s : CTBaseDaemonClientW2) (strServerName : String)
    (emHashType : EHashServerValueType) : CTBaseDaemonClientW2 :=
  if (s.mapHashHelper.find strServerName).isSome then s
  else
    { s with
      mapHashHelper := s.mapHashHelper.set strServerName .new
      mapHashType := s.mapHashType.set strServerName emHashType }

def getHashHelper (s : CTBaseDaemonClientW2) (strServerName : String) :
    Option CHashServerValueHelper2 := s.mapHashHelper.find strServerName

/-- `m_mapHashType[…]`, without the entry that it makes for a suffix that is not registered. -/
def hashType (s : CTBaseDaemonClientW2) (strServerName : String) : EHashServerValueType :=
  (s.mapHashType.find strServerName).getD .serverId

def getServerValue (s : CTBaseDaemonClientW2) (fs : FavorStrSV) : UInt32 :=
  match s.hashType fs.sstr with
  | .serverIp => UInt32.ofNat (if fs.dip ≠ 0 then fs.dip else fs.wip)
  | .serverId => fs.sid

/-- `std::map::insert`: an entry that is there stays. -/
def addMapServer (s : CTBaseDaemonClientW2) (fs : FavorStrSV) : CTBaseDaemonClientW2 :=
  { s with mapServers := s.mapServers.insert fs.sid fs }

def removeMapServer (s : CTBaseDaemonClientW2) (fs : FavorStrSV) : CTBaseDaemonClientW2 :=
  { s with mapServers := s.mapServers.erase fs.sid }

/-- The value is one of the server's addresses. -/
def HasIp (fs : FavorStrSV) (uServerValue : UInt32) : Prop :=
  UInt32.ofNat fs.dip = uServerValue ∨ UInt32.ofNat fs.wip = uServerValue

instance decidableHasIp (fs : FavorStrSV) (uServerValue : UInt32) :
    Decidable (HasIp fs uServerValue) := inferInstanceAs (Decidable (_ ∨ _))

def getServerIdByValue (s : CTBaseDaemonClientW2) (uServerValue : UInt32) (strServerName : String) :
    EHashServerValueType → UInt32
  | .serverId => uServerValue
  | .serverIp =>
      match s.mapServers.entries.find? fun entry =>
        entry.2.sstr = strServerName ∧ HasIp entry.2 uServerValue with
      | some entry => entry.2.sid
      | none => ConsistentHash.noServer

/-- The loop of `onRefreshSV` does the same with each server. -/
def onAddSV (s : CTBaseDaemonClientW2) (fs : FavorStrSV) : CTBaseDaemonClientW2 :=
  match s.getHashHelper fs.sstr with
  | some helper =>
      if fs.serverStatus = .RUNNING then
        let uServerValue := s.getServerValue fs
        let added :=
          if uServerValue ≠ ConsistentHash.noServer then
            { s with mapHashHelper :=
                s.mapHashHelper.set fs.sstr (helper.addServer uServerValue) }
          else s
        added.addMapServer fs
      else s
  | none => s

/-- Whether the server runs is not asked. -/
def onServerRemovedSV (s : CTBaseDaemonClientW2) (fs : FavorStrSV) : CTBaseDaemonClientW2 :=
  match s.getHashHelper fs.sstr with
  | some helper =>
      let uServerValue := s.getServerValue fs
      let removed :=
        if helper.isServerValueExist uServerValue then
          { s with mapHashHelper :=
              s.mapHashHelper.set fs.sstr (helper.removeServer uServerValue) }
        else s
      removed.removeMapServer fs
  | none => s

def onRefreshSV (s : CTBaseDaemonClientW2) (client : DaemonClient) : CTBaseDaemonClientW2 :=
  client.getServersSV.foldl onAddSV
    { s with
      mapServers := .empty
      mapHashHelper := s.mapHashHelper.mapValues fun _ helper => helper.clearServer }

/-- The handlers. A change of status is handled as an addition. -/
def on (client : DaemonClient) (s : CTBaseDaemonClientW2) : WatcherCall → CTBaseDaemonClientW2
  | .onAddSV fs => s.onAddSV fs
  | .onServerStatusChangeSV fs => s.onAddSV fs
  | .onServerRemovedSV fs => s.onServerRemovedSV fs
  | .onRefreshSV => s.onRefreshSV client
  | .onRecoverRefreshSV => s.onRefreshSV client

end CTBaseDaemonClientW2

/-! ## The values that a helper holds -/

namespace CHashServerValueHelper2

/-- No two of the values have a point in common on the circle of a helper. -/
def Apart (values : UInt32 → Prop) : Prop :=
  ConsistentHash.Apart ConsistentHash.defaultNumberOfReplicas (.ofBytes fnvHash) values

/-- The set of a helper has the values, and its circle the points of these. -/
structure Holds (helper : CHashServerValueHelper2) (values : UInt32 → Prop) : Prop where
  mem_iff : ∀ value, value ∈ helper.setServerValue.elems ↔ values value
  ring : helper.hash.HasPoints ConsistentHash.defaultNumberOfReplicas (.ofBytes fnvHash) values

variable {helper : CHashServerValueHelper2} {values others : UInt32 → Prop} {value : UInt32}

theorem isServerValueExist_iff :
    helper.isServerValueExist value = true ↔ value ∈ helper.setServerValue.elems := by
  rw [isServerValueExist, Option.isSome_iff_exists, IdSet.mem_elems]
  exact ⟨fun ⟨_, hfind⟩ => hfind, fun hfind => ⟨(), hfind⟩⟩

theorem Holds.exist_iff (hhelper : helper.Holds values) :
    helper.isServerValueExist value = true ↔ values value :=
  isServerValueExist_iff.trans (hhelper.mem_iff value)

theorem Holds.congr (hhelper : helper.Holds values)
    (hsame : ∀ value, values value ↔ others value) : helper.Holds others where
  mem_iff value := (hhelper.mem_iff value).trans (hsame value)
  ring := hhelper.ring.congr hsame

theorem holds_new : new.Holds fun _ => False where
  mem_iff _ := iff_of_false List.not_mem_nil id
  ring := ConsistentHash.hasPoints_new _ _

theorem Holds.addServer (hhelper : helper.Holds values)
    (hapart : Apart fun other => other = value ∨ values other) :
    (helper.addServer value).Holds fun other => other = value ∨ values other := by
  unfold CHashServerValueHelper2.addServer
  split
  next hexist =>
    refine hhelper.congr fun other => (or_iff_right_of_imp ?_).symm
    rintro rfl
    exact hhelper.exist_iff.mp hexist
  next =>
    refine ⟨fun other => ?_, hhelper.ring.addServer hapart⟩
    rw [← hhelper.mem_iff]
    exact IdSet.mem_set _ _ _

theorem Holds.removeServer (hhelper : helper.Holds values) (hapart : Apart values) :
    (helper.removeServer value).Holds fun other => other ≠ value ∧ values other := by
  unfold CHashServerValueHelper2.removeServer
  split
  next hexist =>
    have hboth : Apart fun other => other = value ∨ values other := by
      refine hapart.mono fun other hother => hother.elim ?_ id
      rintro rfl
      exact hhelper.exist_iff.mp hexist
    refine ⟨fun other => ?_, hhelper.ring.removeServer hboth⟩
    rw [← hhelper.mem_iff]
    exact IdSet.mem_erase _ _ _
  next hnot =>
    refine hhelper.congr fun other => (and_iff_right_of_imp ?_).symm
    rintro hother rfl
    exact hnot (hhelper.exist_iff.mpr hother)

/-- The points of all the values are removed. -/
theorem Holds.clearServer (hhelper : helper.Holds values) (hapart : Apart values) :
    helper.clearServer.Holds fun _ => False := by
  have hloop : ∀ (removed : List UInt32) (ring : ConsistentHash) (left : UInt32 → Prop),
      ring.HasPoints ConsistentHash.defaultNumberOfReplicas (.ofBytes fnvHash) left →
      (∀ value, left value → values value) → (∀ value ∈ removed, values value) →
      (removed.foldl ConsistentHash.removeServer ring).HasPoints
        ConsistentHash.defaultNumberOfReplicas (.ofBytes fnvHash)
        fun value => value ∉ removed ∧ left value := by
    intro removed
    induction removed with
    | nil => exact fun ring left hring _ _ => hring.congr fun value => by simp
    | cons first rest ih =>
        intro ring left hring hleft hremoved
        have hboth := hapart.mono fun other (hother : other = first ∨ left other) =>
          hother.elim (fun hfirst => hfirst ▸ hremoved first List.mem_cons_self) (hleft other)
        have hrest := ih _ _ (hring.removeServer hboth) (fun other hother => hleft other hother.2)
          fun other hother => hremoved other (List.mem_cons_of_mem first hother)
        refine hrest.congr fun other => ?_
        rw [List.mem_cons, not_or, and_assoc]
        exact and_left_comm
  refine ⟨fun _ => iff_of_false List.not_mem_nil id, ?_⟩
  have hcleared := hloop helper.setServerValue.elems helper.hash values hhelper.ring
    (fun _ => id) fun value hvalue => (hhelper.mem_iff value).mp hvalue
  refine hcleared.congr fun value => iff_of_false ?_ id
  rintro ⟨hnot, hvalue⟩
  exact hnot ((hhelper.mem_iff value).mpr hvalue)

theorem Holds.getServerValueByFactor (hhelper : helper.Holds values)
    (hsome : ∃ value, values value) (uFactor : UInt32) :
    values (helper.getServerValueByFactor uFactor) :=
  hhelper.ring.getServer_mem (by decide) hsome uFactor

end CHashServerValueHelper2

namespace CTBaseDaemonClientW2

open DaemonClient (RunsAs)

/-! ## What the events do -/

variable {s next : CTBaseDaemonClientW2} {fs : FavorStrSV} {name : String}

theorem mapHashType_onAddSV (s : CTBaseDaemonClientW2) (fs : FavorStrSV) :
    (s.onAddSV fs).mapHashType = s.mapHashType := by
  unfold onAddSV
  split
  next =>
    split
    · dsimp only [addMapServer]
      split <;> rfl
    · rfl
  next => rfl

theorem mapServers_onAddSV (s : CTBaseDaemonClientW2) (fs : FavorStrSV) :
    (s.onAddSV fs).mapServers =
      if (s.getHashHelper fs.sstr).isSome ∧ fs.serverStatus = .RUNNING then
        s.mapServers.insert fs.sid fs
      else s.mapServers := by
  unfold onAddSV
  cases s.getHashHelper fs.sstr with
  | none => rfl
  | some helper =>
      dsimp only
      by_cases hruns : fs.serverStatus = .RUNNING
      · have hboth : (some helper).isSome = true ∧ fs.serverStatus = .RUNNING := ⟨rfl, hruns⟩
        rw [if_pos hruns, if_pos hboth]
        dsimp only [addMapServer]
        split <;> rfl
      · rw [if_neg hruns, if_neg fun hboth => hruns hboth.2]

theorem getHashHelper_onAddSV (s : CTBaseDaemonClientW2) (fs : FavorStrSV) (name : String) :
    (s.onAddSV fs).getHashHelper name = (s.getHashHelper name).map fun helper =>
      if RunsAs fs name ∧ s.getServerValue fs ≠ ConsistentHash.noServer then
        helper.addServer (s.getServerValue fs)
      else helper := by
  have hsame (hnot : ¬ (RunsAs fs name ∧ s.getServerValue fs ≠ ConsistentHash.noServer)) :
      s.getHashHelper name = (s.getHashHelper name).map fun helper =>
        if RunsAs fs name ∧ s.getServerValue fs ≠ ConsistentHash.noServer then
          helper.addServer (s.getServerValue fs)
        else helper := by
    simp only [if_neg hnot, Option.map_id']
  unfold onAddSV
  cases hfind : s.getHashHelper fs.sstr with
  | none =>
      by_cases hname : name = fs.sstr
      · rw [hname, hfind]
        rfl
      · exact hsame fun hadds => hname hadds.1.2.symm
  | some helper =>
      dsimp only
      split
      next hruns =>
        by_cases hvalue : s.getServerValue fs = ConsistentHash.noServer
        · rw [if_neg (not_not_intro hvalue)]
          exact hsame fun hadds => hadds.2 hvalue
        · rw [if_pos hvalue]
          dsimp only [addMapServer, getHashHelper]
          rw [OrderedMap.find_set, Function.update_apply]
          split
          next hname =>
            rw [hname, ← getHashHelper, hfind, Option.map_some, if_pos ⟨⟨hruns, rfl⟩, hvalue⟩]
          next hname => exact hsame fun hadds => hname hadds.1.2.symm
      next hruns => exact hsame fun hadds => hruns hadds.1.1

theorem mapHashType_onServerRemovedSV (s : CTBaseDaemonClientW2) (fs : FavorStrSV) :
    (s.onServerRemovedSV fs).mapHashType = s.mapHashType := by
  unfold onServerRemovedSV
  split
  next =>
    dsimp only [removeMapServer]
    split <;> rfl
  next => rfl

theorem mapServers_onServerRemovedSV (s : CTBaseDaemonClientW2) (fs : FavorStrSV) :
    (s.onServerRemovedSV fs).mapServers =
      if (s.getHashHelper fs.sstr).isSome then s.mapServers.erase fs.sid else s.mapServers := by
  unfold onServerRemovedSV
  cases s.getHashHelper fs.sstr with
  | none => rfl
  | some helper =>
      dsimp only [removeMapServer]
      split <;> rfl

theorem getHashHelper_onServerRemovedSV (s : CTBaseDaemonClientW2) (fs : FavorStrSV)
    (name : String) :
    (s.onServerRemovedSV fs).getHashHelper name = (s.getHashHelper name).map fun helper =>
      if name = fs.sstr then helper.removeServer (s.getServerValue fs) else helper := by
  have hsame (hname : name ≠ fs.sstr) :
      s.getHashHelper name = (s.getHashHelper name).map fun helper =>
        if name = fs.sstr then helper.removeServer (s.getServerValue fs) else helper := by
    simp only [if_neg hname, Option.map_id']
  unfold onServerRemovedSV
  cases hfind : s.getHashHelper fs.sstr with
  | none =>
      by_cases hname : name = fs.sstr
      · rw [hname, hfind]
        rfl
      · exact hsame hname
  | some helper =>
      dsimp only [removeMapServer]
      split
      next hexist =>
        dsimp only [getHashHelper]
        rw [OrderedMap.find_set, Function.update_apply]
        split
        next hname => rw [hname, ← getHashHelper, hfind, Option.map_some]
        next hname =>
          have hother := hsame hname
          simp only [if_neg hname] at hother
          exact hother
      next hexist =>
        by_cases hname : name = fs.sstr
        · have hkept : helper.removeServer (s.getServerValue fs) = helper := if_neg hexist
          change s.getHashHelper name = _
          simp only [hname, hfind, Option.map_some, if_true, hkept]
        · exact hsame hname

theorem getServerValue_congr (htypes : next.mapHashType = s.mapHashType) :
    next.getServerValue = s.getServerValue := by
  funext fs
  rw [getServerValue, hashType, htypes]
  rfl

/-! ## Following the servers -/

/-- A value that a helper should have: that of a server which runs under the suffix. -/
def LiveValue (value : FavorStrSV → UInt32) (servers : FavorStrSV → Prop) (name : String)
    (uServerValue : UInt32) : Prop :=
  uServerValue ≠ ConsistentHash.noServer ∧
    ∃ fs, servers fs ∧ RunsAs fs name ∧ value fs = uServerValue

/-- The server runs under the suffix of the entry, and when it is hashed by its address, that is one
of the entry's. -/
def Answers (s : CTBaseDaemonClientW2) (entry fs : FavorStrSV) : Prop :=
  RunsAs fs entry.sstr ∧ (s.hashType fs.sstr = .serverIp →
    s.getServerValue fs ≠ ConsistentHash.noServer → HasIp entry (s.getServerValue fs))

/-- The helpers have the values of the servers, and the map has an entry for each that runs. -/
structure Follows (s : CTBaseDaemonClientW2) (servers : FavorStrSV → Prop) : Prop where
  values : ∀ name helper, s.getHashHelper name = some helper →
    helper.Holds (LiveValue s.getServerValue servers name)
  listed : ∀ id entry, s.mapServers.find id = some entry →
    entry.sid = id ∧ (s.getHashHelper entry.sstr).isSome ∧
      ∃ fs, servers fs ∧ fs.sid = id ∧ s.Answers entry fs
  complete : ∀ fs, servers fs → fs.serverStatus = .RUNNING →
    (s.getHashHelper fs.sstr).isSome → (s.mapServers.find fs.sid).isSome

variable {servers after : FavorStrSV → Prop}

theorem answers_congr (htypes : next.mapHashType = s.mapHashType) {entry : FavorStrSV} :
    next.Answers entry fs ↔ s.Answers entry fs := by
  unfold Answers
  rw [getServerValue_congr htypes, hashType, htypes]
  rfl

theorem answers_self (hruns : fs.serverStatus = .RUNNING) : s.Answers fs fs := by
  refine ⟨⟨hruns, rfl⟩, fun htype _ => ?_⟩
  rw [getServerValue, htype, HasIp]
  dsimp only
  split
  · exact Or.inl rfl
  · exact Or.inr rfl

theorem isSome_onAddSV (s : CTBaseDaemonClientW2) (fs : FavorStrSV) (name : String) :
    ((s.onAddSV fs).getHashHelper name).isSome = (s.getHashHelper name).isSome := by
  rw [getHashHelper_onAddSV, Option.isSome_map]

theorem isSome_onServerRemovedSV (s : CTBaseDaemonClientW2) (fs : FavorStrSV) (name : String) :
    ((s.onServerRemovedSV fs).getHashHelper name).isSome = (s.getHashHelper name).isSome := by
  rw [getHashHelper_onServerRemovedSV, Option.isSome_map]

section Enters

variable (henter : ∀ other, after other ↔ other = fs ∨ (other.sid ≠ fs.sid ∧ servers other))

include henter

/-- A value that is there after a server came is its own, or was there. -/
theorem liveValue_enter {serverValue : FavorStrSV → UInt32} {value : UInt32}
    (hlive : LiveValue serverValue after name value) :
    (RunsAs fs name ∧ value = serverValue fs) ∨ LiveValue serverValue servers name value := by
  obtain ⟨hvalue, other, hother, hruns, rfl⟩ := hlive
  rcases (henter other).mp hother with rfl | ⟨-, hserver⟩
  · exact Or.inl ⟨hruns, rfl⟩
  · exact Or.inr ⟨hvalue, other, hserver, hruns, rfl⟩

theorem Follows.values_onAddSV (hs : s.Follows servers)
    (hkept : ∀ name value, (s.getHashHelper name).isSome →
      LiveValue s.getServerValue servers name value → LiveValue s.getServerValue after name value)
    (hapart : ∀ name, (s.getHashHelper name).isSome →
      CHashServerValueHelper2.Apart (LiveValue s.getServerValue after name))
    {helper : CHashServerValueHelper2} (hfind : (s.onAddSV fs).getHashHelper name = some helper) :
    helper.Holds (LiveValue s.getServerValue after name) := by
  rw [getHashHelper_onAddSV] at hfind
  obtain ⟨old, hold, rfl⟩ := Option.map_eq_some_iff.mp hfind
  have hregistered : (s.getHashHelper name).isSome := Option.isSome_of_eq_some hold
  split
  next hadds =>
    have hsame : ∀ value, value = s.getServerValue fs ∨
        LiveValue s.getServerValue servers name value ↔
          LiveValue s.getServerValue after name value := by
      refine fun value => ⟨?_, fun hlive => (liveValue_enter henter hlive).imp_left And.right⟩
      rintro (rfl | hlive)
      · exact ⟨hadds.2, fs, (henter fs).mpr (Or.inl rfl), hadds.1, rfl⟩
      · exact hkept name value hregistered hlive
    have hboth := (hapart name hregistered).mono fun value hvalue => (hsame value).mp hvalue
    exact ((hs.values name old hold).addServer hboth).congr hsame
  next hnot =>
    refine (hs.values name old hold).congr fun value =>
      ⟨hkept name value hregistered, fun hlive => ?_⟩
    apply (liveValue_enter henter hlive).resolve_left
    rintro ⟨hruns, rfl⟩
    exact hnot ⟨hruns, hlive.1⟩

/-- An entry of the map is one of before, or that of the server which came. -/
theorem Follows.listed_onAddSV (hs : s.Follows servers)
    (hentry : ∀ entry, s.mapServers.find fs.sid = some entry → s.Answers entry fs)
    {id : UInt32} {entry : FavorStrSV} (hfind : (s.onAddSV fs).mapServers.find id = some entry) :
    entry.sid = id ∧ (s.getHashHelper entry.sstr).isSome ∧
      ∃ other, after other ∧ other.sid = id ∧ s.Answers entry other := by
  have hfs : after fs := (henter fs).mpr (Or.inl rfl)
  have hold (hfind : s.mapServers.find id = some entry) :
      entry.sid = id ∧ (s.getHashHelper entry.sstr).isSome ∧
        ∃ other, after other ∧ other.sid = id ∧ s.Answers entry other := by
    obtain ⟨hid, hregistered, other, hserver, hsid, hanswers⟩ := hs.listed id entry hfind
    refine ⟨hid, hregistered, ?_⟩
    by_cases hown : id = fs.sid
    · exact ⟨fs, hfs, hown.symm, hentry entry (hown ▸ hfind)⟩
    · refine ⟨other, (henter other).mpr (Or.inr ⟨?_, hserver⟩), hsid, hanswers⟩
      rwa [hsid]
  rw [mapServers_onAddSV] at hfind
  split at hfind
  next hinserts =>
    rw [OrderedMap.find_insert, Function.update_apply] at hfind
    split at hfind
    next hown =>
      cases hpast : s.mapServers.find fs.sid with
      | some past =>
          rw [hpast] at hfind
          cases hfind
          exact hold (hown ▸ hpast)
      | none =>
          rw [hpast] at hfind
          cases hfind
          exact ⟨hown.symm, hinserts.1, fs, hfs, hown.symm, answers_self hinserts.2⟩
    next => exact hold hfind
  next => exact hold hfind

theorem Follows.complete_onAddSV (hs : s.Follows servers) {other : FavorStrSV}
    (hother : after other) (hruns : other.serverStatus = .RUNNING)
    (hregistered : (s.getHashHelper other.sstr).isSome) :
    ((s.onAddSV fs).mapServers.find other.sid).isSome := by
  rw [mapServers_onAddSV]
  rcases (henter other).mp hother with rfl | ⟨hsid, hserver⟩
  · rw [if_pos ⟨hregistered, hruns⟩, OrderedMap.find_insert, Function.update_self]
    cases s.mapServers.find other.sid with
    | some past => rfl
    | none => rfl
  · have hpast := hs.complete other hserver hruns hregistered
    split
    next =>
      rw [OrderedMap.find_insert, Function.update_of_ne hsid]
      exact hpast
    next => exact hpast

/-- A server comes, or its data change. -/
theorem Follows.onAddSV (hs : s.Follows servers)
    (hkept : ∀ name value, (s.getHashHelper name).isSome →
      LiveValue s.getServerValue servers name value → LiveValue s.getServerValue after name value)
    (hentry : ∀ entry, s.mapServers.find fs.sid = some entry → s.Answers entry fs)
    (hapart : ∀ name, (s.getHashHelper name).isSome →
      CHashServerValueHelper2.Apart (LiveValue s.getServerValue after name)) :
    (s.onAddSV fs).Follows after where
  values name helper hfind := by
    rw [getServerValue_congr (mapHashType_onAddSV s fs)]
    exact hs.values_onAddSV henter hkept hapart hfind
  listed id entry hfind := by
    rw [isSome_onAddSV]
    simp only [answers_congr (mapHashType_onAddSV s fs)]
    exact hs.listed_onAddSV henter hentry hfind
  complete other hother hruns hregistered := by
    rw [isSome_onAddSV] at hregistered
    exact hs.complete_onAddSV henter hother hruns hregistered

end Enters

section Leaves

variable (hunique : ∀ other, servers other → other.sid = fs.sid → other = fs)
  (hleave : ∀ other, after other ↔ other.sid ≠ fs.sid ∧ servers other)

include hunique hleave

/-- Only values of the server that went can be gone. -/
theorem liveValue_leave {serverValue : FavorStrSV → UInt32} {value : UInt32}
    (hlive : LiveValue serverValue servers name value) :
    (RunsAs fs name ∧ value = serverValue fs) ∨ LiveValue serverValue after name value := by
  obtain ⟨hvalue, other, hserver, hruns, rfl⟩ := hlive
  by_cases hsid : other.sid = fs.sid
  · obtain rfl := hunique other hserver hsid
    exact Or.inl ⟨hruns, rfl⟩
  · exact Or.inr ⟨hvalue, other, (hleave other).mpr ⟨hsid, hserver⟩, hruns, rfl⟩

theorem Follows.values_onServerRemovedSV (hs : s.Follows servers)
    (hgone : (s.getHashHelper fs.sstr).isSome →
      ¬ LiveValue s.getServerValue after fs.sstr (s.getServerValue fs))
    (hapart : ∀ name, (s.getHashHelper name).isSome →
      CHashServerValueHelper2.Apart (LiveValue s.getServerValue servers name))
    {helper : CHashServerValueHelper2}
    (hfind : (s.onServerRemovedSV fs).getHashHelper name = some helper) :
    helper.Holds (LiveValue s.getServerValue after name) := by
  rw [getHashHelper_onServerRemovedSV] at hfind
  obtain ⟨old, hold, rfl⟩ := Option.map_eq_some_iff.mp hfind
  have hregistered : (s.getHashHelper name).isSome := Option.isSome_of_eq_some hold
  have hfewer : ∀ value, LiveValue s.getServerValue after name value →
      LiveValue s.getServerValue servers name value := by
    rintro value ⟨hvalue, other, hother, hruns⟩
    exact ⟨hvalue, other, ((hleave other).mp hother).2, hruns⟩
  split
  next hname =>
    refine ((hs.values name old hold).removeServer (hapart name hregistered)).congr
      fun value => ⟨fun hboth => ?_, fun hlive => ⟨?_, hfewer value hlive⟩⟩
    · exact (liveValue_leave hunique hleave hboth.2).resolve_left fun hown => hboth.1 hown.2
    · rintro rfl
      rw [hname] at hlive hregistered
      exact hgone hregistered hlive
  next hname =>
    refine (hs.values name old hold).congr fun value => ⟨fun hlive => ?_, hfewer value⟩
    exact (liveValue_leave hunique hleave hlive).resolve_left fun hown =>
      hname hown.1.2.symm

theorem Follows.listed_onServerRemovedSV (hs : s.Follows servers) {id : UInt32}
    {entry : FavorStrSV} (hfind : (s.onServerRemovedSV fs).mapServers.find id = some entry) :
    entry.sid = id ∧ (s.getHashHelper entry.sstr).isSome ∧
      ∃ other, after other ∧ other.sid = id ∧ s.Answers entry other := by
  have hold (hfind : s.mapServers.find id = some entry) (hother : id ≠ fs.sid) :
      entry.sid = id ∧ (s.getHashHelper entry.sstr).isSome ∧
        ∃ other, after other ∧ other.sid = id ∧ s.Answers entry other := by
    obtain ⟨hid, hregistered, other, hserver, hsid, hanswers⟩ := hs.listed id entry hfind
    refine ⟨hid, hregistered, other, (hleave other).mpr ⟨?_, hserver⟩, hsid, hanswers⟩
    rwa [hsid]
  rw [mapServers_onServerRemovedSV] at hfind
  split at hfind
  next =>
    rw [OrderedMap.find_erase, Function.update_apply] at hfind
    split at hfind
    next => cases hfind
    next hother => exact hold hfind hother
  next hunregistered =>
    apply hold hfind
    rintro rfl
    -- the map has servers of registered suffixes only
    obtain ⟨-, hregistered, other, hserver, hsid, hanswers⟩ := hs.listed _ entry hfind
    rw [hunique other hserver hsid] at hanswers
    rw [← hanswers.1.2] at hregistered
    exact hunregistered hregistered

/-- A server goes, and no other one has its value. -/
theorem Follows.onServerRemovedSV (hs : s.Follows servers)
    (hgone : (s.getHashHelper fs.sstr).isSome →
      ¬ LiveValue s.getServerValue after fs.sstr (s.getServerValue fs))
    (hapart : ∀ name, (s.getHashHelper name).isSome →
      CHashServerValueHelper2.Apart (LiveValue s.getServerValue servers name)) :
    (s.onServerRemovedSV fs).Follows after where
  values name helper hfind := by
    rw [getServerValue_congr (mapHashType_onServerRemovedSV s fs)]
    exact hs.values_onServerRemovedSV hunique hleave hgone hapart hfind
  listed id entry hfind := by
    rw [isSome_onServerRemovedSV]
    simp only [answers_congr (mapHashType_onServerRemovedSV s fs)]
    exact hs.listed_onServerRemovedSV hunique hleave hfind
  complete other hother hruns hregistered := by
    rw [isSome_onServerRemovedSV] at hregistered
    obtain ⟨hsid, hserver⟩ := (hleave other).mp hother
    have hpast := hs.complete other hserver hruns hregistered
    rw [mapServers_onServerRemovedSV]
    split
    next =>
      rw [OrderedMap.find_erase_of_ne _ hsid]
      exact hpast
    next => exact hpast

end Leaves

/-- Before the loop of a refresh nothing is left. -/
theorem Follows.cleared (hs : s.Follows servers)
    (hapart : ∀ name, (s.getHashHelper name).isSome →
      CHashServerValueHelper2.Apart (LiveValue s.getServerValue servers name)) :
    Follows
      { s with
        mapServers := .empty
        mapHashHelper := s.mapHashHelper.mapValues fun _ helper => helper.clearServer }
      fun _ => False where
  values name helper hfind := by
    rw [getHashHelper, OrderedMap.find_mapValues] at hfind
    obtain ⟨old, hold, rfl⟩ := Option.map_eq_some_iff.mp hfind
    have hcleared := (hs.values name old hold).clearServer
      (hapart name (Option.isSome_of_eq_some hold))
    refine hcleared.congr fun value => iff_of_false id ?_
    rintro ⟨-, other, hnone, -⟩
    exact hnone
  listed id entry hfind := by cases hfind
  complete other hnone := hnone.elim

/-- The loop keeps the suffixes and their types. -/
theorem registered_foldl (listed : List FavorStrSV) (s : CTBaseDaemonClientW2) :
    (listed.foldl onAddSV s).mapHashType = s.mapHashType ∧
      ∀ name, ((listed.foldl onAddSV s).getHashHelper name).isSome =
        (s.getHashHelper name).isSome := by
  induction listed generalizing s with
  | nil => exact ⟨rfl, fun _ => rfl⟩
  | cons fs rest ih =>
      obtain ⟨htypes, hnames⟩ := ih (s.onAddSV fs)
      exact ⟨htypes.trans (mapHashType_onAddSV s fs),
        fun name => (hnames name).trans (isSome_onAddSV s fs name)⟩

/-- The loop adds each server, under its own id. -/
theorem Follows.foldl_onAddSV (hs : s.Follows fun _ => False) {listed : List FavorStrSV}
    (hids : listed.Pairwise fun fs other => fs.sid ≠ other.sid)
    (hapart : ∀ name, (s.getHashHelper name).isSome →
      CHashServerValueHelper2.Apart (LiveValue s.getServerValue (· ∈ listed) name)) :
    (listed.foldl CTBaseDaemonClientW2.onAddSV s).Follows (· ∈ listed) := by
  induction listed using List.reverseRecOn with
  | nil =>
      have hnone : (fun fs : FavorStrSV => fs ∈ []) = fun _ => False := by
        funext fs
        exact eq_false List.not_mem_nil
      rw [hnone]
      exact hs
  | append_singleton past last ih =>
      obtain ⟨hpast, -, hlast⟩ := List.pairwise_append.mp hids
      have hmore : ∀ name value, LiveValue s.getServerValue (· ∈ past) name value →
          LiveValue s.getServerValue (· ∈ past ++ [last]) name value := by
        rintro name value ⟨hvalue, other, hother, hruns⟩
        exact ⟨hvalue, other, List.mem_append_left _ hother, hruns⟩
      have hfollows := ih hpast fun name hname => (hapart name hname).mono (hmore name)
      obtain ⟨htypes, hregistered⟩ := registered_foldl past s
      have hvalue := getServerValue_congr htypes
      rw [List.foldl_append, List.foldl_cons, List.foldl_nil]
      refine Follows.onAddSV ?_ hfollows ?_ ?_ ?_
      · intro other
        rw [List.mem_append, List.mem_singleton, or_comm]
        refine or_congr_right (and_iff_right_of_imp fun hother => ?_).symm
        exact hlast other hother last List.mem_cons_self
      · intro name value _ hlive
        rw [hvalue] at hlive ⊢
        exact hmore name value hlive
      · intro entry hfind
        obtain ⟨-, -, other, hother, hsid, -⟩ := hfollows.listed _ entry hfind
        exact absurd hsid (hlast other hother last List.mem_cons_self)
      · intro name hname
        rw [hregistered] at hname
        rw [hvalue]
        exact hapart name hname

/-- Every factor leads to a server that runs under the suffix. -/
theorem Follows.route (hs : s.Follows servers)
    (hunique : ∀ fs other, servers fs → servers other → fs.sid = other.sid → fs = other)
    {helper : CHashServerValueHelper2} (hfind : s.getHashHelper name = some helper)
    (hsome : ∃ value, LiveValue s.getServerValue servers name value) (uFactor : UInt32) :
    ∃ fs, servers fs ∧ RunsAs fs name ∧
      fs.sid = s.getServerIdByValue (helper.getServerValueByFactor uFactor) name
        (s.hashType name) := by
  have hregistered : (s.getHashHelper name).isSome := Option.isSome_of_eq_some hfind
  obtain ⟨hvalue, fs, hserver, hruns, hown⟩ :=
    (hs.values name helper hfind).getServerValueByFactor hsome uFactor
  generalize helper.getServerValueByFactor uFactor = value at hvalue hown ⊢
  cases htype : s.hashType name with
  | serverId =>
      rw [← hruns.2] at htype
      rw [getServerValue, htype] at hown
      exact ⟨fs, hserver, hruns, hown⟩
  | serverIp =>
      rw [← hruns.2] at htype hregistered
      obtain ⟨entry, hentry⟩ :=
        Option.isSome_iff_exists.mp (hs.complete fs hserver hruns.1 hregistered)
      obtain ⟨-, -, other, hother, hsid, hanswers⟩ := hs.listed _ entry hentry
      rw [hunique other fs hother hserver hsid] at hanswers
      have hip : HasIp entry value := hown ▸ hanswers.2 htype (hown.symm ▸ hvalue)
      -- some entry is found, and it is that of a server of the suffix
      have hfound : (s.mapServers.entries.find? fun entry =>
          entry.2.sstr = name ∧ HasIp entry.2 value).isSome := by
        rw [List.find?_isSome]
        refine ⟨(fs.sid, entry), OrderedMap.mem_entries.mpr hentry, ?_⟩
        exact decide_eq_true ⟨hanswers.1.2.symm.trans hruns.2, hip⟩
      obtain ⟨first, hfirst⟩ := Option.isSome_iff_exists.mp hfound
      have hmatch := List.find?_some hfirst
      have hname : first.2.sstr = name := (of_decide_eq_true hmatch).1
      have hlisted := OrderedMap.mem_entries.mp (List.mem_of_find?_eq_some hfirst)
      obtain ⟨hid, -, found, hfoundServer, hfoundSid, hfoundAnswers⟩ := hs.listed _ _ hlisted
      refine ⟨found, hfoundServer, hname ▸ hfoundAnswers.1, ?_⟩
      rw [getServerIdByValue, hfirst]
      exact hfoundSid.trans hid.symm

/-! ## Runs -/

/-- What a helper of the suffix should have now. -/
def LiveNow (st : Watched CTBaseDaemonClientW2) (client : DaemonClient) (name : String) :
    UInt32 → Prop := LiveValue st.watcher.getServerValue client.Knows name

/-- The helper of each of the suffixes has the values of the servers that run, and once there is
one, every factor leads to a server that runs. -/
def Current (names : List String) (st : Watched CTBaseDaemonClientW2) : Prop :=
  ∀ name ∈ names, ∃ helper, st.watcher.getHashHelper name = some helper ∧
    (∀ uServerValue, uServerValue ∈ helper.setServerValue.elems ↔
      LiveNow st st.client name uServerValue) ∧
    ((∃ uServerValue, LiveNow st st.client name uServerValue) → ∀ uFactor, ∃ fs,
      st.client.known (st.watcher.getServerIdByValue (helper.getServerValueByFactor uFactor) name
        (st.watcher.hashType name)) = some fs ∧ RunsAs fs name)

/-- The circles are free of collisions. -/
def Collisionless (st : Watched CTBaseDaemonClientW2) : Prop :=
  ∀ name, (st.watcher.getHashHelper name).isSome →
    CHashServerValueHelper2.Apart (LiveNow st st.client name)

/-- What a call must be like. When a server is added or its status changes, no suffix loses a value,
and an entry of the server in the map still answers for it. When a server is removed, no other one
has its value. -/
def KeepsCall (st : Watched CTBaseDaemonClientW2) (next : DaemonClient) :
    Option WatcherCall → Prop
  | some (.onAddSV fs) | some (.onServerStatusChangeSV fs) =>
      (∀ name value, (st.watcher.getHashHelper name).isSome → LiveNow st st.client name value →
        LiveNow st next name value) ∧
      ∀ entry, st.watcher.mapServers.find fs.sid = some entry → st.watcher.Answers entry fs
  | some (.onServerRemovedSV fs) =>
      (st.watcher.getHashHelper fs.sstr).isSome →
        ¬ LiveNow st next fs.sstr (st.watcher.getServerValue fs)
  | _ => True

def Keeps (st : Watched CTBaseDaemonClientW2) (message : DaemonNotice) : Prop :=
  KeepsCall st (st.client.notice message).1 (st.client.notice message).2

/-- What holds of a state in a run that keeps the values. -/
structure Kept (names : List String) (st : Watched CTBaseDaemonClientW2) : Prop where
  tabled : st.client.Tabled
  registered : ∀ name ∈ names, (st.watcher.getHashHelper name).isSome
  follows : st.watcher.Follows st.client.Knows

variable {names : List String} {st : Watched CTBaseDaemonClientW2}

theorem Kept.current (hst : Kept names st) : Current names st := by
  intro name hname
  obtain ⟨helper, hfind⟩ := Option.isSome_iff_exists.mp (hst.registered name hname)
  refine ⟨helper, hfind, (hst.follows.values name helper hfind).mem_iff, ?_⟩
  intro hsome uFactor
  obtain ⟨fs, hknows, hruns, hsid⟩ :=
    hst.follows.route (fun _ _ => DaemonClient.Knows.unique) hfind hsome uFactor
  exact ⟨fs, hsid ▸ hknows, hruns⟩

/-- The events keep the suffixes and their types. -/
theorem registered_on (client : DaemonClient) (s : CTBaseDaemonClientW2) (call : WatcherCall) :
    (on client s call).mapHashType = s.mapHashType ∧
      ∀ name, ((on client s call).getHashHelper name).isSome = (s.getHashHelper name).isSome := by
  have hrefresh : (s.onRefreshSV client).mapHashType = s.mapHashType ∧
      ∀ name, ((s.onRefreshSV client).getHashHelper name).isSome =
        (s.getHashHelper name).isSome := by
    obtain ⟨htypes, hnames⟩ := registered_foldl client.getServersSV
      { s with
        mapServers := .empty
        mapHashHelper := s.mapHashHelper.mapValues fun _ helper => helper.clearServer }
    refine ⟨htypes, fun name => (hnames name).trans ?_⟩
    rw [getHashHelper, OrderedMap.find_mapValues, Option.isSome_map]
    rfl
  cases call with
  | onAddSV fs => exact ⟨mapHashType_onAddSV s fs, isSome_onAddSV s fs⟩
  | onServerStatusChangeSV fs => exact ⟨mapHashType_onAddSV s fs, isSome_onAddSV s fs⟩
  | onServerRemovedSV fs =>
      exact ⟨mapHashType_onServerRemovedSV s fs, isSome_onServerRemovedSV s fs⟩
  | onRefreshSV => exact hrefresh
  | onRecoverRefreshSV => exact hrefresh

theorem registered_told (client : DaemonClient) (s : CTBaseDaemonClientW2)
    (call : Option WatcherCall) :
    (Watched.told on client s call).mapHashType = s.mapHashType ∧
      ∀ name, ((Watched.told on client s call).getHashHelper name).isSome =
        (s.getHashHelper name).isSome := by
  cases call with
  | none => exact ⟨rfl, fun _ => rfl⟩
  | some call => exact registered_on client s call

/-- A call that keeps the values. -/
theorem Kept.follows_call {client : DaemonClient} {call : Option WatcherCall}
    (hst : Kept names st) (htabled : client.Tabled)
    (hnoticed : DaemonClient.Noticed st.client client call) (hkeeps : KeepsCall st client call)
    (hbefore : Collisionless st)
    (hafter : ∀ name, (st.watcher.getHashHelper name).isSome →
      CHashServerValueHelper2.Apart (LiveNow st client name)) :
    (Watched.told on client st.watcher call).Follows client.Knows := by
  cases hnoticed with
  | quiet hknown => exact DaemonClient.knows_quiet hknown ▸ hst.follows
  | enters hwire hcall hknown =>
      have henter := DaemonClient.knows_enter hknown
      rcases hcall with rfl | rfl
      · exact hst.follows.onAddSV henter hkeeps.1 hkeeps.2 hafter
      · exact hst.follows.onAddSV henter hkeeps.1 hkeeps.2 hafter
  | leaves hold hknown =>
      exact hst.follows.onServerRemovedSV (fun other hother => hother.unique hold)
        (DaemonClient.knows_leave hknown) hkeeps hbefore
  | refreshed hcall =>
      have hrefresh : (st.watcher.onRefreshSV client).Follows client.Knows := by
        have hlisted : (· ∈ client.getServersSV) = client.Knows := by
          funext fs
          exact propext htabled.mem_getServersSV
        rw [← hlisted]
        apply (hst.follows.cleared hbefore).foldl_onAddSV htabled.getServersSV_sids
        intro name hname
        rw [getHashHelper, OrderedMap.find_mapValues, Option.isSome_map] at hname
        rw [hlisted]
        exact hafter name hname
      rcases hcall with rfl | rfl
      · exact hrefresh
      · exact hrefresh

theorem Kept.step {next : Watched CTBaseDaemonClientW2} {message : DaemonNotice}
    (hst : Kept names st) (hkeeps : Keeps st message) (hbefore : Collisionless st)
    (hafter : Collisionless next) (hstep : Watched.step on st message = some next) :
    Kept names next := by
  obtain ⟨client, call, hnotice, rfl, htabled, hnoticed⟩ := Watched.step_spec hst.tabled hstep
  rw [Keeps, hnotice] at hkeeps
  obtain ⟨htypes, hnames⟩ := registered_told client st.watcher call
  refine ⟨htabled, fun name hname => (hnames name).trans (hst.registered name hname), ?_⟩
  refine hst.follows_call htabled hnoticed hkeeps hbefore fun name hname => ?_
  have hname' := hafter name ((hnames name).trans hname)
  rw [LiveNow, getServerValue_congr htypes] at hname'
  exact hname'

/-- The client and the watcher as they are when the connection to the daemon starts. -/
def start (registered : List (String × EHashServerValueType)) (serverGroupId : Option Nat) :
    Watched CTBaseDaemonClientW2 :=
  ⟨.new serverGroupId, registered.foldl (fun s entry => s.addServerName entry.1 entry.2) .new⟩

theorem getHashHelper_addServerName (s : CTBaseDaemonClientW2) (strServerName : String)
    (emHashType : EHashServerValueType) (name : String) :
    (s.addServerName strServerName emHashType).getHashHelper name =
      if name = strServerName then some ((s.getHashHelper name).getD .new)
      else s.getHashHelper name := by
  unfold addServerName
  split
  next hregistered =>
    split
    next hname =>
      obtain ⟨old, hold⟩ := Option.isSome_iff_exists.mp hregistered
      rw [hname, getHashHelper, hold]
      rfl
    next => rfl
  next hnot =>
    rw [getHashHelper, OrderedMap.find_set, Function.update_apply]
    split
    next hname =>
      rw [hname, getHashHelper, Option.not_isSome_iff_eq_none.mp hnot]
      rfl
    next => rfl

theorem mapServers_addServerName (s : CTBaseDaemonClientW2) (strServerName : String)
    (emHashType : EHashServerValueType) :
    (s.addServerName strServerName emHashType).mapServers = s.mapServers := by
  unfold addServerName
  split <;> rfl

/-- After the registrations, each suffix has a helper without values. -/
theorem registered_start (registered : List (String × EHashServerValueType))
    (serverGroupId : Option Nat) :
    (∀ name ∈ registered.map Prod.fst,
        ((start registered serverGroupId).watcher.getHashHelper name).isSome) ∧
      (∀ name helper, (start registered serverGroupId).watcher.getHashHelper name = some helper →
        helper = .new) ∧
      (start registered serverGroupId).watcher.mapServers = .empty := by
  unfold start
  dsimp only
  induction registered using List.reverseRecOn with
  | nil =>
      refine ⟨fun _ hname => absurd hname List.not_mem_nil, fun _ _ hfind => ?_, rfl⟩
      cases hfind
  | append_singleton past last ih =>
      obtain ⟨hnames, hhelpers, hservers⟩ := ih
      rw [List.foldl_append, List.foldl_cons, List.foldl_nil]
      refine ⟨fun name hname => ?_, fun name helper hfind => ?_,
        (mapServers_addServerName _ _ _).trans hservers⟩
      · rw [getHashHelper_addServerName]
        split
        next => rfl
        next hother =>
          rw [List.map_append, List.mem_append] at hname
          exact hnames name (hname.resolve_right fun hlast => hother (List.mem_singleton.mp hlast))
      · rw [getHashHelper_addServerName] at hfind
        split at hfind
        next =>
          cases hpast : (past.foldl (fun s entry => s.addServerName entry.1 entry.2)
              new).getHashHelper name with
          | none =>
              rw [hpast] at hfind
              exact (Option.some_inj.mp hfind).symm
          | some old =>
              rw [hpast] at hfind
              exact (Option.some_inj.mp hfind).symm.trans (hhelpers name old hpast)
        next => exact hhelpers name helper hfind

theorem kept_start (registered : List (String × EHashServerValueType))
    (serverGroupId : Option Nat) :
    Kept (registered.map Prod.fst) (start registered serverGroupId) := by
  obtain ⟨hnames, hhelpers, hservers⟩ := registered_start registered serverGroupId
  refine ⟨DaemonClient.tabled_new serverGroupId, hnames, ?_, ?_, ?_⟩
  · intro name helper hfind
    rw [hhelpers name helper hfind]
    refine CHashServerValueHelper2.holds_new.congr fun value => iff_of_false id ?_
    rintro ⟨-, fs, hknows, -⟩
    exact DaemonClient.not_knows_new serverGroupId hknows
  · intro id entry hfind
    rw [hservers] at hfind
    cases hfind
  · exact fun fs hknows => absurd hknows (DaemonClient.not_knows_new serverGroupId)

/-- The values follow the servers in every run whose messages all keep them and whose circles are
free of collisions. -/
theorem values_throughout (registered : List (String × EHashServerValueType))
    (serverGroupId : Option Nat) (messages : List DaemonNotice)
    (hkeeps : Along (Watched.step on) Keeps (start registered serverGroupId) messages)
    (hapart : Throughout (Watched.step on) Collisionless (start registered serverGroupId)
      messages) :
    Throughout (Watched.step on) (Current (registered.map Prod.fst))
      (start registered serverGroupId) messages :=
  throughout_of_along
    (fun _ _ next (hst : Kept (registered.map Prod.fst) _) hcond hstep =>
      hst.step hcond.1 hcond.2.1 (hcond.2.2 next hstep) hstep)
    (fun _ hst => hst.current) (kept_start registered serverGroupId)
    (along_and.mpr ⟨hkeeps, hapart.along⟩)

/-- Servers that share an address. -/
def sharedServer (serverId : UInt32) : WireSV :=
  ⟨{ sstr := "imct2", dip := 1, wip := 0, port := 0, serverId := serverId.toNat, groupId := 1,
     serverStatus := .RUNNING },
   (by decide : 1 < 2 ^ 32), (by decide : 0 < 2 ^ 32), serverId.toNat_lt, (by decide : 1 < 2 ^ 32)⟩

theorem collisionless_of_same (value : UInt32)
    (hsame : ∀ entry ∈ st.client.sid2FavorSV.entries,
      st.watcher.getServerValue entry.2 = value) : Collisionless st := by
  rintro name - first second ⟨-, fs, hfs, -, rfl⟩ ⟨-, other, hother, -, rfl⟩ - - -
  rw [hsame _ (OrderedMap.mem_entries.mpr hfs), hsame _ (OrderedMap.mem_entries.mpr hother)]

/-- A server that comes and goes. -/
theorem values_of_shared :
    Throughout (Watched.step on) (Current ["imct2"]) (start [("imct2", .serverIp)] none)
      [.onServerAddSV (sharedServer 5), .onServerRemoveSV 5] := by
  refine values_throughout [("imct2", .serverIp)] none _ ⟨⟨?_, ?_⟩, ?_⟩ ⟨?_, ?_⟩
  · rintro name value - ⟨-, fs, hknows, -⟩
    exact absurd hknows (DaemonClient.not_knows_new none)
  · intro entry hfind
    cases hfind
  · intro next hstep
    cases hstep
    refine ⟨?_, fun _ _ => trivial⟩
    rintro - ⟨-, fs, hknows, -⟩
    exact absurd (OrderedMap.mem_entries.mpr hknows) List.not_mem_nil
  · exact collisionless_of_same 1 (by decide)
  · intro next hstep
    cases hstep
    refine ⟨collisionless_of_same 1 (by decide +kernel), fun next hstep => ?_⟩
    cases hstep
    exact collisionless_of_same 1 (by decide +kernel)

/-- Of two servers with an address, one goes, and the other one's value goes with it. -/
theorem not_values_of_shared : ¬ ∀ registered serverGroupId messages,
    Throughout (Watched.step on) Collisionless (start registered serverGroupId) messages →
      Throughout (Watched.step on) (Current (registered.map Prod.fst))
        (start registered serverGroupId) messages := by
  intro hall
  have hrun := hall [("imct2", .serverIp)] none
    [.onServerAddSV (sharedServer 5), .onServerAddSV (sharedServer 6), .onServerRemoveSV 5] (by
      refine ⟨collisionless_of_same 1 (by decide), fun next hstep => ?_⟩
      cases hstep
      refine ⟨collisionless_of_same 1 (by decide +kernel), fun next hstep => ?_⟩
      cases hstep
      refine ⟨collisionless_of_same 1 (by decide +kernel), fun next hstep => ?_⟩
      cases hstep
      exact collisionless_of_same 1 (by decide +kernel))
  have hfinal : Current ["imct2"] _ := ((hrun.2 _ rfl).2 _ rfl).2 _ rfl
  obtain ⟨helper, hfind, hvalues, -⟩ := hfinal "imct2" List.mem_cons_self
  have hlive : (1 : UInt32) ∈ helper.setServerValue.elems :=
    (hvalues 1).mpr ⟨by decide, (sharedServer 6).1, rfl, ⟨rfl, rfl⟩, by decide +kernel⟩
  have hnone : (some helper).map (·.setServerValue.elems) = some [] := by
    rw [← hfind]
    decide +kernel
  rw [Option.map_some, Option.some_inj] at hnone
  rw [hnone] at hlive
  exact absurd hlive List.not_mem_nil

end CTBaseDaemonClientW2

end ServiceFrame.Grp
