import Mathlib.Data.List.Induction
import ServiceFrame.ServerLib.ServerSelector

/-! # The caches of the selection

What `CServerSelectorImp` keeps is compared with the servers of the client. A query is
answered as a selector would that starts with these servers, as long as no event
leaves a circle in the cache, or a server in the container, that it should drop, and
no two queries share a key of the cache.
-/

namespace ServiceFrame

open Foundation

/-- The servers of the client, by their ids. -/
structure Servers where
  map : OrderedMap Nat FavorStrSV
  keyed : ∀ id fs, map.find id = some fs → fs.serverId = id

namespace Servers

def empty : Servers := ⟨.empty, fun _ _ hfind => by cases hfind⟩

def put (servers : Servers) (fs : FavorStrSV) : Servers where
  map := servers.map.set fs.serverId fs
  keyed id other hfind := by
    rw [OrderedMap.find_set, Function.update_apply] at hfind
    split at hfind
    next hsame =>
      cases hfind
      exact hsame.symm
    next => exact servers.keyed id other hfind

def remove (servers : Servers) (id : Nat) : Servers where
  map := servers.map.erase id
  keyed other fs hfind := by
    rw [OrderedMap.find_erase, Function.update_apply] at hfind
    split at hfind
    next => cases hfind
    next => exact servers.keyed other fs hfind

/-- `getServersSV`. -/
def toList (servers : Servers) : List FavorStrSV := servers.map.entries.map Prod.snd

end Servers

namespace CServerSelectorImp

/-- The hash selections. -/
inductive Query where
  | all
  | byNet (uNetType : UInt32)
  | byGroup (uGroupId : UInt32)
  | byNetGroup (uNetType uGroupId : UInt32)
  | byIp (uIp : UInt32)
deriving DecidableEq

namespace Query

def convert : Query → Bool
  | .byIp _ => false
  | _ => true

def uNetType : Query → UInt32
  | .byNet uNetType => uNetType
  | .byNetGroup uNetType _ => uNetType
  | .byIp uIp => uIp
  | _ => 0xFFFFFFFF

def uGroupId : Query → UInt32
  | .byGroup uGroupId => uGroupId
  | .byNetGroup _ uGroupId => uGroupId
  | _ => 0xFFFFFFFF

/-- The servers the query is for. -/
def keep : Query → SServerInfo → Bool
  | .all, _ => true
  | .byNet uNetType, info =>
      uNetType = SServerInfo.NET_TYPE_ANY || info.testNetType = uNetType
  | .byGroup uGroupId, info => info.uGroupId.toUInt32 = uGroupId
  | .byNetGroup uNetType uGroupId, info =>
      info.uGroupId.toUInt32 = uGroupId &&
        (uNetType = SServerInfo.NET_TYPE_ANY || info.testNetType = uNetType)
  | .byIp uIp, info => info.hasIp uIp

/-- The key of its circles. -/
def key (query : Query) (strSuffix : String) : String :=
  toKeyString strSuffix query.uNetType query.uGroupId

end Query

variable (md5 : List UInt8 → UInt32)

def hash (s : CServerSelectorImp) (query : Query) (strSuffix : String) (uKey : UInt32) :
    CServerSelectorImp × UInt32 :=
  match query with
  | .all => s.hashServer md5 uKey strSuffix
  | .byNet uNetType => s.hashServerByNet md5 uKey strSuffix uNetType
  | .byGroup uGroupId => s.hashServerByGroup md5 uKey strSuffix uGroupId
  | .byNetGroup uNetType uGroupId =>
      s.hashServerByNetGroup md5 uKey strSuffix uNetType uGroupId
  | .byIp uIp => s.hashServerByIp md5 uKey strSuffix uIp

theorem hash_eq (s : CServerSelectorImp) (query : Query) (strSuffix : String) (uKey : UInt32) :
    s.hash md5 query strSuffix uKey =
      s.hashServerIn md5 query.convert uKey strSuffix query.uNetType query.uGroupId
        (s.serverIdsWhere strSuffix query.keep) := by
  cases query <;> rfl

/-! ## The servers that are served -/

/-- How a server is served: it runs, and its suffix is registered. -/
def served (mapSuffix : OrderedMap String SHashInfo) (fs : FavorStrSV) :
    Option (SHashInfo × SServerInfo) :=
  if fs.serverStatus = .RUNNING then
    (mapSuffix.find fs.sstr).map fun info => (info, SServerInfo.ofSV fs)
  else none

/-- By its id. -/
def servedBy (mapSuffix : OrderedMap String SHashInfo) (servers : Servers) (id : Nat) :
    Option (SHashInfo × SServerInfo) :=
  (servers.map.find id).bind (served mapSuffix)

/-- The circle of a server. -/
def node (server : SHashInfo × SServerInfo) : Circle :=
  hashNode md5 (serverValue server.1 server.2) server.1.emFuncType

/-- The containers hold the servers that are served. -/
structure Follows (s : CServerSelectorImp) (serving : Nat → Option (SHashInfo × SServerInfo)) :
    Prop where
  infos : ∀ strSuffix id, (s.getServersInfo strSuffix).find id =
    (serving id).bind fun server =>
      if server.2.strSuffix = strSuffix then some server.2 else none
  nodes : ∀ id, s.hashContainer.find id = (serving id).map (node md5)

variable {md5} {s other : CServerSelectorImp} {fs : FavorStrSV}
  {serving : Nat → Option (SHashInfo × SServerInfo)}

theorem getServersInfo_set {strSuffix : String} {infos : OrderedMap Nat SServerInfo}
    (hset : other.mapServerInfo = s.mapServerInfo.set strSuffix infos) (suffix : String) :
    other.getServersInfo suffix =
      if suffix = strSuffix then infos else s.getServersInfo suffix := by
  unfold getServersInfo
  rw [hset, OrderedMap.find_set, Function.update_apply]
  split
  · rfl
  · rfl

/-- What is written at one id of one suffix. -/
theorem Follows.update (hfollows : Follows md5 s serving) (strSuffix : String) {id : Nat}
    {entry : Option (SHashInfo × SServerInfo)}
    (hinfos : ∀ suffix, (other.getServersInfo suffix).find =
      if suffix = strSuffix then
        Function.update (s.getServersInfo suffix).find id (entry.map Prod.snd)
      else (s.getServersInfo suffix).find)
    (hnodes : other.hashContainer.find =
      Function.update s.hashContainer.find id (entry.map (node md5)))
    (hentry : ∀ server, entry = some server → server.2.strSuffix = strSuffix)
    (hold : ∀ server, serving id = some server → server.2.strSuffix = strSuffix) :
    Follows md5 other (Function.update serving id entry) := by
  refine ⟨fun suffix id' => ?_, fun id' => ?_⟩
  · rw [hinfos, Function.update_apply]
    split
    next hsuffix =>
      subst hsuffix
      rw [Function.update_apply]
      split
      next =>
        cases entry with
        | none => rfl
        | some server => simp [hentry server rfl]
      next => exact hfollows.infos suffix id'
    next hsuffix =>
      rw [hfollows.infos]
      split
      next hid =>
        subst hid
        -- under another suffix the id is found neither before nor after
        have hskip : ∀ {found : Option (SHashInfo × SServerInfo)},
            (∀ server, found = some server → server.2.strSuffix = strSuffix) →
            (found.bind fun server =>
              if server.2.strSuffix = suffix then some server.2 else none) = none := by
          rintro (_ | server) hfound
          · rfl
          · rw [Option.bind_some, hfound server rfl, if_neg (Ne.symm hsuffix)]
        rw [hskip hold, hskip hentry]
      next => rfl
  · rw [hnodes, Function.update_apply, Function.update_apply]
    split
    next => rfl
    next => exact hfollows.nodes id'

theorem served_suffix {mapSuffix : OrderedMap String SHashInfo} {server : SHashInfo × SServerInfo}
    (hserved : served mapSuffix fs = some server) :
    fs.serverStatus = .RUNNING ∧ mapSuffix.find fs.sstr = some server.1 ∧
      server.2 = SServerInfo.ofSV fs := by
  unfold served at hserved
  split at hserved
  next hrunning =>
    obtain ⟨info, hinfo, rfl⟩ := Option.map_eq_some_iff.mp hserved
    exact ⟨hrunning, hinfo, rfl⟩
  next => cases hserved

theorem onAddSV_unserved (hserved : served s.mapSuffix fs = none) : s.onAddSV md5 fs = s := by
  unfold served at hserved
  unfold onAddSV
  split
  next hrunning =>
    rw [if_pos hrunning, Option.map_eq_none_iff] at hserved
    rw [hserved]
  next => rfl

theorem addIp_fixed (md5 : List UInt8 → UInt32) (s : CServerSelectorImp) (info : SHashInfo)
    (fs : FavorStrSV) :
    (s.addIp md5 info fs).mapServerInfo = s.mapServerInfo ∧
      (s.addIp md5 info fs).hashContainer = s.hashContainer ∧
      (s.addIp md5 info fs).mapCircleCache = s.mapCircleCache ∧
      (s.addIp md5 info fs).mapSuffix = s.mapSuffix := by
  unfold addIp
  split
  · exact ⟨rfl, rfl, rfl, rfl⟩
  · exact ⟨rfl, rfl, rfl, rfl⟩

theorem onAddSV_mapSuffix (s : CServerSelectorImp) (fs : FavorStrSV) :
    (s.onAddSV md5 fs).mapSuffix = s.mapSuffix := by
  unfold onAddSV
  split
  next =>
    split
    next => rfl
    next =>
      dsimp only
      split
      next => rfl
      next => exact (addIp_fixed _ _ _ _).2.2.2
  next => rfl

/-- A server that was not served joins. -/
theorem Follows.join (hfollows : Follows md5 s serving) {server : SHashInfo × SServerInfo}
    (hserved : served s.mapSuffix fs = some server) (hfree : serving fs.serverId = none) :
    Follows md5 (s.onAddSV md5 fs) (Function.update serving fs.serverId (some server)) ∧
      (s.onAddSV md5 fs).mapCircleCache =
        s.mapCircleCache.eraseIf fun strKey => getSuffixFromKey strKey = fs.sstr := by
  obtain ⟨hrunning, hinfo, hserver⟩ := served_suffix hserved
  have hnone : (s.getServersInfo fs.sstr).find fs.serverId = none := by
    rw [hfollows.infos, hfree]
    rfl
  have hnode : s.hashContainer.find fs.serverId = none := by
    rw [hfollows.nodes, hfree]
    rfl
  unfold onAddSV
  rw [if_pos hrunning, hinfo]
  dsimp only
  rw [hnone, if_neg (by decide)]
  obtain ⟨hinfos, hcontainer, hcache, -⟩ := addIp_fixed md5
    { s with
      mapServerInfo := s.mapServerInfo.set fs.sstr
        ((s.getServersInfo fs.sstr).insert fs.serverId (SServerInfo.ofSV fs))
      hashContainer := s.hashContainer.insert fs.serverId
        (hashNode md5 (serverValue server.1 (SServerInfo.ofSV fs)) server.1.emFuncType) }
    server.1 fs
  -- the table of addresses is of no account here
  revert hinfos hcontainer hcache
  generalize addIp _ _ _ _ = added
  intro hinfos hcontainer hcache
  refine ⟨hfollows.update fs.sstr (fun suffix => ?_) ?_ ?_ ?_, ?_⟩
  · have hset := getServersInfo_set (s := s) hinfos suffix
    change (added.getServersInfo suffix).find = _
    rw [hset]
    split
    next hsuffix =>
      subst hsuffix
      rw [OrderedMap.find_insert, hnone, Option.getD_none, Option.map_some, hserver]
    next => rfl
  · change added.hashContainer.find = _
    rw [hcontainer, OrderedMap.find_insert, hnode, Option.getD_none, Option.map_some, node, hserver]
  · rintro _ ⟨rfl⟩
    rw [hserver]
    rfl
  · intro old hold
    rw [hfree] at hold
    cases hold
  · rw [freshHashCache, hcache]

/-- A server that is served just so already changes nothing. -/
theorem Follows.rejoin (hfollows : Follows md5 s serving) {server : SHashInfo × SServerInfo}
    (hserved : served s.mapSuffix fs = some server) (hsame : serving fs.serverId = some server) :
    Follows md5 (s.onAddSV md5 fs) serving ∧
      (s.onAddSV md5 fs).mapCircleCache = s.mapCircleCache := by
  obtain ⟨hrunning, hinfo, hserver⟩ := served_suffix hserved
  have hthere : (s.getServersInfo fs.sstr).find fs.serverId = some server.2 := by
    rw [hfollows.infos, hsame]
    simp [hserver, SServerInfo.ofSV]
  unfold onAddSV
  rw [if_pos hrunning, hinfo]
  dsimp only
  rw [hthere, Option.isSome_some, if_pos rfl]
  refine ⟨⟨fun suffix id => ?_, hfollows.nodes⟩, rfl⟩
  rw [getServersInfo_set (s := s) rfl]
  split
  next hsuffix =>
    subst hsuffix
    rw [OrderedMap.find_insert, hthere, Option.getD_some, ← hthere, Function.update_eq_self]
    exact hfollows.infos _ _
  next => exact hfollows.infos _ _

theorem removeIp_fixed (s : CServerSelectorImp) (fs : FavorStrSV) :
    (s.removeIp fs).mapServerInfo = s.mapServerInfo ∧
      (s.removeIp fs).hashContainer = s.hashContainer ∧
      (s.removeIp fs).mapCircleCache = s.mapCircleCache ∧
      (s.removeIp fs).mapSuffix = s.mapSuffix := by
  unfold removeIp
  dsimp only
  split
  · exact ⟨rfl, rfl, rfl, rfl⟩
  · exact ⟨rfl, rfl, rfl, rfl⟩

theorem onServerRemovedSV_mapSuffix (s : CServerSelectorImp) (fs : FavorStrSV) :
    (s.onServerRemovedSV fs).mapSuffix = s.mapSuffix := by
  unfold onServerRemovedSV
  split
  · rfl
  · exact (removeIp_fixed _ _).2.2.2

/-- A server that is served under this suffix, or not at all, leaves. -/
theorem Follows.leave (hfollows : Follows md5 s serving)
    (hsuffix : ∀ server, serving fs.serverId = some server → server.2.strSuffix = fs.sstr)
    {info : SHashInfo} (hinfo : s.mapSuffix.find fs.sstr = some info) :
    Follows md5 (s.onServerRemovedSV fs) (Function.update serving fs.serverId none) ∧
      (s.onServerRemovedSV fs).mapCircleCache =
        s.mapCircleCache.eraseIf fun strKey => getSuffixFromKey strKey = fs.sstr := by
  unfold onServerRemovedSV
  rw [hinfo]
  dsimp only
  obtain ⟨hinfos, hcontainer, hcache, -⟩ := removeIp_fixed
    { s with
      mapServerInfo :=
        s.mapServerInfo.set fs.sstr ((s.getServersInfo fs.sstr).erase fs.serverId)
      hashContainer := s.hashContainer.erase fs.serverId } fs
  revert hinfos hcontainer hcache
  generalize removeIp _ _ = left
  intro hinfos hcontainer hcache
  refine ⟨hfollows.update fs.sstr (fun suffix => ?_) ?_ ?_ hsuffix, ?_⟩
  · have hset := getServersInfo_set (s := s) hinfos suffix
    change (left.getServersInfo suffix).find = _
    rw [hset]
    split
    next hsame =>
      subst hsame
      rw [OrderedMap.find_erase]
      rfl
    next => rfl
  · change left.hashContainer.find = _
    rw [hcontainer, OrderedMap.find_erase]
    rfl
  · intro server hserver
    cases hserver
  · rw [freshHashCache, hcache]

/-- A server comes that is served just so already, or not at all. -/
theorem Follows.add (hfollows : Follows md5 s serving)
    (hfree : serving fs.serverId = served s.mapSuffix fs ∨ serving fs.serverId = none) :
    Follows md5 (s.onAddSV md5 fs)
        (Function.update serving fs.serverId (served s.mapSuffix fs)) ∧
      ∀ strKey circle, (s.onAddSV md5 fs).mapCircleCache.find strKey = some circle →
        s.mapCircleCache.find strKey = some circle ∧
          (serving fs.serverId ≠ served s.mapSuffix fs → getSuffixFromKey strKey ≠ fs.sstr) := by
  by_cases hsame : serving fs.serverId = served s.mapSuffix fs
  · rw [← hsame, Function.update_eq_self]
    cases hserved : served s.mapSuffix fs with
    | none =>
        rw [onAddSV_unserved hserved]
        exact ⟨hfollows, fun strKey circle hfind => ⟨hfind, fun hdiff => absurd rfl hdiff⟩⟩
    | some server =>
        obtain ⟨hnext, hcache⟩ := hfollows.rejoin hserved (hsame.trans hserved)
        rw [hcache]
        exact ⟨hnext, fun strKey circle hfind => ⟨hfind, fun hdiff => absurd rfl hdiff⟩⟩
  · have hnone := hfree.resolve_left hsame
    cases hserved : served s.mapSuffix fs with
    | none => exact absurd (hnone.trans hserved.symm) hsame
    | some server =>
        obtain ⟨hnext, hcache⟩ := hfollows.join hserved hnone
        refine ⟨hnext, fun strKey circle hfind => ?_⟩
        rw [hcache, OrderedMap.find_eraseIf] at hfind
        split at hfind
        next => cases hfind
        next hkeep => exact ⟨hfind, fun _ => by simpa using hkeep⟩

/-! ## Refreshing -/

/-- What is served after servers were added one by one. -/
def servingAll (mapSuffix : OrderedMap String SHashInfo)
    (serving : Nat → Option (SHashInfo × SServerInfo)) (vecServers : List FavorStrSV) :
    Nat → Option (SHashInfo × SServerInfo) :=
  vecServers.foldl (fun serving fs => Function.update serving fs.serverId (served mapSuffix fs))
    serving

theorem foldl_onAddSV_mapSuffix (s : CServerSelectorImp) (vecServers : List FavorStrSV) :
    (vecServers.foldl (onAddSV md5) s).mapSuffix = s.mapSuffix := by
  induction vecServers generalizing s with
  | nil => rfl
  | cons fs rest ih => rw [List.foldl_cons, ih, onAddSV_mapSuffix]

theorem Follows.addAll (hfollows : Follows md5 s serving) {vecServers : List FavorStrSV}
    (hnodup : (vecServers.map FavorStrSV.serverId).Nodup)
    (hfree : ∀ fs ∈ vecServers, serving fs.serverId = none) :
    Follows md5 (vecServers.foldl (onAddSV md5) s) (servingAll s.mapSuffix serving vecServers) ∧
      ∀ strKey circle,
        (vecServers.foldl (onAddSV md5) s).mapCircleCache.find strKey = some circle →
          s.mapCircleCache.find strKey = some circle ∧
            ∀ fs ∈ vecServers, (served s.mapSuffix fs).isSome →
              getSuffixFromKey strKey ≠ fs.sstr := by
  -- on the servers still to be added, none of which is served so far
  induction vecServers generalizing s serving with
  | nil => exact ⟨hfollows, fun strKey circle hfind => ⟨hfind, by simp⟩⟩
  | cons fs rest ih =>
      rw [List.map_cons, List.nodup_cons] at hnodup
      have hfirst := hfree fs List.mem_cons_self
      obtain ⟨hnext, hcache⟩ := hfollows.add (Or.inr hfirst)
      have hrest : ∀ later ∈ rest, Function.update serving fs.serverId
          (served s.mapSuffix fs) later.serverId = none := by
        intro later hlater
        rw [Function.update_of_ne, hfree later (List.mem_cons_of_mem _ hlater)]
        intro hsame
        exact hnodup.1 (hsame ▸ List.mem_map_of_mem hlater)
      obtain ⟨hlast, hlater⟩ := ih hnext hnodup.2 hrest
      rw [onAddSV_mapSuffix] at hlast hlater
      refine ⟨hlast, fun strKey circle hfind => ?_⟩
      obtain ⟨hkept, hothers⟩ := hlater strKey circle hfind
      obtain ⟨hold, hkeep⟩ := hcache strKey circle hkept
      refine ⟨hold, fun other hother hserved => ?_⟩
      rcases List.mem_cons.mp hother with rfl | hother
      · exact hkeep (hfirst ▸ (Option.isSome_iff_ne_none.mp hserved).symm)
      · exact hothers other hother hserved

theorem servingAll_entries (mapSuffix : OrderedMap String SHashInfo)
    {entries : List (Nat × FavorStrSV)} (hsorted : entries.Pairwise fun a b => a.1 < b.1)
    (hkeyed : ∀ entry ∈ entries, entry.2.serverId = entry.1)
    (serving : Nat → Option (SHashInfo × SServerInfo)) (id : Nat) :
    servingAll mapSuffix serving (entries.map Prod.snd) id =
      match findEntry id entries with
      | some fs => served mapSuffix fs
      | none => serving id := by
  induction entries generalizing serving with
  | nil => rfl
  | cons entry rest ih =>
      obtain ⟨key, fs⟩ := entry
      obtain ⟨hhead, hrest⟩ := List.pairwise_cons.mp hsorted
      have hkey : fs.serverId = key := hkeyed (key, fs) List.mem_cons_self
      change servingAll mapSuffix (Function.update serving fs.serverId _) (rest.map Prod.snd) id = _
      rw [ih hrest fun other hother => hkeyed other (List.mem_cons_of_mem _ hother), findEntry,
        hkey]
      by_cases hid : id = key
      · subst hid
        have hnone : findEntry id rest = none := by
          rw [Option.eq_none_iff_forall_ne_some]
          intro later hlater
          exact lt_irrefl _ (hhead (id, later) ((findEntry_eq_some hrest).mp hlater))
        rw [hnone, if_pos rfl, Function.update_self]
      · rw [if_neg hid, Function.update_of_ne hid]

theorem follows_cleared (md5 : List UInt8 → UInt32) (s : CServerSelectorImp) :
    Follows md5 { s with mapServerInfo := .empty, hashContainer := .empty } fun _ => none where
  infos _ _ := rfl
  nodes _ := rfl

/-- After a refresh the servers of the client are served, and no circle of theirs is left. -/
theorem follows_refresh (md5 : List UInt8 → UInt32) (s : CServerSelectorImp) (servers : Servers) :
    Follows md5 (s.onRefreshSV md5 servers.toList)
        (servedBy s.mapSuffix servers) ∧
      ∀ strKey circle,
        (s.onRefreshSV md5 servers.toList).mapCircleCache.find strKey = some circle →
          s.mapCircleCache.find strKey = some circle ∧
            ∀ id server, servedBy s.mapSuffix servers id = some server →
              getSuffixFromKey strKey ≠ server.2.strSuffix := by
  have hkeyed : ∀ entry ∈ servers.map.entries, entry.2.serverId = entry.1 := fun entry hentry =>
    servers.keyed entry.1 entry.2 (OrderedMap.mem_entries.mp hentry)
  -- the list has an entry for each key of the map, so no id comes twice
  have hids : servers.toList.map FavorStrSV.serverId = servers.map.entries.map Prod.fst := by
    rw [Servers.toList, List.map_map]
    exact List.map_congr_left hkeyed
  have hnodup : (servers.toList.map FavorStrSV.serverId).Nodup := by
    rw [hids, List.Nodup, List.pairwise_map]
    exact servers.map.sorted.imp fun hless => hless.ne
  obtain ⟨hfollows, hcache⟩ := (follows_cleared md5 s).addAll hnodup fun _ _ => rfl
  have hserving : servingAll s.mapSuffix (fun _ => none) servers.toList =
      servedBy s.mapSuffix servers := by
    funext id
    rw [Servers.toList, servingAll_entries s.mapSuffix servers.map.sorted hkeyed]
    unfold servedBy OrderedMap.find
    cases findEntry id servers.map.entries with
    | none => rfl
    | some fs => rfl
  rw [← hserving]
  refine ⟨hfollows, fun strKey circle hfind => ?_⟩
  obtain ⟨hold, hothers⟩ := hcache strKey circle hfind
  refine ⟨hold, fun id server hserver => ?_⟩
  rw [hserving] at hserver
  obtain ⟨fs, hfs, hserved⟩ := Option.bind_eq_some_iff.mp hserver
  have hmem : fs ∈ servers.toList :=
    List.mem_map.mpr ⟨(id, fs), OrderedMap.mem_entries.mpr hfs, rfl⟩
  have hsuffix := hothers fs hmem (by rw [hserved]; rfl)
  rw [(served_suffix hserved).2.2]
  exact hsuffix

/-! ## Circles that are right -/

/-- The circle is the one that the servers make which the query is for. -/
def Right (s : CServerSelectorImp) (strSuffix : String) (query : Query) (circle : Circle) : Prop :=
  2 ≤ (s.serverIdsWhere strSuffix query.keep).length ∧
    circle = getServerCircle s.hashContainer (s.serverIdsWhere strSuffix query.keep)

theorem mem_serverIdsWhere {strSuffix : String} {keep : SServerInfo → Bool} {id : Nat} :
    id ∈ s.serverIdsWhere strSuffix keep ↔
      ∃ info, (s.getServersInfo strSuffix).find id = some info ∧ keep info = true := by
  unfold serverIdsWhere
  rw [List.mem_map]
  constructor
  · rintro ⟨⟨other, info⟩, hentry, rfl⟩
    obtain ⟨hmem, hkeep⟩ := List.mem_filter.mp hentry
    exact ⟨info, OrderedMap.mem_entries.mp hmem, hkeep⟩
  · rintro ⟨info, hfind, hkeep⟩
    exact ⟨(id, info), List.mem_filter.mpr ⟨OrderedMap.mem_entries.mpr hfind, hkeep⟩, rfl⟩

theorem getServerCircle_congr {container container' : OrderedMap Nat Circle} {ids : List Nat}
    (hsame : ∀ id ∈ ids, container.find id = container'.find id) :
    getServerCircle container ids = getServerCircle container' ids := by
  unfold getServerCircle
  apply List.foldl_ext
  intro circle id hid
  rw [hsame id hid]

/-- Servers of other suffixes may come and go. -/
theorem Right.frame {serving' : Nat → Option (SHashInfo × SServerInfo)} {strSuffix : String}
    {query : Query} {circle : Circle} (hright : Right s strSuffix query circle)
    (hfollows : Follows md5 s serving) (hother : Follows md5 other serving')
    (hsame : ∀ id server, server.2.strSuffix = strSuffix →
      (serving id = some server ↔ serving' id = some server)) :
    Right other strSuffix query circle := by
  -- both selectors list the same servers of the suffix, so that their nodes are the same too
  have hinfos : s.getServersInfo strSuffix = other.getServersInfo strSuffix := by
    apply OrderedMap.ext_find
    funext id
    apply Option.ext
    intro info
    have hfind : ∀ {serving : Nat → Option (SHashInfo × SServerInfo)},
        ((serving id).bind fun server =>
            if server.2.strSuffix = strSuffix then some server.2 else none) = some info ↔
          ∃ server, serving id = some server ∧ server.2.strSuffix = strSuffix ∧
            server.2 = info := by
      intro serving
      rw [Option.bind_eq_some_iff]
      simp only [Option.ite_none_right_eq_some, Option.some.injEq]
    rw [hfollows.infos, hother.infos, hfind, hfind]
    constructor
    · rintro ⟨server, hserver, hsuffix, hinfo⟩
      exact ⟨server, (hsame id server hsuffix).mp hserver, hsuffix, hinfo⟩
    · rintro ⟨server, hserver, hsuffix, hinfo⟩
      exact ⟨server, (hsame id server hsuffix).mpr hserver, hsuffix, hinfo⟩
  have hids : s.serverIdsWhere strSuffix query.keep =
      other.serverIdsWhere strSuffix query.keep := by
    unfold serverIdsWhere
    rw [hinfos]
  obtain ⟨hlength, hcircle⟩ := hright
  refine ⟨hids ▸ hlength, ?_⟩
  rw [hcircle, ← hids]
  apply getServerCircle_congr
  intro id hid
  obtain ⟨info, hfind, -⟩ := mem_serverIdsWhere.mp hid
  rw [hfollows.infos] at hfind
  obtain ⟨server, hserver, hsuffix⟩ := Option.bind_eq_some_iff.mp hfind
  rw [Option.ite_none_right_eq_some] at hsuffix
  rw [hfollows.nodes, hother.nodes, hserver, (hsame id server hsuffix.1).mp hserver]

/-- What a circle in the cache is for. -/
inductive Use where
  | query (strSuffix : String) (query : Query)
  /-- The addresses of a suffix, and the servers of one address. -/
  | ips (strSuffix : String)
  | sameIp (strSuffix : String) (ip : Nat)

def Use.key : Use → String
  | .query strSuffix asked => asked.key strSuffix
  | .ips strSuffix => toKeyString strSuffix 0xFFFFFFFF 0xFFFFFFFF
  | .sameIp strSuffix ip =>
      toKeyString (strSuffix ++ ":" ++ toString ip) 0xFFFFFFFF 0xFFFFFFFF

/-- A circle for a query is right. -/
def RightFor (s : CServerSelectorImp) (use : Use) (circle : Circle) : Prop :=
  ∀ strSuffix query, use = .query strSuffix query → Right s strSuffix query circle

/-- Nothing changes but the cache, which gets circles for some uses. -/
structure Fills (uses : Use → Prop) (s next : CServerSelectorImp) : Prop where
  mapServerInfo : next.mapServerInfo = s.mapServerInfo
  mapSuffix : next.mapSuffix = s.mapSuffix
  hashContainer : next.hashContainer = s.hashContainer
  mapCircleCache : ∀ strKey circle, next.mapCircleCache.find strKey = some circle →
    s.mapCircleCache.find strKey = some circle ∨
      ∃ use, uses use ∧ use.key = strKey ∧ RightFor s use circle

theorem RightFor.congr {next : CServerSelectorImp} {use : Use} {circle : Circle}
    (hright : RightFor s use circle) (hinfos : next.mapServerInfo = s.mapServerInfo)
    (hcontainer : next.hashContainer = s.hashContainer) : RightFor next use circle := by
  intro strSuffix query huse
  have hold := hright strSuffix query huse
  unfold Right serverIdsWhere getServersInfo at hold ⊢
  rw [hinfos, hcontainer]
  exact hold

theorem Fills.refl (uses : Use → Prop) (s : CServerSelectorImp) : Fills uses s s :=
  ⟨rfl, rfl, rfl, fun _ _ hfind => Or.inl hfind⟩

theorem Fills.trans {uses : Use → Prop} {middle next : CServerSelectorImp}
    (hfirst : Fills uses s middle) (hsecond : Fills uses middle next) : Fills uses s next := by
  refine ⟨hsecond.mapServerInfo.trans hfirst.mapServerInfo,
    hsecond.mapSuffix.trans hfirst.mapSuffix,
    hsecond.hashContainer.trans hfirst.hashContainer, fun strKey circle hfind => ?_⟩
  rcases hsecond.mapCircleCache strKey circle hfind with hold | ⟨use, huse, hkey, hright⟩
  · exact hfirst.mapCircleCache strKey circle hold
  · exact Or.inr ⟨use, huse, hkey,
      hright.congr hfirst.mapServerInfo.symm hfirst.hashContainer.symm⟩

theorem Fills.follows {uses : Use → Prop} {next : CServerSelectorImp} (hfills : Fills uses s next)
    (hfollows : Follows md5 s serving) : Follows md5 next serving := by
  refine ⟨fun strSuffix id => ?_, fun id => ?_⟩
  · unfold getServersInfo
    rw [hfills.mapServerInfo]
    exact hfollows.infos strSuffix id
  · rw [hfills.hashContainer]
    exact hfollows.nodes id

theorem circleFromContainer_fills (uses : Use → Prop) (use : Use) (huse : uses use)
    {container : OrderedMap Nat Circle} {setServerId : List Nat}
    (hright : RightFor s use (getServerCircle container setServerId)) :
    Fills uses s (s.circleFromContainer container use.key setServerId).1 := by
  unfold circleFromContainer
  split
  next => exact Fills.refl uses s
  next hnone =>
    refine ⟨rfl, rfl, rfl, fun strKey circle hfind => ?_⟩
    rw [OrderedMap.find_insert, hnone, Option.getD_none, Function.update_apply] at hfind
    split at hfind
    next hkey =>
      cases hfind
      exact Or.inr ⟨use, huse, hkey.symm, hright⟩
    next => exact Or.inl hfind

theorem two_le_length {ids : List Nat} (hempty : ids = [] → False)
    (hone : ∀ id, ids = [id] → False) : 2 ≤ ids.length := by
  cases hids : ids with
  | nil => exact absurd hids hempty
  | cons id rest =>
      cases rest with
      | nil => exact absurd hids (hone id)
      | cons _ _ => exact Nat.le_add_left 2 _

theorem hash_fills (s : CServerSelectorImp) (query : Query) (strSuffix : String) (uKey : UInt32) :
    Fills (· = .query strSuffix query) s (s.hash md5 query strSuffix uKey).1 := by
  rw [hash_eq]
  unfold hashServerIn
  split
  next => exact Fills.refl _ s
  next =>
    dsimp only
    split
    next => exact Fills.refl _ s
    next =>
      split
      next => exact Fills.refl _ s
      next => exact Fills.refl _ s
      next hempty hone =>
        refine circleFromContainer_fills (· = .query strSuffix query)
          (.query strSuffix query) rfl ?_
        rintro _ _ ⟨rfl, rfl⟩
        exact ⟨two_le_length hempty hone, rfl⟩

/-- What `HashMultiServer` makes circles for. -/
def MultiUses (mapSuffix : OrderedMap String SHashInfo) (strSuffix : String) (use : Use) : Prop :=
  (∃ info, mapSuffix.find strSuffix = some info ∧
      use = if info.emValueType = .serverIpId then .ips strSuffix else .query strSuffix .all) ∨
    ∃ ip, use = .sameIp strSuffix ip

variable {mapSuffix : OrderedMap String SHashInfo}

theorem serverOfIp_fills (s : CServerSelectorImp) (uKey : UInt32) (strSuffix : String)
    (emFuncType : EHashFuntcionType) (vecValues : List UInt32) (ip : Nat) :
    Fills (MultiUses mapSuffix strSuffix) s
      (serverOfIp md5 uKey strSuffix emFuncType (s, vecValues) ip).1 := by
  rw [serverOfIp]
  split
  next => exact Fills.refl _ s
  next serverIds _ =>
    have hright : RightFor s (.sameIp strSuffix ip)
        (getServerCircle s.hashContainer serverIds.values) := fun _ _ huse => by cases huse
    have hfills := circleFromContainer_fills (MultiUses mapSuffix strSuffix)
      (.sameIp strSuffix ip) (Or.inr ⟨ip, rfl⟩) hright
    dsimp only
    split
    next => exact hfills
    next => exact hfills

theorem serversOfIps_fills (s : CServerSelectorImp) (uKey : UInt32) (strSuffix : String)
    (emFuncType : EHashFuntcionType) (setValues : List Nat) :
    Fills (MultiUses mapSuffix strSuffix) s
      (s.serversOfIps md5 uKey strSuffix emFuncType setValues).1 := by
  unfold serversOfIps
  generalize ([] : List UInt32) = vecValues
  induction setValues generalizing s vecValues with
  | nil => exact Fills.refl _ s
  | cons ip rest ih =>
      rw [List.foldl_cons]
      exact (serverOfIp_fills s uKey strSuffix emFuncType vecValues ip).trans (ih _ _)

theorem multiServers_fills (s : CServerSelectorImp)
    (uKey : UInt32) (strSuffix : String) (info : SHashInfo) (setValues : UIntSet) :
    Fills (MultiUses mapSuffix strSuffix) s
      (s.multiServers md5 uKey strSuffix info setValues).1 := by
  unfold multiServers
  split
  next => exact Fills.refl _ s
  next => exact serversOfIps_fills s uKey strSuffix info.emFuncType setValues.values

theorem multiFromCircle_fills {next : CServerSelectorImp}
    {uKey uValueCount : UInt32} {strSuffix : String} {info : SHashInfo} {circle : Circle}
    {answer : Bool × List UInt32}
    (hnext : s.multiFromCircle md5 uKey uValueCount strSuffix info circle = some (next, answer)) :
    Fills (MultiUses mapSuffix strSuffix) s next := by
  obtain ⟨found, -, hfound⟩ := Option.bind_eq_some_iff.mp hnext
  cases found with
  | none =>
      cases hfound
      exact Fills.refl _ s
  | some setValues =>
      have hlast : _ = next := congrArg Prod.fst (Option.some.inj hfound)
      rw [← hlast]
      exact multiServers_fills s uKey strSuffix info setValues

theorem hashMultiServer_fills {next : CServerSelectorImp} {uKey uValueCount : UInt32}
    {strSuffix : String} {answer : Bool × List UInt32}
    (hnext : s.hashMultiServer md5 uKey uValueCount strSuffix = some (next, answer)) :
    Fills (MultiUses s.mapSuffix strSuffix) s next := by
  unfold hashMultiServer at hnext
  split at hnext
  next =>
    cases hnext
    exact Fills.refl _ s
  next info hinfo =>
    dsimp only at hnext
    split at hnext
    next => exact multiFromCircle_fills hnext
    next =>
      split at hnext
      next hips =>
        split at hnext
        next =>
          cases hnext
          exact Fills.refl _ s
        next =>
          split at hnext
          next =>
            have hlast : _ = next := congrArg Prod.fst (Option.some.inj hnext)
            rw [← hlast]
            exact multiServers_fills s uKey strSuffix info (s.getServerIps strSuffix)
          next =>
            -- the addresses have a circle of their own, under a key without types
            refine (circleFromContainer_fills _ (.ips strSuffix) (Or.inl ⟨info, hinfo, ?_⟩)
              fun _ _ huse => by cases huse).trans (multiFromCircle_fills hnext)
            rw [if_pos hips]
      next hids =>
        split at hnext
        next =>
          cases hnext
          exact Fills.refl _ s
        next =>
          cases hnext
          exact Fills.refl _ s
        next hempty hone =>
          refine (circleFromContainer_fills _ (.query strSuffix .all)
            (Or.inl ⟨info, hinfo, ?_⟩) ?_).trans (multiFromCircle_fills hnext)
          · rintro _ _ ⟨rfl, rfl⟩
            exact ⟨two_le_length hempty hone, rfl⟩
          · rw [if_neg hids]

/-! ## Answers -/

/-- Two selectors that serve the same servers answer the same when one of them has the
right circle in the cache, or none, and the other none. -/
theorem hash_answer (hfollows : Follows md5 s serving) (hother : Follows md5 other serving)
    (hmapSuffix : s.mapSuffix = other.mapSuffix) {query : Query} {strSuffix : String}
    (hnone : other.mapCircleCache.find (query.key strSuffix) = none)
    (hright : ∀ circle, s.mapCircleCache.find (query.key strSuffix) = some circle →
      Right s strSuffix query circle) (uKey : UInt32) :
    (s.hash md5 query strSuffix uKey).2 = (other.hash md5 query strSuffix uKey).2 := by
  have hcontainer : s.hashContainer = other.hashContainer := by
    apply OrderedMap.ext_find
    funext id
    rw [hfollows.nodes, hother.nodes]
  have hinfos : s.getServersInfo = other.getServersInfo := by
    funext suffix
    apply OrderedMap.ext_find
    funext id
    rw [hfollows.infos, hother.infos]
  have hids : s.serverIdsWhere = other.serverIdsWhere := by
    funext suffix keep
    unfold serverIdsWhere
    rw [hinfos]
  have hip : s.serverIpToId = other.serverIpToId := by
    funext suffix ip
    unfold serverIpToId
    rw [hids]
  rw [hash_eq, hash_eq]
  unfold hashServerIn
  rw [hmapSuffix]
  cases other.mapSuffix.find strSuffix with
  | none => rfl
  | some info =>
      dsimp only
      change other.mapCircleCache.find (toKeyString _ _ _) = none at hnone
      rw [hnone, ← hids, ← hip, ← hcontainer]
      dsimp only
      cases hcache : s.mapCircleCache.find
        (toKeyString strSuffix query.uNetType query.uGroupId) with
      | some circle =>
          -- a right circle is of two servers at least, and is the one that would be built
          obtain ⟨hlength, hcircle⟩ := hright circle hcache
          rw [hcircle]
          cases hlist : s.serverIdsWhere strSuffix query.keep with
          | nil =>
              rw [hlist] at hlength
              exact absurd hlength (by decide)
          | cons id rest =>
              cases rest with
              | nil =>
                  rw [hlist] at hlength
                  exact absurd hlength (by simp)
              | cons next rest =>
                  dsimp only
                  rw [circleFromContainer, hnone]
      | none =>
          dsimp only
          split
          next => rfl
          next => rfl
          next => rw [circleFromContainer, circleFromContainer, hnone, hcache]

theorem hash_caches {query : Query} {strSuffix : String} {info : SHashInfo}
    (hinfo : s.mapSuffix.find strSuffix = some info)
    (hnone : s.mapCircleCache.find (query.key strSuffix) = none)
    (hlength : 2 ≤ (s.serverIdsWhere strSuffix query.keep).length) (uKey : UInt32) :
    (s.hash md5 query strSuffix uKey).1.mapCircleCache.find (query.key strSuffix) =
      some (getServerCircle s.hashContainer (s.serverIdsWhere strSuffix query.keep)) := by
  rw [hash_eq]
  unfold hashServerIn
  change s.mapCircleCache.find (toKeyString _ _ _) = none at hnone
  rw [hinfo]
  dsimp only
  rw [hnone]
  dsimp only
  split
  next hnil => simp [hnil] at hlength
  next hone => simp [hone] at hlength
  next =>
    rw [circleFromContainer, hnone]
    dsimp only
    rw [OrderedMap.find_insert, hnone, Option.getD_none]
    exact Function.update_self _ _ _

theorem hash_cached {query : Query} {strSuffix : String} {info : SHashInfo} {circle : Circle}
    (hinfo : s.mapSuffix.find strSuffix = some info) (hvalue : info.emValueType ≠ .serverIp)
    (hcircle : s.mapCircleCache.find (query.key strSuffix) = some circle) (uKey : UInt32) :
    (s.hash md5 query strSuffix uKey).2 = getValueByKey md5 circle info.emFuncType uKey := by
  rw [hash_eq]
  unfold hashServerIn
  change s.mapCircleCache.find (toKeyString _ _ _) = some circle at hcircle
  rw [hinfo]
  dsimp only
  rw [hcircle]
  dsimp only
  rw [if_neg fun hboth => hvalue hboth.2]

/-! ## Live servers -/

theorem exportCircle_find {node bigCircle : Circle} {position : Nat} {value : UInt32}
    (hfind : (exportCircle node bigCircle).find position = some value) :
    bigCircle.find position = some value ∨ node.find position = some value :=
  (OrderedMap.foldl_insert_find hfind).imp_right OrderedMap.mem_entries.mp

/-- No point goes when others are added. -/
theorem exportCircle_isSome {node bigCircle : Circle} {position : Nat}
    (hsome : (bigCircle.find position).isSome ∨ (node.find position).isSome) :
    ((exportCircle node bigCircle).find position).isSome := by
  refine OrderedMap.foldl_insert_isSome (hsome.imp_right fun hnode => ?_)
  obtain ⟨value, hvalue⟩ := Option.isSome_iff_exists.mp hnode
  exact List.mem_map.mpr ⟨(position, value), OrderedMap.mem_entries.mpr hvalue, rfl⟩

theorem getServerCircle_isSome {container : OrderedMap Nat Circle} {ids : List Nat} {id : Nat}
    {node : Circle} {position : Nat} (hid : id ∈ ids) (hnode : container.find id = some node)
    (hsome : (node.find position).isSome) :
    ((getServerCircle container ids).find position).isSome := by
  induction ids using List.reverseRecOn with
  | nil => cases hid
  | append_singleton front last ih =>
      rw [getServerCircle, List.foldl_append, List.foldl_cons, List.foldl_nil, ← getServerCircle]
      rcases List.mem_append.mp hid with hfront | hlast
      · split
        next => exact exportCircle_isSome (Or.inl (ih hfront))
        next => exact ih hfront
      · rw [List.mem_singleton.mp hlast] at hnode
        rw [hnode]
        exact exportCircle_isSome (Or.inr hsome)

/-- A point of the circle is one of the servers. -/
theorem getServerCircle_find {container : OrderedMap Nat Circle} {ids : List Nat} {position : Nat}
    {value : UInt32} (hfind : (getServerCircle container ids).find position = some value) :
    ∃ id ∈ ids, ∃ node, container.find id = some node ∧ node.find position = some value := by
  induction ids using List.reverseRecOn with
  | nil => cases hfind
  | append_singleton front id ih =>
      rw [getServerCircle, List.foldl_append, List.foldl_cons, List.foldl_nil,
        ← getServerCircle] at hfind
      have hfront : (getServerCircle container front).find position = some value →
          ∃ other ∈ front ++ [id], ∃ node, container.find other = some node ∧
            node.find position = some value := by
        intro hold
        obtain ⟨other, hother, hnode⟩ := ih hold
        exact ⟨other, List.mem_append_left _ hother, hnode⟩
      split at hfind
      next node hnode =>
        rcases exportCircle_find hfind with hold | hnew
        · exact hfront hold
        · exact ⟨id, by simp, node, hnode, hnew⟩
      next => exact hfront hfind

theorem hashNode_find {uServerValue value : UInt32} {emFuncType : EHashFuntcionType}
    {position : Nat} (hfind : (hashNode md5 uServerValue emFuncType).find position = some value) :
    value = uServerValue := by
  rw [hashNode, ConsistentHash.addServer_find] at hfind
  split at hfind
  next => exact (Option.some.inj hfind).symm
  next => cases hfind

/-- An answer is a value of the circle, unless that is empty. -/
theorem getValueByKey_find (md5 : List UInt8 → UInt32) (circle : Circle)
    (emFuncType : EHashFuntcionType) (uKey : UInt32) :
    (OrderedMap.isEmpty circle = true ∧
        getValueByKey md5 circle emFuncType uKey = ConsistentHash.noServer) ∨
      ∃ position, circle.find position = some (getValueByKey md5 circle emFuncType uKey) := by
  rw [getValueByKey, ConsistentHash.getServer_eq, ConsistentHash.onCircle]
  dsimp only
  cases hclock : circle.clockwise ((CircleHash.ofType md5 emFuncType).key uKey).toNat with
  | none => exact Or.inl ⟨OrderedMap.clockwise_eq_none.mp hclock, rfl⟩
  | some point => exact Or.inr ⟨point.1, OrderedMap.clockwise_find hclock⟩

/-- Every server has a point. -/
theorem hashNode_isSome (md5 : List UInt8 → UInt32) (uServerValue : UInt32)
    (emFuncType : EHashFuntcionType) :
    ∃ position, ((hashNode md5 uServerValue emFuncType).find position).isSome := by
  let ring := ConsistentHash.onCircle md5 emFuncType .empty
  refine ⟨ring.point uServerValue 0, ?_⟩
  rw [hashNode, ConsistentHash.addServer_find, if_pos]
  · rfl
  · exact List.mem_map.mpr ⟨0, List.mem_range.mpr (Nat.zero_lt_succ 199), rfl⟩

/-- The answer is the id of a server that is served for the suffix. -/
def Live (serving : Nat → Option (SHashInfo × SServerInfo)) (strSuffix : String)
    (answer : UInt32) : Prop :=
  ∃ id server, serving id = some server ∧ server.2.strSuffix = strSuffix ∧ answer = id.toUInt32

theorem Follows.listed (hfollows : Follows md5 s serving) {strSuffix : String}
    {keep : SServerInfo → Bool} {id : Nat} (hid : id ∈ s.serverIdsWhere strSuffix keep) :
    ∃ server, serving id = some server ∧ server.2.strSuffix = strSuffix := by
  obtain ⟨info, hfind, -⟩ := mem_serverIdsWhere.mp hid
  rw [hfollows.infos] at hfind
  obtain ⟨server, hserver, hsuffix⟩ := Option.bind_eq_some_iff.mp hfind
  rw [Option.ite_none_right_eq_some] at hsuffix
  exact ⟨server, hserver, hsuffix.1⟩

theorem Follows.live (hfollows : Follows md5 s serving) {strSuffix : String}
    {keep : SServerInfo → Bool} {id : Nat} (hid : id ∈ s.serverIdsWhere strSuffix keep) :
    Live serving strSuffix id.toUInt32 := by
  obtain ⟨server, hserver, hsuffix⟩ := hfollows.listed hid
  exact ⟨id, server, hserver, hsuffix, rfl⟩

/-- A query by address alone answers with an address where these are what is hashed. -/
theorem hash_live (hfollows : Follows md5 s serving)
    (hserved : ∀ id server, serving id = some server →
      server.2.uServerId = id ∧ s.mapSuffix.find server.2.strSuffix = some server.1)
    {query : Query} {strSuffix : String}
    (hconvert : query.convert = true ∨
      ∀ info, s.mapSuffix.find strSuffix = some info → info.emValueType ≠ .serverIp)
    (hnone : s.mapCircleCache.find (query.key strSuffix) = none) (uKey : UInt32) :
    (s.hash md5 query strSuffix uKey).2 = ConsistentHash.noServer ∨
      Live serving strSuffix (s.hash md5 query strSuffix uKey).2 := by
  rw [hash_eq]
  unfold hashServerIn
  cases hinfo : s.mapSuffix.find strSuffix with
  | none => exact Or.inl rfl
  | some info =>
      dsimp only
      change s.mapCircleCache.find (toKeyString _ _ _) = none at hnone
      rw [hnone]
      dsimp only
      cases hids : s.serverIdsWhere strSuffix query.keep with
      | nil => exact Or.inl rfl
      | cons id rest =>
          cases rest with
          | nil => exact Or.inr (hfollows.live (by rw [hids]; exact List.mem_cons_self))
          | cons next rest =>
              dsimp only
              rw [circleFromContainer, hnone, ← hids]
              dsimp only
              split
              next =>
                unfold serverIpToId
                split
                next hips => exact Or.inr (hfollows.live (by rw [hips]; exact List.mem_cons_self))
                next => exact Or.inl rfl
              next hplain =>
                -- the values in the circle are ids
                have hvalue : info.emValueType ≠ .serverIp := by
                  rcases hconvert with hquery | hsuffix
                  · exact fun hip => hplain ⟨hquery, hip⟩
                  · exact hsuffix info hinfo
                apply (getValueByKey_find md5 _ info.emFuncType uKey).imp And.right
                rintro ⟨position, hposition⟩
                -- the value found is at a point of some listed server
                obtain ⟨id, hid, circle, hcircle, hpoint⟩ := getServerCircle_find hposition
                obtain ⟨server, hserver, hsuffix⟩ := hfollows.listed hid
                rw [hfollows.nodes, hserver, Option.map_some, Option.some.injEq] at hcircle
                rw [← hcircle] at hpoint
                obtain ⟨hsame, hregistered⟩ := hserved id server hserver
                rw [hsuffix, hinfo, Option.some.injEq] at hregistered
                refine ⟨id, server, hserver, hsuffix, ?_⟩
                rw [hashNode_find hpoint, serverValue, ← hregistered]
                split
                next hip => exact absurd hip hvalue
                next => rw [hsame]

/-! ## Runs -/

inductive Event where
  | onAddSV (fs : FavorStrSV)
  | onServerStatusChangeSV (fs : FavorStrSV)
  | onServerRemovedSV (fs : FavorStrSV)
  | onRefreshSV (servers : Servers)
  | onRecoverRefreshSV (servers : Servers)
  | hash (query : Query) (strSuffix : String) (uKey : UInt32)
  | hashMultiServer (uKey uValueCount : UInt32) (strSuffix : String)

/-- A selector, with the servers that the events told of and the queries so far. -/
structure Selection where
  selector : CServerSelectorImp
  servers : Servers
  asked : List Event

namespace Selection

def start (mapSuffix : OrderedMap String SHashInfo) : Selection := ⟨.new mapSuffix, .empty, []⟩

variable (md5)

def step (st : Selection) : Event → Option Selection
  | .onAddSV fs =>
      some { st with selector := st.selector.onAddSV md5 fs, servers := st.servers.put fs }
  | .onServerStatusChangeSV fs =>
      some { st with
        selector := st.selector.onServerStatusChangeSV md5 fs
        servers := st.servers.put fs }
  | .onServerRemovedSV fs =>
      some { st with
        selector := st.selector.onServerRemovedSV fs
        servers := st.servers.remove fs.serverId }
  | .onRefreshSV servers =>
      some { st with selector := st.selector.onRefreshSV md5 servers.toList, servers }
  | .onRecoverRefreshSV servers =>
      some { st with selector := st.selector.onRecoverRefreshSV md5 servers.toList, servers }
  | .hash query strSuffix uKey =>
      some { st with
        selector := (st.selector.hash md5 query strSuffix uKey).1
        asked := .hash query strSuffix uKey :: st.asked }
  | .hashMultiServer uKey uValueCount strSuffix => do
      let (selector, _) ← st.selector.hashMultiServer md5 uKey uValueCount strSuffix
      some { st with
        selector
        asked := .hashMultiServer uKey uValueCount strSuffix :: st.asked }

/-- A selector that starts with the servers there are. -/
def recomputed (st : Selection) : CServerSelectorImp :=
  (CServerSelectorImp.new st.selector.mapSuffix).onRefreshSV md5 st.servers.toList

/-- A query is answered as from scratch; no server that is gone is an answer. (A query by
address answers with an address where these are what is hashed.) -/
def Answers (st : Selection) : Event → Prop
  | .hash query strSuffix uKey =>
      let answer := (st.selector.hash md5 query strSuffix uKey).2
      answer = ((st.recomputed md5).hash md5 query strSuffix uKey).2 ∧
        ((query.convert = true ∨ ∀ info, st.selector.mapSuffix.find strSuffix = some info →
            info.emValueType ≠ .serverIp) →
          answer = ConsistentHash.noServer ∨ ∃ fs, st.servers.map.find fs.serverId = some fs ∧
            fs.serverStatus = .RUNNING ∧ fs.sstr = strSuffix ∧ answer = fs.serverId.toUInt32)
  | _ => True

variable {md5}

/-- What a query makes circles for. -/
def Uses (mapSuffix : OrderedMap String SHashInfo) : Event → Use → Prop
  | .hash query strSuffix _, use => use = .query strSuffix query
  | .hashMultiServer _ _ strSuffix, use => MultiUses mapSuffix strSuffix use
  | _, _ => False

/-- The servers that are served. -/
def serves (st : Selection) : Nat → Option (SHashInfo × SServerInfo) :=
  servedBy st.selector.mapSuffix st.servers

/-- `FreshHashCache` finds every circle that the suffix has in the cache. -/
def Clears (st : Selection) (strSuffix : String) : Prop :=
  ∀ uNetType uGroupId,
    (st.selector.mapCircleCache.find (toKeyString strSuffix uNetType uGroupId)).isSome →
      getSuffixFromKey (toKeyString strSuffix uNetType uGroupId) = strSuffix

/-- A server that comes, or whose status changes, is served just so already, or it is not
served and its suffix can be cleared. -/
def Joins (st : Selection) (fs : FavorStrSV) : Prop :=
  st.serves fs.serverId = served st.selector.mapSuffix fs ∨
    (st.serves fs.serverId = none ∧ st.Clears fs.sstr)

/-- Every circle in the cache is of a suffix that has a server after the refresh. -/
def Covers (st : Selection) (servers : Servers) : Prop :=
  ∀ strKey, (st.selector.mapCircleCache.find strKey).isSome →
    ∃ id server, servedBy st.selector.mapSuffix servers id = some server ∧
      getSuffixFromKey strKey = server.2.strSuffix

/-- No event leaves a circle or a server behind, and no query uses the key of another. -/
def Keeps (st : Selection) : Event → Prop
  | .onAddSV fs => st.Joins fs
  | .onServerStatusChangeSV fs => st.Joins fs
  | .onServerRemovedSV fs =>
      ∀ server, st.serves fs.serverId = some server →
        server.2.strSuffix = fs.sstr ∧ st.Clears fs.sstr
  | .onRefreshSV servers => st.Covers servers
  | .onRecoverRefreshSV servers => st.Covers servers
  | .hash query strSuffix _ =>
      ∀ event ∈ st.asked, ∀ use, Uses st.selector.mapSuffix event use →
        use.key = query.key strSuffix → use = .query strSuffix query
  | .hashMultiServer _ _ _ => True

/-- The selector follows the servers, and each circle in the cache is right for the query
it was made for. -/
structure Inv (md5 : List UInt8 → UInt32) (st : Selection) : Prop where
  follows : Follows md5 st.selector st.serves
  cached : ∀ strKey circle, st.selector.mapCircleCache.find strKey = some circle →
    ∃ event ∈ st.asked, ∃ use, Uses st.selector.mapSuffix event use ∧ use.key = strKey ∧
      RightFor st.selector use circle

variable {st next : Selection}

theorem start_inv (mapSuffix : OrderedMap String SHashInfo) : Inv md5 (start mapSuffix) :=
  ⟨⟨fun _ _ => rfl, fun _ => rfl⟩, fun _ _ hfind => by cases hfind⟩

theorem servedBy_put (mapSuffix : OrderedMap String SHashInfo) (servers : Servers)
    (fs : FavorStrSV) : servedBy mapSuffix (servers.put fs) =
      Function.update (servedBy mapSuffix servers) fs.serverId (served mapSuffix fs) := by
  funext id
  unfold servedBy Servers.put
  dsimp only
  rw [OrderedMap.find_set, Function.update_apply, Function.update_apply]
  split
  · rfl
  · rfl

theorem servedBy_remove (mapSuffix : OrderedMap String SHashInfo) (servers : Servers) (id : Nat) :
    servedBy mapSuffix (servers.remove id) =
      Function.update (servedBy mapSuffix servers) id none := by
  funext other
  unfold servedBy Servers.remove
  dsimp only
  rw [OrderedMap.find_erase, Function.update_apply, Function.update_apply]
  split
  · rfl
  · rfl

/-- A change at some suffixes leaves the circles of the others right. -/
theorem Inv.change (hinv : Inv md5 st) {selector : CServerSelectorImp} {servers : Servers}
    (changed : String → Prop) (hmapSuffix : selector.mapSuffix = st.selector.mapSuffix)
    (hfollows : Follows md5 selector (servedBy st.selector.mapSuffix servers))
    (hcache : ∀ strKey circle, selector.mapCircleCache.find strKey = some circle →
      st.selector.mapCircleCache.find strKey = some circle)
    (hsame : ∀ id server, ¬ changed server.2.strSuffix →
      (st.serves id = some server ↔ servedBy st.selector.mapSuffix servers id = some server))
    (hcleared : ∀ strSuffix, changed strSuffix → ∀ uNetType uGroupId,
      selector.mapCircleCache.find (toKeyString strSuffix uNetType uGroupId) = none) :
    Inv md5 ⟨selector, servers, st.asked⟩ := by
  refine ⟨?_, fun strKey circle hfind => ?_⟩
  · unfold serves
    dsimp only
    rw [hmapSuffix]
    exact hfollows
  · obtain ⟨event, hevent, use, huse, hkey, hright⟩ :=
      hinv.cached strKey circle (hcache strKey circle hfind)
    refine ⟨event, hevent, use, ?_, hkey, fun suffix query hquery => ?_⟩
    · dsimp only
      rw [hmapSuffix]
      exact huse
    · have hsuffix : ¬ changed suffix := by
        intro hchanged
        rw [← hkey, hquery] at hfind
        change selector.mapCircleCache.find (toKeyString _ _ _) = _ at hfind
        rw [hcleared suffix hchanged] at hfind
        cases hfind
      refine (hright suffix query hquery).frame hinv.follows hfollows fun id server hserver => ?_
      exact hsame id server (hserver ▸ hsuffix)

/-- A step that changes neither the servers nor the cache. -/
theorem Inv.same (hinv : Inv md5 st) {selector : CServerSelectorImp} {servers : Servers}
    (hmapSuffix : selector.mapSuffix = st.selector.mapSuffix)
    (hserves : servedBy st.selector.mapSuffix servers = st.serves)
    (hfollows : Follows md5 selector st.serves)
    (hcache : ∀ strKey circle, selector.mapCircleCache.find strKey = some circle →
      st.selector.mapCircleCache.find strKey = some circle) :
    Inv md5 ⟨selector, servers, st.asked⟩ :=
  hinv.change (fun _ => False) hmapSuffix (hserves ▸ hfollows) hcache
    (fun _ _ _ => by rw [hserves]) fun _ hchanged => hchanged.elim

theorem Inv.add (hinv : Inv md5 st) {fs : FavorStrSV} (hjoins : st.Joins fs) :
    Inv md5 ⟨st.selector.onAddSV md5 fs, st.servers.put fs, st.asked⟩ := by
  have hput := servedBy_put st.selector.mapSuffix st.servers fs
  obtain ⟨hfollows, hcache⟩ := hinv.follows.add (hjoins.imp_right And.left)
  by_cases hsame : st.serves fs.serverId = served st.selector.mapSuffix fs
  · rw [← hsame, Function.update_eq_self] at hfollows
    refine hinv.same (onAddSV_mapSuffix _ _) ?_ hfollows fun strKey circle hfind =>
      (hcache strKey circle hfind).1
    rw [hput, ← hsame]
    exact Function.update_eq_self _ _
  · obtain ⟨hnone, hclears⟩ := hjoins.resolve_left hsame
    refine hinv.change (· = fs.sstr) (onAddSV_mapSuffix _ _) (hput ▸ hfollows)
      (fun strKey circle hfind => (hcache strKey circle hfind).1) (fun id server hsuffix => ?_)
      fun strSuffix hsuffix uNetType uGroupId => ?_
    · rw [hput, Function.update_apply]
      split
      next hid =>
        subst hid
        refine iff_of_false (by simp [hnone]) fun hserved => hsuffix ?_
        rw [(served_suffix hserved).2.2]
        rfl
      next => rfl
    · subst hsuffix
      rw [Option.eq_none_iff_forall_ne_some]
      intro circle hfind
      obtain ⟨hold, hkeep⟩ := hcache _ circle hfind
      exact hkeep hsame (hclears uNetType uGroupId (by rw [hold]; rfl))

theorem Inv.remove (hinv : Inv md5 st) {fs : FavorStrSV}
    (hleaves : ∀ server, st.serves fs.serverId = some server →
      server.2.strSuffix = fs.sstr ∧ st.Clears fs.sstr) :
    Inv md5 ⟨st.selector.onServerRemovedSV fs, st.servers.remove fs.serverId, st.asked⟩ := by
  have hremove := servedBy_remove st.selector.mapSuffix st.servers fs.serverId
  cases hinfo : st.selector.mapSuffix.find fs.sstr with
  | none =>
      -- the event names a suffix that is not hashed: nothing happens, and nothing was served
      have hselector : st.selector.onServerRemovedSV fs = st.selector := by
        unfold onServerRemovedSV
        rw [hinfo]
      have hnone : st.serves fs.serverId = none := by
        rw [Option.eq_none_iff_forall_ne_some]
        intro server hserver
        obtain ⟨old, -, hserved⟩ := Option.bind_eq_some_iff.mp hserver
        obtain ⟨-, hregistered, hold⟩ := served_suffix hserved
        have hsuffix := (hleaves server hserver).1
        rw [hold] at hsuffix
        change old.sstr = fs.sstr at hsuffix
        rw [hsuffix, hinfo] at hregistered
        cases hregistered
      rw [hselector]
      refine hinv.same rfl ?_ hinv.follows fun strKey circle hfind => hfind
      rw [hremove, ← hnone]
      exact Function.update_eq_self _ _
  | some info =>
      obtain ⟨hfollows, hcache⟩ :=
        hinv.follows.leave (fun server hserver => (hleaves server hserver).1) hinfo
      -- the circles of the suffix are erased, and no others
      have hfewer : ∀ strKey circle,
          (st.selector.onServerRemovedSV fs).mapCircleCache.find strKey = some circle →
            st.selector.mapCircleCache.find strKey = some circle ∧
              getSuffixFromKey strKey ≠ fs.sstr := by
        intro strKey circle hfind
        rw [hcache, OrderedMap.find_eraseIf] at hfind
        split at hfind
        next => cases hfind
        next hkeep => exact ⟨hfind, by simpa using hkeep⟩
      cases hserver : st.serves fs.serverId with
      | none =>
          rw [← hserver, Function.update_eq_self] at hfollows
          refine hinv.same (onServerRemovedSV_mapSuffix _ _) ?_ hfollows
            fun strKey circle hfind => (hfewer strKey circle hfind).1
          rw [hremove, ← hserver]
          exact Function.update_eq_self _ _
      | some server =>
          obtain ⟨hsuffix, hclears⟩ := hleaves server hserver
          refine hinv.change (· = fs.sstr) (onServerRemovedSV_mapSuffix _ _)
            (hremove ▸ hfollows) (fun strKey circle hfind => (hfewer strKey circle hfind).1)
            (fun id other hother => ?_) fun strSuffix hchanged uNetType uGroupId => ?_
          · rw [hremove, Function.update_apply]
            split
            next hid =>
              subst hid
              rw [hserver]
              refine iff_of_false ?_ (by simp)
              rintro ⟨rfl⟩
              exact hother hsuffix
            next => rfl
          · -- a circle of the suffix that is cached has a key from which it is found
            subst hchanged
            rw [Option.eq_none_iff_forall_ne_some]
            intro circle hfind
            obtain ⟨hold, hkeep⟩ := hfewer _ circle hfind
            exact hkeep (hclears uNetType uGroupId (by rw [hold]; rfl))

theorem onRefreshSV_mapSuffix (s : CServerSelectorImp) (vecServers : List FavorStrSV) :
    (s.onRefreshSV md5 vecServers).mapSuffix = s.mapSuffix :=
  foldl_onAddSV_mapSuffix _ _

theorem Inv.refresh {servers : Servers} (hcovers : st.Covers servers) :
    Inv md5 ⟨st.selector.onRefreshSV md5 servers.toList, servers, st.asked⟩ := by
  obtain ⟨hfollows, hcache⟩ := follows_refresh md5 st.selector servers
  refine ⟨?_, fun strKey circle hfind => ?_⟩
  · unfold serves
    dsimp only
    rw [onRefreshSV_mapSuffix]
    exact hfollows
  · obtain ⟨hold, hkeep⟩ := hcache strKey circle hfind
    obtain ⟨id, server, hserver, hsuffix⟩ := hcovers strKey (by rw [hold]; rfl)
    exact absurd hsuffix (hkeep id server hserver)

theorem Inv.ask (hinv : Inv md5 st) {event : Event} {uses : Use → Prop}
    {selector : CServerSelectorImp} (hfills : Fills uses st.selector selector)
    (huses : ∀ use, uses use → Uses st.selector.mapSuffix event use) :
    Inv md5 ⟨selector, st.servers, event :: st.asked⟩ := by
  refine ⟨?_, fun strKey circle hfind => ?_⟩
  · unfold serves
    dsimp only
    rw [hfills.mapSuffix]
    exact hfills.follows hinv.follows
  · dsimp only
    rw [hfills.mapSuffix]
    rcases hfills.mapCircleCache strKey circle hfind with hold | ⟨use, huse, hkey, hright⟩
    · obtain ⟨earlier, hearlier, use, huse, hkey, hright⟩ := hinv.cached strKey circle hold
      exact ⟨earlier, List.mem_cons_of_mem _ hearlier, use, huse, hkey,
        hright.congr hfills.mapServerInfo hfills.hashContainer⟩
    · exact ⟨event, List.mem_cons_self, use, huses use huse, hkey,
        hright.congr hfills.mapServerInfo hfills.hashContainer⟩

theorem Inv.step (hinv : Inv md5 st) {event : Event} (hkeeps : st.Keeps event)
    (hstep : st.step md5 event = some next) : Inv md5 next := by
  cases event with
  | onAddSV fs =>
      cases hstep
      exact hinv.add hkeeps
  | onServerStatusChangeSV fs =>
      cases hstep
      exact hinv.add hkeeps
  | onServerRemovedSV fs =>
      cases hstep
      exact hinv.remove hkeeps
  | onRefreshSV servers =>
      cases hstep
      exact Inv.refresh hkeeps
  | onRecoverRefreshSV servers =>
      cases hstep
      exact Inv.refresh hkeeps
  | hash query strSuffix uKey =>
      cases hstep
      exact hinv.ask (hash_fills _ _ _ _) fun _ huse => huse
  | hashMultiServer uKey uValueCount strSuffix =>
      obtain ⟨⟨selector, answer⟩, hanswer, hnext⟩ := Option.bind_eq_some_iff.mp hstep
      cases hnext
      exact hinv.ask (hashMultiServer_fills hanswer) fun _ huse => huse

theorem servedBy_keyed {mapSuffix : OrderedMap String SHashInfo} {servers : Servers} {id : Nat}
    {server : SHashInfo × SServerInfo} (hserver : servedBy mapSuffix servers id = some server) :
    server.2.uServerId = id ∧ mapSuffix.find server.2.strSuffix = some server.1 ∧
      ∃ fs, servers.map.find fs.serverId = some fs ∧ fs.serverStatus = .RUNNING ∧
        fs.sstr = server.2.strSuffix ∧ fs.serverId = id := by
  obtain ⟨fs, hfind, hserved⟩ := Option.bind_eq_some_iff.mp hserver
  obtain ⟨hrunning, hinfo, hsame⟩ := served_suffix hserved
  have hkeyed := servers.keyed id fs hfind
  rw [hsame]
  exact ⟨hkeyed, hinfo, fs, hkeyed ▸ hfind, hrunning, rfl, hkeyed⟩

theorem Inv.answers (hinv : Inv md5 st) {event : Event} (hkeeps : st.Keeps event) :
    st.Answers md5 event := by
  cases event with
  | hash query strSuffix uKey =>
      obtain ⟨hfresh, hcache⟩ :=
        follows_refresh md5 (CServerSelectorImp.new st.selector.mapSuffix) st.servers
      have hmapSuffix : (st.recomputed md5).mapSuffix = st.selector.mapSuffix :=
        onRefreshSV_mapSuffix _ _
      have hnone : (st.recomputed md5).mapCircleCache.find (query.key strSuffix) = none := by
        rw [Option.eq_none_iff_forall_ne_some]
        intro circle hfind
        have hold := (hcache _ circle hfind).1
        cases hold
      -- the condition lets no other query's circle be found under this key
      have hright : ∀ circle,
          st.selector.mapCircleCache.find (query.key strSuffix) = some circle →
            Right st.selector strSuffix query circle := by
        intro circle hfind
        obtain ⟨earlier, hearlier, use, huse, hkey, hright⟩ := hinv.cached _ circle hfind
        exact hright strSuffix query (hkeeps earlier hearlier use huse hkey)
      have hanswer := hash_answer hinv.follows hfresh hmapSuffix.symm hnone hright uKey
      refine ⟨hanswer, fun hconvert => ?_⟩
      rw [← hmapSuffix] at hconvert
      have hkeyed : ∀ id server, st.serves id = some server → server.2.uServerId = id ∧
          (st.recomputed md5).mapSuffix.find server.2.strSuffix = some server.1 := by
        intro id server hserver
        obtain ⟨hid, hinfo, -⟩ := servedBy_keyed hserver
        exact ⟨hid, hmapSuffix ▸ hinfo⟩
      rw [hanswer]
      apply (hash_live hfresh hkeyed hconvert hnone uKey).imp_right
      rintro ⟨id, server, hserver, hsuffix, hid⟩
      obtain ⟨-, -, fs, hfind, hrunning, hsstr, hfs⟩ := servedBy_keyed hserver
      exact ⟨fs, hfind, hrunning, hsstr.trans hsuffix, hid.trans (by rw [hfs])⟩
  | _ => trivial

/-- In every run that meets the condition, each query is answered as from scratch. -/
theorem answers_of_keeps (md5 : List UInt8 → UInt32) (mapSuffix : OrderedMap String SHashInfo)
    (events : List Event) (hkeeps : Along (step md5) Keeps (start mapSuffix) events) :
    Along (step md5) (Answers md5) (start mapSuffix) events :=
  along_of_along (fun _ _ _ hinv hkeeps hstep => hinv.step hkeeps hstep)
    (fun _ _ hinv hkeeps => hinv.answers hkeeps) (start_inv mapSuffix) hkeeps

/-- A suffix that is hashed by `fnvhash`, which needs no `md5`. -/
def online : OrderedMap String SHashInfo := OrderedMap.empty.set "online" ⟨.serverId, .fnvHash⟩

def twoServers : Servers :=
  (Servers.empty.put ⟨"online", 1, 0, 80, 1, 1, .RUNNING⟩).put
    ⟨"online", 2, 0, 80, 2, 1, .RUNNING⟩

theorem answers_of_keeps_refreshed :
    Along (step fun _ => 0) (Answers fun _ => 0) (start online)
      [.onRefreshSV twoServers, .hash .all "online" 1654, .hash (.byGroup 1) "online" 1654,
        .hash .all "online" 7] := by
  refine answers_of_keeps (fun _ => 0) online _ ⟨?_, fun _ hstep => ?_⟩
  · intro strKey hcached
    cases hcached
  cases hstep
  refine ⟨fun event hevent => absurd hevent List.not_mem_nil, fun _ hstep => ?_⟩
  cases hstep
  refine ⟨fun event hevent use huse hkey => ?_, fun _ hstep => ?_⟩
  · cases List.mem_singleton.mp hevent
    cases huse
    exact absurd hkey (by decide)
  cases hstep
  refine ⟨fun event hevent use huse hkey => ?_, fun _ hstep => trivial⟩
  rcases List.mem_pair.mp hevent with rfl | rfl
  · cases huse
    exact absurd hkey (by decide)
  · exact huse

/-- A circle of two servers answers with one of them. -/
theorem getValueByKey_twoServers (uKey : UInt32) :
    ∃ id ∈ [1, 2], getValueByKey (fun _ => 0)
      (getServerCircle
        ((CServerSelectorImp.new online).onRefreshSV (fun _ => 0) twoServers.toList).hashContainer
        [1, 2]) .fnvHash uKey = id := by
  obtain ⟨hfollows, -⟩ := follows_refresh (fun _ => 0) (CServerSelectorImp.new online) twoServers
  have hnode : ∀ id ∈ [1, 2], ((CServerSelectorImp.new online).onRefreshSV (fun _ => 0)
      twoServers.toList).hashContainer.find id =
        some (hashNode (fun _ => 0) id.toUInt32 .fnvHash) := by
    intro id hid
    rw [hfollows.nodes]
    rcases List.mem_pair.mp hid with rfl | rfl
    · rfl
    · rfl
  rcases getValueByKey_find (fun _ => 0) _ .fnvHash uKey with ⟨hempty, -⟩ | ⟨position, hposition⟩
  · obtain ⟨position, hsome⟩ := hashNode_isSome (fun _ => 0) 1 .fnvHash
    have hin : 1 ∈ [1, 2] := List.mem_cons_self
    have hpoint := getServerCircle_isSome hin (hnode 1 hin) hsome
    rw [OrderedMap.isEmpty_iff.mp hempty] at hpoint
    cases hpoint
  · obtain ⟨id, hid, node, hfind, hvalue⟩ := getServerCircle_find hposition
    rw [hnode id hid, Option.some.injEq] at hfind
    rw [← hfind] at hvalue
    rw [hashNode_find hvalue]
    rcases List.mem_pair.mp hid with rfl | rfl
    · exact ⟨1, by simp, rfl⟩
    · exact ⟨2, by simp, rfl⟩

/-- No server is left after the second refresh, but the circle of the first one is. -/
theorem stale_after_refresh :
    ¬ Along (step fun _ => 0) (Answers fun _ => 0) (start online)
      [.onRefreshSV twoServers, .hash .all "online" 1654, .onRefreshSV .empty,
        .hash .all "online" 1654] := by
  rintro ⟨-, hquery⟩
  obtain ⟨-, hrefresh⟩ := hquery _ rfl
  obtain ⟨-, hagain⟩ := hrefresh _ rfl
  obtain ⟨⟨hanswer, -⟩, -⟩ := hagain _ rfl
  let refreshed := (CServerSelectorImp.new online).onRefreshSV (fun _ => 0) twoServers.toList
  have hmapSuffix : refreshed.mapSuffix = online := onRefreshSV_mapSuffix _ _
  have hids : refreshed.serverIdsWhere "online" Query.all.keep = [1, 2] := by decide +kernel
  have hcircle : (refreshed.hash (fun _ => 0) .all "online" 1654).1.mapCircleCache.find
      (Query.all.key "online") = some (getServerCircle refreshed.hashContainer [1, 2]) := by
    rw [← hids]
    refine hash_caches (by rw [hmapSuffix]; rfl) (by decide +kernel) ?_ 1654
    rw [hids]
    exact Nat.le_refl 2
  have hsuffix : (refreshed.hash (fun _ => 0) .all "online" 1654).1.mapSuffix = online :=
    Eq.trans (hash_fills _ _ _ _).mapSuffix hmapSuffix
  change ((onRefreshSV (fun _ => 0) (refreshed.hash (fun _ => 0) .all "online" 1654).1
    Servers.empty.toList).hash (fun _ => 0) .all "online" 1654).2 =
      ((CServerSelectorImp.new (refreshed.hash (fun _ => 0) .all "online" 1654).1.mapSuffix).hash
        (fun _ => 0) .all "online" 1654).2 at hanswer
  rw [hsuffix] at hanswer
  generalize (refreshed.hash (fun _ => 0) .all "online" 1654).1 = asked at hcircle hsuffix hanswer
  have hstale : ((asked.onRefreshSV (fun _ => 0) []).hash (fun _ => 0) .all "online" 1654).2 =
      getValueByKey (fun _ => 0) (getServerCircle refreshed.hashContainer [1, 2]) .fnvHash
        1654 := by
    have hinfo : (asked.onRefreshSV (fun _ => 0) []).mapSuffix.find "online" =
        some ⟨.serverId, .fnvHash⟩ := by
      change asked.mapSuffix.find "online" = _
      rw [hsuffix]
      rfl
    exact hash_cached hinfo (by decide) hcircle 1654
  obtain ⟨id, hid, hvalue⟩ := getValueByKey_twoServers 1654
  rw [hvalue] at hstale
  have hnone : ((CServerSelectorImp.new online).hash (fun _ => 0) .all "online" 1654).2 =
      ConsistentHash.noServer := by decide +kernel
  have hsame : id = ConsistentHash.noServer := hstale.symm.trans (hanswer.trans hnone)
  rcases List.mem_pair.mp hid with rfl | rfl
  · exact absurd hsame (by decide)
  · exact absurd hsame (by decide)

end Selection

end CServerSelectorImp

end ServiceFrame
