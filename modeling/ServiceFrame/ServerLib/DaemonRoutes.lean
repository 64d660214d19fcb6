import ServiceFrame.ServerLib.DaemonClient

/-! # The imrouters a daemon client counts, and the routes it learns

`m_mapImrouterCount` follows how many imrouters of each group are in `sid2FavorSV`, so
that the routes go with the last imrouter of the own group. `m_mapGid2Route` holds the
imbridge that packets for a group take.
-/

namespace ServiceFrame

open Foundation

namespace DaemonClient

variable {client next : DaemonClient} {fs : FavorStrSV}

/-! ## Counting the imrouters -/

def IsImrouter (fs : FavorStrSV) (groupId : Nat) : Prop :=
  fs.sstr = SUFFIX_IMROUTER ∧ fs.groupId = groupId

instance (fs : FavorStrSV) (groupId : Nat) : Decidable (IsImrouter fs groupId) :=
  inferInstanceAs (Decidable (_ ∧ _))

/-- How many imrouters of a group the client knows. -/
def imrouters (client : DaemonClient) (groupId : Nat) : Nat :=
  client.sid2FavorSV.entries.countP fun it => IsImrouter it.2 groupId

/-- `m_mapImrouterCount[groupId]`. -/
def imrouterCount (client : DaemonClient) (groupId : Nat) : UInt32 :=
  (client.mapImrouterCount.find groupId).getD 0

def Counted (client : DaemonClient) : Prop :=
  ∀ groupId, (client.imrouterCount groupId).toNat = client.imrouters groupId

/-- What an entry adds to the imrouters of a group. -/
def imrouterOf (found : Option FavorStrSV) (groupId : Nat) : Nat :=
  match found with
  | some fs => if IsImrouter fs groupId then 1 else 0
  | none => 0

theorem imrouters_erase {id : Nat} (herase : next.sid2FavorSV = client.sid2FavorSV.erase id)
    (groupId : Nat) :
    next.imrouters groupId + imrouterOf (client.sid2FavorSV.find id) groupId =
      client.imrouters groupId := by
  rw [imrouters, imrouters, herase]
  cases hfind : client.sid2FavorSV.find id with
  | none =>
      have hsame : client.sid2FavorSV.erase id = client.sid2FavorSV := by
        apply OrderedMap.ext_find
        rw [OrderedMap.find_erase, ← hfind, Function.update_eq_self]
      rw [hsame]
      rfl
  | some old =>
      rw [(OrderedMap.entries_erase_perm hfind).countP_eq, List.countP_cons]
      simp [imrouterOf]

theorem suffixMapAdd_frame (client : DaemonClient) (fs : FavorStrSV) :
    ∃ suffixes, client.suffixMapAdd fs = { client with mapSuffix2Srvs := suffixes } := by
  unfold suffixMapAdd
  split
  · exact ⟨_, rfl⟩
  · exact ⟨client.mapSuffix2Srvs, rfl⟩

theorem suffixMapDel_frame (client : DaemonClient) (id : Nat) (suffix : String) :
    ∃ suffixes, client.suffixMapDel id suffix = { client with mapSuffix2Srvs := suffixes } := by
  unfold suffixMapDel
  split
  · exact ⟨_, rfl⟩
  · exact ⟨client.mapSuffix2Srvs, rfl⟩

/-- The counts once that of an imrouter's group is another. -/
theorem imrouterCount_update (client : DaemonClient) (himrouter : fs.sstr = SUFFIX_IMROUTER)
    (value : Option UInt32) (groupId : Nat) :
    (Function.update client.mapImrouterCount.find fs.groupId value groupId).getD 0 =
      if IsImrouter fs groupId then value.getD 0 else client.imrouterCount groupId := by
  by_cases hgroup : groupId = fs.groupId
  · subst hgroup
    rw [Function.update_self, if_pos ⟨himrouter, rfl⟩]
  · rw [Function.update_of_ne hgroup, if_neg fun h => hgroup h.2.symm]
    rfl

theorem countImrouter_counts (client : DaemonClient) (fs : FavorStrSV) :
    ∃ counts, client.countImrouter fs = { client with mapImrouterCount := counts } ∧
      ∀ groupId, (counts.find groupId).getD 0 =
        client.imrouterCount groupId + if IsImrouter fs groupId then 1 else 0 := by
  unfold countImrouter
  split
  next himrouter =>
    have hcounts : ∀ value, value = client.imrouterCount fs.groupId + 1 → ∀ groupId,
        ((client.mapImrouterCount.set fs.groupId value).find groupId).getD 0 =
          client.imrouterCount groupId + if IsImrouter fs groupId then 1 else 0 := by
      intro value hvalue groupId
      rw [OrderedMap.find_set, imrouterCount_update client himrouter, hvalue]
      split
      next himrouters => rw [Option.getD_some, himrouters.2]
      next => rw [UInt32.add_zero]
    split
    next count hfind =>
      exact ⟨_, rfl, hcounts _ (by rw [imrouterCount, hfind, Option.getD_some])⟩
    next hfind =>
      exact ⟨_, rfl, hcounts _ (by rw [imrouterCount, hfind, Option.getD_none]; rfl)⟩
  next hother =>
    refine ⟨client.mapImrouterCount, rfl, fun groupId => ?_⟩
    rw [if_neg fun h => hother h.1, UInt32.add_zero]
    rfl

/-- The removal of this server takes the routes away. -/
def ClearsRoutes (client : DaemonClient) (fs : FavorStrSV) : Prop :=
  fs.sstr = SUFFIX_IMROUTER ∧ client.mapImrouterCount.find fs.groupId = some 1 ∧
    client.serverGroupId = some fs.groupId

instance (client : DaemonClient) (fs : FavorStrSV) : Decidable (ClearsRoutes client fs) :=
  inferInstanceAs (Decidable (_ ∧ _))

theorem dropImrouter_counts (client : DaemonClient) (fs : FavorStrSV) :
    ∃ counts, client.dropImrouter fs =
        { client with
          mapImrouterCount := counts
          mapGid2Route := if ClearsRoutes client fs then .empty else client.mapGid2Route } ∧
      ((fs.sstr = SUFFIX_IMROUTER → client.imrouterCount fs.groupId ≠ 0) →
        ∀ groupId, (counts.find groupId).getD 0 =
          client.imrouterCount groupId - if IsImrouter fs groupId then 1 else 0) := by
  unfold dropImrouter
  split
  next himrouter =>
    split
    next count hfind =>
      have hcount : client.imrouterCount fs.groupId = count := by
        rw [imrouterCount, hfind, Option.getD_some]
      have hchanged : ∀ (value : Option UInt32) groupId, value.getD 0 = count - 1 →
          (Function.update client.mapImrouterCount.find fs.groupId value groupId).getD 0 =
            client.imrouterCount groupId - if IsImrouter fs groupId then 1 else 0 := by
        intro value groupId hvalue
        rw [imrouterCount_update client himrouter, hvalue]
        split
        next himrouters => rw [← himrouters.2, hcount]
        next => rw [UInt32.sub_zero]
      dsimp only
      split
      next hzero =>
        have hone : count = 1 := by
          rw [← UInt32.sub_add_cancel count 1, hzero, UInt32.zero_add]
        subst hone
        refine ⟨client.mapImrouterCount.erase fs.groupId, ?_, fun _ groupId => ?_⟩
        · split
          next hown => rw [if_pos ⟨himrouter, hfind, hown⟩]
          next hown => rw [if_neg fun h => hown h.2.2]
        · rw [OrderedMap.find_erase]
          exact hchanged none groupId rfl
      next hmore =>
        refine ⟨client.mapImrouterCount.set fs.groupId (count - 1), ?_, fun _ groupId => ?_⟩
        · rw [if_neg]
          rintro ⟨-, hone, -⟩
          rw [hfind, Option.some.injEq] at hone
          exact hmore (by rw [hone, UInt32.sub_self])
        · rw [OrderedMap.find_set]
          exact hchanged (some (count - 1)) groupId rfl
    next hfind =>
      refine ⟨client.mapImrouterCount, ?_, fun hcount => ?_⟩
      · rw [if_neg]
        rintro ⟨-, hone, -⟩
        rw [hfind] at hone
        cases hone
      · have hpos := hcount himrouter
        rw [imrouterCount, hfind] at hpos
        exact absurd rfl hpos
  next hother =>
    refine ⟨client.mapImrouterCount, ?_, fun _ groupId => ?_⟩
    · rw [if_neg fun h => hother h.1]
    · rw [if_neg fun h => hother h.1, UInt32.sub_zero]
      rfl

theorem onServerAddSV_counts (client : DaemonClient) (fs : FavorStrSV) :
    (client.onServerAddSV fs).sid2FavorSV = client.sid2FavorSV.set fs.serverId fs ∧
      (client.onServerAddSV fs).mapGid2Route = client.mapGid2Route ∧
      ∀ groupId, (client.onServerAddSV fs).imrouterCount groupId =
        client.imrouterCount groupId + if IsImrouter fs groupId then 1 else 0 := by
  refine ⟨?_, ?_⟩
  · apply OrderedMap.ext_find
    rw [(client.onServerAddSV_enters fs).1, OrderedMap.find_set]
  · obtain ⟨counts, hcount, hcounts⟩ := client.countImrouter_counts fs
    obtain ⟨shorter, hdel⟩ := (client.countImrouter fs).suffixMapDel_frame fs.serverId fs.sstr
    obtain ⟨longer, hadd⟩ :=
      ((client.countImrouter fs).suffixMapDel fs.serverId fs.sstr).suffixMapAdd_frame fs
    unfold onServerAddSV
    dsimp only
    rw [hadd, hdel, hcount]
    split
    · exact ⟨rfl, hcounts⟩
    · exact ⟨rfl, hcounts⟩

theorem onServerRemoveSV_counts {serverId : Nat}
    (hfind : client.sid2FavorSV.find serverId = some fs) :
    (client.onServerRemoveSV serverId).sid2FavorSV = client.sid2FavorSV.erase serverId ∧
      (client.onServerRemoveSV serverId).mapGid2Route =
        (if ClearsRoutes client fs then .empty else client.mapGid2Route) ∧
      ((fs.sstr = SUFFIX_IMROUTER → client.imrouterCount fs.groupId ≠ 0) → ∀ groupId,
        (client.onServerRemoveSV serverId).imrouterCount groupId =
          client.imrouterCount groupId - if IsImrouter fs groupId then 1 else 0) := by
  obtain ⟨suffixes, hdel⟩ := client.suffixMapDel_frame fs.serverId fs.sstr
  obtain ⟨counts, hdrop, hcounts⟩ :=
    dropImrouter_counts { client with mapSuffix2Srvs := suffixes } fs
  unfold onServerRemoveSV
  rw [hfind]
  dsimp only
  rw [hdel, hdrop]
  exact ⟨rfl, rfl, hcounts⟩

theorem onServersStatusChangeSV_counts {serverId : Nat}
    (hfind : client.sid2FavorSV.find serverId = some fs) (name : String)
    (serverStatus : ServerStatus) :
    (client.onServersStatusChangeSV serverId name serverStatus).sid2FavorSV =
        client.sid2FavorSV.set serverId { fs with serverStatus := serverStatus, sstr := name } ∧
      (client.onServersStatusChangeSV serverId name serverStatus).mapGid2Route =
        client.mapGid2Route ∧
      (client.onServersStatusChangeSV serverId name serverStatus).imrouterCount =
        client.imrouterCount := by
  obtain ⟨shorter, hdel⟩ := client.suffixMapDel_frame fs.serverId fs.sstr
  unfold onServersStatusChangeSV
  rw [hfind]
  dsimp only
  rw [hdel]
  dsimp only
  obtain ⟨longer, hadd⟩ := suffixMapAdd_frame
    { client with
      mapSuffix2Srvs := shorter
      sid2FavorSV :=
        client.sid2FavorSV.set serverId { fs with serverStatus := serverStatus, sstr := name } }
    { fs with serverStatus := serverStatus, sstr := name }
  rw [hadd]
  exact ⟨rfl, rfl, rfl⟩

/-- The table that a bulk list leaves. -/
def listed (favours : List FavorStrSV) : OrderedMap Nat FavorStrSV :=
  favours.foldl (fun table fs => table.set fs.serverId fs) .empty

section Bulk

variable {turn : DaemonClient → FavorStrSV → DaemonClient}
  (hset : ∀ client fs, (turn client fs).sid2FavorSV = client.sid2FavorSV.set fs.serverId fs)
  (hroutes : ∀ client fs, (turn client fs).mapGid2Route = client.mapGid2Route)

include hset in
theorem foldl_listed (favours : List FavorStrSV) (hempty : client.sid2FavorSV = .empty) :
    (favours.foldl turn client).sid2FavorSV = listed favours := by
  induction favours using List.reverseRecOn with
  | nil => exact hempty
  | append_singleton past last ih =>
      rw [List.foldl_append, List.foldl_cons, List.foldl_nil, hset, ih, listed, listed,
        List.foldl_append, List.foldl_cons, List.foldl_nil]

include hroutes in
theorem foldl_routes (favours : List FavorStrSV) (client : DaemonClient) :
    (favours.foldl turn client).mapGid2Route = client.mapGid2Route := by
  induction favours generalizing client with
  | nil => rfl
  | cons fs rest ih => rw [List.foldl_cons, ih, hroutes]

end Bulk

theorem favour_counts (client : DaemonClient) (fs : FavorStrSV) :
    (client.favour fs).sid2FavorSV = client.sid2FavorSV.set fs.serverId fs ∧
      (client.favour fs).mapGid2Route = client.mapGid2Route ∧
      (client.favour fs).imrouterCount = client.imrouterCount := by
  unfold favour
  obtain ⟨suffixes, hadd⟩ := suffixMapAdd_frame
    { client with sid2FavorSV := client.sid2FavorSV.set fs.serverId fs } fs
  rw [hadd]
  exact ⟨rfl, rfl, rfl⟩

theorem registered_counts (client : DaemonClient) (fs : FavorStrSV) :
    ((client.favour fs).countImrouter fs).sid2FavorSV =
        client.sid2FavorSV.set fs.serverId fs ∧
      ((client.favour fs).countImrouter fs).mapGid2Route = client.mapGid2Route ∧
      ∀ groupId, ((client.favour fs).countImrouter fs).imrouterCount groupId =
        client.imrouterCount groupId + if IsImrouter fs groupId then 1 else 0 := by
  obtain ⟨hset, hroutes, hsame⟩ := client.favour_counts fs
  obtain ⟨counts, hcount, hcounts⟩ := (client.favour fs).countImrouter_counts fs
  rw [hcount]
  refine ⟨hset, hroutes, fun groupId => ?_⟩
  rw [← hsame]
  exact hcounts groupId

theorem onServerRegisteredSV_counts (client : DaemonClient) (fs : List FavorStrSV)
    (bRecover : Bool) :
    (client.onServerRegisteredSV fs bRecover).sid2FavorSV = listed fs ∧
      (client.onServerRegisteredSV fs bRecover).mapGid2Route = .empty ∧
      ∀ groupId, ((client.onServerRegisteredSV fs bRecover).imrouterCount groupId).toNat =
        fs.countP (IsImrouter · groupId) % 2 ^ 32 := by
  refine ⟨foldl_listed (fun client fs => (client.registered_counts fs).1) fs rfl,
    foldl_routes (fun client fs => (client.registered_counts fs).2.1) fs _, fun groupId => ?_⟩
  unfold onServerRegisteredSV
  induction fs using List.reverseRecOn with
  | nil => rfl
  | append_singleton past last ih =>
      rw [List.foldl_append, List.foldl_cons, List.foldl_nil, (registered_counts _ last).2.2,
        UInt32.toNat_add, ih, List.countP_append, List.countP_singleton]
      by_cases himrouter : IsImrouter last groupId
      · simp [himrouter]
      · simp [himrouter]

theorem onGetServersSV_counts (client : DaemonClient) (favours : List FavorStrSV) :
    (client.onGetServersSV favours true).sid2FavorSV = listed favours ∧
      (client.onGetServersSV favours true).mapGid2Route = client.mapGid2Route ∧
      (client.onGetServersSV favours true).imrouterCount = client.imrouterCount := by
  refine ⟨foldl_listed (fun client fs => (client.favour_counts fs).1) favours rfl,
    foldl_routes (fun client fs => (client.favour_counts fs).2.1) favours _, ?_⟩
  rw [onGetServersSV, if_pos rfl]
  induction favours using List.reverseRecOn with
  | nil => rfl
  | append_singleton past last ih =>
      rw [List.foldl_append, List.foldl_cons, List.foldl_nil, (favour_counts _ last).2.2, ih]

theorem dispatchToServerRoundRobin_suffixes (client : DaemonClient) (strSuffix : String) :
    ∃ suffixes, (client.dispatchToServerRoundRobin strSuffix).1 =
      { client with mapSuffix2Srvs := suffixes } := by
  unfold dispatchToServerRoundRobin
  split
  · split
    · exact ⟨client.mapSuffix2Srvs, rfl⟩
    · exact ⟨_, rfl⟩
  · exact ⟨client.mapSuffix2Srvs, rfl⟩

/-! ## Every imrouter counted once -/

theorem imrouterOf_own (fs : FavorStrSV) :
    imrouterOf (some fs) fs.groupId = if fs.sstr = SUFFIX_IMROUTER then 1 else 0 :=
  if_congr (and_iff_left rfl) rfl rfl

theorem imrouterOf_self (himrouter : fs.sstr = SUFFIX_IMROUTER) :
    imrouterOf (some fs) fs.groupId = 1 := by
  rw [imrouterOf_own, if_pos himrouter]

/-- A known imrouter is among the imrouters of its group. -/
theorem imrouterOf_le_imrouters (client : DaemonClient) (id groupId : Nat) :
    imrouterOf (client.sid2FavorSV.find id) groupId ≤ client.imrouters groupId := by
  have herase : imrouters { client with sid2FavorSV := client.sid2FavorSV.erase id } groupId +
      imrouterOf (client.sid2FavorSV.find id) groupId = client.imrouters groupId :=
    imrouters_erase rfl groupId
  omega

/-- The count of a known imrouter's group is not zero. -/
theorem Counted.known (hcounted : Counted client) {id : Nat}
    (hfind : client.sid2FavorSV.find id = some fs) (himrouter : fs.sstr = SUFFIX_IMROUTER) :
    client.imrouterCount fs.groupId ≠ 0 := by
  intro hzero
  have hle := client.imrouterOf_le_imrouters id fs.groupId
  rw [hfind, imrouterOf_self himrouter, ← hcounted, hzero, UInt32.toNat_zero] at hle
  omega

def SUFFIX_IMBRIDGE : String := "imbridge"

/-- The bridge that `CImDaemonClient::dispatchByServerIdSV` hands a packet to over a
learned route. -/
def bridgeSid (client : DaemonClient) (serverId : Nat) : Option Nat :=
  if serverId = 0 then none
  else
    match client.sid2FavorSV.find serverId with
    | some fa =>
        if client.serverGroupId = none ∨ fa.serverId = NONE_SERVER_ID then none
        else if fa.sstr = SUFFIX_IMBRIDGE then none
        else
          match client.mapGid2Route.find fa.groupId with
          | some imbridge => if imbridge ≠ 0 then some imbridge else none
          | none => none
    | none => none

structure RoutesLead (client : DaemonClient) : Prop where
  known : ∀ groupId imbridge, client.mapGid2Route.find groupId = some imbridge →
    (client.sid2FavorSV.find imbridge).isSome
  named : ∀ groupId imbridge, client.mapGid2Route.find groupId = some imbridge →
    imbridge ≠ 0 ∧ imbridge ≠ 2 ^ 32 - 1
  /-- No packet is handed to a bridge that has been removed. -/
  handed : ∀ serverId imbridge, client.bridgeSid serverId = some imbridge →
    (client.sid2FavorSV.find imbridge).isSome

/-- The notification leaves the bridges that routes lead through. -/
def KeepsBridges (client : DaemonClient) : Event → Prop
  | .onServerRemoveSV serverId =>
      (∀ groupId, client.mapGid2Route.find groupId ≠ some serverId) ∨
        ∃ fs, client.sid2FavorSV.find serverId = some fs ∧ ClearsRoutes client fs
  | .onGetServersSV favours ifSuccess => ifSuccess = true →
      ∀ groupId imbridge, client.mapGid2Route.find groupId = some imbridge →
        ∃ fs ∈ favours, fs.serverId = imbridge
  | _ => True

theorem bridgeSid_eq_some {serverId imbridge : Nat}
    (hbridge : client.bridgeSid serverId = some imbridge) :
    ∃ groupId, client.mapGid2Route.find groupId = some imbridge := by
  unfold bridgeSid at hbridge
  split at hbridge
  · cases hbridge
  split at hbridge
  next fa hfind =>
    split at hbridge
    · cases hbridge
    split at hbridge
    · cases hbridge
    split at hbridge
    next found hroute =>
      split at hbridge
      · cases hbridge
        exact ⟨fa.groupId, hroute⟩
      · cases hbridge
    next => cases hbridge
  next => cases hbridge

/-- A packet takes a learned route, so the routes decide. -/
theorem routesLead_iff : RoutesLead client ↔
    ∀ groupId imbridge, client.mapGid2Route.find groupId = some imbridge →
      (client.sid2FavorSV.find imbridge).isSome ∧ imbridge ≠ 0 ∧ imbridge ≠ 2 ^ 32 - 1 := by
  constructor
  · intro hlead groupId imbridge hroute
    exact ⟨hlead.known groupId imbridge hroute, hlead.named groupId imbridge hroute⟩
  · intro hall
    refine ⟨fun groupId imbridge hroute => (hall groupId imbridge hroute).1,
      fun groupId imbridge hroute => (hall groupId imbridge hroute).2, ?_⟩
    intro serverId imbridge hbridge
    obtain ⟨groupId, hroute⟩ := bridgeSid_eq_some hbridge
    exact (hall groupId imbridge hroute).1

/-- No route is learned, and no known server goes. -/
theorem RoutesLead.keep (hlead : RoutesLead client)
    (hroutes : ∀ groupId imbridge, next.mapGid2Route.find groupId = some imbridge →
      client.mapGid2Route.find groupId = some imbridge ∧
        ((client.sid2FavorSV.find imbridge).isSome →
          (next.sid2FavorSV.find imbridge).isSome)) :
    RoutesLead next := by
  rw [routesLead_iff] at hlead ⊢
  intro groupId imbridge hroute
  obtain ⟨hold, hkept⟩ := hroutes groupId imbridge hroute
  obtain ⟨hknown, hnamed⟩ := hlead groupId imbridge hold
  exact ⟨hkept hknown, hnamed⟩

theorem set_isSome {id : Nat} (hset : next.sid2FavorSV = client.sid2FavorSV.set id fs)
    {imbridge : Nat} (hknown : (client.sid2FavorSV.find imbridge).isSome) :
    (next.sid2FavorSV.find imbridge).isSome := by
  rw [hset, OrderedMap.find_set, Function.update_apply]
  split
  · rfl
  · exact hknown

/-- A route is learned only when its bridge is known. -/
theorem routeNotified_lead (hlead : RoutesLead client) (groupId imbridge : Nat) :
    RoutesLead (client.routeNotified groupId imbridge) := by
  unfold routeNotified
  split
  next =>
    refine hlead.keep fun group bridge hroute => ?_
    rw [OrderedMap.find_erase, Function.update_apply] at hroute
    split at hroute
    · cases hroute
    · exact ⟨hroute, id⟩
  next hindirect =>
    split
    next hknown =>
      rw [routesLead_iff] at hlead ⊢
      intro group bridge hroute
      rw [OrderedMap.find_set, Function.update_apply] at hroute
      split at hroute
      · cases hroute
        exact ⟨hknown.1, fun hzero => hindirect (Or.inr hzero),
          fun hnone => hindirect (Or.inl hnone)⟩
      · exact hlead group bridge hroute
    next => exact hlead

theorem onRouteNotify_lead (hlead : RoutesLead client)
    (mapGidServerIds : OrderedMap Nat Nat) :
    RoutesLead (client.onRouteNotify mapGidServerIds) := by
  unfold onRouteNotify
  induction mapGidServerIds.entries generalizing client with
  | nil => exact hlead
  | cons it rest ih => exact ih (routeNotified_lead hlead it.1 it.2)

theorem onServerRemoveSV_lead (hlead : RoutesLead client) (serverId : Nat) :
    RoutesLead (client.onServerRemoveSV serverId) ↔
      KeepsBridges client (.onServerRemoveSV serverId) := by
  cases hfind : client.sid2FavorSV.find serverId with
  | none =>
      have hsame : client.onServerRemoveSV serverId = client := by
        rw [onServerRemoveSV, hfind]
      rw [hsame]
      refine iff_of_true hlead (Or.inl fun groupId hroute => ?_)
      have hknown := hlead.known groupId serverId hroute
      rw [hfind] at hknown
      cases hknown
  | some fs =>
      obtain ⟨herase, hroutes, -⟩ := onServerRemoveSV_counts hfind
      by_cases hclears : ClearsRoutes client fs
      · rw [if_pos hclears] at hroutes
        refine iff_of_true (hlead.keep fun groupId imbridge hroute => ?_)
          (Or.inr ⟨fs, hfind, hclears⟩)
        rw [hroutes] at hroute
        cases hroute
      · rw [if_neg hclears] at hroutes
        constructor
        · intro hafter
          refine Or.inl fun groupId hroute => ?_
          rw [← hroutes] at hroute
          have hknown := hafter.known groupId serverId hroute
          rw [herase, OrderedMap.find_erase, Function.update_self] at hknown
          cases hknown
        · rintro (hnone | ⟨found, hfound, hclears'⟩)
          · refine hlead.keep fun groupId imbridge hroute => ?_
            rw [hroutes] at hroute
            refine ⟨hroute, fun hknown => ?_⟩
            rw [herase, OrderedMap.find_erase, Function.update_of_ne]
            · exact hknown
            · rintro rfl
              exact hnone groupId hroute
          · rw [hfind] at hfound
            cases hfound
            exact absurd hclears' hclears

theorem listed_isSome (favours : List FavorStrSV) (id : Nat) :
    ((listed favours).find id).isSome ↔ ∃ fs ∈ favours, fs.serverId = id := by
  unfold listed
  induction favours using List.reverseRecOn with
  | nil => simp
  | append_singleton past last ih =>
      rw [List.foldl_append, List.foldl_cons, List.foldl_nil, OrderedMap.find_set,
        Function.update_apply]
      split
      next hsame =>
        exact iff_of_true rfl ⟨last, List.mem_append_right _ List.mem_cons_self, hsame.symm⟩
      next hdiff =>
        rw [ih]
        simp [Ne.symm hdiff]

theorem onGetServersSV_lead (hlead : RoutesLead client) (favours : List FavorStrSV)
    (ifSuccess : Bool) :
    RoutesLead (client.onGetServersSV favours ifSuccess) ↔
      KeepsBridges client (.onGetServersSV favours ifSuccess) := by
  cases ifSuccess with
  | false => exact iff_of_true hlead nofun
  | true =>
      obtain ⟨hlisted, hroutes, -⟩ := client.onGetServersSV_counts favours
      constructor
      · intro hafter _ groupId imbridge hroute
        rw [← hroutes] at hroute
        have hknown := hafter.known groupId imbridge hroute
        rwa [hlisted, listed_isSome] at hknown
      · intro hkept
        refine hlead.keep fun groupId imbridge hroute => ?_
        rw [hroutes] at hroute
        refine ⟨hroute, fun _ => ?_⟩
        rw [hlisted, listed_isSome]
        exact hkept rfl groupId imbridge hroute

theorem step_lead (hlead : RoutesLead client) (event : Event) :
    (∀ next, client.step event = some next → RoutesLead next) ↔ KeepsBridges client event := by
  cases event with
  | onServerAddSV fs =>
      obtain ⟨hset, hroutes, -⟩ := client.onServerAddSV_counts fs
      refine forall_next.trans (iff_of_true (hlead.keep fun groupId imbridge hroute => ?_) trivial)
      rw [hroutes] at hroute
      exact ⟨hroute, set_isSome hset⟩
  | onServerRemoveSV serverId => exact forall_next.trans (onServerRemoveSV_lead hlead serverId)
  | onServersStatusChangeSV serverId name serverStatus =>
      refine forall_next.trans (iff_of_true ?_ trivial)
      cases hfind : client.sid2FavorSV.find serverId with
      | none =>
          have hsame : client.onServersStatusChangeSV serverId name serverStatus = client := by
            rw [onServersStatusChangeSV, hfind]
          rw [hsame]
          exact hlead
      | some fs =>
          obtain ⟨hset, hroutes, -⟩ := onServersStatusChangeSV_counts hfind name serverStatus
          refine hlead.keep fun groupId imbridge hroute => ?_
          rw [hroutes] at hroute
          exact ⟨hroute, set_isSome hset⟩
  | onServerRegisteredSV fs bRecover =>
      obtain ⟨-, hroutes, -⟩ := client.onServerRegisteredSV_counts fs bRecover
      refine forall_next.trans (iff_of_true (hlead.keep fun groupId imbridge hroute => ?_) trivial)
      rw [hroutes] at hroute
      cases hroute
  | onGetServersSV favours ifSuccess =>
      exact forall_next.trans (onGetServersSV_lead hlead favours ifSuccess)
  | startSV dip =>
      refine forall_next.trans (iff_of_true (hlead.keep fun groupId imbridge hroute => ?_) trivial)
      exact ⟨hroute, set_isSome rfl⟩
  | onRouteNotify mapGidServerIds =>
      exact forall_next.trans (iff_of_true (onRouteNotify_lead hlead mapGidServerIds) trivial)
  | dispatchToServerRoundRobin strSuffix =>
      obtain ⟨suffixes, hsame⟩ := client.dispatchToServerRoundRobin_suffixes strSuffix
      refine forall_next.trans (iff_of_true (hlead.keep fun groupId imbridge hroute => ?_) trivial)
      rw [hsame] at hroute ⊢
      exact ⟨hroute, id⟩

/-- Throughout a run the routes lead through known bridges exactly when no removal and no
list of servers takes a bridge from under a route. -/
theorem routesLead_iff_keepsBridges (serverGroupId : Option Nat) (events : List Event) :
    Throughout step RoutesLead (new serverGroupId) events ↔
      Along step KeepsBridges (new serverGroupId) events := by
  have hnew : RoutesLead (new serverGroupId) := routesLead_iff.mpr nofun
  exact throughout_iff_along RoutesLead
    (fun client event next hlead hcond hnext => (step_lead hlead event).mpr hcond next hnext)
    (fun _ hlead => hlead) (fun _ event hlead => step_lead hlead event) hnew events

/-- A route to group 4 through the imbridge 9, which is then removed. -/
def bridgeRemoved : List Event :=
  [.onServerAddSV ⟨"imrouter", 1, 2, 3, 7, 4, .RUNNING⟩,
    .onServerAddSV ⟨"imbridge", 1, 2, 3, 9, 1, .RUNNING⟩,
    .onRouteNotify (.set .empty 4 9), .onServerRemoveSV 9]

theorem bridgeRemoved_leads : ¬ Throughout step RoutesLead (new none) bridgeRemoved := by
  rintro ⟨-, hlater⟩
  obtain ⟨-, hlater⟩ := hlater _ rfl
  obtain ⟨-, hlater⟩ := hlater _ rfl
  obtain ⟨-, hlater⟩ := hlater _ rfl
  have hlast : RoutesLead _ := hlater _ rfl
  have hknown := hlast.known 4 9 (by decide +kernel)
  revert hknown
  decide +kernel

end DaemonClient

end ServiceFrame
