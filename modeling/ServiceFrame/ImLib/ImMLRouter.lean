import ServiceFrame.ImLib.ServersInfo

/-! # Routing between the networks

`ICImMLRouter` of `service/imlib/ImMLRouter.cpp` chooses how a packet goes: to a server by its id,
to a user by the linkd that he is on, or by name to any server. A packet to send is the bytes that
it packs to.
-/

namespace ServiceFrame

structure PSS_ForwardBridge where
  m_ouri : UInt32
  m_toUid : UInt32
  m_toLinkd : UInt32
  m_strOriPacket : List UInt8
deriving DecidableEq

def IMBRIDGE_SVID : UInt32 := 43

def PSS_ForwardBridge.uri : UInt32 := (12 : UInt32) <<< 8 ||| IMBRIDGE_SVID

/-- What is handed to a route call. -/
inductive Marshallable where
  | packet (bytes : List UInt8)
  | forwardBridge (resObj : PSS_ForwardBridge)
deriving DecidableEq

/-- The calls of `IRouteTarget`. -/
inductive RouteCall where
  | route (toName : String) (uri : UInt32) (obj : Marshallable)
  | routeS (serverId uri : UInt32) (obj : Marshallable)
  | routeU (uid imlinkd uri : UInt32) (obj : Marshallable)
deriving DecidableEq

namespace ICImMLRouter

open DaemonClient (SUFFIX_IMBRIDGE)

variable (m_srvInfo : CImServersInfo) (myType : UInt32)

def routeSameNet (pick : Nat) (strSuffix : String) (uri : UInt32) (obj : List UInt8)
    (bSendDiff : Bool) : List RouteCall :=
  let uSrvId := m_srvInfo.randomServerIDByNameTypeEx pick strSuffix myType
  if uSrvId ≠ 0xFFFFFFFF then [.routeS uSrvId uri (.packet obj)]
  else if bSendDiff then [.route strSuffix uri (.packet obj)]
  else []

/-- `myType == CNC|CTL` compares first. -/
def routeSameNetLinkd (uUid uLinkdId uri : UInt32) (obj : List UInt8) : List RouteCall :=
  let netType := m_srvInfo.getNetTypeByID uLinkdId
  if (if myType = CNC then 1 else 0) ||| CTL ≠ 0 ∨ myType = netType then
    [.routeU uUid uLinkdId uri (.packet obj)]
  else
    let resObj : PSS_ForwardBridge := ⟨uri, uUid, uLinkdId, obj⟩
    [.route SUFFIX_IMBRIDGE PSS_ForwardBridge.uri (.forwardBridge resObj)]

/-! ## What is to hold -/

/-- This server has both lines, or the linkd is known to have its net type. -/
def SameNetLinkd (uLinkdId : UInt32) : Prop :=
  myType = CNC ||| CTL ∨
    ∃ srv, m_srvInfo.m_srvContainer.m_mapServers.find uLinkdId = some srv ∧ srv.m_netType = myType

/-- The packet goes to the linkd itself only within a network, and otherwise to a bridge, once and
with all that it needs. -/
def BridgesNets (uUid uLinkdId uri : UInt32) (obj : List UInt8) (calls : List RouteCall) : Prop :=
  (.routeU uUid uLinkdId uri (.packet obj) ∈ calls → SameNetLinkd m_srvInfo myType uLinkdId) ∧
    (¬ SameNetLinkd m_srvInfo myType uLinkdId →
      calls = [.route SUFFIX_IMBRIDGE PSS_ForwardBridge.uri
        (.forwardBridge ⟨uri, uUid, uLinkdId, obj⟩)])

/-- The server has the name, and is of the own net type or of both lines. -/
def Fits (strSuffix : String) (serverId : UInt32) : Prop :=
  ∃ srv, m_srvInfo.m_srvContainer.m_mapServers.find serverId = some srv ∧
    (srv.m_netType = myType ∨ srv.m_netType = CNC ||| CTL) ∧ srv.m_sstr = strSuffix

/-- The packet goes to one server that fits, or, when none does and the caller wants it, to any
server of the name. -/
def StaysInNet (strSuffix : String) (uri : UInt32) (obj : List UInt8) (bSendDiff : Bool)
    (calls : List RouteCall) : Prop :=
  (∃ serverId, Fits m_srvInfo myType strSuffix serverId ∧
      calls = [.routeS serverId uri (.packet obj)]) ∨
    (calls = [.route strSuffix uri (.packet obj)] ∧ bSendDiff = true ∧
      ∀ serverId, ¬ Fits m_srvInfo myType strSuffix serverId) ∨
    calls = []

/-! ## What does -/

variable {m_srvInfo myType}

/-- The bridge is never used. -/
theorem routeSameNetLinkd_eq (uUid uLinkdId uri : UInt32) (obj : List UInt8) :
    routeSameNetLinkd m_srvInfo myType uUid uLinkdId uri obj =
      [.routeU uUid uLinkdId uri (.packet obj)] := by
  have hfirst : (if myType = CNC then (1 : UInt32) else 0) ||| CTL ≠ 0 := by
    split
    · decide
    · decide
  rw [routeSameNetLinkd]
  exact if_pos (.inl hfirst)

theorem bridgesNets_iff (uUid uLinkdId uri : UInt32) (obj : List UInt8) :
    BridgesNets m_srvInfo myType uUid uLinkdId uri obj
        (routeSameNetLinkd m_srvInfo myType uUid uLinkdId uri obj) ↔
      SameNetLinkd m_srvInfo myType uLinkdId := by
  rw [routeSameNetLinkd_eq]
  constructor
  · exact fun hbridges => hbridges.1 List.mem_cons_self
  · exact fun hsame => ⟨fun _ => hsame, fun hnot => absurd hsame hnot⟩

/-- Any server that fits may be the one in front. -/
theorem staysInNet_iff (strSuffix : String) (uri : UInt32) (obj : List UInt8) (bSendDiff : Bool) :
    (∀ pick, StaysInNet m_srvInfo myType strSuffix uri obj bSendDiff
        (routeSameNet m_srvInfo myType pick strSuffix uri obj bSendDiff)) ↔
      (bSendDiff = true → ¬ Fits m_srvInfo myType strSuffix 0xFFFFFFFF) := by
  have hmem : ∀ id, id ∈ m_srvInfo.m_srvContainer.getServersByNameTypeEx strSuffix myType ↔
      Fits m_srvInfo myType strSuffix id :=
    fun id => CImServersContainer.mem_getServersByNameTypeEx
  constructor
  · intro hall hdiff hfits
    obtain ⟨pick, hpick, hid⟩ := List.getElem_of_mem ((hmem _).mpr hfits)
    have hfront : m_srvInfo.randomServerIDByNameTypeEx pick strSuffix myType = 0xFFFFFFFF := by
      rw [CImServersInfo.randomServerIDByNameTypeEx, randomFront, Nat.mod_eq_of_lt hpick,
        List.getElem?_eq_getElem hpick, hid]
      rfl
    have hcalls : routeSameNet m_srvInfo myType pick strSuffix uri obj bSendDiff =
        [.route strSuffix uri (.packet obj)] := by
      rw [routeSameNet, hfront, hdiff]
      rfl
    have hstays := hall pick
    rw [hcalls] at hstays
    obtain ⟨serverId, -, hsame⟩ | ⟨-, -, hnone⟩ | hsame := hstays
    · simp at hsame
    · exact hnone _ hfits
    · simp at hsame
  · intro hlast pick
    rw [routeSameNet]
    split
    next hid =>
      refine .inl ⟨_, ?_, rfl⟩
      rw [← hmem]
      refine randomFront_mem (fun hempty => hid ?_) pick
      rw [CImServersInfo.randomServerIDByNameTypeEx, hempty]
      rfl
    next hid =>
      split
      next hdiff =>
        refine .inr (.inl ⟨rfl, hdiff, fun serverId hfits => ?_⟩)
        have hne := List.ne_nil_of_mem ((hmem serverId).mpr hfits)
        have hfront := (hmem _).mp (randomFront_mem hne pick)
        have hnone : m_srvInfo.randomServerIDByNameTypeEx pick strSuffix myType = 0xFFFFFFFF := by
          simpa using hid
        exact hlast hdiff (hnone ▸ hfront)
      next => exact .inr (.inr rfl)

/-- Whatever the tables and the packets are: a packet for a user crosses networks only over a bridge
when the linkd is in the same network, and one for a server stays in the network as far as it can
when no server that fits has the id `-1` or the other network is not wanted. -/
theorem crosses_iff (m_srvInfo : CImServersInfo) (myType uUid uLinkdId uri : UInt32)
    (obj : List UInt8) (strSuffix : String) (bSendDiff : Bool) :
    (BridgesNets m_srvInfo myType uUid uLinkdId uri obj
        (routeSameNetLinkd m_srvInfo myType uUid uLinkdId uri obj) ∧
      ∀ pick, StaysInNet m_srvInfo myType strSuffix uri obj bSendDiff
        (routeSameNet m_srvInfo myType pick strSuffix uri obj bSendDiff)) ↔
      SameNetLinkd m_srvInfo myType uLinkdId ∧
        (bSendDiff = true → ¬ Fits m_srvInfo myType strSuffix 0xFFFFFFFF) :=
  and_congr (bridgesNets_iff uUid uLinkdId uri obj) (staysInNet_iff strSuffix uri obj bSendDiff)

/-- A linkd that only the other network reaches. -/
def otherNet : CImServersInfo :=
  ⟨CImServersContainer.empty.addServer ⟨"imlinkd", 7, CNC⟩⟩

/-- A server of CTL sends to it directly. -/
theorem other_net_direct :
    ¬ SameNetLinkd otherNet CTL 7 ∧
      routeSameNetLinkd otherNet CTL 1 7 2 [3] = [.routeU 1 7 2 (.packet [3])] := by
  refine ⟨?_, rfl⟩
  rintro (hdual | ⟨srv, hfind, htype⟩)
  · exact absurd hdual (by decide)
  · cases hfind
    exact absurd htype (by decide)

end ICImMLRouter

end ServiceFrame
