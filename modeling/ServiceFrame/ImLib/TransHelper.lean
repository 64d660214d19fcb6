import ServiceFrame.Common.Md5
import ServiceFrame.ImLib.ServersInfo
import ServiceFrame.ServerLib.ConsistentHash

/-! # The transfers of the users

`CImTransHelper` of `service/imlib/ImTransHelper.cpp` gives each user an `imtransfer` server, by a
circle for each of the two networks (`ImTransferIDHelper`). It watches the daemon client as
`CImServersInfo` does, which it is, and which tells the network of the server that a user is at.
-/

namespace ServiceFrame

open Foundation

def SUFFIX_IMTRANS : String := "imtrans"

/-! ## The transfers of a network -/

structure ImTransferIDHelper where
  m_hash : ConsistentHash
  m_imTransSet : List UInt32

namespace ImTransferIDHelper

/-- `HashFunction::hash`: the first word of the hash. -/
def hashFunction (str : List UInt8) : UInt32 := (Md5.reverse (Md5.digest str)).headD 0

/-- `UserConsistentHash` of `imlib`, where `md5` stands for `HashFunction::hash`. -/
def userHash (md5 : List UInt8 → UInt32) : CircleHash := .ofType md5 .md5

def new (md5 : List UInt8 → UInt32) : ImTransferIDHelper :=
  ⟨.new ConsistentHash.defaultNumberOfReplicas (userHash md5), []⟩

def addServer (helper : ImTransferIDHelper) (imtransid : UInt32) : ImTransferIDHelper :=
  if imtransid ∈ helper.m_imTransSet then helper
  else ⟨helper.m_hash.addServer imtransid, helper.m_imTransSet ++ [imtransid]⟩

def removeServer (helper : ImTransferIDHelper) (imtransid : UInt32) : ImTransferIDHelper :=
  if imtransid ∈ helper.m_imTransSet then
    ⟨helper.m_hash.removeServer imtransid, helper.m_imTransSet.erase imtransid⟩
  else helper

def clearServer (helper : ImTransferIDHelper) : ImTransferIDHelper :=
  ⟨helper.m_imTransSet.foldl ConsistentHash.removeServer helper.m_hash, []⟩

def uid2ImTransid (helper : ImTransferIDHelper) (uid : UInt32) : UInt32 :=
  helper.m_hash.getServer uid

/-- The circle and the set are of the transfers, each of them once. -/
structure Holds (md5 : List UInt8 → UInt32) (helper : ImTransferIDHelper)
    (serves : UInt32 → Prop) : Prop where
  points : helper.m_hash.HasPoints ConsistentHash.defaultNumberOfReplicas (userHash md5) serves
  mem : ∀ id, id ∈ helper.m_imTransSet ↔ serves id
  nodup : helper.m_imTransSet.Nodup

/-- No two of the transfers have a point of the circle in common. -/
abbrev Apart (md5 : List UInt8 → UInt32) (transfers : UInt32 → Prop) : Prop :=
  ConsistentHash.Apart ConsistentHash.defaultNumberOfReplicas (userHash md5) transfers

variable {md5 : List UInt8 → UInt32} {helper : ImTransferIDHelper}
  {serves others transfers : UInt32 → Prop} {imtransid : UInt32}

theorem holds_new (md5 : List UInt8 → UInt32) : (new md5).Holds md5 fun _ => False where
  points := ConsistentHash.hasPoints_new _ _
  mem _ := iff_of_false List.not_mem_nil id
  nodup := List.nodup_nil

namespace Holds

theorem congr (hholds : helper.Holds md5 serves) (hsame : ∀ id, serves id ↔ others id) :
    helper.Holds md5 others where
  points := hholds.points.congr hsame
  mem id := (hholds.mem id).trans (hsame id)
  nodup := hholds.nodup

theorem addServer (hholds : helper.Holds md5 serves) (hapart : Apart md5 transfers)
    (hserves : ∀ id, serves id → transfers id) (hnew : transfers imtransid) :
    (helper.addServer imtransid).Holds md5 fun id => id = imtransid ∨ serves id := by
  unfold ImTransferIDHelper.addServer
  split
  next hmem =>
    refine hholds.congr fun id => (or_iff_right_of_imp ?_).symm
    rintro rfl
    exact (hholds.mem id).mp hmem
  next hmem =>
    refine ⟨hholds.points.addServer (hapart.mono ?_), fun id => ?_, ?_⟩
    · rintro id (rfl | hold)
      · exact hnew
      · exact hserves id hold
    · rw [List.mem_append, List.mem_singleton, hholds.mem, or_comm]
    · exact hholds.nodup.append (List.nodup_singleton _) (List.disjoint_singleton.mpr hmem)

theorem removeServer (hholds : helper.Holds md5 serves) (hapart : Apart md5 transfers)
    (hserves : ∀ id, serves id → transfers id) :
    (helper.removeServer imtransid).Holds md5 fun id => id ≠ imtransid ∧ serves id := by
  unfold ImTransferIDHelper.removeServer
  split
  next hmem =>
    refine ⟨hholds.points.removeServer (hapart.mono ?_), fun id => ?_, hholds.nodup.erase _⟩
    · rintro id (rfl | hold)
      · exact hserves id ((hholds.mem id).mp hmem)
      · exact hserves id hold
    · rw [hholds.nodup.mem_erase_iff, hholds.mem]
  next hmem =>
    refine hholds.congr fun id => (and_iff_right_of_imp ?_).symm
    rintro hserve rfl
    exact hmem ((hholds.mem id).mpr hserve)

/-- The loop of `clearServer` takes the servers off the circle one by one. -/
theorem foldl_removeServer {ring : ConsistentHash} {ids : List UInt32}
    (hring : ring.HasPoints ConsistentHash.defaultNumberOfReplicas (userHash md5) serves)
    (hapart : Apart md5 transfers) (hserves : ∀ id, serves id → transfers id)
    (hids : ∀ id ∈ ids, transfers id) :
    (ids.foldl ConsistentHash.removeServer ring).HasPoints
      ConsistentHash.defaultNumberOfReplicas (userHash md5) fun id => id ∉ ids ∧ serves id := by
  induction ids generalizing ring serves with
  | nil => exact hring.congr fun id => (and_iff_right List.not_mem_nil).symm
  | cons first rest ih =>
      obtain ⟨hfirst, hrest⟩ := List.forall_mem_cons.mp hids
      have hremoved := hring.removeServer (hapart.mono fun id hid => by
        obtain rfl | hold := hid
        · exact hfirst
        · exact hserves id hold)
      refine (ih hremoved (fun id hid => hserves id hid.2) hrest).congr fun id => ?_
      rw [List.mem_cons, not_or, and_assoc, and_left_comm]

theorem clearServer (hholds : helper.Holds md5 serves) (hapart : Apart md5 transfers)
    (hserves : ∀ id, serves id → transfers id) :
    helper.clearServer.Holds md5 fun _ => False where
  points := by
    refine (foldl_removeServer hholds.points hapart hserves fun id hid =>
      hserves id ((hholds.mem id).mp hid)).congr fun id => iff_of_false ?_ not_false
    rw [hholds.mem]
    exact fun hboth => hboth.1 hboth.2
  mem _ := iff_of_false List.not_mem_nil not_false
  nodup := List.nodup_nil

/-- Users go to one of the transfers, if there are any. -/
theorem uid2ImTransid (hholds : helper.Holds md5 serves) (uid : UInt32) :
    (∀ id, ¬serves id) ∧ helper.uid2ImTransid uid = ConsistentHash.noServer ∨
      serves (helper.uid2ImTransid uid) := by
  by_cases hsome : ∃ id, serves id
  · exact Or.inr (hholds.points.getServer_mem (by decide) hsome uid)
  · rw [not_exists] at hsome
    exact Or.inl ⟨hsome, hholds.points.getServer_none hsome uid⟩

end Holds

end ImTransferIDHelper

/-! ## The helper -/

structure CImTransHelper where
  info : CImServersInfo
  m_CTLHelper : ImTransferIDHelper
  m_CNCHelper : ImTransferIDHelper

namespace CImTransHelper

def new (md5 : List UInt8 → UInt32) : CImTransHelper := ⟨.new, .new md5, .new md5⟩

def getTransferID (helper : CImTransHelper) (uid netType : UInt32) : UInt32 :=
  if netType = CTL then helper.m_CTLHelper.uid2ImTransid uid
  else if netType = CNC then helper.m_CNCHelper.uid2ImTransid uid
  else 0xFFFFFFFF

def batchGetTransferID (helper : CImTransHelper) (vecUid : List UInt32) (netType : UInt32) :
    List UInt32 :=
  vecUid.map fun uid => helper.getTransferID uid netType

def batchGetTransferByimlinkd (helper : CImTransHelper) (vecUid : List UInt32)
    (linkdId : UInt32) : List UInt32 :=
  helper.batchGetTransferID vecUid (helper.info.getNetTypeByID linkdId)

/-- `__AddServer`; a server with addresses in both networks is only logged. -/
def addServer (helper : CImTransHelper) (fs : FavorStrSV) : CImTransHelper :=
  if fs.sstr = SUFFIX_IMTRANS ∧ fs.serverStatus = .RUNNING then
    if getNetType fs = CTL then
      { helper with m_CTLHelper := helper.m_CTLHelper.addServer fs.sid }
    else if getNetType fs = CNC then
      { helper with m_CNCHelper := helper.m_CNCHelper.addServer fs.sid }
    else helper
  else helper

def onAddSV (helper : CImTransHelper) (fs : FavorStrSV) : CImTransHelper :=
  ({ helper with info := helper.info.onAddSV fs }).addServer fs

def onServerRemovedSV (helper : CImTransHelper) (fs : FavorStrSV) : CImTransHelper :=
  let helper := { helper with info := helper.info.onServerRemovedSV fs }
  if fs.sstr = SUFFIX_IMTRANS then
    if getNetType fs = CNC then
      { helper with m_CNCHelper := helper.m_CNCHelper.removeServer fs.sid }
    else if getNetType fs = CTL then
      { helper with m_CTLHelper := helper.m_CTLHelper.removeServer fs.sid }
    else helper
  else helper

def onRefreshSV (client : DaemonClient) (helper : CImTransHelper) : CImTransHelper :=
  client.getServersSV.foldl addServer
    { info := CImServersInfo.onRefreshSV client
      m_CNCHelper := helper.m_CNCHelper.clearServer
      m_CTLHelper := helper.m_CTLHelper.clearServer }

/-- The handlers. After a change of status the server is added, and the container adds it
twice; after a recovery the container is refreshed twice. -/
def on (client : DaemonClient) (helper : CImTransHelper) : WatcherCall → CImTransHelper
  | .onAddSV fs => helper.onAddSV fs
  | .onServerStatusChangeSV fs => ({ helper with info := helper.info.onAddSV fs }).onAddSV fs
  | .onServerRemovedSV fs => helper.onServerRemovedSV fs
  | .onRefreshSV => onRefreshSV client helper
  | .onRecoverRefreshSV =>
      onRefreshSV client { helper with info := CImServersInfo.onRefreshSV client }

/-! ## What is to be held -/

/-- A transfer that runs, in one network only. -/
structure Serves (netType : UInt32) (fs : FavorStrSV) : Prop where
  name : fs.sstr = SUFFIX_IMTRANS
  runs : fs.serverStatus = .RUNNING
  net : getNetType fs = netType

/-- The transfers that the client knows in the network. -/
def Serving (client : DaemonClient) (netType id : UInt32) : Prop :=
  ∃ fs, client.known id = some fs ∧ Serves netType fs

/-- The transfers of a network that the helper holds. -/
def ring (helper : CImTransHelper) (netType : UInt32) : ImTransferIDHelper :=
  if netType = CTL then helper.m_CTLHelper else helper.m_CNCHelper

/-- The helper holds the transfers that the client knows. -/
def Mirrors (md5 : List UInt8 → UInt32) (client : DaemonClient) (helper : CImTransHelper) : Prop :=
  ∀ netType, netType = CTL ∨ netType = CNC →
    (helper.ring netType).Holds md5 (Serving client netType)

/-- Every user of a network goes to a transfer that runs in it, and to none only if there is
none. -/
structure Routes (client : DaemonClient) (helper : CImTransHelper) : Prop where
  served : ∀ uid netType, netType = CTL ∨ netType = CNC → (∃ id, Serving client netType id) →
    Serving client netType (helper.getTransferID uid netType)
  none : ∀ uid netType, netType = CTL ∨ netType = CNC → (¬∃ id, Serving client netType id) →
    helper.getTransferID uid netType = 0xFFFFFFFF

/-- A server that is added, or whose status changes, was no transfer of a network, or is one of
the same network still. -/
def KeepsCall (client : DaemonClient) : Option WatcherCall → Prop
  | some (.onAddSV fs) | some (.onServerStatusChangeSV fs) =>
      ∀ netType, netType = CTL ∨ netType = CNC → Serving client netType fs.sid → Serves netType fs
  | _ => True

def Keeps (st : Watched CImTransHelper) (message : DaemonNotice) : Prop :=
  KeepsCall st.client (st.client.notice message).2

/-- The client knows no transfers but these. -/
def Within (transfers : UInt32 → Prop) (client : DaemonClient) : Prop :=
  ∀ netType id, Serving client netType id → transfers id

def Expects (transfers : UInt32 → Prop) (st : Watched CImTransHelper) (message : DaemonNotice) :
    Prop :=
  Within transfers (st.client.notice message).1

/-! ## What the handlers do -/

instance (netType : UInt32) (fs : FavorStrSV) : Decidable (Serves netType fs) :=
  decidable_of_iff (fs.sstr = SUFFIX_IMTRANS ∧ fs.serverStatus = .RUNNING ∧
      getNetType fs = netType)
    ⟨fun hall => ⟨hall.1, hall.2.1, hall.2.2⟩, fun hserves =>
      ⟨hserves.name, hserves.runs, hserves.net⟩⟩

variable {md5 : List UInt8 → UInt32} {client next : DaemonClient} {helper : CImTransHelper}
  {fs : FavorStrSV} {netType : UInt32} {serves transfers : UInt32 → Prop}

theorem getTransferID_ring (hnet : netType = CTL ∨ netType = CNC) (uid : UInt32) :
    helper.getTransferID uid netType = (helper.ring netType).uid2ImTransid uid := by
  obtain rfl | rfl := hnet <;> rfl

theorem ring_addServer (hnet : netType = CTL ∨ netType = CNC) :
    (helper.addServer fs).ring netType =
      if Serves netType fs then (helper.ring netType).addServer fs.sid
      else helper.ring netType := by
  unfold addServer
  by_cases hruns : fs.sstr = SUFFIX_IMTRANS ∧ fs.serverStatus = .RUNNING
  · have hserves : Serves netType fs ↔ getNetType fs = netType :=
      ⟨fun hserves => hserves.net, fun hsame => ⟨hruns.1, hruns.2, hsame⟩⟩
    rw [if_pos hruns]
    simp only [hserves]
    obtain rfl | rfl := hnet
    · by_cases hctl : getNetType fs = CTL
      · rw [if_pos hctl, if_pos hctl]
        rfl
      · rw [if_neg hctl, if_neg hctl]
        split <;> rfl
    · by_cases hctl : getNetType fs = CTL
      · rw [if_pos hctl, if_neg (by rw [hctl]; decide)]
        rfl
      · rw [if_neg hctl]
        split <;> rfl
  · rw [if_neg hruns, if_neg fun hserves : Serves netType fs =>
      hruns ⟨hserves.name, hserves.runs⟩]

theorem ring_onServerRemovedSV (hnet : netType = CTL ∨ netType = CNC) :
    (helper.onServerRemovedSV fs).ring netType =
      if fs.sstr = SUFFIX_IMTRANS ∧ getNetType fs = netType then
        (helper.ring netType).removeServer fs.sid
      else helper.ring netType := by
  unfold onServerRemovedSV
  dsimp only
  by_cases hname : fs.sstr = SUFFIX_IMTRANS
  · rw [if_pos hname]
    simp only [hname, true_and]
    obtain rfl | rfl := hnet
    · by_cases hcnc : getNetType fs = CNC
      · rw [if_pos hcnc, if_neg (by rw [hcnc]; decide)]
        rfl
      · rw [if_neg hcnc]
        split <;> rfl
    · by_cases hcnc : getNetType fs = CNC
      · rw [if_pos hcnc, if_pos hcnc]
        rfl
      · rw [if_neg hcnc, if_neg hcnc]
        split <;> rfl
  · rw [if_neg hname, if_neg fun hboth => hname hboth.1]
    rfl

theorem holds_addServer (hholds : (helper.ring netType).Holds md5 serves)
    (hnet : netType = CTL ∨ netType = CNC) (hapart : ImTransferIDHelper.Apart md5 transfers)
    (hserves : ∀ id, serves id → transfers id) (hnew : Serves netType fs → transfers fs.sid) :
    ((helper.addServer fs).ring netType).Holds md5
      fun id => (id = fs.sid ∧ Serves netType fs) ∨ serves id := by
  rw [ring_addServer hnet]
  split
  next hthis =>
    refine (hholds.addServer hapart hserves (hnew hthis)).congr fun id => ?_
    rw [and_iff_left hthis]
  next hthis =>
    exact hholds.congr fun id => (or_iff_right fun hboth => hthis hboth.2).symm

/-- A refresh clears the circles, and adds the transfers that there are. -/
theorem holds_foldl_addServer {servers : List FavorStrSV}
    (hholds : (helper.ring netType).Holds md5 serves)
    (hnet : netType = CTL ∨ netType = CNC) (hapart : ImTransferIDHelper.Apart md5 transfers)
    (hserves : ∀ id, serves id → transfers id)
    (hnew : ∀ fs ∈ servers, Serves netType fs → transfers fs.sid) :
    ((servers.foldl addServer helper).ring netType).Holds md5
      fun id => (∃ fs ∈ servers, id = fs.sid ∧ Serves netType fs) ∨ serves id := by
  induction servers generalizing helper serves with
  | nil => exact hholds.congr fun id => by simp
  | cons first rest ih =>
      obtain ⟨hfirst, hrest⟩ := List.forall_mem_cons.mp hnew
      have hadded := holds_addServer hholds hnet hapart hserves hfirst
      refine (ih hadded (fun id hid => ?_) hrest).congr fun id => ?_
      · obtain ⟨rfl, hthis⟩ | hold := hid
        · exact hfirst hthis
        · exact hserves id hold
      · simp only [List.exists_mem_cons_iff]
        rw [← or_assoc, or_comm (a := ∃ fs ∈ rest, id = fs.sid ∧ Serves netType fs)]

theorem serving_of_knows (htabled : client.Tabled) (id : UInt32) :
    (∃ fs ∈ client.getServersSV, id = fs.sid ∧ Serves netType fs) ↔ Serving client netType id := by
  constructor
  · rintro ⟨fs, hmem, rfl, hserves⟩
    exact ⟨fs, htabled.mem_getServersSV.mp hmem, hserves⟩
  · rintro ⟨fs, hknown, hserves⟩
    have hsid := htabled.known_sid hknown
    exact ⟨fs, htabled.mem_getServersSV.mpr (hsid ▸ hknown), hsid.symm, hserves⟩

theorem mirrors_refresh (htabled : client.Tabled) (hapart : ImTransferIDHelper.Apart md5 transfers)
    (hwithin : Within transfers next) (hwithin' : Within transfers client)
    (hmirrors : Mirrors md5 next helper) : Mirrors md5 client (onRefreshSV client helper) := by
  intro netType hnet
  have hcleared : (ring ⟨CImServersInfo.onRefreshSV client, helper.m_CTLHelper.clearServer,
      helper.m_CNCHelper.clearServer⟩ netType).Holds md5 fun _ => False := by
    have hholds := (hmirrors netType hnet).clearServer hapart (hwithin netType)
    obtain rfl | rfl := hnet
    · exact hholds
    · exact hholds
  refine (holds_foldl_addServer hcleared hnet hapart (fun _ hfalse => hfalse.elim)
    fun fs hfs hserves => hwithin' netType fs.sid ?_).congr fun id => ?_
  · exact (serving_of_knows htabled fs.sid).mp ⟨fs, hfs, rfl, hserves⟩
  · rw [serving_of_knows htabled, or_false]

/-- What was held under the id of a server that is added stays. -/
theorem mirrors_add_iff (hapart : ImTransferIDHelper.Apart md5 transfers)
    (hwithin : Within transfers client) (hwithin' : Within transfers next)
    (hmirrors : Mirrors md5 client helper)
    (hknown : next.known = Function.update client.known fs.sid (some fs)) :
    Mirrors md5 next (helper.onAddSV fs) ↔
      ∀ netType, netType = CTL ∨ netType = CNC → Serving client netType fs.sid →
        Serves netType fs := by
  have hserving : ∀ netType id, Serving next netType id ↔
      if id = fs.sid then Serves netType fs else Serving client netType id := by
    intro netType id
    unfold Serving
    rw [hknown, Function.update_apply]
    split
    next => simp
    next => rfl
  have hadded : ∀ netType, netType = CTL ∨ netType = CNC →
      ((helper.onAddSV fs).ring netType).Holds md5
        fun id => (id = fs.sid ∧ Serves netType fs) ∨ Serving client netType id := by
    intro netType hnet
    have hholds : (ring { helper with info := helper.info.onAddSV fs } netType).Holds md5
        (Serving client netType) := hmirrors netType hnet
    refine holds_addServer hholds hnet hapart (hwithin netType) fun hthis => ?_
    exact hwithin' netType fs.sid ((hserving netType fs.sid).mpr (by rwa [if_pos rfl]))
  constructor
  · intro hall netType hnet hold
    have hmem := ((hadded netType hnet).mem fs.sid).mpr (Or.inr hold)
    rw [(hall netType hnet).mem, hserving, if_pos rfl] at hmem
    exact hmem
  · intro hkeeps netType hnet
    refine (hadded netType hnet).congr fun id => ?_
    rw [hserving]
    split
    next hid =>
      subst hid
      rw [and_iff_right rfl]
      exact or_iff_left_of_imp (hkeeps netType hnet)
    next hid => exact or_iff_right fun hboth => hid hboth.1

theorem mirrors_removed (hapart : ImTransferIDHelper.Apart md5 transfers)
    (hwithin : Within transfers client) (hmirrors : Mirrors md5 client helper)
    (hold : client.known fs.sid = some fs)
    (hknown : next.known = Function.update client.known fs.sid none) :
    Mirrors md5 next (helper.onServerRemovedSV fs) := by
  intro netType hnet
  have hserving : ∀ id, Serving next netType id ↔ id ≠ fs.sid ∧ Serving client netType id := by
    intro id
    unfold Serving
    rw [hknown, Function.update_apply]
    split
    next hid => simp [hid]
    next hid => simp [hid]
  rw [ring_onServerRemovedSV hnet]
  split
  next => exact ((hmirrors netType hnet).removeServer hapart (hwithin netType)).congr fun id =>
    (hserving id).symm
  next hother =>
    refine (hmirrors netType hnet).congr fun id => ?_
    rw [hserving, and_iff_right_of_imp]
    rintro ⟨known, hknown, hserves⟩ rfl
    rw [hold, Option.some_inj] at hknown
    subst hknown
    exact hother ⟨hserves.name, hserves.net⟩

theorem Mirrors.routes (hmirrors : Mirrors md5 client helper) : Routes client helper where
  served uid netType hnet hsome := by
    rw [getTransferID_ring hnet]
    obtain ⟨hnone, -⟩ | hserves := (hmirrors netType hnet).uid2ImTransid uid
    · obtain ⟨id, hid⟩ := hsome
      exact absurd hid (hnone id)
    · exact hserves
  none uid netType hnet hnone := by
    rw [getTransferID_ring hnet]
    obtain ⟨-, hnoServer⟩ | hserves := (hmirrors netType hnet).uid2ImTransid uid
    · exact hnoServer
    · exact absurd ⟨_, hserves⟩ hnone

/-! ## Runs -/

theorem mirrors_step_iff {st after : Watched CImTransHelper} {message : DaemonNotice}
    (htabled : st.client.Tabled) (hapart : ImTransferIDHelper.Apart md5 transfers)
    (hwithin : Within transfers st.client) (hexpects : Expects transfers st message)
    (hmirrors : Mirrors md5 st.client st.watcher)
    (hstep : Watched.step on st message = some after) :
    Mirrors md5 after.client after.watcher ↔ Keeps st message := by
  obtain ⟨client, call, hnotice, rfl, htabled, hnoticed⟩ := Watched.step_spec htabled hstep
  rw [Expects, hnotice] at hexpects
  rw [Keeps, hnotice]
  dsimp only [Watched.told]
  cases hnoticed with
  | quiet hknown =>
      refine iff_of_true (fun netType hnet => (hmirrors netType hnet).congr fun id => ?_) trivial
      rw [Serving, Serving, hknown]
  | enters hwire hcall hknown =>
      obtain rfl | rfl := hcall
      · exact mirrors_add_iff hapart hwithin hexpects hmirrors hknown
      · exact mirrors_add_iff hapart hwithin hexpects hmirrors hknown
  | leaves hold hknown =>
      exact iff_of_true (mirrors_removed hapart hwithin hmirrors hold hknown) trivial
  | refreshed hcall =>
      obtain rfl | rfl := hcall
      · exact iff_of_true (mirrors_refresh htabled hapart hwithin hexpects hmirrors) trivial
      · exact iff_of_true (mirrors_refresh htabled hapart hwithin hexpects hmirrors) trivial

/-- The client and the helper when the connection to the daemon starts. -/
def start (md5 : List UInt8 → UInt32) (serverGroupId : Option Nat) : Watched CImTransHelper :=
  ⟨.new serverGroupId, new md5⟩

theorem mirrors_start (md5 : List UInt8 → UInt32) (serverGroupId : Option Nat) :
    Mirrors md5 (start md5 serverGroupId).client (start md5 serverGroupId).watcher := by
  intro netType hnet
  have hholds : ((new md5).ring netType).Holds md5 fun _ => False := by
    obtain rfl | rfl := hnet
    · exact ImTransferIDHelper.holds_new md5
    · exact ImTransferIDHelper.holds_new md5
  refine hholds.congr fun id => iff_of_false not_false ?_
  rintro ⟨fs, hknown, -⟩
  cases hknown

theorem within_start (md5 : List UInt8 → UInt32) (serverGroupId : Option Nat) :
    Within transfers (start md5 serverGroupId).client := by
  rintro netType id ⟨fs, hknown, -⟩
  cases hknown

/-- What every state of a run has that expects these transfers. -/
structure Inv (md5 : List UInt8 → UInt32) (transfers : UInt32 → Prop)
    (st : Watched CImTransHelper) : Prop where
  tabled : st.client.Tabled
  within : Within transfers st.client
  mirrors : Mirrors md5 st.client st.watcher

theorem inv_start (md5 : List UInt8 → UInt32) (transfers : UInt32 → Prop)
    (serverGroupId : Option Nat) : Inv md5 transfers (start md5 serverGroupId) :=
  ⟨DaemonClient.tabled_new serverGroupId, within_start md5 serverGroupId,
    mirrors_start md5 serverGroupId⟩

theorem Inv.step {st after : Watched CImTransHelper} {message : DaemonNotice}
    (hinv : Inv md5 transfers st) (hapart : ImTransferIDHelper.Apart md5 transfers)
    (hexpects : Expects transfers st message) (hkeeps : Keeps st message)
    (hstep : Watched.step on st message = some after) : Inv md5 transfers after := by
  have hmirrors := (mirrors_step_iff hinv.tabled hapart hinv.within hexpects hinv.mirrors
    hstep).mpr hkeeps
  cases hstep
  exact ⟨(DaemonClient.notice_spec hinv.tabled message).1, hexpects, hmirrors⟩

/-- The circles are those of the transfers that run, and every user goes to one in the network
asked for, throughout exactly the runs in which no transfer stops or changes its network. -/
theorem routes_throughout_iff (md5 : List UInt8 → UInt32) (transfers : UInt32 → Prop)
    (hapart : ImTransferIDHelper.Apart md5 transfers) (serverGroupId : Option Nat)
    (messages : List DaemonNotice)
    (hexpects : Along (Watched.step on) (Expects transfers) (start md5 serverGroupId) messages) :
    Throughout (Watched.step on)
        (fun st => Mirrors md5 st.client st.watcher ∧ Routes st.client st.watcher)
        (start md5 serverGroupId) messages ↔
      Along (Watched.step on) Keeps (start md5 serverGroupId) messages := by
  refine throughout_iff_along_within (Inv md5 transfers) ?_ ?_ ?_
    (inv_start md5 transfers serverGroupId) hexpects
  · exact fun st message next hinv hexpect hkeeps hstep => hinv.step hapart hexpect hkeeps hstep
  · exact fun st hinv => ⟨hinv.mirrors, hinv.mirrors.routes⟩
  · intro st message hinv hexpect
    constructor
    · intro hall
      exact (mirrors_step_iff hinv.tabled hapart hinv.within hexpect hinv.mirrors rfl).mp
        (hall _ rfl).1
    · intro hkeeps next hstep
      have hnext := hinv.step hapart hexpect hkeeps hstep
      exact ⟨hnext.mirrors, hnext.mirrors.routes⟩

theorem within_of_ids (hids : ∀ entry ∈ client.sid2FavorSV.entries,
    transfers (UInt32.ofNat entry.1)) : Within transfers client := by
  rintro netType id ⟨fs, hknown, -⟩
  have hid := hids (id.toNat, fs) (OrderedMap.mem_entries.mpr hknown)
  rwa [UInt32.ofNat_toNat] at hid

/-- A transfer of the net type CTL. -/
def ctlTransfer : WireSV :=
  ⟨{ sstr := SUFFIX_IMTRANS, dip := 1, wip := 0, port := 0, serverId := 5, groupId := 1,
     serverStatus := .RUNNING }, by decide, by decide, by decide, by decide⟩

theorem apart_one (md5 : List UInt8 → UInt32) (id : UInt32) :
    ImTransferIDHelper.Apart md5 (· = id) := by
  rintro serverid other rfl rfl - - -
  rfl

/-- A transfer that comes and goes. -/
theorem routes_throughout_of_one :
    Throughout (Watched.step on)
      (fun st => Mirrors ImTransferIDHelper.hashFunction st.client st.watcher ∧
        Routes st.client st.watcher)
      (start ImTransferIDHelper.hashFunction none)
      [.onServerAddSV ctlTransfer, .onServerRemoveSV 5] := by
  refine (routes_throughout_iff ImTransferIDHelper.hashFunction (· = 5) (apart_one _ 5) none
    [.onServerAddSV ctlTransfer, .onServerRemoveSV 5] ⟨?_, ?_⟩).mpr ⟨?_, ?_⟩
  · exact within_of_ids (by decide +kernel)
  · intro next hstep
    cases hstep
    exact ⟨within_of_ids (by decide +kernel), fun _ _ => trivial⟩
  · rintro netType - ⟨fs, hknown, -⟩
    cases hknown
  · intro next hstep
    cases hstep
    exact ⟨trivial, fun _ _ => trivial⟩

/-! ## Two processes -/

/-- The container keeps its entries. -/
def KeepsInfo (st : Watched CImTransHelper) (message : DaemonNotice) : Prop :=
  CImServersInfo.KeepsCall st.client (st.client.notice message).2

theorem serves_iff_entryOf (hnet : netType = CTL ∨ netType = CNC) :
    Serves netType fs ↔
      CImServersInfo.entryOf fs = some ⟨SUFFIX_IMTRANS, fs.sid, netType⟩ := by
  unfold CImServersInfo.entryOf
  constructor
  · rintro ⟨hname, hruns, rfl⟩
    have hone : getNetType fs ≠ 0xFFFFFFFF := by
      obtain hctl | hcnc := hnet
      · rw [hctl]
        decide
      · rw [hcnc]
        decide
    rw [if_pos ⟨hone, hruns, by rw [hname]; decide, by rw [hname]; decide⟩, hname]
  · intro hentry
    split at hentry
    next hheld =>
      simp only [Option.some.injEq, CIMServer.mk.injEq] at hentry
      exact ⟨hentry.1, hheld.2.1, hentry.2.2⟩
    next => cases hentry

theorem serving_iff (htabled : client.Tabled) (hnet : netType = CTL ∨ netType = CNC)
    {id : UInt32} : Serving client netType id ↔
      (client.known id).bind CImServersInfo.entryOf = some ⟨SUFFIX_IMTRANS, id, netType⟩ := by
  rw [Option.bind_eq_some_iff]
  refine exists_congr fun fs => and_congr_right fun hknown => ?_
  rw [serves_iff_entryOf hnet, htabled.known_sid hknown]

/-- A container that keeps its entries keeps those of the transfers. -/
theorem KeepsInfo.keeps {st : Watched CImTransHelper} {message : DaemonNotice}
    (htabled : st.client.Tabled) (hkeeps : KeepsInfo st message) : Keeps st message := by
  have hserves : ∀ fs : FavorStrSV,
      (∀ srv, (st.client.known fs.sid).bind CImServersInfo.entryOf = some srv →
        CImServersInfo.entryOf fs = some srv) →
      ∀ netType, netType = CTL ∨ netType = CNC → Serving st.client netType fs.sid →
        Serves netType fs := by
    intro fs hentry netType hnet hold
    exact (serves_iff_entryOf hnet).mpr (hentry _ ((serving_iff htabled hnet).mp hold))
  unfold KeepsInfo at hkeeps
  unfold Keeps
  revert hkeeps
  cases (st.client.notice message).2 with
  | none => exact fun _ => trivial
  | some call =>
      cases call with
      | onAddSV fs => exact hserves fs
      | onServerStatusChangeSV fs => exact hserves fs
      | _ => exact fun _ => trivial

end CImTransHelper

end ServiceFrame
