import ServiceFrame.Foundation.OrderedMap
import ServiceFrame.Foundation.Run

/-! # Balancing the logins

`CLinkdManager` of `service/imlbsd/LinkdManager.cpp`: which linkd a client is told to log in at.
Those of the own group are handed out in turn until they are full, those of the own ISP always.
-/

namespace ServiceFrame

open Foundation

/-! ## Lists that enumerate -/

section Enumerates

universe uElem

variable {Elem : Type uElem}

/-- The list holds what is `good`, each once. -/
structure Enumerates (elems : List Elem) (good : Elem → Prop) : Prop where
  nodup : elems.Nodup
  mem_iff : ∀ elem, elem ∈ elems ↔ good elem

variable {elems : List Elem} {good other : Elem → Prop}

theorem Enumerates.congr (helems : Enumerates elems good) (hiff : ∀ elem, good elem ↔ other elem) :
    Enumerates elems other :=
  ⟨helems.nodup, fun elem => (helems.mem_iff elem).trans (hiff elem)⟩

theorem Enumerates.concat (helems : Enumerates elems good) {fresh : Elem} (hfresh : ¬ good fresh) :
    Enumerates (elems ++ [fresh]) (fun elem => elem = fresh ∨ good elem) := by
  constructor
  · apply List.nodup_append'.mpr
    refine ⟨helems.nodup, List.nodup_singleton _, ?_⟩
    rw [List.disjoint_singleton, helems.mem_iff]
    exact hfresh
  · intro elem
    rw [List.mem_append, List.mem_singleton, helems.mem_iff, or_comm]

theorem Enumerates.erase [DecidableEq Elem] (helems : Enumerates elems good) (gone : Elem) :
    Enumerates (elems.erase gone) (fun elem => elem ≠ gone ∧ good elem) := by
  refine ⟨helems.nodup.erase gone, fun elem => ?_⟩
  rw [helems.nodup.mem_erase_iff, helems.mem_iff]

end Enumerates

namespace LinkdManager

def maxNumOnlineLinkd : UInt32 := 30000

structure SLinkdInfo where
  valid : Bool
  counter : UInt32
  ip : UInt32
  ports : List UInt16
deriving DecidableEq, Repr

structure SLinkdInfoSameISP where
  strIp : List UInt8
  ports : List UInt16
deriving DecidableEq, Repr

end LinkdManager

open LinkdManager

structure CLinkdManager where
  validLinkd : List UInt32
  allLinkd : List UInt32
  index : UInt32
  linkdInfo : OrderedMap UInt32 SLinkdInfo
  linkdInfoSameISP : OrderedMap UInt32 SLinkdInfoSameISP
  notifyCounter : UInt32

namespace CLinkdManager

/-- What a getter does: it returns false for want of a linkd, it gives the `info` of one out, or it
returns false since the linkd that it chose is in no map. -/
inductive Answer (Info : Type) where
  | failed
  | handed (linkdId : UInt32) (info : Info)
  | notInMap (linkdId : UInt32)

/-- What the getter returns. -/
def Answer.returned {Info : Type} : Answer Info → Bool
  | failed => false
  | handed _ _ => true
  | notInMap _ => false

def new : CLinkdManager := ⟨[], [], 0, .empty, .empty, 0⟩

/-- `__AdjustLinkd`: the list `m_validLinkd` and the entry after it. -/
def adjustLinkd (validLinkd : List UInt32) (linkdId : UInt32) (res : SLinkdInfo) :
    List UInt32 × SLinkdInfo :=
  if res.counter ≥ maxNumOnlineLinkd ∧ res.valid ≠ false then
    (validLinkd.erase linkdId, { res with valid := false })
  else if res.counter < maxNumOnlineLinkd ∧ res.valid ≠ true then
    (validLinkd ++ [linkdId], { res with valid := true })
  else (validLinkd, res)

/-- Besides, whether the linkd is asked to send its ports again. -/
def setImLinkdInfo (m : CLinkdManager) (linkdId online : UInt32) : CLinkdManager × Bool :=
  match m.linkdInfo.find linkdId with
  | none => ({ m with notifyCounter := m.notifyCounter + 1 }, m.notifyCounter % 1500 = 0)
  | some info =>
      let adjusted := adjustLinkd m.validLinkd linkdId { info with counter := online }
      ({ m with
          validLinkd := adjusted.1
          linkdInfo := m.linkdInfo.set linkdId adjusted.2 }, false)

def setImLinkdInfoByGroup (m : CLinkdManager) (linkdId online ip : UInt32)
    (vecPorts : List UInt16) : CLinkdManager :=
  let tmpPorts := vecPorts.reverse
  match m.linkdInfo.find linkdId with
  | some info =>
      let adjusted := adjustLinkd m.validLinkd linkdId
        { info with ip := ip, ports := tmpPorts, counter := online }
      { m with
        notifyCounter := 0
        validLinkd := adjusted.1
        linkdInfo := m.linkdInfo.set linkdId adjusted.2 }
  | none =>
      if online ≥ maxNumOnlineLinkd then
        { m with
          notifyCounter := 0
          linkdInfo := m.linkdInfo.set linkdId ⟨false, online, ip, tmpPorts⟩ }
      else
        { m with
          notifyCounter := 0
          linkdInfo := m.linkdInfo.set linkdId ⟨true, online, ip, tmpPorts⟩
          validLinkd := m.validLinkd ++ [linkdId] }

def setImLinkdInfoByISP (m : CLinkdManager) (linkdId : UInt32) (strIp : List UInt8)
    (vecPorts : List UInt16) : CLinkdManager :=
  let tmpPorts := vecPorts.reverse
  match m.linkdInfoSameISP.find linkdId with
  | some _ =>
      { m with
        notifyCounter := 0
        linkdInfoSameISP := m.linkdInfoSameISP.set linkdId ⟨strIp, tmpPorts⟩ }
  | none =>
      { m with
        notifyCounter := 0
        linkdInfoSameISP := m.linkdInfoSameISP.set linkdId ⟨strIp, tmpPorts⟩
        allLinkd := m.allLinkd ++ [linkdId] }

def delImLinkdByGroup (m : CLinkdManager) (linkdId : UInt32) : CLinkdManager :=
  { m with
    linkdInfo := m.linkdInfo.erase linkdId
    validLinkd := m.validLinkd.erase linkdId }

def delImLinkdByISP (m : CLinkdManager) (linkdId : UInt32) : CLinkdManager :=
  { m with
    linkdInfoSameISP := m.linkdInfoSameISP.erase linkdId
    allLinkd := m.allLinkd.erase linkdId }

/-- It gives the group of the request, the address and the ports out. -/
def getImlinkInfo2 (m : CLinkdManager) (groupId : UInt32) :
    Answer (UInt32 × UInt32 × List UInt16) × CLinkdManager :=
  if m.validLinkd.isEmpty then (.failed, m)
  else
    let index := m.index + 1
    let it := index.toNat % m.validLinkd.length
    let linkdId := m.validLinkd.getD it 0
    match m.linkdInfo.find linkdId with
    | some info =>
        let counted := { info with counter := info.counter + 1 }
        let answer := .handed linkdId (groupId, info.ip, info.ports)
        if counted.counter ≥ maxNumOnlineLinkd then
          (answer, { m with
            index := index
            linkdInfo := m.linkdInfo.set linkdId { counted with valid := false }
            validLinkd := m.validLinkd.erase linkdId })
        else (answer, { m with index := index, linkdInfo := m.linkdInfo.set linkdId counted })
    | none =>
        (.notInMap linkdId, { m with index := index, validLinkd := m.validLinkd.eraseIdx it })

/-- It gives the address and the ports out. -/
def getImlinkInfo (m : CLinkdManager) : Answer (List UInt8 × List UInt16) × CLinkdManager :=
  if m.allLinkd.isEmpty then (.failed, m)
  else
    let index := m.index + 1
    let it := index.toNat % m.allLinkd.length
    let linkdId := m.allLinkd.getD it 0
    match m.linkdInfoSameISP.find linkdId with
    | some info => (.handed linkdId (info.strIp, info.ports), { m with index := index })
    | none => (.notInMap linkdId, { m with index := index, allLinkd := m.allLinkd.eraseIdx it })

/-! ## Runs -/

inductive Call where
  | setImLinkdInfo (linkdId online : UInt32)
  | setImLinkdInfoByGroup (linkdId online ip : UInt32) (vecPorts : List UInt16)
  | setImLinkdInfoByISP (linkdId : UInt32) (strIp : List UInt8) (vecPorts : List UInt16)
  | delImLinkdByGroup (linkdId : UInt32)
  | delImLinkdByISP (linkdId : UInt32)
  | getImlinkInfo2 (groupId : UInt32)
  | getImlinkInfo

def step (m : CLinkdManager) : Call → Option CLinkdManager
  | .setImLinkdInfo linkdId online => some (m.setImLinkdInfo linkdId online).1
  | .setImLinkdInfoByGroup linkdId online ip vecPorts =>
      some (m.setImLinkdInfoByGroup linkdId online ip vecPorts)
  | .setImLinkdInfoByISP linkdId strIp vecPorts =>
      some (m.setImLinkdInfoByISP linkdId strIp vecPorts)
  | .delImLinkdByGroup linkdId => some (m.delImLinkdByGroup linkdId)
  | .delImLinkdByISP linkdId => some (m.delImLinkdByISP linkdId)
  | .getImlinkInfo2 groupId => some (m.getImlinkInfo2 groupId).2
  | .getImlinkInfo => some m.getImlinkInfo.2

/-- The linkds of the map that may be handed out are in the list, and flagged. -/
structure GroupBalanced (validLinkd : List UInt32) (linkdInfo : OrderedMap UInt32 SLinkdInfo) :
    Prop where
  valid : Enumerates validLinkd fun linkdId =>
    ∃ info, linkdInfo.find linkdId = some info ∧ info.counter < maxNumOnlineLinkd
  flag : ∀ linkdId info, linkdInfo.find linkdId = some info →
    (info.valid = true ↔ info.counter < maxNumOnlineLinkd)

section Group

variable {validLinkd : List UInt32} {linkdInfo : OrderedMap UInt32 SLinkdInfo}
  {linkdId : UInt32} {info : SLinkdInfo}

theorem GroupBalanced.mem_iff (hgroup : GroupBalanced validLinkd linkdInfo)
    (hfind : linkdInfo.find linkdId = some info) : linkdId ∈ validLinkd ↔ info.valid = true := by
  rw [hgroup.valid.mem_iff, hgroup.flag linkdId info hfind, hfind]
  simp

theorem flag_set (hgroup : GroupBalanced validLinkd linkdInfo)
    (hflag : info.valid = true ↔ info.counter < maxNumOnlineLinkd) :
    ∀ other old, (linkdInfo.set linkdId info).find other = some old →
      (old.valid = true ↔ old.counter < maxNumOnlineLinkd) := by
  intro other old hfind
  by_cases hother : other = linkdId
  · rw [hother, OrderedMap.find_set_self] at hfind
    cases hfind
    exact hflag
  · rw [OrderedMap.find_set_of_ne _ hother] at hfind
    exact hgroup.flag other old hfind

/-- A linkd that is full leaves the list. -/
theorem GroupBalanced.set_full (hgroup : GroupBalanced validLinkd linkdInfo)
    (hfull : ¬ info.counter < maxNumOnlineLinkd) (hflag : info.valid = false) :
    GroupBalanced (validLinkd.erase linkdId) (linkdInfo.set linkdId info) where
  valid := by
    apply (hgroup.valid.erase linkdId).congr
    intro other
    by_cases hother : other = linkdId
    · simp [hother, OrderedMap.find_set_self, hfull]
    · simp [hother, OrderedMap.find_set_of_ne]
  flag := flag_set hgroup (by simp [hfull, hflag])

theorem free_set_iff (hfree : info.counter < maxNumOnlineLinkd) (other : UInt32) :
    (∃ old, (linkdInfo.set linkdId info).find other = some old ∧
        old.counter < maxNumOnlineLinkd) ↔
      other = linkdId ∨ ∃ old, linkdInfo.find other = some old ∧
        old.counter < maxNumOnlineLinkd := by
  by_cases hother : other = linkdId
  · simp [hother, OrderedMap.find_set_self, hfree]
  · simp [hother, OrderedMap.find_set_of_ne]

theorem GroupBalanced.set_free_new (hgroup : GroupBalanced validLinkd linkdInfo)
    (hnew : linkdId ∉ validLinkd) (hfree : info.counter < maxNumOnlineLinkd)
    (hflag : info.valid = true) :
    GroupBalanced (validLinkd ++ [linkdId]) (linkdInfo.set linkdId info) where
  valid := by
    rw [hgroup.valid.mem_iff] at hnew
    exact (hgroup.valid.concat hnew).congr fun other => (free_set_iff hfree other).symm
  flag := flag_set hgroup (by simp [hfree, hflag])

theorem GroupBalanced.set_free_old (hgroup : GroupBalanced validLinkd linkdInfo)
    (hold : linkdId ∈ validLinkd) (hfree : info.counter < maxNumOnlineLinkd)
    (hflag : info.valid = true) : GroupBalanced validLinkd (linkdInfo.set linkdId info) where
  valid := by
    apply hgroup.valid.congr
    intro other
    rw [free_set_iff hfree, ← hgroup.valid.mem_iff]
    exact ⟨Or.inr, fun hgood => hgood.elim (fun heq => heq ▸ hold) id⟩
  flag := flag_set hgroup (by simp [hfree, hflag])

/-- The list is adjusted to an entry with a new counter. -/
theorem GroupBalanced.adjustLinkd (hgroup : GroupBalanced validLinkd linkdInfo)
    {res : SLinkdInfo} (hfind : linkdInfo.find linkdId = some info)
    (hres : res.valid = info.valid) :
    GroupBalanced (CLinkdManager.adjustLinkd validLinkd linkdId res).1
      (linkdInfo.set linkdId (CLinkdManager.adjustLinkd validLinkd linkdId res).2) := by
  have hmem := hgroup.mem_iff hfind
  rw [← hres] at hmem
  unfold CLinkdManager.adjustLinkd
  split
  next hfull => exact hgroup.set_full (UInt32.not_lt.mpr hfull.1) rfl
  next hnotFull =>
    split
    next hfree => exact hgroup.set_free_new (hmem.not.mpr hfree.2) hfree.1 rfl
    next hnotFree =>
      by_cases hfree : res.counter < maxNumOnlineLinkd
      · have hvalid : res.valid = true := by
          by_contra hvalid
          exact hnotFree ⟨hfree, hvalid⟩
        exact hgroup.set_free_old (hmem.mpr hvalid) hfree hvalid
      · have hvalid : res.valid = false := by
          by_contra hvalid
          exact hnotFull ⟨UInt32.not_lt.mp hfree, hvalid⟩
        have habsent : linkdId ∉ validLinkd := by
          rw [hmem, hvalid]
          exact Bool.false_ne_true
        have hkept := @GroupBalanced.set_full _ _ linkdId _ hgroup hfree hvalid
        rwa [List.erase_of_not_mem habsent] at hkept

theorem GroupBalanced.erase (hgroup : GroupBalanced validLinkd linkdInfo) :
    GroupBalanced (validLinkd.erase linkdId) (linkdInfo.erase linkdId) where
  valid := by
    apply (hgroup.valid.erase linkdId).congr
    intro other
    by_cases hother : other = linkdId
    · simp [hother, OrderedMap.find_erase_self]
    · simp [hother, OrderedMap.find_erase_of_ne]
  flag other info hfind := by
    by_cases hother : other = linkdId
    · rw [hother, OrderedMap.find_erase_self] at hfind
      cases hfind
    · rw [OrderedMap.find_erase_of_ne _ hother] at hfind
      exact hgroup.flag other info hfind

end Group

/-- Besides, the list of those of the own ISP holds the keys of their map. -/
structure Balanced (m : CLinkdManager) : Prop where
  group : GroupBalanced m.validLinkd m.linkdInfo
  all : Enumerates m.allLinkd fun linkdId => (m.linkdInfoSameISP.find linkdId).isSome = true

theorem balanced_new : Balanced new := by
  refine ⟨⟨⟨List.nodup_nil, ?_⟩, ?_⟩, ⟨List.nodup_nil, ?_⟩⟩
  · simp [new]
  · simp [new]
  · simp [new]

variable {m : CLinkdManager}

/-- The linkd whose turn it is is in the list. -/
theorem getD_mem {linkds : List UInt32} (hsome : linkds.isEmpty = false) (index : Nat) :
    linkds.getD (index % linkds.length) 0 ∈ linkds := by
  have hlt : index % linkds.length < linkds.length := by
    apply Nat.mod_lt
    cases linkds with
    | nil => cases hsome
    | cons linkdId rest => simp
  rw [List.getD_eq_getElem?_getD, List.getElem?_eq_getElem hlt]
  exact List.getElem_mem hlt

/-- What `GetImlinkInfo2` finds: no linkd in the list, or one that is not full. -/
theorem getImlinkInfo2_spec (hm : Balanced m) (groupId : UInt32) :
    (m.validLinkd = [] ∧ m.getImlinkInfo2 groupId = (.failed, m)) ∨
    ∃ linkdId info, linkdId ∈ m.validLinkd ∧ m.linkdInfo.find linkdId = some info ∧
      info.counter < maxNumOnlineLinkd ∧
      (m.getImlinkInfo2 groupId).1 = .handed linkdId (groupId, info.ip, info.ports) ∧
      GroupBalanced (m.getImlinkInfo2 groupId).2.validLinkd
        (m.getImlinkInfo2 groupId).2.linkdInfo := by
  cases hsome : m.validLinkd.isEmpty with
  | true => exact Or.inl ⟨List.isEmpty_iff.mp hsome, by simp [getImlinkInfo2, hsome]⟩
  | false =>
      right
      have hmem := getD_mem hsome (m.index + 1).toNat
      obtain ⟨info, hfind, hfree⟩ := (hm.group.valid.mem_iff _).mp hmem
      have hvalid : info.valid = true := (hm.group.mem_iff hfind).mp hmem
      refine ⟨_, info, hmem, hfind, hfree, ?_⟩
      rw [getImlinkInfo2, hsome, if_neg Bool.false_ne_true]
      dsimp only
      rw [hfind]
      dsimp only
      split
      next hfull => exact ⟨rfl, hm.group.set_full (UInt32.not_lt.mpr hfull) rfl⟩
      next hnotFull =>
        exact ⟨rfl, hm.group.set_free_old hmem (UInt32.not_le.mp hnotFull) hvalid⟩

theorem getImlinkInfo_spec (hm : Balanced m) :
    (m.allLinkd = [] ∧ m.getImlinkInfo = (.failed, m)) ∨
    ∃ linkdId info, m.linkdInfoSameISP.find linkdId = some info ∧
      m.getImlinkInfo =
        (.handed linkdId (info.strIp, info.ports), { m with index := m.index + 1 }) := by
  cases hsome : m.allLinkd.isEmpty with
  | true => exact Or.inl ⟨List.isEmpty_iff.mp hsome, by simp [getImlinkInfo, hsome]⟩
  | false =>
      right
      have hmem := getD_mem hsome (m.index + 1).toNat
      obtain ⟨info, hfind⟩ := Option.isSome_iff_exists.mp ((hm.all.mem_iff _).mp hmem)
      refine ⟨_, info, hfind, ?_⟩
      rw [getImlinkInfo, hsome, if_neg Bool.false_ne_true]
      dsimp only
      rw [hfind]


theorem balanced_setImLinkdInfo (hm : Balanced m) (linkdId online : UInt32) :
    Balanced (m.setImLinkdInfo linkdId online).1 := by
  unfold setImLinkdInfo
  cases hfind : m.linkdInfo.find linkdId with
  | none => exact ⟨hm.group, hm.all⟩
  | some info => exact ⟨hm.group.adjustLinkd hfind rfl, hm.all⟩

theorem balanced_setImLinkdInfoByGroup (hm : Balanced m) (linkdId online ip : UInt32)
    (vecPorts : List UInt16) : Balanced (m.setImLinkdInfoByGroup linkdId online ip vecPorts) := by
  unfold setImLinkdInfoByGroup
  cases hfind : m.linkdInfo.find linkdId with
  | some info => exact ⟨hm.group.adjustLinkd hfind rfl, hm.all⟩
  | none =>
      have hnew : linkdId ∉ m.validLinkd := by
        rw [hm.group.valid.mem_iff, hfind]
        simp
      dsimp only
      split
      next hfull =>
        have hset := @GroupBalanced.set_full _ _ linkdId ⟨false, online, ip, vecPorts.reverse⟩
          hm.group (UInt32.not_lt.mpr hfull) rfl
        rw [List.erase_of_not_mem hnew] at hset
        exact ⟨hset, hm.all⟩
      next hnotFull => exact ⟨hm.group.set_free_new hnew (UInt32.not_le.mp hnotFull) rfl, hm.all⟩

theorem balanced_setImLinkdInfoByISP (hm : Balanced m) (linkdId : UInt32) (strIp : List UInt8)
    (vecPorts : List UInt16) : Balanced (m.setImLinkdInfoByISP linkdId strIp vecPorts) := by
  have hkeys : ∀ other info, ((m.linkdInfoSameISP.set linkdId info).find other).isSome = true ↔
      other = linkdId ∨ (m.linkdInfoSameISP.find other).isSome = true := by
    intro other info
    by_cases hother : other = linkdId
    · simp [hother, OrderedMap.find_set_self]
    · simp [hother, OrderedMap.find_set_of_ne]
  unfold setImLinkdInfoByISP
  cases hfind : m.linkdInfoSameISP.find linkdId with
  | some info =>
      refine ⟨hm.group, hm.all.congr fun other => ?_⟩
      dsimp only
      rw [hkeys]
      exact ⟨Or.inr, fun hkey => hkey.elim (fun heq => by simp [heq, hfind]) id⟩
  | none =>
      refine ⟨hm.group, (hm.all.concat (by simp [hfind])).congr fun other => ?_⟩
      exact (hkeys other _).symm

theorem balanced_delImLinkdByISP (hm : Balanced m) (linkdId : UInt32) :
    Balanced (m.delImLinkdByISP linkdId) := by
  refine ⟨hm.group, (hm.all.erase linkdId).congr fun other => ?_⟩
  rw [delImLinkdByISP]
  by_cases hother : other = linkdId
  · simp [hother, OrderedMap.find_erase_self]
  · simp [hother, OrderedMap.find_erase_of_ne]

/-- Only `GetImlinkInfo2` changes what is in the maps of the group, and it leaves the other ones. -/
theorem getImlinkInfo2_isp (m : CLinkdManager) (groupId : UInt32) :
    (m.getImlinkInfo2 groupId).2.allLinkd = m.allLinkd ∧
      (m.getImlinkInfo2 groupId).2.linkdInfoSameISP = m.linkdInfoSameISP := by
  unfold getImlinkInfo2
  dsimp only
  split
  next => exact ⟨rfl, rfl⟩
  next =>
    split
    next =>
      split
      next => exact ⟨rfl, rfl⟩
      next => exact ⟨rfl, rfl⟩
    next => exact ⟨rfl, rfl⟩

theorem balanced_step {call : Call} {next : CLinkdManager} (hm : Balanced m)
    (hstep : step m call = some next) : Balanced next := by
  cases call with
  | setImLinkdInfo linkdId online =>
      cases hstep
      exact balanced_setImLinkdInfo hm linkdId online
  | setImLinkdInfoByGroup linkdId online ip vecPorts =>
      cases hstep
      exact balanced_setImLinkdInfoByGroup hm linkdId online ip vecPorts
  | setImLinkdInfoByISP linkdId strIp vecPorts =>
      cases hstep
      exact balanced_setImLinkdInfoByISP hm linkdId strIp vecPorts
  | delImLinkdByGroup linkdId =>
      cases hstep
      exact ⟨hm.group.erase, hm.all⟩
  | delImLinkdByISP linkdId =>
      cases hstep
      exact balanced_delImLinkdByISP hm linkdId
  | getImlinkInfo2 groupId =>
      cases hstep
      obtain ⟨hall, hkeys⟩ := getImlinkInfo2_isp m groupId
      rcases getImlinkInfo2_spec hm groupId with ⟨-, hfailed⟩ | ⟨_, _, -, -, -, -, hgroup⟩
      · rw [hfailed]
        exact hm
      · refine ⟨hgroup, ?_⟩
        rw [hall, hkeys]
        exact hm.all
  | getImlinkInfo =>
      cases hstep
      rcases getImlinkInfo_spec hm with ⟨-, hfailed⟩ | ⟨_, _, -, hhanded⟩
      · rw [hfailed]
        exact hm
      · rw [hhanded]
        exact ⟨hm.group, hm.all⟩

/-- The linkd that an answer gives out. -/
def Answer.linkd? {Info : Type} : Answer Info → Option UInt32
  | handed linkdId _ => some linkdId
  | _ => none

/-- The lists are those of the maps. So `GetImlinkInfo2` returns false only when all linkds are
full, gives out only one that was not, and neither getter finds a linkd of its list missing in its
map. -/
structure NeverOverfills (m : CLinkdManager) : Prop where
  valid : Enumerates m.validLinkd fun linkdId =>
    ∃ info, m.linkdInfo.find linkdId = some info ∧ info.counter < maxNumOnlineLinkd
  flag : ∀ linkdId info, m.linkdInfo.find linkdId = some info →
    (info.valid = true ↔ info.counter < maxNumOnlineLinkd)
  all : Enumerates m.allLinkd fun linkdId => (m.linkdInfoSameISP.find linkdId).isSome = true
  fails_iff : ∀ groupId, (m.getImlinkInfo2 groupId).1.returned = false ↔
    ∀ linkdId info, m.linkdInfo.find linkdId = some info → maxNumOnlineLinkd ≤ info.counter
  handed : ∀ groupId linkdId, (m.getImlinkInfo2 groupId).1.linkd? = some linkdId →
    ∃ info, m.linkdInfo.find linkdId = some info ∧ info.counter < maxNumOnlineLinkd ∧
      (m.getImlinkInfo2 groupId).1 = .handed linkdId (groupId, info.ip, info.ports)
  inMap2 : ∀ groupId linkdId, (m.getImlinkInfo2 groupId).1 ≠ .notInMap linkdId
  inMap : ∀ linkdId, m.getImlinkInfo.1 ≠ .notInMap linkdId

theorem fails_iff_of_balanced (hm : Balanced m) (groupId : UInt32) :
    (m.getImlinkInfo2 groupId).1.returned = false ↔
      ∀ linkdId info, m.linkdInfo.find linkdId = some info → maxNumOnlineLinkd ≤ info.counter := by
  rcases getImlinkInfo2_spec hm groupId with
    ⟨hnone, hfailed⟩ | ⟨linkdId, info, -, hfind, hfree, hhanded, -⟩
  · rw [hfailed]
    refine iff_of_true rfl fun linkdId info hfind => ?_
    rw [← UInt32.not_lt]
    intro hfree
    have hmem := (hm.group.valid.mem_iff linkdId).mpr ⟨info, hfind, hfree⟩
    rw [hnone] at hmem
    cases hmem
  · rw [hhanded]
    refine iff_of_false (fun hfails => by cases hfails) fun hall => ?_
    exact UInt32.not_lt.mpr (hall linkdId info hfind) hfree

theorem neverOverfills_of_balanced (hm : Balanced m) : NeverOverfills m where
  valid := hm.group.valid
  flag := hm.group.flag
  all := hm.all
  fails_iff := fails_iff_of_balanced hm
  handed groupId linkdId hlinkd := by
    rcases getImlinkInfo2_spec hm groupId with
      ⟨-, hfailed⟩ | ⟨other, info, -, hfind, hfree, hhanded, -⟩
    · rw [hfailed] at hlinkd
      cases hlinkd
    · rw [hhanded] at hlinkd
      cases hlinkd
      exact ⟨info, hfind, hfree, hhanded⟩
  inMap2 groupId linkdId hanswer := by
    rcases getImlinkInfo2_spec hm groupId with ⟨-, hfailed⟩ | ⟨_, _, -, -, -, hhanded, -⟩
    · rw [hfailed] at hanswer
      cases hanswer
    · rw [hhanded] at hanswer
      cases hanswer
  inMap linkdId hanswer := by
    rcases getImlinkInfo_spec hm with ⟨-, hfailed⟩ | ⟨_, _, -, hhanded⟩
    · rw [hfailed] at hanswer
      cases hanswer
    · rw [hhanded] at hanswer
      cases hanswer

/-- In no run is a linkd overfilled or lost. -/
theorem linkdManager_throughout (calls : List Call) : Throughout step NeverOverfills new calls :=
  throughout_of_along (fun _ _ _ hm _ hstep => balanced_step hm hstep)
    (fun _ => neverOverfills_of_balanced) balanced_new (along_trivial new calls)

end CLinkdManager

end ServiceFrame
