import Mathlib.Data.String.Basic
import ServiceFrame.Foundation.OrderedMap
import ServiceFrame.Foundation.Run

/-! # The servers and daos of the proxy

`DaoStatManager` of `dao_proxy` keeps the servers with the daos each of them has, in
`serv_infos`, and for each dao the servers that have it, in `dao_index`. A
configuration, an answer to a ping and the accounting of requests update the first,
and the second must follow. Left out: the poll packets, and the learning of response
times, which writes `m_lms_k` and `m_lms_b` of a dao.
-/

namespace ServiceFrame

open Foundation

/-- `float`, `double` and `long double`, whatever their operations give. -/
class Floating (Num : Type) extends Add Num, Sub Num, Mul Num, Div Num, IntCast Num,
    OfScientific Num where
  lt : Num → Num → Bool
  le : Num → Num → Bool
  /-- What is left of a value in a `float`, and in a `double`. -/
  float : Num → Num
  double : Num → Num

abbrev IPPORTYPE := String × Int

structure DaoINFO (Num : Type) where
  currenLoad : Int32
  tickRemain : Int32
  /-- 1 for a master, 2 for a slave. -/
  daoType : Int32
  daoExtentInfo : String
  debugInfo : String
  tickRemainLastPoll : Int32
  sendingRequest : UInt32
  lmsK : Num
  lmsB : Num

structure ServINFO (Num : Type) where
  ipports : List IPPORTYPE
  groupid : Int
  lastResppingTime : Nat
  daoInfos : OrderedMap String (DaoINFO Num)
  immreqStat : Int

structure DaoIndex where
  servers : OrderedMap String Unit

/-- What the configuration says of a server. -/
structure PrcAdd where
  ipports : List IPPORTYPE
  groupid : Int

structure DAOLOAD where
  daoName : String
  load : UInt32
  free : UInt32
  dbType : UInt32
  extraInfo : String

structure DaoStatManager (Num : Type) where
  servInfos : OrderedMap String (ServINFO Num)
  daoIndex : OrderedMap String DaoIndex

variable {Num : Type}

/-- A server as the configuration has it, of which no dao is known. -/
def PrcAdd.servInfo (address : PrcAdd) : ServINFO Num where
  ipports := address.ipports
  groupid := address.groupid
  lastResppingTime := 0
  daoInfos := .empty
  immreqStat := 0

def DAOLOAD.daoInfo [Floating Num] (load : DAOLOAD) : DaoINFO Num where
  currenLoad := load.load.toInt32
  tickRemain := load.free.toInt32
  daoType := load.dbType.toInt32
  daoExtentInfo := load.extraInfo
  debugInfo := ""
  tickRemainLastPoll := load.free.toInt32
  sendingRequest := 0
  lmsK := 1.0
  lmsB := 5000.0

namespace DaoStatManager

/-- The daos of a ping; of two with one name the last one counts. -/
def daoInfosOf [Floating Num] (daoinfos : List DAOLOAD) : OrderedMap String (DaoINFO Num) :=
  daoinfos.foldl (fun infos load => infos.set load.daoName load.daoInfo) .empty

/-- The dynamic statistics stay as they were. -/
def fillDynamicStat (old infos : OrderedMap String (DaoINFO Num)) :
    OrderedMap String (DaoINFO Num) :=
  infos.entries.foldl (fun infos vv =>
    match old.find vv.1 with
    | some fdOld =>
        infos.set vv.1 { vv.2 with
          sendingRequest := fdOld.sendingRequest
          lmsK := fdOld.lmsK
          lmsB := fdOld.lmsB }
    | none => infos) infos

/-- A server goes from the index of a dao, and the index with its last server. -/
def unindex (serverName : String) (daoIndex : OrderedMap String DaoIndex) (daoName : String) :
    Option (OrderedMap String DaoIndex) := do
  let temdaof ← daoIndex.find daoName
  let servers := temdaof.servers.erase serverName
  some (if servers.isEmpty then daoIndex.erase daoName else daoIndex.set daoName ⟨servers⟩)

def index (serverName : String) (daoIndex : OrderedMap String DaoIndex) (daoName : String) :
    OrderedMap String DaoIndex :=
  let temdaof := (daoIndex.find daoName).getD ⟨.empty⟩
  daoIndex.set daoName ⟨temdaof.servers.set serverName ()⟩

/-- The names of the daos, in the order of the map. -/
def daoNames (infos : OrderedMap String (DaoINFO Num)) : List String := infos.entries.map Prod.fst

def new : DaoStatManager Num := ⟨.empty, .empty⟩

/-- There is no result when an `assert` fails. -/
def innerDelServer (s : DaoStatManager Num) (serverName : String) :
    Option (DaoStatManager Num) :=
  match s.servInfos.find serverName with
  | none => some s
  | some temser => do
      let daoIndex ← (daoNames temser.daoInfos).foldlM (unindex serverName) s.daoIndex
      some ⟨s.servInfos.erase serverName, daoIndex⟩

def innerAddServer (s : DaoStatManager Num) (serverName : String) (info : ServINFO Num) :
    DaoStatManager Num where
  servInfos := s.servInfos.set serverName info
  daoIndex := (daoNames info.daoInfos).foldl (index serverName) s.daoIndex

def innerSetServer (s : DaoStatManager Num) (serverName : String) (info : ServINFO Num) :
    Option (DaoStatManager Num) :=
  match s.servInfos.find serverName with
  | some old => do
      let info := { info with daoInfos := fillDynamicStat old.daoInfos info.daoInfos }
      let s ← s.innerDelServer serverName
      some (s.innerAddServer serverName info)
  | none => some (s.innerAddServer serverName info)

/-- A server of the configuration. -/
def setFromConf (s : DaoStatManager Num) (n : String × PrcAdd) : Option (DaoStatManager Num) :=
  match s.servInfos.find n.1 with
  | none => s.innerSetServer n.1 n.2.servInfo
  | some o =>
      if o.ipports ≠ n.2.ipports ∨ o.groupid ≠ n.2.groupid then
        s.innerSetServer n.1 n.2.servInfo
      else some s

def initFromConf (s : DaoStatManager Num) (outdat : OrderedMap String PrcAdd) :
    Option (DaoStatManager Num) := do
  let s ← outdat.entries.foldlM setFromConf s
  (s.servInfos.entries.map Prod.fst).foldlM (fun s temname =>
    match outdat.find temname with
    | none => s.innerDelServer temname
    | some _ => some s) s

/-- With the result; the time is `get_current_time_S`. -/
def updateDaoInfo [Floating Num] (s : DaoStatManager Num) (srvname : String)
    (daoinfos : List DAOLOAD) (now : Nat) : Option (DaoStatManager Num × Int) :=
  match s.servInfos.find srvname with
  | none => some (s, -1)
  | some z => do
      let s ← s.innerSetServer srvname
        ⟨z.ipports, z.groupid, now, daoInfosOf daoinfos, 0⟩
      some (s, 0)

def updateServerdaoFree (s : DaoStatManager Num) (sername daoname : String) (free : UInt32) :
    DaoStatManager Num × Int :=
  match s.servInfos.find sername with
  | none => (s, -1)
  | some i =>
      match i.daoInfos.find daoname with
      | none => (s, -1)
      | some v =>
          let daoInfos := i.daoInfos.set daoname { v with tickRemain := free.toInt32 }
          ({ s with servInfos := s.servInfos.set sername { i with daoInfos := daoInfos } }, 0)

/-- The server behind a pointer is given by its name; there is no result when it is gone. -/
def predictSendOne (s : DaoStatManager Num) (pserv daoName : String) (now : Nat) :
    Option (DaoStatManager Num) := do
  let serv ← s.servInfos.find pserv
  match serv.daoInfos.find daoName with
  | none => some s
  | some b =>
      let b := if b.tickRemain > 0 then { b with tickRemain := b.tickRemain - 1 } else b
      let ths := b.tickRemainLastPoll / 2
      let immreqStat :=
        if serv.immreqStat = 0 ∧ (b.tickRemain < ths ∧ ths ≥ 30) ∧
            (b.tickRemain = 0 ∨ serv.lastResppingTime ≠ now) then 1
        else serv.immreqStat
      let daoInfos := serv.daoInfos.set daoName b
      some { s with servInfos := s.servInfos.set pserv { serv with daoInfos, immreqStat } }

def startSendOne (s : DaoStatManager Num) (pserv daoName : String) :
    Option (DaoStatManager Num) := do
  let serv ← s.servInfos.find pserv
  match serv.daoInfos.find daoName with
  | none => some s
  | some b =>
      let daoInfos := serv.daoInfos.set daoName { b with sendingRequest := b.sendingRequest + 1 }
      some { s with servInfos := s.servInfos.set pserv { serv with daoInfos } }

def endRecvOne (s : DaoStatManager Num) (serverName daoName : String) : DaoStatManager Num :=
  match s.servInfos.find serverName with
  | none => s
  | some serv =>
      match serv.daoInfos.find daoName with
      | none => s
      | some b =>
          if b.sendingRequest > 0 then
            let daoInfos :=
              serv.daoInfos.set daoName { b with sendingRequest := b.sendingRequest - 1 }
            { s with servInfos := s.servInfos.set serverName { serv with daoInfos } }
          else s

/-! ## Coherence -/

/-- The server has the dao. -/
def Provides (s : DaoStatManager Num) (server dao : String) : Prop :=
  ∃ info, s.servInfos.find server = some info ∧ (info.daoInfos.find dao).isSome

/-- The server is in the index of the dao. -/
def Indexed (daoIndex : OrderedMap String DaoIndex) (server dao : String) : Prop :=
  ∃ didx, daoIndex.find dao = some didx ∧ (didx.servers.find server).isSome

/-- No dao has an index without servers. -/
def NoneEmpty (daoIndex : OrderedMap String DaoIndex) : Prop :=
  ∀ dao didx, daoIndex.find dao = some didx → didx.servers.isEmpty = false

structure Coherent (s : DaoStatManager Num) : Prop where
  indexed : ∀ server dao, Indexed s.daoIndex server dao ↔ s.Provides server dao
  nonempty : NoneEmpty s.daoIndex

variable {s : DaoStatManager Num} {daoIndex : OrderedMap String DaoIndex}
  {serverName daoName : String}

theorem mem_daoNames {infos : OrderedMap String (DaoINFO Num)} :
    daoName ∈ daoNames infos ↔ (infos.find daoName).isSome := by
  rw [daoNames, List.mem_map, Option.isSome_iff_exists]
  constructor
  · rintro ⟨⟨dao, dinf⟩, hmem, rfl⟩
    exact ⟨dinf, OrderedMap.mem_entries.mp hmem⟩
  · rintro ⟨dinf, hfind⟩
    exact ⟨(daoName, dinf), OrderedMap.mem_entries.mpr hfind, rfl⟩

theorem daoNames_nodup (infos : OrderedMap String (DaoINFO Num)) : (daoNames infos).Nodup := by
  rw [daoNames, List.Nodup, List.pairwise_map]
  exact infos.sorted.imp fun hless => hless.ne

theorem indexed_set {servers : OrderedMap String Unit} {server dao : String} :
    Indexed (daoIndex.set daoName ⟨servers⟩) server dao ↔
      if dao = daoName then (servers.find server).isSome = true
      else Indexed daoIndex server dao := by
  unfold Indexed
  rw [OrderedMap.find_set, Function.update_apply]
  split
  · simp
  · rfl

theorem indexed_erase {server dao : String} :
    Indexed (daoIndex.erase daoName) server dao ↔ dao ≠ daoName ∧ Indexed daoIndex server dao := by
  unfold Indexed
  rw [OrderedMap.find_erase, Function.update_apply]
  split
  next hsame => simp [hsame]
  next hdiff => simp [hdiff]

theorem NoneEmpty.set (hnone : NoneEmpty daoIndex) {servers : OrderedMap String Unit}
    (hservers : servers.isEmpty = false) : NoneEmpty (daoIndex.set daoName ⟨servers⟩) := by
  intro dao didx hfind
  rw [OrderedMap.find_set, Function.update_apply] at hfind
  split at hfind
  · cases hfind
    exact hservers
  · exact hnone dao didx hfind

theorem NoneEmpty.erase (hnone : NoneEmpty daoIndex) : NoneEmpty (daoIndex.erase daoName) := by
  intro dao didx hfind
  rw [OrderedMap.find_erase, Function.update_apply] at hfind
  split at hfind
  · cases hfind
  · exact hnone dao didx hfind

theorem index_indexed {server dao : String} :
    Indexed (index serverName daoIndex daoName) server dao ↔
      (server = serverName ∧ dao = daoName) ∨ Indexed daoIndex server dao := by
  rw [index, indexed_set]
  split
  next hsame =>
    subst hsame
    rw [OrderedMap.find_set, Function.update_apply]
    by_cases hserver : server = serverName
    · simp [hserver]
    · rw [if_neg hserver]
      unfold Indexed
      cases daoIndex.find dao with
      | none => simp [hserver, OrderedMap.find_empty]
      | some didx => simp [hserver]
  next hdiff => simp [hdiff]

theorem index_noneEmpty (hnone : NoneEmpty daoIndex) :
    NoneEmpty (index serverName daoIndex daoName) := by
  refine hnone.set (Bool.eq_false_iff.mpr fun hempty => ?_)
  have hfind := OrderedMap.isEmpty_iff.mp hempty serverName
  rw [OrderedMap.find_set, Function.update_self] at hfind
  cases hfind

theorem foldl_index (hnone : NoneEmpty daoIndex) (serverName : String) (daos : List String) :
    NoneEmpty (daos.foldl (index serverName) daoIndex) ∧ ∀ server dao,
      Indexed (daos.foldl (index serverName) daoIndex) server dao ↔
        (server = serverName ∧ dao ∈ daos) ∨ Indexed daoIndex server dao := by
  induction daos generalizing daoIndex with
  | nil => exact ⟨hnone, fun server dao => by simp⟩
  | cons head rest ih =>
      obtain ⟨hnext, hindexed⟩ := ih (index_noneEmpty hnone)
      refine ⟨hnext, fun server dao => ?_⟩
      rw [List.foldl_cons, hindexed, index_indexed, List.mem_cons]
      tauto

/-- A server that is in the index of a dao can be taken out. -/
theorem unindex_spec (hnone : NoneEmpty daoIndex) (hin : Indexed daoIndex serverName daoName) :
    ∃ next, unindex serverName daoIndex daoName = some next ∧ NoneEmpty next ∧
      ∀ server dao, Indexed next server dao ↔
        Indexed daoIndex server dao ∧ ¬(server = serverName ∧ dao = daoName) := by
  obtain ⟨temdaof, hfind, -⟩ := hin
  refine ⟨_, by rw [unindex, hfind]; rfl, ?_, ?_⟩
  · split
    next => exact hnone.erase
    next hservers => exact hnone.set (Bool.eq_false_iff.mpr hservers)
  · intro server dao
    have hsame : Indexed daoIndex server daoName ↔ (temdaof.servers.find server).isSome := by
      unfold Indexed
      rw [hfind]
      simp
    split
    next hempty =>
      -- its last server goes, and with it the entry of the dao
      have hgone := OrderedMap.isEmpty_iff.mp hempty server
      rw [OrderedMap.find_erase, Function.update_apply] at hgone
      rw [indexed_erase]
      constructor
      · rintro ⟨hdao, hindexed⟩
        exact ⟨hindexed, fun hboth => hdao hboth.2⟩
      · rintro ⟨hindexed, hother⟩
        refine ⟨?_, hindexed⟩
        rintro rfl
        rw [hsame] at hindexed
        split at hgone
        next hserver => exact hother ⟨hserver, rfl⟩
        next => rw [hgone] at hindexed; cases hindexed
    next =>
      rw [indexed_set]
      split
      next hdao =>
        subst hdao
        rw [hsame, OrderedMap.find_erase, Function.update_apply]
        by_cases hserver : server = serverName
        · simp [hserver]
        · simp [hserver]
      next hdao => simp [hdao]

theorem foldlM_unindex (hnone : NoneEmpty daoIndex) {daos : List String} (hnodup : daos.Nodup)
    (hin : ∀ dao ∈ daos, Indexed daoIndex serverName dao) :
    ∃ next, daos.foldlM (unindex serverName) daoIndex = some next ∧ NoneEmpty next ∧
      ∀ server dao, Indexed next server dao ↔
        Indexed daoIndex server dao ∧ ¬(server = serverName ∧ dao ∈ daos) := by
  induction daos generalizing daoIndex with
  | nil => exact ⟨daoIndex, rfl, hnone, fun server dao => by simp⟩
  | cons head rest ih =>
      obtain ⟨hhead, hrest⟩ := List.nodup_cons.mp hnodup
      obtain ⟨next, hnext, hnextNone, hnextIndexed⟩ := unindex_spec hnone (hin head (by simp))
      have hnextIn : ∀ dao ∈ rest, Indexed next serverName dao := by
        intro dao hdao
        refine (hnextIndexed _ _).mpr ⟨hin dao (List.mem_cons_of_mem _ hdao), ?_⟩
        rintro ⟨-, rfl⟩
        exact hhead hdao
      obtain ⟨last, hlast, hlastNone, hlastIndexed⟩ := ih hnextNone hrest hnextIn
      refine ⟨last, ?_, hlastNone, fun server dao => ?_⟩
      · rw [List.foldlM_cons, hnext]
        exact hlast
      · rw [hlastIndexed, hnextIndexed, List.mem_cons]
        tauto

theorem new_coherent : Coherent (new : DaoStatManager Num) := by
  refine ⟨fun server dao => ?_, fun dao didx hfind => by cases hfind⟩
  simp [Indexed, Provides, new]

/-- A dao that has an index has a server. -/
theorem Coherent.provided (hcoherent : Coherent s) {didx : DaoIndex}
    (hfind : s.daoIndex.find daoName = some didx) : ¬ ∀ server, ¬ s.Provides server daoName := by
  intro hnone
  have hempty : didx.servers.isEmpty = true := by
    rw [OrderedMap.isEmpty_iff]
    intro server
    by_contra hserver
    exact hnone server ((hcoherent.indexed _ _).mp
      ⟨didx, hfind, Option.isSome_iff_ne_none.mpr hserver⟩)
  rw [hcoherent.nonempty daoName didx hfind] at hempty
  cases hempty

/-! ## Servers come and go -/

/-- The server is gone, with its daos. -/
theorem Coherent.innerDelServer (hcoherent : Coherent s) (serverName : String) :
    ∃ next, s.innerDelServer serverName = some next ∧ Coherent next ∧
      next.servInfos.find = Function.update s.servInfos.find serverName none := by
  unfold DaoStatManager.innerDelServer
  cases hfind : s.servInfos.find serverName with
  | none => exact ⟨s, rfl, hcoherent, by rw [← hfind, Function.update_eq_self]⟩
  | some temser =>
      have hin : ∀ dao ∈ daoNames temser.daoInfos, Indexed s.daoIndex serverName dao := by
        intro dao hdao
        exact (hcoherent.indexed _ _).mpr ⟨temser, hfind, mem_daoNames.mp hdao⟩
      obtain ⟨daoIndex, hindex, hnone, hindexed⟩ :=
        foldlM_unindex hcoherent.nonempty (daoNames_nodup _) hin
      refine ⟨⟨s.servInfos.erase serverName, daoIndex⟩, ?_, ⟨?_, hnone⟩,
        OrderedMap.find_erase _ _⟩
      · dsimp only
        rw [hindex]
        rfl
      · intro server dao
        rw [hindexed, hcoherent.indexed, mem_daoNames]
        unfold Provides
        rw [OrderedMap.find_erase, Function.update_apply]
        by_cases hserver : server = serverName
        · subst hserver
          simp only [hfind, Option.some.injEq, exists_eq_left', true_and, and_not_self,
            ↓reduceIte, reduceCtorEq, false_and, exists_false]
        · simp [hserver]

theorem Coherent.innerAddServer (hcoherent : Coherent s)
    (hfind : s.servInfos.find serverName = none) (info : ServINFO Num) :
    Coherent (s.innerAddServer serverName info) := by
  obtain ⟨hnone, hindexed⟩ :=
    foldl_index hcoherent.nonempty serverName (daoNames info.daoInfos)
  refine ⟨fun server dao => ?_, hnone⟩
  change Indexed (List.foldl _ _ _) _ _ ↔ _
  rw [hindexed, hcoherent.indexed, mem_daoNames]
  unfold Provides DaoStatManager.innerAddServer
  rw [OrderedMap.find_set, Function.update_apply]
  by_cases hserver : server = serverName
  · subst hserver
    simp [hfind]
  · simp [hserver]

theorem Coherent.innerSetServer (hcoherent : Coherent s) (serverName : String)
    (info : ServINFO Num) :
    ∃ next, s.innerSetServer serverName info = some next ∧ Coherent next := by
  unfold DaoStatManager.innerSetServer
  cases hfind : s.servInfos.find serverName with
  | none => exact ⟨_, rfl, hcoherent.innerAddServer hfind info⟩
  | some old =>
      obtain ⟨next, hnext, hnextCoherent, hgone⟩ := hcoherent.innerDelServer serverName
      refine ⟨_, by dsimp only; rw [hnext]; rfl, hnextCoherent.innerAddServer ?_ _⟩
      rw [hgone, Function.update_self]

/-- A loop of operations that keep the index coherent. -/
theorem Coherent.foldlM {Elem : Type} {op : DaoStatManager Num → Elem → Option (DaoStatManager Num)}
    (hop : ∀ {s}, Coherent s → ∀ elem, ∃ next, op s elem = some next ∧ Coherent next)
    (hcoherent : Coherent s) (elems : List Elem) :
    ∃ next, elems.foldlM op s = some next ∧ Coherent next :=
  foldlM_total Coherent (fun _ elem hs => hop hs elem) hcoherent elems

theorem Coherent.setFromConf (hcoherent : Coherent s) (n : String × PrcAdd) :
    ∃ next, s.setFromConf n = some next ∧ Coherent next := by
  unfold DaoStatManager.setFromConf
  split
  next => exact hcoherent.innerSetServer _ _
  next =>
    split
    next => exact hcoherent.innerSetServer _ _
    next => exact ⟨s, rfl, hcoherent⟩

theorem Coherent.initFromConf (hcoherent : Coherent s) (outdat : OrderedMap String PrcAdd) :
    ∃ next, s.initFromConf outdat = some next ∧ Coherent next := by
  obtain ⟨middle, hmiddle, hmiddleCoherent⟩ :=
    hcoherent.foldlM (fun hs n => hs.setFromConf n) outdat.entries
  unfold DaoStatManager.initFromConf
  rw [hmiddle, Option.bind_eq_bind, Option.bind_some]
  refine hmiddleCoherent.foldlM (fun hs temname => ?_) _
  split
  next =>
    obtain ⟨next, hnext, hnextCoherent, -⟩ := hs.innerDelServer temname
    exact ⟨next, hnext, hnextCoherent⟩
  next => exact ⟨_, rfl, hs⟩

theorem Coherent.updateDaoInfo [Floating Num] (hcoherent : Coherent s) (srvname : String)
    (daoinfos : List DAOLOAD) (now : Nat) :
    ∃ next result, s.updateDaoInfo srvname daoinfos now = some (next, result) ∧
      Coherent next := by
  unfold DaoStatManager.updateDaoInfo
  split
  next => exact ⟨s, -1, rfl, hcoherent⟩
  next z _ =>
    obtain ⟨next, hnext, hnextCoherent⟩ := hcoherent.innerSetServer srvname
      ⟨z.ipports, z.groupid, now, daoInfosOf daoinfos, 0⟩
    exact ⟨next, 0, by rw [hnext]; rfl, hnextCoherent⟩

/-! ## Accounting -/

/-- A server that keeps its daos leaves the index coherent. -/
theorem Coherent.rewrite (hcoherent : Coherent s) {old : ServINFO Num}
    (hfind : s.servInfos.find serverName = some old) {info : ServINFO Num} {dao : String}
    {dinf : DaoINFO Num} (hold : (old.daoInfos.find dao).isSome)
    (hinfo : info.daoInfos = old.daoInfos.set dao dinf) :
    Coherent { s with servInfos := s.servInfos.set serverName info } := by
  refine ⟨fun server other => ?_, hcoherent.nonempty⟩
  rw [hcoherent.indexed]
  unfold Provides
  rw [OrderedMap.find_set, Function.update_apply]
  by_cases hserver : server = serverName
  · subst hserver
    by_cases hother : other = dao
    · subst hother
      simp [hfind, hinfo, hold]
    · simp [hfind, hinfo, hother]
  · simp [hserver]

theorem Coherent.updateServerdaoFree (hcoherent : Coherent s) (sername daoname : String)
    (free : UInt32) : Coherent (s.updateServerdaoFree sername daoname free).1 := by
  unfold DaoStatManager.updateServerdaoFree
  split
  next => exact hcoherent
  next i hserver =>
    split
    next => exact hcoherent
    next v hdao => exact hcoherent.rewrite hserver (by rw [hdao]; rfl) rfl

theorem Coherent.predictSendOne (hcoherent : Coherent s) {pserv : String} {serv : ServINFO Num}
    (hserver : s.servInfos.find pserv = some serv) (daoName : String) (now : Nat) :
    ∃ next, s.predictSendOne pserv daoName now = some next ∧ Coherent next := by
  unfold DaoStatManager.predictSendOne
  rw [hserver, Option.bind_eq_bind, Option.bind_some]
  split
  next => exact ⟨s, rfl, hcoherent⟩
  next b hdao => exact ⟨_, rfl, hcoherent.rewrite hserver (by rw [hdao]; rfl) rfl⟩

theorem Coherent.startSendOne (hcoherent : Coherent s) {pserv : String} {serv : ServINFO Num}
    (hserver : s.servInfos.find pserv = some serv) (daoName : String) :
    ∃ next, s.startSendOne pserv daoName = some next ∧ Coherent next := by
  unfold DaoStatManager.startSendOne
  rw [hserver, Option.bind_eq_bind, Option.bind_some]
  split
  next => exact ⟨s, rfl, hcoherent⟩
  next b hdao => exact ⟨_, rfl, hcoherent.rewrite hserver (by rw [hdao]; rfl) rfl⟩

theorem Coherent.endRecvOne (hcoherent : Coherent s) (serverName daoName : String) :
    Coherent (s.endRecvOne serverName daoName) := by
  unfold DaoStatManager.endRecvOne
  split
  next => exact hcoherent
  next serv hserver =>
    split
    next => exact hcoherent
    next b hdao =>
      split
      next => exact hcoherent.rewrite hserver (by rw [hdao]; rfl) rfl
      next => exact hcoherent

end DaoStatManager

end ServiceFrame
