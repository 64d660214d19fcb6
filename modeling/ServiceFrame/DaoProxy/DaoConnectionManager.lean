import ServiceFrame.DaoProxy.ConfRestore

/-! # The connections to the servers

`DaoConnectionManager` of `dao_proxy` keeps, for each address of the configuration, the
connection to it and what the pings say of it. What it asks of the connection factory, and
what it sends there, is kept beside the table.
-/

namespace ServiceFrame

open Foundation

/-- `float` as far as response times go, of which none is NaN. -/
class RespTime (Num : Type) extends LinearOrder Num where
  /-- `(float)` of a number of microseconds. -/
  float : Nat → Num
  /-- `resptime + (time_diff - resptime) / gl_delay_factor`. -/
  smooth : Num → Num → Num

namespace DaoConnectionManager

structure IPINFO (Num : Type) where
  connectid : UInt64
  resptime : Num
  badLevel : Int
  pingCounter : Int
  lastPingTime : UInt64
  mState : Int
deriving DecidableEq

/-- What the connection factory answers. -/
structure Factory where
  connectionStatus : UInt64 → Int
  createConnection : IpPort → Option UInt64

end DaoConnectionManager

/-- The table, the ids that `disconnect` was called with, and the pings that were sent, each
with the connection that it was sent on. -/
structure DaoConnectionManager (Num : Type) where
  ipinfo : OrderedMap (Text ×ₗ Int32) (DaoConnectionManager.IPINFO Num)
  disconnected : List UInt64
  pinged : List (IpPort × UInt64)

namespace DaoConnectionManager

open PxGlobalConf

/-! ## Bad levels -/

def tinyaddbadlevel (badlevel : Int) : Int := if badlevel < 3 then badlevel + 1 else badlevel

def addbadlevel (badlevel : Int) : Int := if badlevel < 6 then badlevel + 1 else badlevel

def okrespbadlevel (badlevel : Int) : Int :=
  if badlevel > 2 then 2 else if badlevel > 0 then badlevel - 1 else badlevel

def badlevel2time (badlevel : Int) : Int :=
  if badlevel ≥ 6 then 320 else if badlevel ≤ 0 then 5 else 5 * 2 ^ badlevel.toNat

/-! ## One address -/

section Address

variable {Num : Type} (factory : Factory)

/-- `get_connection` on an address that is known: the result, the connection, and what is known
then. -/
def IPINFO.getConnection (info : IPINFO Num) (ipport : IpPort) : Int × UInt64 × IPINFO Num :=
  if info.connectid ≠ 0 ∧ factory.connectionStatus info.connectid = 0 then
    (0, info.connectid, info)
  else
    let info :=
      if info.connectid ≠ 0 then { info with badLevel := addbadlevel info.badLevel } else info
    match factory.createConnection ipport with
    | none => (-1, info.connectid, info)
    | some connidd => (0, connidd, { info with connectid := connidd })

/-- What `handle_timeout` does when the counter has come to 0: an unanswered ping is a timeout,
and the next one is sent. -/
def IPINFO.ping (info : IPINFO Num) (ipport : IpPort) (now : UInt64) : UInt64 × IPINFO Num :=
  let badLevel := if info.mState = 1 then addbadlevel info.badLevel else info.badLevel
  (IPINFO.getConnection factory
    { info with
      badLevel := badLevel
      mState := 1
      pingCounter := badlevel2time badLevel / 5
      lastPingTime := now } ipport).2

/-- The turn of an address in `handle_timeout`, and the connection it is pinged on. -/
def IPINFO.tick (info : IPINFO Num) (ipport : IpPort) (now : UInt64) :
    Option UInt64 × IPINFO Num :=
  let info := { info with pingCounter := info.pingCounter - 1 }
  if info.pingCounter = 0 then
    let (connectid, info) := info.ping factory ipport now
    (some connectid, info)
  else (none, info)

/-- With all addresses bad, none waits for long. -/
def IPINFO.hurry (info : IPINFO Num) : IPINFO Num :=
  if info.pingCounter > 2 then { info with pingCounter := 2 } else info

end Address

/-! ## The functions -/

section Functions

variable {Num : Type} (m : DaoConnectionManager Num)

/-- The pings of a `handle_timeout`. -/
def pings (factory : Factory) (now : IpPort → UInt64) : List (IpPort × UInt64) :=
  m.ipinfo.entries.filterMap fun entry =>
    (entry.2.tick factory (ofLex entry.1) (now (ofLex entry.1))).1.map (ofLex entry.1, ·)

/-- `handle_timeout` of `DaoConnectionTimer`. -/
def handleTimeout (factory : Factory) (now : IpPort → UInt64) : DaoConnectionManager Num :=
  let isAllBad := m.ipinfo.entries.all fun entry => ¬ entry.2.badLevel ≤ 2
  let ipinfo := m.ipinfo.mapValues fun ipport info =>
    (info.tick factory (ofLex ipport) (now (ofLex ipport))).2
  { m with
    ipinfo := if isAllBad then ipinfo.mapValues fun _ info => info.hurry else ipinfo
    pinged := m.pinged ++ m.pings factory now }

def pingResp [RespTime Num] (ipp : IpPort) (startTimeUs recvTimeUs : UInt64) :
    Int × DaoConnectionManager Num :=
  match m.ipinfo.find (toLex ipp) with
  | none => (-1, m)
  | some info =>
      if info.lastPingTime ≠ startTimeUs then (1, m)
      else if info.mState ≠ 1 then (2, m)
      else
        let timeDiff := recvTimeUs - startTimeUs
        if timeDiff > 50000000 then
          (3, { m with ipinfo := m.ipinfo.set (toLex ipp) { info with mState := 0 } })
        else
          let badLevel := okrespbadlevel info.badLevel
          let newCntr := badlevel2time badLevel / 5
          (0, { m with
            ipinfo := m.ipinfo.set (toLex ipp) { info with
              mState := 0
              badLevel := badLevel
              pingCounter := if newCntr < info.pingCounter then newCntr else info.pingCounter
              resptime := RespTime.smooth info.resptime (RespTime.float timeDiff.toNat) } })

/-- An address that is new in the configuration. -/
def freshInfo [RespTime Num] (now : UInt64) : IPINFO Num where
  connectid := 0
  resptime := RespTime.float 1000000
  badLevel := 1
  pingCounter := badlevel2time 1 / 5
  lastPingTime := now
  mState := 0

/-- An address of the configuration takes its entry from the old table, if it has one there. -/
def moveAddress [RespTime Num] (now : IpPort → UInt64)
    (tables : OrderedMap (Text ×ₗ Int32) (IPINFO Num) × OrderedMap (Text ×ₗ Int32) (IPINFO Num))
    (ipport : IpPort) :
    OrderedMap (Text ×ₗ Int32) (IPINFO Num) × OrderedMap (Text ×ₗ Int32) (IPINFO Num) :=
  match tables.1.find (toLex ipport) with
  | some info => (tables.1.erase (toLex ipport), tables.2.set (toLex ipport) info)
  | none => (tables.1, tables.2.set (toLex ipport) (freshInfo (now ipport)))

/-- The connections of the entries that are left in the old table. -/
def openIds (ipinfo : OrderedMap (Text ×ₗ Int32) (IPINFO Num)) : List UInt64 :=
  (ipinfo.entries.map (·.2.connectid)).filter (· ≠ 0)

def initFromConf [RespTime Num] (outdat : OrderedMap Text PxGlobalConf.PrcAdd)
    (now : IpPort → UInt64) : DaoConnectionManager Num :=
  let (ipinfo, ipinfoNew) := outdat.entries.foldl
    (fun tables entry => entry.2.ipports.foldl (moveAddress now) tables) (m.ipinfo, .empty)
  { m with ipinfo := ipinfoNew, disconnected := m.disconnected ++ openIds ipinfo }

def getConnection (factory : Factory) (ipport : IpPort) :
    Option UInt64 × DaoConnectionManager Num :=
  match m.ipinfo.find (toLex ipport) with
  | none => (none, m)
  | some info =>
      let (ret, connectId, info) := info.getConnection factory ipport
      (if ret < 0 then none else some connectId,
        { m with ipinfo := m.ipinfo.set (toLex ipport) info })

/-- `predict_add_bad_level`, and with the other function `predict_tiny_add_bad_level`. -/
def predictBadLevel (add : Int → Int) (ipports : List IpPort) : DaoConnectionManager Num :=
  { m with
    ipinfo := ipports.foldl (fun ipinfo ipport =>
      match ipinfo.find (toLex ipport) with
      | none => ipinfo
      | some info => ipinfo.set (toLex ipport) { info with badLevel := add info.badLevel })
      m.ipinfo }

def predictAddBadLevel (ipports : List IpPort) : DaoConnectionManager Num :=
  m.predictBadLevel addbadlevel ipports

def predictTinyAddBadLevel (ipports : List IpPort) : DaoConnectionManager Num :=
  m.predictBadLevel tinyaddbadlevel ipports

end Functions

/-! ## A new configuration -/

section Reload

variable {Num : Type} [RespTime Num] (m : DaoConnectionManager Num)

theorem moveAddress_fst (now : IpPort → UInt64)
    (tables : OrderedMap (Text ×ₗ Int32) (IPINFO Num) × OrderedMap (Text ×ₗ Int32) (IPINFO Num))
    (ipport : IpPort) :
    (moveAddress now tables ipport).1 = tables.1.erase (toLex ipport) := by
  unfold moveAddress
  cases hfind : tables.1.find (toLex ipport) with
  | none => exact (OrderedMap.erase_of_find_none hfind).symm
  | some info => rfl

theorem moveAddress_snd (now : IpPort → UInt64)
    (tables : OrderedMap (Text ×ₗ Int32) (IPINFO Num) × OrderedMap (Text ×ₗ Int32) (IPINFO Num))
    (ipport : IpPort) :
    (moveAddress now tables ipport).2 = tables.2.set (toLex ipport)
      ((tables.1.find (toLex ipport)).getD (freshInfo (now ipport))) := by
  unfold moveAddress
  cases tables.1.find (toLex ipport) with
  | none => rfl
  | some info => rfl

/-- What is left of the old table, however often an address comes. -/
theorem moves_fst (now : IpPort → UInt64) (ipports : List IpPort)
    (tables : OrderedMap (Text ×ₗ Int32) (IPINFO Num) × OrderedMap (Text ×ₗ Int32) (IPINFO Num)) :
    (ipports.foldl (moveAddress now) tables).1.entries =
      tables.1.entries.filter fun entry => ofLex entry.1 ∉ ipports := by
  have herase : (ipports.foldl (moveAddress now) tables).1 =
      (ipports.map toLex).foldl OrderedMap.erase tables.1 := by
    induction ipports generalizing tables with
    | nil => rfl
    | cons ipport rest ih =>
        rw [List.foldl_cons, ih, moveAddress_fst]
        rfl
  rw [herase, OrderedMap.entries_erase_all]
  apply List.filter_congr
  intro entry _
  have hkeys : entry.1 ∈ ipports.map toLex ↔ ofLex entry.1 ∈ ipports := by
    rw [List.mem_map]
    constructor
    · rintro ⟨ipport, hmem, hkey⟩
      rw [← hkey]
      exact hmem
    · exact fun hmem => ⟨ofLex entry.1, hmem, rfl⟩
  simp only [hkeys]

/-- Addresses that come once each have the entries of the old table, or new ones. -/
theorem moves_snd (now : IpPort → UInt64) {ipports : List IpPort} (hnodup : ipports.Nodup)
    (tables : OrderedMap (Text ×ₗ Int32) (IPINFO Num) × OrderedMap (Text ×ₗ Int32) (IPINFO Num))
    (address : Text ×ₗ Int32) :
    (ipports.foldl (moveAddress now) tables).2.find address =
      if ofLex address ∈ ipports then
        some ((tables.1.find address).getD (freshInfo (now (ofLex address))))
      else tables.2.find address := by
  induction ipports generalizing tables with
  | nil => rfl
  | cons ipport rest ih =>
      obtain ⟨hnew, hrest⟩ := List.nodup_cons.mp hnodup
      rw [List.foldl_cons, ih hrest, moveAddress_fst, moveAddress_snd]
      by_cases hsame : address = toLex ipport
      · rw [hsame, ofLex_toLex, if_neg hnew, if_pos List.mem_cons_self, OrderedMap.find_set_self]
      · have hne : ofLex address ≠ ipport := fun heq => hsame (heq ▸ (toLex_ofLex address).symm)
        rw [OrderedMap.find_erase_of_ne _ hsame, OrderedMap.find_set_of_ne _ hsame]
        simp [hne]

/-- The connections of the addresses that a configuration has not. -/
def droppedIds (outdat : OrderedMap Text PxGlobalConf.PrcAdd) : List UInt64 :=
  ((m.ipinfo.entries.filter fun entry => !(ipportsOf outdat).contains (ofLex entry.1)).map
    (·.2.connectid)).filter (· ≠ 0)

theorem initFromConf_loop (outdat : OrderedMap Text PxGlobalConf.PrcAdd) (now : IpPort → UInt64) :
    outdat.entries.foldl
        (fun tables entry => entry.2.ipports.foldl (moveAddress now) tables) (m.ipinfo, .empty) =
      (ipportsOf outdat).foldl (moveAddress now) (m.ipinfo, .empty) := by
  rw [ipportsOf, List.foldl_flatMap]

theorem initFromConf_find {outdat : OrderedMap Text PxGlobalConf.PrcAdd}
    (hnodup : (ipportsOf outdat).Nodup) (now : IpPort → UInt64) (address : Text ×ₗ Int32) :
    (m.initFromConf outdat now).ipinfo.find address =
      if ofLex address ∈ ipportsOf outdat then
        some ((m.ipinfo.find address).getD (freshInfo (now (ofLex address))))
      else none := by
  rw [initFromConf, initFromConf_loop]
  exact moves_snd now hnodup _ address

theorem initFromConf_disconnected (outdat : OrderedMap Text PxGlobalConf.PrcAdd)
    (now : IpPort → UInt64) :
    (m.initFromConf outdat now).disconnected = m.disconnected ++ m.droppedIds outdat := by
  rw [initFromConf, initFromConf_loop]
  change _ ++ openIds _ = _
  simp only [openIds, moves_fst, droppedIds, List.contains_eq_mem, decide_not]

/-- What a reload makes of a table. A connection that one address only holds is kept with it or
given back once. -/
structure Reloads (outdat : OrderedMap Text PxGlobalConf.PrcAdd) (now : IpPort → UInt64)
    (next : DaoConnectionManager Num) : Prop where
  configured : ∀ address, (next.ipinfo.find address).isSome ↔ ofLex address ∈ ipportsOf outdat
  kept : ∀ address info, m.ipinfo.find address = some info → ofLex address ∈ ipportsOf outdat →
    next.ipinfo.find address = some info
  fresh : ∀ address, m.ipinfo.find address = none → ofLex address ∈ ipportsOf outdat →
    next.ipinfo.find address = some (freshInfo (now (ofLex address)))
  released : next.disconnected = m.disconnected ++ m.droppedIds outdat
  once : ∀ address info, m.ipinfo.find address = some info → info.connectid ≠ 0 →
    (∀ other otherInfo, m.ipinfo.find other = some otherInfo →
      otherInfo.connectid = info.connectid → other = address) →
    (m.droppedIds outdat).count info.connectid =
      if ofLex address ∈ ipportsOf outdat then 0 else 1

theorem count_droppedIds (outdat : OrderedMap Text PxGlobalConf.PrcAdd) {address : Text ×ₗ Int32}
    {info : IPINFO Num} (hfind : m.ipinfo.find address = some info) (hopen : info.connectid ≠ 0)
    (honly : ∀ other otherInfo, m.ipinfo.find other = some otherInfo →
      otherInfo.connectid = info.connectid → other = address) :
    (m.droppedIds outdat).count info.connectid =
      if ofLex address ∈ ipportsOf outdat then 0 else 1 := by
  have hentry : (address, info) ∈ m.ipinfo.entries := OrderedMap.mem_entries.mpr hfind
  have hids : ∀ entry ∈ m.ipinfo.entries,
      (entry.2.connectid = info.connectid ∧ ofLex entry.1 ∉ ipportsOf outdat) ↔
        (entry = (address, info) ∧ ofLex address ∉ ipportsOf outdat) := by
    rintro ⟨other, otherInfo⟩ hother
    have hotherFind := OrderedMap.mem_entries.mp hother
    constructor
    · rintro ⟨hid, hout⟩
      cases honly other otherInfo hotherFind hid
      cases hfind.symm.trans hotherFind
      exact ⟨rfl, hout⟩
    · rintro ⟨hsame, hout⟩
      cases hsame
      exact ⟨rfl, hout⟩
  have hcount : (m.droppedIds outdat).count info.connectid =
      m.ipinfo.entries.countP fun entry =>
        entry.2.connectid = info.connectid ∧ ofLex entry.1 ∉ ipportsOf outdat := by
    rw [droppedIds, List.count_filter (by simpa using hopen), List.count_eq_countP,
      List.countP_map, List.countP_filter]
    apply List.countP_congr
    intro entry _
    simp
  rw [hcount]
  split
  next hin =>
    rw [List.countP_eq_zero]
    intro entry hmem hdropped
    exact ((hids entry hmem).mp (by simpa using hdropped)).2 hin
  next hout =>
    rw [← List.count_eq_one_of_mem m.ipinfo.nodup hentry, List.count_eq_countP]
    apply List.countP_congr
    intro entry hmem
    simpa [hout] using hids entry hmem

/-- Every configuration that is accepted is taken over so. -/
theorem initFromConf_reloads {libs : ConfLibs} {strXml : Text} {maps : Maps}
    (haccepted : accepted libs strXml = some maps) (now : IpPort → UInt64) :
    m.Reloads maps.daoList now (m.initFromConf maps.daoList now) := by
  have hnodup : (ipportsOf maps.daoList).Nodup := (accepted_distinct haccepted).nodup.of_append_left
  have hfind := m.initFromConf_find hnodup now
  refine ⟨?_, ?_, ?_, m.initFromConf_disconnected _ now, fun _ _ => m.count_droppedIds _⟩
  · intro address
    rw [hfind]
    split
    next hin => exact ⟨fun _ => hin, fun _ => rfl⟩
    next hout => exact ⟨fun hsome => absurd hsome (by simp), fun hin => absurd hin hout⟩
  · intro address info hold hin
    rw [hfind, if_pos hin, hold, Option.getD_some]
  · intro address hnone hin
    rw [hfind, if_pos hin, hnone, Option.getD_none]

/-- Response times in whole microseconds. -/
instance wholeTimes : RespTime Int where
  float us := us
  smooth resptime timeDiff := resptime + (timeDiff - resptime) / 4

/-- The address of the configuration, and another one. -/
def oneGone : DaoConnectionManager Int where
  ipinfo := (OrderedMap.empty.set (toLex (text "127.0.0.1", 345)) ⟨7, 2000, 0, 1, 0, 0⟩).set
    (toLex (text "10.0.0.2", 80)) ⟨9, 1000000, 3, 8, 0, 1⟩
  disconnected := []
  pinged := []

theorem reload_oneGone : oneGone.Reloads sampleMaps.daoList (fun _ => 0)
    (oneGone.initFromConf sampleMaps.daoList fun _ => 0) :=
  @initFromConf_reloads Int _ oneGone sampleLibs sampleContent sampleMaps rfl _

end Reload

/-! ## The choice of a connection -/

section Choice

variable {Num : Type} [LinearOrder Num]

/-- The loop of `select_best_connection` over the addresses: the level and the response time of
the best so far. No level is -1. -/
def keepBest (ipinfo : OrderedMap (Text ×ₗ Int32) (IPINFO Num)) (best : Int × Num)
    (ipport : IpPort) : Int × Num :=
  match ipinfo.find (toLex ipport) with
  | none => best
  | some info =>
      if best.1 = -1 ∨ info.badLevel < best.1 ∨
          (info.badLevel = best.1 ∧ info.resptime < best.2) then
        (info.badLevel, info.resptime)
      else best

/-- `select_best_connection`, with what `best_resp` holds when it is not initialised: the
address, and the level and the response time in `presult_info`. -/
def selectBestConnection (m : DaoConnectionManager Num) (uninit : Num) :
    List IpPort → Option (IpPort × Int × Num)
  | [] => none
  | ipp :: rest =>
      let best := (ipp :: rest).foldl (keepBest m.ipinfo) (-1, uninit)
      if best.1 = -1 then none else some (ipp, best)

variable (m : DaoConnectionManager Num)

/-- Levels come first, then response times. -/
def IPINFO.rank (info : IPINFO Num) : Int ×ₗ Num := toLex (info.badLevel, info.resptime)

/-- No known address of a list has a lower rank. -/
def Best (info : IPINFO Num) (ipports : List IpPort) : Prop :=
  ∀ ipport ∈ ipports, ∀ other, m.ipinfo.find (toLex ipport) = some other → info.rank ≤ other.rank

/-- None is chosen only when none is known; the one that is chosen is known and a best one, and
what is said of it is its own. -/
def ChoosesBest (uninit : Num) (ipports : List IpPort) : Prop :=
  match m.selectBestConnection uninit ipports with
  | none => ∀ ipport ∈ ipports, m.ipinfo.find (toLex ipport) = none
  | some (ipp, level, resp) =>
      ipp ∈ ipports ∧ ∃ info, m.ipinfo.find (toLex ipp) = some info ∧
        (info.badLevel, info.resptime) = (level, resp) ∧ m.Best info ipports

theorem keepBest_unknown {ipports : List IpPort}
    (hunknown : ∀ ipport ∈ ipports, m.ipinfo.find (toLex ipport) = none) (best : Int × Num) :
    ipports.foldl (keepBest m.ipinfo) best = best := by
  induction ipports with
  | nil => rfl
  | cons ipport rest ih =>
      rw [List.foldl_cons, keepBest, hunknown ipport List.mem_cons_self]
      exact ih fun other hother => hunknown other (List.mem_cons_of_mem _ hother)

/-- Nothing takes the place of a best one. -/
theorem keepBest_best {info : IPINFO Num} {ipports : List IpPort} (hlevel : info.badLevel ≠ -1)
    (hbest : m.Best info ipports) :
    ipports.foldl (keepBest m.ipinfo) (info.badLevel, info.resptime) =
      (info.badLevel, info.resptime) := by
  induction ipports with
  | nil => rfl
  | cons ipport rest ih =>
      have hkept : keepBest m.ipinfo (info.badLevel, info.resptime) ipport =
          (info.badLevel, info.resptime) := by
        unfold keepBest
        split
        next => rfl
        next other hother =>
          have hrank := hbest ipport List.mem_cons_self other hother
          rw [if_neg]
          rintro (hsentinel | hless | ⟨hsame, hless⟩)
          · exact hlevel hsentinel
          · rcases Prod.Lex.toLex_le_toLex.mp hrank with hlevels | ⟨hlevels, -⟩
            · exact lt_asymm hless hlevels
            · exact hless.ne' hlevels
          · rcases Prod.Lex.toLex_le_toLex.mp hrank with hlevels | ⟨-, hresps⟩
            · exact hlevels.ne' hsame
            · exact not_le.mpr hless hresps
      rw [List.foldl_cons, hkept]
      exact ih fun other hother => hbest other (List.mem_cons_of_mem _ hother)

theorem selectBestConnection_cons (uninit : Num) (ipp : IpPort) (rest : List IpPort) :
    m.selectBestConnection uninit (ipp :: rest) =
      if ((ipp :: rest).foldl (keepBest m.ipinfo) (-1, uninit)).1 = -1 then none
      else some (ipp, (ipp :: rest).foldl (keepBest m.ipinfo) (-1, uninit)) := rfl

/-- The choice is right when it is not one: the first address is the best, and no sentinel, or
there is none to be chosen. -/
theorem choosesBest_iff (uninit : Num) (ipports : List IpPort) :
    m.ChoosesBest uninit ipports ↔
      (∀ ipport ∈ ipports, m.ipinfo.find (toLex ipport) = none) ∨
        ∃ ipp info, ipports.head? = some ipp ∧ m.ipinfo.find (toLex ipp) = some info ∧
          info.badLevel ≠ -1 ∧ m.Best info ipports := by
  cases ipports with
  | nil => simp [ChoosesBest, selectBestConnection]
  | cons ipp rest =>
      constructor
      · intro hchoose
        rw [ChoosesBest, selectBestConnection_cons] at hchoose
        generalize (ipp :: rest).foldl (keepBest m.ipinfo) (-1, uninit) = best at hchoose
        obtain ⟨level, resp⟩ := best
        by_cases hlevel : level = -1
        · rw [if_pos hlevel] at hchoose
          exact Or.inl hchoose
        · rw [if_neg hlevel] at hchoose
          obtain ⟨-, info, hfind, hinfo, hbest⟩ := hchoose
          cases hinfo
          exact Or.inr ⟨ipp, info, rfl, hfind, hlevel, hbest⟩
      · rintro (hunknown | ⟨first, info, hfirst, hfind, hlevel, hbest⟩)
        · rw [ChoosesBest, selectBestConnection_cons, keepBest_unknown m hunknown, if_pos rfl]
          exact hunknown
        · cases hfirst
          have hstart : keepBest m.ipinfo (-1, uninit) ipp = (info.badLevel, info.resptime) := by
            rw [keepBest, hfind]
            exact if_pos (Or.inl rfl)
          have hrest : m.Best info rest := fun other hother =>
            hbest other (List.mem_cons_of_mem _ hother)
          have hchosen : m.selectBestConnection uninit (ipp :: rest) =
              some (ipp, info.badLevel, info.resptime) := by
            rw [selectBestConnection_cons, List.foldl_cons, hstart, keepBest_best m hlevel hrest]
            exact if_neg hlevel
          rw [ChoosesBest, hchosen]
          exact ⟨List.mem_cons_self, info, hfind, rfl, hbest⟩

/-- Of two addresses the first one has timed out and the second one answers. -/
def oneBad : DaoConnectionManager Int where
  ipinfo := (OrderedMap.empty.set (toLex (text "10.0.0.1", 80)) ⟨0, 1000000, 5, 2, 0, 1⟩).set
    (toLex (text "10.0.0.2", 80)) ⟨0, 2000, 0, 1, 0, 0⟩
  disconnected := []
  pinged := []

/-- The bad address is chosen, and the level of the good one is told of it. -/
theorem bad_one_chosen :
    ¬ oneBad.ChoosesBest 0 [(text "10.0.0.1", 80), (text "10.0.0.2", 80)] := by
  have hchosen : oneBad.selectBestConnection 0 [(text "10.0.0.1", 80), (text "10.0.0.2", 80)] =
      some ((text "10.0.0.1", 80), 0, 2000) := by decide +kernel
  rw [ChoosesBest, hchosen]
  rintro ⟨-, info, hfind, hinfo, -⟩
  have hbad : oneBad.ipinfo.find (toLex (text "10.0.0.1", 80)) =
      some ⟨0, 1000000, 5, 2, 0, 1⟩ := by decide +kernel
  cases hbad.symm.trans hfind
  cases hinfo

end Choice

end DaoConnectionManager

end ServiceFrame
