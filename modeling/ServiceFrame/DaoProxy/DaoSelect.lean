import ServiceFrame.DaoProxy.DaoManager
import ServiceFrame.DaoProxy.KTMHashRing

/-! # The choice of a server

`dao_select` of `DaoStatManager` starts from all servers in the index of a dao, lets
each filter of the route strategy drop some of them, and takes one of the rest. Every
filter looks the servers up again and asserts that it finds them. The levels and
response times of the addresses, the hash ring, the traffic statistics and `rand` are
as the rest of the process has them at the time.
-/

namespace ServiceFrame

open Foundation

/-- What `lmspredict` computes of a server that it may choose. -/
structure Predicted (Num : Type) where
  server : String
  baseResp : Num
  k : Num
  onwayWei : Num

structure IPINFO (Num : Type) where
  resptime : Num
  badLevel : Int

/-- The rest of the process. -/
structure Surroundings (Num : Type) where
  ipinfo : IPPORTYPE → Option (IPINFO Num)
  hash64 : List UInt8 → UInt64
  hashRing : KTMHashRing
  daoLastSendcnt : String → Option UInt32
  daoServerLastSendcnt : String → String → Option UInt32
  rand : Nat
  /-- `JLexical::Cast` of a text to an `int` that held the second argument. -/
  cast : String → Int → Int
  /-- `std::sort`, which leaves open in which order elements come that do not differ. -/
  sort : (Predicted Num → Predicted Num → Bool) → List (Predicted Num) → List (Predicted Num)
  sort_perm : ∀ less elems, (sort less elems).Perm elems

variable {Num : Type} [Floating Num]

/-- `select_best_connection` of `DaoConnectionManager`; the result is the level and the
response time, when it is not negative. -/
def Surroundings.selectBestConnection (env : Surroundings Num) (ipports : List IPPORTYPE) :
    Option (IPINFO Num) :=
  let best : IPINFO Num := ipports.foldl (fun best ipport =>
    match env.ipinfo ipport with
    | none => best
    | some ipi =>
        if best.badLevel = -1 ∨ ipi.badLevel < best.badLevel ∨
            (ipi.badLevel = best.badLevel ∧ Floating.lt ipi.resptime best.resptime) then ipi
        else best) ⟨0.0, -1⟩
  if best.badLevel = -1 then none else some best

/-- `random_vector_pos`, from place `t` on. -/
def randomVectorPos (gra sum : Num) (curFr : Num) (t : Nat) : List Num → Nat
  | [] => 0
  | wei :: rest =>
      let curFr := curFr + wei / sum
      if Floating.le gra curFr then t else randomVectorPos gra sum curFr (t + 1) rest

namespace DaoStatManager

variable (s : DaoStatManager Num) (env : Surroundings Num) (daoName : String)

/-- Look up every server of a list, and push what `look` finds. An assertion that
fails gives no result. -/
def collect {Elem : Type} (look : String → ServINFO Num → Option (Option Elem)) :
    List String → Option (List Elem)
  | [] => some []
  | server :: rest => do
      let si ← s.servInfos.find server
      let found ← look server si
      let pushed ← collect look rest
      some (found.toList ++ pushed)

/-- The servers of a list for which `keep` holds. -/
def pick (keep : ServINFO Num → Option Bool) : List String → Option (List String) :=
  s.collect fun server si => do
    let hit ← keep si
    some (if hit then some server else none)

/-- The same, unless there are none. -/
def prefer (keep : ServINFO Num → Option Bool) (serverList : List String) :
    Option (List String) := do
  let resultList ← s.pick keep serverList
  some (if resultList = [] then serverList else resultList)

def innerFilterHelpA (groupid : Int) : List String → Option (List String) :=
  s.prefer fun si => some (si.groupid = groupid)

def innerFilterHelpB : List String → Option (List String) :=
  s.prefer fun si => do
    let temdi ← si.daoInfos.find daoName
    some (temdi.daoType = 1)

def innerFilterHelpC : List String → Option (List String) :=
  s.prefer fun si => do
    let temdi ← si.daoInfos.find daoName
    some (temdi.daoType = 2)

def innerFilterHelpE (hashid : String) (serverList : List String) : Option (List String) := do
  let groupids ← s.collect (fun _ si => some (some si.groupid)) serverList
  let groupidMask := groupids.toFinset
  if groupidMask = ∅ then some []
  else
    let (rt, groupid, _) ←
      env.hashRing.getGroupidOf env.hash64 hashid.toUTF8.toList (some groupidMask)
    if rt ≠ 0 then some []
    else do
      let groupid ← groupid
      s.innerFilterHelpA groupid serverList

/-- What `usability_filter` asks of a server. -/
def usableAt (usabilityLevel : Int) (si : ServINFO Num) : Option Bool := do
  let temdi ← si.daoInfos.find daoName
  match env.selectBestConnection si.ipports with
  | none => some false
  | some ipp =>
      if usabilityLevel = 1 then
        some (!(temdi.tickRemain ≤ 10 || ipp.badLevel > 1 ||
          Floating.lt ((1000 * 1000 : Int) : Num) ipp.resptime))
      else if usabilityLevel = 2 then
        some (!(temdi.tickRemain ≤ 100 || ipp.badLevel > 0 ||
          Floating.lt ((300 * 1000 : Int) : Num) ipp.resptime))
      else some (!(temdi.tickRemain = 0 || ipp.badLevel > 2))

/-- `usability_filter` keeps the list when it finds none, and `inner_filter_help_U`
clears it then. -/
def innerFilterHelpU (usabilityLevel : Int) : List String → Option (List String) :=
  s.pick (usableAt env daoName usabilityLevel)

def innerFilterHelpF (groupids : Finset Int) : List String → Option (List String) :=
  s.pick fun si => some (si.groupid ∈ groupids)

/-- What the last filters ask of a server, with what they use of it. -/
def usable (si : ServINFO Num) : Option (Option (DaoINFO Num × IPINFO Num)) := do
  let temdi ← si.daoInfos.find daoName
  match env.selectBestConnection si.ipports with
  | none => some none
  | some ipp =>
      if temdi.tickRemain = 0 then some none
      else if ipp.badLevel > 2 then some none
      else some (some (temdi, ipp))

/-- The servers to choose from, each with what `read` makes of it. -/
def candidates {Elem : Type} (read : String → DaoINFO Num → IPINFO Num → Elem) :
    List String → Option (List Elem) :=
  s.collect fun server si => do
    let found ← usable env daoName si
    some (found.map fun info => read server info.1 info.2)

/-- The first server with the fewest requests under way. -/
def fewest (first : String × UInt32) (rest : List (String × UInt32)) : String × UInt32 :=
  rest.foldl (fun best other => if other.2 < best.2 then other else best) first

/-- The result is none when it is negative. -/
def innerFilterHighresponseMinsending (serverList : List String) :
    Option (Option String) := do
  match ← s.candidates env daoName (fun server temdi _ => (server, temdi.sendingRequest))
      serverList with
  | [] => some none
  | first :: rest => some (some (fewest first rest).1)

def innerFilterHighresponseRandom (serverList : List String) : Option (Option String) := do
  let outSrvList ← s.candidates env daoName (fun server _ _ => server) serverList
  if outSrvList = [] then some none
  else do
    let outServ ← outSrvList[env.rand % outSrvList.length]?
    some (some outServ)

/-- The prediction for a server; the sum of the counts is unsigned. -/
def predict (server : String) (temdi : DaoINFO Num) (ipp : IPINFO Num) : Predicted Num :=
  let resp : Num := Floating.float (ipp.resptime + (ipp.badLevel : Num) * 2000000.0)
  let rankResp : Num := if Floating.le resp 0.01 then Floating.float 0.01 else resp
  { server
    baseResp := Floating.double
      (rankResp + ((temdi.currenLoad.toUInt32 + temdi.sendingRequest).toNat : Int) * temdi.lmsK +
        temdi.lmsB)
    k := temdi.lmsK
    onwayWei := Floating.double ((temdi.sendingRequest + 2).toNat : Int) }

/-- How many of the servers, in the order of their predictions, share the requests to
come, as `final_i`, and what they all come to. -/
def share (sumOdK sumremainCnt : Num) (i : Nat) : List (Predicted Num) → Nat × Num
  | [] => (0, 0.0)
  | [last] =>
      let sumOdK := Floating.double (sumOdK + 1.0 / last.k)
      (i, Floating.double (last.baseResp + sumremainCnt / sumOdK))
  | this :: next :: rest =>
      let sumOdK := Floating.double (sumOdK + 1.0 / this.k)
      let thisCanEat : Num := Floating.double (sumOdK * (next.baseResp - this.baseResp))
      if Floating.lt thisCanEat sumremainCnt then
        share sumOdK (Floating.double (sumremainCnt - thisCanEat)) (i + 1) (next :: rest)
      else (i, Floating.double (this.baseResp + sumremainCnt / sumOdK))

def sum (weights : List Num) : Num := weights.foldl (· + ·) ((0 : Int) : Num)

/-- The weights the server is drawn with. -/
def finalWei (sorted : List (Predicted Num)) (sumonwayWei : Num) (finalI : Nat)
    (finalResp : Num) : List Num :=
  let front := (sorted.take (finalI + 1)).map fun one => one.k * (finalResp - one.baseResp)
  let averw : Num := sum front / ((front.length : Int) : Num) / 1000.0
  let srvWei := front ++ (sorted.drop (finalI + 1)).map fun _ => averw
  let sumwe := sum srvWei
  let srvOldWei := sorted.map fun one =>
    (((env.daoServerLastSendcnt daoName one.server).getD 0).toNat : Int) + (0.1 : Num)
  let oldSumwe := sum srvOldWei
  (srvWei.zip (srvOldWei.zip sorted)).map fun (wei, oldWei, one) =>
    let mergeWei : Num := 0.2 * (wei / sumwe) + 0.8 * (oldWei / oldSumwe)
    let diffWei := mergeWei / (one.onwayWei / sumonwayWei)
    diffWei * diffWei

/-- The servers are sorted, not their places; a place out of bounds gives no result. -/
def innerFilterHighresponseLmspredict (serverList : List String) : Option (Option String) := do
  let outSrvList ← s.candidates env daoName predict serverList
  if outSrvList = [] then some none
  else do
    let sumonwayWei := sum (outSrvList.map Predicted.onwayWei)
    let sumcnt := max ((env.daoLastSendcnt daoName).getD 0) 10
    let sorted := env.sort (fun a b => Floating.lt a.baseResp b.baseResp) outSrvList
    let (finalI, finalResp) := share 0.0 ((sumcnt.toNat : Int) : Num) 0 sorted
    let final := finalWei env daoName sorted sumonwayWei finalI finalResp
    let gra : Num := (((env.rand % 10000000 : Nat) : Int) + (0.5 : Num)) / 10000000.0
    let hit ← sorted[randomVectorPos gra (sum final) ((0 : Int) : Num) 0 final]?
    some (some hit.server)

def parseStr2SetInt (str : String) : Finset Int :=
  (((str.splitOn "_").filter (· ≠ "")).map fun piece => env.cast piece 0).toFinset

/-- One letter of the strategy, with the list and the last filter after it. -/
def applyFilter (localgroupid : Int) (roustg : OrderedMap String String) (letter : Char)
    (serverList : List String) (finalCh : Char) : Option (List String × Char) :=
  if letter = 'A' then (s.innerFilterHelpA localgroupid serverList).map (·, finalCh)
  else if letter = 'B' then (s.innerFilterHelpB daoName serverList).map (·, finalCh)
  else if letter = 'C' then (s.innerFilterHelpC daoName serverList).map (·, finalCh)
  else if letter = 'E' then
    match roustg.find "E" with
    | some hashId => (s.innerFilterHelpE env hashId serverList).map (·, finalCh)
    | none => some (serverList, finalCh)
  else if letter = 'U' then
    match roustg.find "U" with
    | some level => (s.innerFilterHelpU env daoName (env.cast level 1) serverList).map (·, finalCh)
    | none => some (serverList, finalCh)
  else if letter = 'F' then
    match roustg.find "F" with
    | some text =>
        let groupids := parseStr2SetInt env text
        if groupids = ∅ then some (serverList, finalCh)
        else (s.innerFilterHelpF groupids serverList).map (·, finalCh)
    | none => some (serverList, finalCh)
  else if letter = 'D' ∨ letter = 'R' ∨ letter = 'L' then some (serverList, letter)
  else some (serverList, finalCh)

/-- The loop over the letters; it ends without a list when no server is left. -/
def applyFilters (localgroupid : Int) (roustg : OrderedMap String String) :
    List Char → List String → Char → Option (Option (List String × Char))
  | [], serverList, finalCh => some (some (serverList, finalCh))
  | letter :: rest, serverList, finalCh => do
      let (serverList, finalCh) ←
        s.applyFilter env daoName localgroupid roustg letter serverList finalCh
      if serverList = [] then some none
      else applyFilters localgroupid roustg rest serverList finalCh

/-- The last filter; without any of the three the name stays empty. -/
def finalServer (finalCh : Char) (serverList : List String) : Option (Option String) :=
  if finalCh = 'D' then s.innerFilterHighresponseLmspredict env daoName serverList
  else if finalCh = 'R' then s.innerFilterHighresponseRandom env daoName serverList
  else if finalCh = 'L' then s.innerFilterHighresponseMinsending env daoName serverList
  else some (some "")

/-- The result, with the server and its name when they are set. -/
def daoSelect (localgroupid : Int) (roustg : OrderedMap String String) :
    Option (Int × Option (ServINFO Num × String)) :=
  let filter := (roustg.find "S").getD "A"
  match s.daoIndex.find daoName with
  | none => some (-2, none)
  | some didx => do
      let serverList := didx.servers.entries.map Prod.fst
      match ← s.applyFilters env daoName localgroupid roustg filter.toList serverList 'D' with
      | none => some (-1, none)
      | some (serverList, finalCh) =>
          if serverList = [] then some (-1, none)
          else do
            match ← s.finalServer env daoName finalCh serverList with
            | none => some (-1, none)
            | some finalServer => do
                let fsi ← s.servInfos.find finalServer
                some (0, some (fsi, finalServer))

/-! ## No assertion fails -/

variable {s daoName} {serverList : List String}

section Lookup

omit [Floating Num]

theorem collect_spec {Elem : Type} (look : String → ServINFO Num → Option (Option Elem))
    (serverList : List String) (hlook : ∀ server ∈ serverList, ∃ si found,
      s.servInfos.find server = some si ∧ look server si = some found) :
    ∃ pushed, s.collect look serverList = some pushed ∧ ∀ elem ∈ pushed,
      ∃ server ∈ serverList, ∃ si, look server si = some (some elem) := by
  induction serverList with
  | nil => exact ⟨[], rfl, fun elem helem => absurd helem List.not_mem_nil⟩
  | cons head rest ih =>
      obtain ⟨si, found, hfind, hfound⟩ := hlook head List.mem_cons_self
      obtain ⟨pushed, hpushed, hfrom⟩ :=
        ih fun server hserver => hlook server (List.mem_cons_of_mem _ hserver)
      refine ⟨found.toList ++ pushed, ?_, fun elem helem => ?_⟩
      · rw [collect, hfind, Option.bind_eq_bind, Option.bind_some, hfound, Option.bind_eq_bind,
          Option.bind_some, hpushed]
        rfl
      · rcases List.mem_append.mp helem with hhead | hrest
        · rw [Option.mem_toList] at hhead
          exact ⟨head, List.mem_cons_self, si, by rw [hfound, hhead]⟩
        · obtain ⟨server, hserver, hlast⟩ := hfrom elem hrest
          exact ⟨server, List.mem_cons_of_mem _ hserver, hlast⟩

theorem pick_spec {keep : ServINFO Num → Option Bool}
    (hkeep : ∀ server ∈ serverList, ∃ si hit,
      s.servInfos.find server = some si ∧ keep si = some hit) :
    ∃ next, s.pick keep serverList = some next ∧ next ⊆ serverList := by
  obtain ⟨next, hnext, hfrom⟩ := collect_spec (s := s) (fun server si => do
      let hit ← keep si
      some (if hit then some server else none)) serverList fun server hserver => by
    obtain ⟨si, hit, hfind, hhit⟩ := hkeep server hserver
    exact ⟨si, _, hfind, by rw [hhit]; rfl⟩
  refine ⟨next, hnext, fun elem helem => ?_⟩
  obtain ⟨server, hserver, si, hlook⟩ := hfrom elem helem
  obtain ⟨hit, -, hhit⟩ := Option.bind_eq_some_iff.mp hlook
  cases hit with
  | true =>
      cases hhit
      exact hserver
  | false => cases hhit

theorem prefer_spec {keep : ServINFO Num → Option Bool}
    (hkeep : ∀ server ∈ serverList, ∃ si hit,
      s.servInfos.find server = some si ∧ keep si = some hit) :
    ∃ next, s.prefer keep serverList = some next ∧ next ⊆ serverList := by
  obtain ⟨resultList, hresult, hsubset⟩ := pick_spec hkeep
  unfold prefer
  rw [hresult]
  refine ⟨_, rfl, ?_⟩
  split
  next => exact List.Subset.refl _
  next => exact hsubset

/-- All servers of the list have the dao. -/
def AllProvide (s : DaoStatManager Num) (daoName : String) (serverList : List String) : Prop :=
  ∀ server ∈ serverList, s.Provides server daoName

theorem AllProvide.find (hall : AllProvide s daoName serverList) :
    ∀ server ∈ serverList, ∃ si dinf,
      s.servInfos.find server = some si ∧ si.daoInfos.find daoName = some dinf := by
  intro server hserver
  obtain ⟨si, hfind, hdao⟩ := hall server hserver
  obtain ⟨dinf, hdinf⟩ := Option.isSome_iff_exists.mp hdao
  exact ⟨si, dinf, hfind, hdinf⟩

theorem Coherent.allProvide (hcoherent : Coherent s) {didx : DaoIndex}
    (hfind : s.daoIndex.find daoName = some didx) :
    AllProvide s daoName (didx.servers.entries.map Prod.fst) := by
  intro server hserver
  obtain ⟨⟨name, present⟩, hmem, rfl⟩ := List.mem_map.mp hserver
  refine (hcoherent.indexed _ _).mp ⟨didx, hfind, ?_⟩
  rw [OrderedMap.mem_entries.mp hmem]
  rfl

/-- What looks at the server only, and what looks at its dao, finds it. -/
theorem AllProvide.keep_server (hall : AllProvide s daoName serverList)
    (keep : ServINFO Num → Bool) : ∀ server ∈ serverList, ∃ si hit,
      s.servInfos.find server = some si ∧ some (keep si) = some hit := by
  intro server hserver
  obtain ⟨si, dinf, hfind, -⟩ := hall.find server hserver
  exact ⟨si, _, hfind, rfl⟩

theorem AllProvide.keep_dao (hall : AllProvide s daoName serverList)
    {keep : ServINFO Num → DaoINFO Num → Option Bool}
    (hkeep : ∀ si dinf, (keep si dinf).isSome) : ∀ server ∈ serverList, ∃ si hit,
      s.servInfos.find server = some si ∧ (si.daoInfos.find daoName).bind (keep si) = some hit := by
  intro server hserver
  obtain ⟨si, dinf, hfind, hdinf⟩ := hall.find server hserver
  obtain ⟨hit, hhit⟩ := Option.isSome_iff_exists.mp (hkeep si dinf)
  exact ⟨si, hit, hfind, by rw [hdinf]; exact hhit⟩

theorem innerFilterHelpA_spec (hall : AllProvide s daoName serverList) (groupid : Int) :
    ∃ next, s.innerFilterHelpA groupid serverList = some next ∧ next ⊆ serverList :=
  prefer_spec (hall.keep_server fun si => si.groupid = groupid)

theorem innerFilterHelpB_spec (hall : AllProvide s daoName serverList) :
    ∃ next, s.innerFilterHelpB daoName serverList = some next ∧ next ⊆ serverList :=
  prefer_spec (hall.keep_dao fun _ _ => rfl)

theorem innerFilterHelpC_spec (hall : AllProvide s daoName serverList) :
    ∃ next, s.innerFilterHelpC daoName serverList = some next ∧ next ⊆ serverList :=
  prefer_spec (hall.keep_dao fun _ _ => rfl)

theorem innerFilterHelpF_spec (hall : AllProvide s daoName serverList) (groupids : Finset Int) :
    ∃ next, s.innerFilterHelpF groupids serverList = some next ∧ next ⊆ serverList :=
  pick_spec (hall.keep_server fun si => si.groupid ∈ groupids)

theorem innerFilterHelpE_spec (hall : AllProvide s daoName serverList) (hashid : String) :
    ∃ next, s.innerFilterHelpE env hashid serverList = some next ∧ next ⊆ serverList := by
  obtain ⟨groupids, hgroupids, -⟩ := collect_spec (s := s)
    (fun _ si => some (some si.groupid)) serverList fun server hserver => by
    obtain ⟨si, dinf, hfind, -⟩ := hall.find server hserver
    exact ⟨si, _, hfind, rfl⟩
  unfold innerFilterHelpE
  rw [hgroupids, Option.bind_eq_bind, Option.bind_some]
  dsimp only
  split
  next => exact ⟨[], rfl, List.nil_subset _⟩
  next =>
    obtain ⟨rt, group, rest, hring, hgroup⟩ := env.hashRing.getGroupid_total
      (env.hash64 hashid.toUTF8.toList) (some groupids.toFinset)
    rw [KTMHashRing.getGroupidOf, hring, Option.bind_eq_bind, Option.bind_some]
    dsimp only
    split
    next => exact ⟨[], rfl, List.nil_subset _⟩
    next hrt =>
      obtain ⟨groupid, hgroupid⟩ := Option.isSome_iff_exists.mp (hgroup (not_not.mp hrt))
      rw [hgroupid]
      exact innerFilterHelpA_spec hall groupid

end Lookup

theorem innerFilterHelpU_spec (hall : AllProvide s daoName serverList) (usabilityLevel : Int) :
    ∃ next, s.innerFilterHelpU env daoName usabilityLevel serverList = some next ∧
      next ⊆ serverList := by
  refine pick_spec (hall.keep_dao fun si dinf => ?_)
  split
  next => rfl
  next =>
    split
    next => rfl
    next =>
      split
      next => rfl
      next => rfl

theorem AllProvide.candidates (hall : AllProvide s daoName serverList) {Elem : Type}
    (read : String → DaoINFO Num → IPINFO Num → Elem) :
    ∃ pushed, s.candidates env daoName read serverList = some pushed ∧ ∀ elem ∈ pushed,
      ∃ server ∈ serverList, ∃ temdi ipp, elem = read server temdi ipp := by
  obtain ⟨pushed, hpushed, hfrom⟩ := collect_spec (s := s) (fun server si => do
      let found ← usable env daoName si
      some (found.map fun info => read server info.1 info.2)) serverList fun server hserver => by
    obtain ⟨si, dinf, hfind, hdinf⟩ := hall.find server hserver
    have husable : ∃ found, usable env daoName si = some found := by
      unfold usable
      rw [hdinf, Option.bind_eq_bind, Option.bind_some]
      split
      next => exact ⟨_, rfl⟩
      next =>
        split
        next => exact ⟨_, rfl⟩
        next =>
          split
          next => exact ⟨_, rfl⟩
          next => exact ⟨_, rfl⟩
    obtain ⟨found, hfound⟩ := husable
    exact ⟨si, _, hfind, by rw [hfound]; rfl⟩
  refine ⟨pushed, hpushed, fun elem helem => ?_⟩
  obtain ⟨server, hserver, si, hlook⟩ := hfrom elem helem
  obtain ⟨found, -, hfound⟩ := Option.bind_eq_some_iff.mp hlook
  obtain ⟨info, -, hinfo⟩ := Option.map_eq_some_iff.mp (Option.some.inj hfound)
  exact ⟨server, hserver, info.1, info.2, hinfo.symm⟩

theorem fewest_mem (first : String × UInt32) (rest : List (String × UInt32)) :
    fewest first rest ∈ first :: rest := by
  unfold fewest
  induction rest generalizing first with
  | nil => exact List.mem_cons_self
  | cons other rest ih =>
      rw [List.foldl_cons]
      rcases List.mem_cons.mp (ih (if other.2 < first.2 then other else first)) with hsame | hlater
      · rw [hsame]
        split
        · exact List.mem_cons_of_mem _ List.mem_cons_self
        · exact List.mem_cons_self
      · exact List.mem_cons_of_mem _ (List.mem_cons_of_mem _ hlater)

theorem minsending_spec (hall : AllProvide s daoName serverList) :
    ∃ result, s.innerFilterHighresponseMinsending env daoName serverList = some result ∧
      ∀ server, result = some server → server ∈ serverList := by
  obtain ⟨pushed, hpushed, hfrom⟩ :=
    hall.candidates env fun server temdi _ => (server, temdi.sendingRequest)
  unfold innerFilterHighresponseMinsending
  rw [hpushed, Option.bind_eq_bind, Option.bind_some]
  cases pushed with
  | nil => exact ⟨none, rfl, fun server hserver => by cases hserver⟩
  | cons first rest =>
      refine ⟨_, rfl, fun server hserver => ?_⟩
      obtain ⟨found, hfound, temdi, ipp, helem⟩ := hfrom _ (fewest_mem first rest)
      rw [helem] at hserver
      cases hserver
      exact hfound

theorem random_spec (hall : AllProvide s daoName serverList) :
    ∃ result, s.innerFilterHighresponseRandom env daoName serverList = some result ∧
      ∀ server, result = some server → server ∈ serverList := by
  obtain ⟨outSrvList, hout, hfrom⟩ :=
    hall.candidates env fun server _ _ => server
  unfold innerFilterHighresponseRandom
  rw [hout, Option.bind_eq_bind, Option.bind_some]
  split
  next => exact ⟨none, rfl, fun server hserver => by cases hserver⟩
  next hsome =>
    have hlt : env.rand % outSrvList.length < outSrvList.length :=
      Nat.mod_lt _ (List.length_pos_of_ne_nil hsome)
    rw [List.getElem?_eq_getElem hlt]
    refine ⟨_, rfl, fun server hserver => ?_⟩
    cases hserver
    obtain ⟨found, hfound, -, -, helem⟩ := hfrom _ (List.getElem_mem hlt)
    rw [helem]
    exact hfound

theorem randomVectorPos_lt (gra sum curFr : Num) (t : Nat) (vec : List Num) :
    randomVectorPos gra sum curFr t vec = 0 ∨
      randomVectorPos gra sum curFr t vec < t + vec.length := by
  induction vec generalizing curFr t with
  | nil => exact Or.inl rfl
  | cons wei rest ih =>
      rw [randomVectorPos]
      split
      next => exact Or.inr (by rw [List.length_cons]; omega)
      next =>
        refine (ih (curFr + wei / sum) (t + 1)).imp_right fun hlt => ?_
        rw [List.length_cons]
        omega

theorem finalWei_length (sorted : List (Predicted Num)) (sumonwayWei : Num) (finalI : Nat)
    (finalResp : Num) :
    (finalWei env daoName sorted sumonwayWei finalI finalResp).length = sorted.length := by
  simp only [finalWei, List.length_map, List.length_zip, List.length_append, List.length_take,
    List.length_drop]
  omega

theorem lmspredict_spec (hall : AllProvide s daoName serverList) :
    ∃ result, s.innerFilterHighresponseLmspredict env daoName serverList = some result ∧
      ∀ server, result = some server → server ∈ serverList := by
  obtain ⟨outSrvList, hout, hfrom⟩ := hall.candidates env predict
  unfold innerFilterHighresponseLmspredict
  rw [hout, Option.bind_eq_bind, Option.bind_some]
  split
  next => exact ⟨none, rfl, fun server hserver => by cases hserver⟩
  next hsome =>
    generalize hsorted : env.sort _ outSrvList = sorted
    have hperm : sorted.Perm outSrvList := hsorted ▸ env.sort_perm _ _
    have hpos : 0 < sorted.length := by
      rw [hperm.length_eq]
      exact List.length_pos_of_ne_nil hsome
    dsimp only
    generalize hfinal : finalWei env daoName sorted _ _ _ = final
    have hlength : final.length = sorted.length := by
      rw [← hfinal, finalWei_length]
    -- the index that is hit is within the weights, of which there is one for each server
    generalize hhit : randomVectorPos _ _ _ 0 final = hit
    have hlt : hit < sorted.length := by
      rcases randomVectorPos_lt _ _ _ 0 final with hzero | hless
      · rw [← hhit, hzero]
        exact hpos
      · rw [← hhit, ← hlength]
        simpa using hless
    rw [List.getElem?_eq_getElem hlt]
    refine ⟨_, rfl, fun server hserver => ?_⟩
    cases hserver
    obtain ⟨found, hfound, temdi, ipp, helem⟩ :=
      hfrom _ (hperm.mem_iff.mp (List.getElem_mem hlt))
    rw [helem]
    exact hfound

/-! ## Selection over a run -/

theorem applyFilter_spec (hall : AllProvide s daoName serverList) (localgroupid : Int)
    (roustg : OrderedMap String String) (letter : Char) {finalCh : Char}
    (hfinal : finalCh ∈ ['D', 'R', 'L']) :
    ∃ next final, s.applyFilter env daoName localgroupid roustg letter serverList finalCh =
      some (next, final) ∧ next ⊆ serverList ∧ final ∈ ['D', 'R', 'L'] := by
  -- a filter keeps some of the servers, and the last letter stays what it was
  have hkeep : ∀ {filtered : Option (List String)},
      (∃ next, filtered = some next ∧ next ⊆ serverList) →
      ∃ next final, filtered.map (·, finalCh) = some (next, final) ∧ next ⊆ serverList ∧
        final ∈ ['D', 'R', 'L'] := by
    rintro _ ⟨next, rfl, hsubset⟩
    exact ⟨next, finalCh, rfl, hsubset, hfinal⟩
  have hsame : ∃ next final, some (serverList, finalCh) = some (next, final) ∧
      next ⊆ serverList ∧ final ∈ ['D', 'R', 'L'] :=
    ⟨serverList, finalCh, rfl, List.Subset.refl _, hfinal⟩
  unfold applyFilter
  split
  · exact hkeep (innerFilterHelpA_spec hall localgroupid)
  split
  · exact hkeep (innerFilterHelpB_spec hall)
  split
  · exact hkeep (innerFilterHelpC_spec hall)
  split
  · split
    · exact hkeep (innerFilterHelpE_spec env hall _)
    · exact hsame
  split
  · split
    · exact hkeep (innerFilterHelpU_spec env hall _)
    · exact hsame
  split
  · split
    · dsimp only
      split
      · exact hsame
      · exact hkeep (innerFilterHelpF_spec hall _)
    · exact hsame
  split
  next hletter =>
    refine ⟨serverList, letter, rfl, List.Subset.refl _, ?_⟩
    rcases hletter with rfl | rfl | rfl <;> decide
  next => exact hsame

theorem applyFilters_spec (hall : AllProvide s daoName serverList) (localgroupid : Int)
    (roustg : OrderedMap String String) (letters : List Char) {finalCh : Char}
    (hfinal : finalCh ∈ ['D', 'R', 'L']) :
    ∃ result, s.applyFilters env daoName localgroupid roustg letters serverList finalCh =
      some result ∧ ∀ next final, result = some (next, final) →
        next ⊆ serverList ∧ final ∈ ['D', 'R', 'L'] := by
  induction letters generalizing serverList finalCh with
  | nil =>
      refine ⟨_, rfl, fun next final hresult => ?_⟩
      cases hresult
      exact ⟨List.Subset.refl _, hfinal⟩
  | cons letter rest ih =>
      obtain ⟨next, final, hnext, hsubset, hletter⟩ :=
        applyFilter_spec env hall localgroupid roustg letter hfinal
      rw [applyFilters, hnext, Option.bind_eq_bind, Option.bind_some]
      dsimp only
      split
      next => exact ⟨none, rfl, fun next final hresult => by cases hresult⟩
      next =>
        obtain ⟨result, hresult, hfrom⟩ :=
          ih (fun server hserver => hall server (hsubset hserver)) hletter
        refine ⟨result, hresult, fun next final hlast => ?_⟩
        obtain ⟨hlastSubset, hlastFinal⟩ := hfrom next final hlast
        exact ⟨List.Subset.trans hlastSubset hsubset, hlastFinal⟩

theorem finalServer_spec (hall : AllProvide s daoName serverList) {finalCh : Char}
    (hfinal : finalCh ∈ ['D', 'R', 'L']) :
    ∃ result, s.finalServer env daoName finalCh serverList = some result ∧
      ∀ server, result = some server → server ∈ serverList := by
  unfold finalServer
  split
  · exact lmspredict_spec env hall
  split
  · exact random_spec env hall
  split
  · exact minsending_spec env hall
  next hD hR hL => simp [hD, hR, hL] at hfinal

/-- What is promised of the result of `dao_select`. -/
structure Choice (s : DaoStatManager Num) (daoName : String) (result : Int)
    (out : Option (ServINFO Num × String)) : Prop where
  code : result = 0 ∨ result = -1 ∨ result = -2
  nodao : result = -2 ↔ ∀ server, ¬ s.Provides server daoName
  server : result = 0 → ∃ info server, out = some (info, server) ∧
    s.servInfos.find server = some info ∧ s.Provides server daoName

/-- `dao_select` has a result, so that no assertion fails. -/
def Selects (s : DaoStatManager Num) : Prop :=
  ∀ (env : Surroundings Num) (daoName : String) (localgroupid : Int)
    (roustg : OrderedMap String String),
    ∃ result out, s.daoSelect env daoName localgroupid roustg = some (result, out) ∧
      Choice s daoName result out

theorem Coherent.selects (hcoherent : Coherent s) : Selects s := by
  intro env daoName localgroupid roustg
  unfold daoSelect
  dsimp only
  split
  next hnone =>
    refine ⟨-2, none, rfl, by decide, ⟨fun _ server hserver => ?_, fun _ => rfl⟩,
      fun hzero => absurd hzero (by decide)⟩
    obtain ⟨didx, hfind, -⟩ := (hcoherent.indexed server daoName).mpr hserver
    rw [hnone] at hfind
    cases hfind
  next didx hfind =>
    have hsome := hcoherent.provided hfind
    have hall := hcoherent.allProvide hfind
    -- -1 is for filters that leave no server, though some provide the dao
    have hbusy : Choice s daoName (-1) none :=
      ⟨by decide, iff_of_false (by decide) hsome, fun hzero => absurd hzero (by decide)⟩
    obtain ⟨filtered, hfiltered, hfrom⟩ := applyFilters_spec env hall localgroupid roustg
      ((roustg.find "S").getD "A").toList (show 'D' ∈ ['D', 'R', 'L'] by decide)
    rw [hfiltered, Option.bind_eq_bind, Option.bind_some]
    cases filtered with
    | none => exact ⟨-1, none, rfl, hbusy⟩
    | some left =>
        obtain ⟨serverList, finalCh⟩ := left
        obtain ⟨hsubset, hfinal⟩ := hfrom serverList finalCh rfl
        dsimp only
        split
        next => exact ⟨-1, none, rfl, hbusy⟩
        next =>
          obtain ⟨chosen, hchosen, hmem⟩ := finalServer_spec env
            (fun server hserver => hall server (hsubset hserver)) hfinal
          rw [hchosen, Option.bind_eq_bind, Option.bind_some]
          cases chosen with
          | none => exact ⟨-1, none, rfl, hbusy⟩
          | some server =>
              obtain ⟨info, hinfo, hdao⟩ := hall server (hsubset (hmem server rfl))
              refine ⟨0, some (info, server), ?_, by decide, iff_of_false (by decide) hsome,
                fun _ => ⟨info, server, rfl, hinfo, info, hinfo, hdao⟩⟩
              dsimp only
              rw [hinfo]
              rfl

inductive Event (Num : Type) where
  | initFromConf (outdat : OrderedMap String PrcAdd)
  | updateDaoInfo (srvname : String) (daoinfos : List DAOLOAD) (now : Nat)
  | updateServerdaoFree (sername daoname : String) (free : UInt32)
  | predictSendOne (pserv daoName : String) (now : Nat)
  | startSendOne (pserv daoName : String)
  | endRecvOne (serverName daoName : String)
  | daoSelect (env : Surroundings Num) (daoName : String) (localgroupid : Int)
      (roustg : OrderedMap String String)

def step (s : DaoStatManager Num) : Event Num → Option (DaoStatManager Num)
  | .initFromConf outdat => s.initFromConf outdat
  | .updateDaoInfo srvname daoinfos now => (s.updateDaoInfo srvname daoinfos now).map Prod.fst
  | .updateServerdaoFree sername daoname free =>
      some (s.updateServerdaoFree sername daoname free).1
  | .predictSendOne pserv daoName now => s.predictSendOne pserv daoName now
  | .startSendOne pserv daoName => s.startSendOne pserv daoName
  | .endRecvOne serverName daoName => some (s.endRecvOne serverName daoName)
  | .daoSelect env daoName localgroupid roustg =>
      (s.daoSelect env daoName localgroupid roustg).map fun _ => s

/-- The server that the pointer of the call points to is there. -/
def Event.Valid (s : DaoStatManager Num) : Event Num → Prop
  | .predictSendOne pserv _ _ => (s.servInfos.find pserv).isSome
  | .startSendOne pserv _ => (s.servInfos.find pserv).isSome
  | _ => True

theorem Coherent.step_total (hcoherent : Coherent s) {event : Event Num}
    (hvalid : event.Valid s) : ∃ next, s.step event = some next ∧ Coherent next := by
  cases event with
  | initFromConf outdat => exact hcoherent.initFromConf outdat
  | updateDaoInfo srvname daoinfos now =>
      obtain ⟨next, result, hnext, hnextCoherent⟩ := hcoherent.updateDaoInfo srvname daoinfos now
      exact ⟨next, by rw [step, hnext]; rfl, hnextCoherent⟩
  | updateServerdaoFree sername daoname free =>
      exact ⟨_, rfl, hcoherent.updateServerdaoFree sername daoname free⟩
  | predictSendOne pserv daoName now =>
      obtain ⟨serv, hserv⟩ := Option.isSome_iff_exists.mp hvalid
      exact hcoherent.predictSendOne hserv daoName now
  | startSendOne pserv daoName =>
      obtain ⟨serv, hserv⟩ := Option.isSome_iff_exists.mp hvalid
      exact hcoherent.startSendOne hserv daoName
  | endRecvOne serverName daoName => exact ⟨_, rfl, hcoherent.endRecvOne serverName daoName⟩
  | daoSelect env daoName localgroupid roustg =>
      obtain ⟨result, out, hselect, -⟩ := hcoherent.selects env daoName localgroupid roustg
      exact ⟨s, by rw [step, hselect]; rfl, hcoherent⟩

theorem Coherent.step (hcoherent : Coherent s) {event : Event Num} {next : DaoStatManager Num}
    (hstep : s.step event = some next) : Coherent next := by
  have hvalid : event.Valid s := by
    cases event with
    | predictSendOne pserv daoName now =>
        obtain ⟨serv, hserv, -⟩ := Option.bind_eq_some_iff.mp hstep
        exact Option.isSome_iff_exists.mpr ⟨serv, hserv⟩
    | startSendOne pserv daoName =>
        obtain ⟨serv, hserv, -⟩ := Option.bind_eq_some_iff.mp hstep
        exact Option.isSome_iff_exists.mpr ⟨serv, hserv⟩
    | _ => trivial
  obtain ⟨other, hother, hotherCoherent⟩ := hcoherent.step_total hvalid
  rw [hstep] at hother
  cases hother
  exact hotherCoherent

/-- In every state of every run the index is what the servers say, every call has a
result, and `dao_select` takes a server that has the dao, if there is one. -/
theorem index_coherent (events : List (Event Num)) :
    Throughout step (fun s => Coherent s ∧ Selects s ∧
      ∀ event : Event Num, event.Valid s → ∃ next, s.step event = some next) new events :=
  throughout_of_along (fun _ _ _ hcoherent _ hstep => hcoherent.step hstep)
    (fun _ hcoherent => ⟨hcoherent, hcoherent.selects, fun _ hvalid =>
      let ⟨next, hnext, _⟩ := hcoherent.step_total hvalid
      ⟨next, hnext⟩⟩)
    new_coherent (along_trivial _ events)

end DaoStatManager

end ServiceFrame
