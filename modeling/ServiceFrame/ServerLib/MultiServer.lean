import Mathlib.Data.List.Perm.Subperm
import ServiceFrame.ServerLib.MultiValue
import ServiceFrame.ServerLib.SelectorCache

/-! # Several servers of a suffix

What `HashMultiServer` delivers, from any state of the selector: a circle chooses values, and
each value stands for a server. Which servers these are is told by the suffix where addresses
are hashed, and else by a table of addresses that all suffixes share.
-/

namespace ServiceFrame

open Foundation

namespace CServerSelectorImp

/-! ## The walk round a circle -/

section Walk

/-- The servers of a circle, in the order in which they are met from a place on. -/
def metFrom (circle : Circle) (start : Nat) : List UInt32 :=
  firsts ((circle.circle start).map Prod.snd)

/-- The number of values that are looked for. -/
def lookFor (circle : Circle) (uValueCount : UInt32) : Nat :=
  (if circle.entries.length.toUInt32 < uValueCount * 200 then
    circle.entries.length.toUInt32 / 200 else uValueCount).toNat

/-- The walk ends: no second value is looked for, or it starts at a point, and the circle has
as many values. -/
def Ends (circle : Circle) (start look : Nat) : Prop :=
  look ≤ 1 ∨
    (circle.lowerIndex start < circle.entries.length ∧ look ≤ (metFrom circle start).length)

variable {entries : List (Nat × UInt32)} {setValues last : UIntSet} {uGetCount fuel it : Nat}

/-- The loop ends with as many values as it looks for, all of the circle. -/
theorem moreValues_sound (hloop : moreValues entries uGetCount fuel it setValues = some last) :
    uGetCount ≤ last.entries.length ∧
      ∀ value ∈ last.values,
        value ∈ setValues.values ∨ ∃ point ∈ entries, point.2.toNat = value := by
  induction fuel generalizing it setValues with
  | zero => cases hloop
  | succ fuel ih =>
      unfold moreValues at hloop
      split at hloop
      next hfew =>
        split at hloop
        next hin =>
          obtain ⟨point, hpoint, hrest⟩ := Option.bind_eq_some_iff.mp hloop
          obtain ⟨hcount, hvalues⟩ := ih hrest
          refine ⟨hcount, fun value hvalue => ?_⟩
          rcases hvalues value hvalue with hset | hlater
          · rw [UIntSet.mem_values, OrderedMap.find_set, Function.update_apply] at hset
            split at hset
            next hsame => exact .inr ⟨point, List.mem_of_getElem? hpoint, hsame.symm⟩
            next => exact .inl (UIntSet.mem_values.mpr hset)
          · exact .inr hlater
        next => cases hloop
      next hmany =>
        cases hloop
        exact ⟨Nat.le_of_not_lt hmany, fun value hvalue => .inl hvalue⟩

variable (md5 : List UInt8 → UInt32) (circle : Circle) (emFuncType : EHashFuntcionType)
  (uKey uValueCount : UInt32)

/-- Where the walk starts. -/
def placeOf : Nat := ((CircleHash.ofType md5 emFuncType).key uKey).toNat

theorem getMultiValueByKey_empty (hnone : circle.entries = []) :
    getMultiValueByKey md5 circle emFuncType uKey uValueCount = some none := by
  unfold getMultiValueByKey
  rw [hnone]

variable {md5 circle emFuncType uKey uValueCount}

/-- On a circle with points, the loop goes on from the value at the place. -/
theorem getMultiValueByKey_cons {first : Nat × UInt32} {rest : List (Nat × UInt32)}
    (hentries : circle.entries = first :: rest) :
    getMultiValueByKey md5 circle emFuncType uKey uValueCount =
      (moreValues (first :: rest) (lookFor circle uValueCount) ((first :: rest).length + 1)
        (circle.lowerIndex (placeOf md5 emFuncType uKey))
        (OrderedMap.set .empty ((first :: rest)[circle.lowerIndex
          (placeOf md5 emFuncType uKey)]?.getD first).2.toNat ())).map some := by
  rw [Option.map_eq_bind]
  unfold getMultiValueByKey lookFor
  rw [hentries]
  rfl

/-- A walk that ends gives the values that are met first. -/
theorem getMultiValueByKey_ends (hsome : circle.entries ≠ [])
    (hends : Ends circle (placeOf md5 emFuncType uKey) (lookFor circle uValueCount)) :
    ∃ setValues, getMultiValueByKey md5 circle emFuncType uKey uValueCount =
        some (some setValues) ∧
      ∀ value : Nat, value ∈ setValues.values ↔
        ∃ server ∈ (metFrom circle (placeOf md5 emFuncType uKey)).take
          (max 1 (lookFor circle uValueCount)), server.toNat = value := by
  obtain ⟨first, rest, hentries⟩ := List.exists_cons_of_ne_nil hsome
  have hle := circle.lowerIndex_le (placeOf md5 emFuncType uKey)
  rw [getMultiValueByKey_cons hentries]
  unfold Ends metFrom at *
  rw [OrderedMap.circle_eq_rotate] at hends ⊢
  rw [hentries] at hends hle ⊢
  obtain ⟨last, hloop, hvalues⟩ := ConsistentHash.moreValues_walk hle hends
  rw [hloop]
  exact ⟨last, rfl, hvalues⟩

/-- Any other walk has no end, or leaves the circle. -/
theorem getMultiValueByKey_stuck (hsome : circle.entries ≠ [])
    (hstuck : ¬Ends circle (placeOf md5 emFuncType uKey) (lookFor circle uValueCount)) :
    getMultiValueByKey md5 circle emFuncType uKey uValueCount = none := by
  obtain ⟨first, rest, hentries⟩ := List.exists_cons_of_ne_nil hsome
  have hmem : ∀ point, point ∈ first :: rest →
      point.2 ∈ metFrom circle (placeOf md5 emFuncType uKey) := by
    intro point hpoint
    rw [← hentries] at hpoint
    rw [metFrom, mem_firsts]
    exact List.mem_map_of_mem (OrderedMap.mem_circle.mpr (OrderedMap.mem_entries.mp hpoint))
  rw [getMultiValueByKey_cons hentries, Option.map_eq_none_iff, Option.eq_none_iff_forall_ne_some]
  rw [Ends, not_or, not_and, Nat.not_le, Nat.not_le, hentries] at hstuck
  obtain ⟨hmany, hfew⟩ := hstuck
  generalize lookFor circle uValueCount = look at *
  intro last hloop
  by_cases hin : circle.lowerIndex (placeOf md5 emFuncType uKey) < (first :: rest).length
  · -- every value in the set is on the circle, and these are too few
    obtain ⟨hcount, hvalues⟩ := moreValues_sound hloop
    have hstart : (first :: rest)[circle.lowerIndex (placeOf md5 emFuncType uKey)]?.getD first ∈
        first :: rest := by
      rw [List.getElem?_eq_getElem hin]
      exact List.getElem_mem hin
    have hsubset : last.values ⊆
        (metFrom circle (placeOf md5 emFuncType uKey)).map UInt32.toNat := by
      intro value hvalue
      rcases hvalues value hvalue with hfirst | ⟨point, hpoint, rfl⟩
      · rw [UIntSet.mem_values, OrderedMap.find_set, Function.update_apply] at hfirst
        split at hfirst
        next hsame =>
          rw [hsame]
          exact List.mem_map_of_mem (hmem _ hstart)
        next => cases hfirst
      · exact List.mem_map_of_mem (hmem point hpoint)
    have hlength := (List.subperm_of_subset last.values_nodup hsubset).length_le
    rw [UIntSet.values, List.length_map, List.length_map] at hlength
    have hless := hfew hin
    omega
  · rw [ConsistentHash.moreValues_behind (Nat.le_of_not_lt hin) hmany] at hloop
    cases hloop

end Walk

/-! ## The server of a value -/

section Servers

variable (md5 : List UInt8 → UInt32) (s : CServerSelectorImp) (uKey : UInt32) (strSuffix : String)

/-- The circle of an address, out of the cache or made of its servers. -/
def ipCircle (ip : Nat) (serverIds : UIntSet) : Circle :=
  (s.circleFromContainer s.hashContainer (Use.sameIp strSuffix ip).key serverIds.values).2

/-- The server that a value stands for, if any. -/
def serverFor (info : SHashInfo) (value : Nat) : Option UInt32 :=
  if info.emValueType = .serverIp then some (s.serverIpToId strSuffix value.toUInt32)
  else
    match s.mapIpServerIds.find value with
    | none => none
    | some serverIds =>
        let uServerId :=
          getValueByKey md5 (s.ipCircle strSuffix value serverIds) info.emFuncType uKey
        if uServerId ≠ ConsistentHash.noServer then some uServerId else none

variable {md5 s uKey strSuffix}

/-- Each value stands for the same server in both states. -/
structure SameServers (strSuffix : String) (s next : CServerSelectorImp) : Prop where
  mapServerInfo : next.mapServerInfo = s.mapServerInfo
  hashContainer : next.hashContainer = s.hashContainer
  mapIpServerIds : next.mapIpServerIds = s.mapIpServerIds
  ipCircle : ∀ ip serverIds, s.mapIpServerIds.find ip = some serverIds →
    next.ipCircle strSuffix ip serverIds = s.ipCircle strSuffix ip serverIds

theorem SameServers.refl (strSuffix : String) (s : CServerSelectorImp) :
    SameServers strSuffix s s :=
  ⟨rfl, rfl, rfl, fun _ _ _ => rfl⟩

theorem SameServers.trans {middle next : CServerSelectorImp}
    (hfirst : SameServers strSuffix s middle) (hsecond : SameServers strSuffix middle next) :
    SameServers strSuffix s next := by
  refine ⟨hsecond.mapServerInfo.trans hfirst.mapServerInfo,
    hsecond.hashContainer.trans hfirst.hashContainer,
    hsecond.mapIpServerIds.trans hfirst.mapIpServerIds, fun ip serverIds hfind => ?_⟩
  have hmiddle : middle.mapIpServerIds.find ip = some serverIds := by
    rw [hfirst.mapIpServerIds, hfind]
  rw [hsecond.ipCircle ip serverIds hmiddle, hfirst.ipCircle ip serverIds hfind]

theorem SameServers.serverFor {next : CServerSelectorImp} (hsame : SameServers strSuffix s next)
    (info : SHashInfo) :
    next.serverFor md5 uKey strSuffix info = s.serverFor md5 uKey strSuffix info := by
  funext value
  unfold CServerSelectorImp.serverFor
  split
  next =>
    unfold serverIpToId serverIdsWhere getServersInfo
    rw [hsame.mapServerInfo]
  next =>
    rw [hsame.mapIpServerIds]
    cases hfind : s.mapIpServerIds.find value with
    | none => rfl
    | some serverIds =>
        dsimp only
        rw [hsame.ipCircle value serverIds hfind]

/-- Addresses have circles of their own, -/
theorem sameIp_key_inj {ip other : Nat}
    (hkey : (Use.sameIp strSuffix ip).key = (Use.sameIp strSuffix other).key) : ip = other := by
  have hlist := congrArg String.toList hkey
  simp only [Use.key, toKeyString, String.toList_append, List.append_cancel_left_eq,
    List.append_cancel_right_eq] at hlist
  have hdigits : Nat.toDigits 10 ip = Nat.toDigits 10 other := by simpa using hlist
  rw [← Nat.ofDigitChars_ten_toDigits (n := ip), hdigits, Nat.ofDigitChars_ten_toDigits]

/-- which are not the one of the suffix. -/
theorem sameIp_key_ne (ip : Nat) :
    (Use.sameIp strSuffix ip).key ≠ toKeyString strSuffix 0xFFFFFFFF 0xFFFFFFFF := by
  intro hkey
  have hlength := congrArg (fun key => key.toList.length) hkey
  simp only [Use.key, toKeyString, String.toList_append, List.length_append] at hlength
  have hcolon : ":".toList.length = 1 := rfl
  omega

theorem ipCircle_eq (s : CServerSelectorImp) (strSuffix : String) (ip : Nat) (serverIds : UIntSet) :
    s.ipCircle strSuffix ip serverIds = (s.mapCircleCache.find (Use.sameIp strSuffix ip).key).getD
      (getServerCircle s.hashContainer serverIds.values) := by
  unfold CServerSelectorImp.ipCircle circleFromContainer
  cases s.mapCircleCache.find (Use.sameIp strSuffix ip).key with
  | none => rfl
  | some circle => rfl

/-- A circle that is put into the cache is the one that would be made. -/
theorem circleFromContainer_sameServers {container : OrderedMap Nat Circle} {strKey : String}
    {setServerId : List Nat}
    (hcircle : ∀ ip serverIds, s.mapIpServerIds.find ip = some serverIds →
      (Use.sameIp strSuffix ip).key = strKey →
        getServerCircle container setServerId = getServerCircle s.hashContainer serverIds.values) :
    SameServers strSuffix s (s.circleFromContainer container strKey setServerId).1 := by
  unfold circleFromContainer
  split
  next => exact SameServers.refl strSuffix s
  next hnone =>
    refine ⟨rfl, rfl, rfl, fun ip serverIds hfind => ?_⟩
    rw [ipCircle_eq, ipCircle_eq, OrderedMap.find_insert, hnone, Option.getD_none,
      Function.update_apply]
    split
    next hkey =>
      rw [hkey, hnone]
      exact hcircle ip serverIds hfind hkey
    next => rfl

/-- One turn of the loop. -/
theorem serverOfIp_eq (md5 : List UInt8 → UInt32) (uKey : UInt32) (strSuffix : String)
    {info : SHashInfo} (hvalue : info.emValueType ≠ .serverIp) (s : CServerSelectorImp)
    (vecValues : List UInt32) (ip : Nat) :
    ∃ next, serverOfIp md5 uKey strSuffix info.emFuncType (s, vecValues) ip =
        (next, vecValues ++ (s.serverFor md5 uKey strSuffix info ip).toList) ∧
      SameServers strSuffix s next := by
  rw [serverFor, if_neg hvalue]
  cases hfind : s.mapIpServerIds.find ip with
  | none =>
      refine ⟨s, ?_, SameServers.refl strSuffix s⟩
      rw [serverOfIp, hfind]
      simp
  | some serverIds =>
      refine ⟨(s.circleFromContainer s.hashContainer (Use.sameIp strSuffix ip).key
        serverIds.values).1, ?_, ?_⟩
      · have hturn : serverOfIp md5 uKey strSuffix info.emFuncType (s, vecValues) ip =
            if getValueByKey md5 (s.ipCircle strSuffix ip serverIds) info.emFuncType uKey ≠
                ConsistentHash.noServer then
              ((s.circleFromContainer s.hashContainer (Use.sameIp strSuffix ip).key
                serverIds.values).1, vecValues ++ [getValueByKey md5
                  (s.ipCircle strSuffix ip serverIds) info.emFuncType uKey])
            else ((s.circleFromContainer s.hashContainer (Use.sameIp strSuffix ip).key
                serverIds.values).1, vecValues) := by
          rw [serverOfIp, hfind]
          rfl
        rw [hturn]
        dsimp only
        split
        next => rfl
        next => simp
      · apply circleFromContainer_sameServers
        intro other otherIds hother hkey
        rw [sameIp_key_inj hkey, hfind, Option.some.injEq] at hother
        rw [hother]

/-- The loop delivers the servers that its values stand for. -/
theorem serversOfIps_eq (md5 : List UInt8 → UInt32) (uKey : UInt32) (strSuffix : String)
    {info : SHashInfo} (hvalue : info.emValueType ≠ .serverIp) (s : CServerSelectorImp)
    (setValues : List Nat) :
    (s.serversOfIps md5 uKey strSuffix info.emFuncType setValues).2 =
      setValues.filterMap (s.serverFor md5 uKey strSuffix info) := by
  have hloop : ∀ (s : CServerSelectorImp) (vecValues : List UInt32),
      (setValues.foldl (serverOfIp md5 uKey strSuffix info.emFuncType) (s, vecValues)).2 =
        vecValues ++ setValues.filterMap (s.serverFor md5 uKey strSuffix info) := by
    induction setValues with
    | nil => simp
    | cons ip rest ih =>
        intro s vecValues
        obtain ⟨next, hturn, hsame⟩ := serverOfIp_eq md5 uKey strSuffix hvalue s vecValues ip
        rw [List.foldl_cons, hturn, ih, hsame.serverFor, List.append_assoc]
        congr 1
        cases hserver : s.serverFor md5 uKey strSuffix info ip with
        | none => simp [hserver]
        | some uServerId => simp [hserver]
  exact hloop s []

/-- The last part returns whether a server is delivered. Where addresses are hashed it returns
true always, but has an address then, which stands for a server. -/
theorem multiServers_eq (md5 : List UInt8 → UInt32) (uKey : UInt32) (strSuffix : String)
    (s : CServerSelectorImp) {info : SHashInfo} {setValues : UIntSet}
    (hsome : info.emValueType = .serverIp → setValues.values ≠ []) :
    (s.multiServers md5 uKey strSuffix info setValues).2 =
      (!(setValues.values.filterMap (s.serverFor md5 uKey strSuffix info)).isEmpty,
        setValues.values.filterMap (s.serverFor md5 uKey strSuffix info)) := by
  unfold multiServers
  split
  next hip =>
    have hserver : s.serverFor md5 uKey strSuffix info =
        some ∘ fun value => s.serverIpToId strSuffix value.toUInt32 := by
      funext value
      rw [serverFor, if_pos hip]
      rfl
    obtain ⟨value, rest, hvalues⟩ := List.exists_cons_of_ne_nil (hsome hip)
    rw [hserver, List.filterMap_eq_map, hvalues]
    rfl
  next hvalue =>
    have hloop := serversOfIps_eq md5 uKey strSuffix hvalue s setValues.values
    dsimp only
    rw [hloop]

end Servers

/-! ## The answer -/

section Answer

variable (md5 : List UInt8 → UInt32) (s : CServerSelectorImp) (uKey uValueCount : UInt32)
  (strSuffix : String)

/-- The circle that is asked for values, if any: the one in the cache, or else one of all
addresses when more of them are there than wanted, or one of the servers unless there is just
one. -/
def askedCircle (info : SHashInfo) : Option Circle :=
  match s.mapCircleCache.find (toKeyString strSuffix 0xFFFFFFFF 0xFFFFFFFF) with
  | some circle => some circle
  | none =>
      if info.emValueType = .serverIpId then
        if (s.getServerIps strSuffix).entries.length ≤ uValueCount.toNat then none
        else some (getServerCircle s.hashIpContainer (s.getServerIps strSuffix).values)
      else
        match s.getServerIds strSuffix with
        | [_] => none
        | setServerId => some (getServerCircle s.hashContainer setServerId)

/-- The values that are chosen: those met first on the circle, or all addresses. -/
def chosen (info : SHashInfo) : List Nat :=
  match s.askedCircle uValueCount strSuffix info with
  | some circle =>
      ((metFrom circle (placeOf md5 info.emFuncType uKey)).take
        (max 1 (lookFor circle uValueCount))).map UInt32.toNat
  | none =>
      if info.emValueType = .serverIpId then (s.getServerIps strSuffix).values else []

/-- The walk round the circle that is asked ends. -/
def WalkEnds (info : SHashInfo) : Prop :=
  ∀ circle, s.askedCircle uValueCount strSuffix info = some circle → circle.entries ≠ [] →
    Ends circle (placeOf md5 info.emFuncType uKey) (lookFor circle uValueCount)

/-- The suffix has one server, which is neither an address nor on a circle of the cache. Its id
is returned as whether there is a server. -/
def Alone (info : SHashInfo) : Prop :=
  s.mapCircleCache.find (toKeyString strSuffix 0xFFFFFFFF 0xFFFFFFFF) = none ∧
    info.emValueType ≠ .serverIpId ∧
    ∃ id, s.getServerIds strSuffix = [id] ∧ id.toUInt32 ≠ 0

variable {md5 s uKey uValueCount strSuffix}

theorem metFrom_empty {circle : Circle} (hnone : circle.entries = []) (start : Nat) :
    metFrom circle start = [] := by
  have hlength := circle.length_circle start
  rw [hnone, List.length_nil, List.length_eq_zero_iff] at hlength
  rw [metFrom, hlength]
  rfl

theorem metFrom_ne_nil {circle : Circle} (hsome : circle.entries ≠ []) (start : Nat) :
    metFrom circle start ≠ [] := by
  obtain ⟨point, rest, hentries⟩ := List.exists_cons_of_ne_nil hsome
  have hpoint : point ∈ circle.entries := hentries ▸ List.mem_cons_self
  have hmet : point.2 ∈ metFrom circle start := by
    rw [metFrom, mem_firsts]
    exact List.mem_map_of_mem (OrderedMap.mem_circle.mpr (OrderedMap.mem_entries.mp hpoint))
  exact List.ne_nil_of_mem hmet

variable (md5 s uKey strSuffix) in
/-- The servers of these values are delivered, and it is returned whether there are any. -/
def Returns (info : SHashInfo) (chosen : List Nat)
    (answer : Option (CServerSelectorImp × Bool × List UInt32)) : Prop :=
  ∃ (last : CServerSelectorImp) (values : List Nat),
    answer = some (last, !(values.filterMap (s.serverFor md5 uKey strSuffix info)).isEmpty,
      values.filterMap (s.serverFor md5 uKey strSuffix info)) ∧
    values.Nodup ∧ ∀ value, value ∈ values ↔ value ∈ chosen

/-- In a state where the values stand for the same servers as in `s`. -/
theorem multiServers_returns {next : CServerSelectorImp} (hsame : SameServers strSuffix s next)
    {info : SHashInfo} {setValues : UIntSet} {chosen : List Nat}
    (hsome : info.emValueType = .serverIp → setValues.values ≠ [])
    (hvalues : ∀ value, value ∈ setValues.values ↔ value ∈ chosen) :
    Returns md5 s uKey strSuffix info chosen
      (some (next.multiServers md5 uKey strSuffix info setValues)) := by
  have hanswer := multiServers_eq md5 uKey strSuffix next hsome
  rw [hsame.serverFor] at hanswer
  refine ⟨(next.multiServers md5 uKey strSuffix info setValues).1, setValues.values, ?_,
    setValues.values_nodup, hvalues⟩
  rw [← hanswer]

theorem multiFromCircle_returns {next : CServerSelectorImp} (hsame : SameServers strSuffix s next)
    {info : SHashInfo} {circle : Circle}
    (hends : circle.entries ≠ [] →
      Ends circle (placeOf md5 info.emFuncType uKey) (lookFor circle uValueCount)) :
    Returns md5 s uKey strSuffix info
      (((metFrom circle (placeOf md5 info.emFuncType uKey)).take
        (max 1 (lookFor circle uValueCount))).map UInt32.toNat)
      (next.multiFromCircle md5 uKey uValueCount strSuffix info circle) := by
  unfold multiFromCircle
  by_cases hnone : circle.entries = []
  · rw [getMultiValueByKey_empty md5 circle info.emFuncType uKey uValueCount hnone]
    refine ⟨next, [], rfl, List.nodup_nil, ?_⟩
    simp [metFrom_empty hnone]
  · obtain ⟨setValues, hlookup, hvalues⟩ := getMultiValueByKey_ends hnone (hends hnone)
    rw [hlookup]
    apply multiServers_returns hsame
    · intro _
      obtain ⟨server, rest, hmet⟩ := List.exists_cons_of_ne_nil
        (metFrom_ne_nil hnone (placeOf md5 info.emFuncType uKey))
      obtain ⟨more, hmore⟩ : ∃ more, max 1 (lookFor circle uValueCount) = more + 1 :=
        Nat.exists_eq_succ_of_ne_zero (by omega)
      have hserver : server.toNat ∈ setValues.values := by
        rw [hvalues, hmet, hmore, List.take_succ_cons]
        exact ⟨server, List.mem_cons_self, rfl⟩
      exact List.ne_nil_of_mem hserver
    · intro value
      rw [hvalues, List.mem_map]

theorem multiFromCircle_stuck {next : CServerSelectorImp} {info : SHashInfo} {circle : Circle}
    (hsome : circle.entries ≠ [])
    (hstuck : ¬Ends circle (placeOf md5 info.emFuncType uKey) (lookFor circle uValueCount)) :
    next.multiFromCircle md5 uKey uValueCount strSuffix info circle = none := by
  unfold multiFromCircle
  rw [getMultiValueByKey_stuck hsome hstuck]
  rfl

section Query

variable {info : SHashInfo} (hinfo : s.mapSuffix.find strSuffix = some info)

include hinfo

variable (md5 uKey) in
/-- Where a circle is asked, it gives the answer. -/
theorem hashMultiServer_asked {circle : Circle}
    (hasked : s.askedCircle uValueCount strSuffix info = some circle) :
    ∃ next, SameServers strSuffix s next ∧
      s.hashMultiServer md5 uKey uValueCount strSuffix =
        next.multiFromCircle md5 uKey uValueCount strSuffix info circle := by
  have hmade : ∀ container setServerId, SameServers strSuffix s (s.circleFromContainer container
      (toKeyString strSuffix 0xFFFFFFFF 0xFFFFFFFF) setServerId).1 := by
    intro container setServerId
    apply circleFromContainer_sameServers
    intro ip serverIds hfind hkey
    exact absurd hkey (sameIp_key_ne ip)
  unfold askedCircle at hasked
  unfold hashMultiServer
  rw [hinfo]
  dsimp only
  cases hcache : s.mapCircleCache.find (toKeyString strSuffix 0xFFFFFFFF 0xFFFFFFFF) with
  | some cached =>
      rw [hcache] at hasked
      cases hasked
      exact ⟨s, SameServers.refl strSuffix s, rfl⟩
  | none =>
      rw [hcache] at hasked
      dsimp only at hasked ⊢
      by_cases hips : info.emValueType = .serverIpId
      · rw [if_pos hips] at hasked ⊢
        by_cases hfew : (s.getServerIps strSuffix).entries.length ≤ uValueCount.toNat
        · rw [if_pos hfew] at hasked
          cases hasked
        · rw [if_neg hfew, Option.some.injEq] at hasked
          have hsome : ¬(s.getServerIps strSuffix).isEmpty = true := by
            intro hempty
            rw [OrderedMap.isEmpty, List.isEmpty_iff] at hempty
            rw [hempty] at hfew
            exact hfew (Nat.zero_le _)
          rw [if_neg hsome, if_neg hfew]
          refine ⟨_, hmade s.hashIpContainer (s.getServerIps strSuffix).values, ?_⟩
          rw [circleFromContainer, hcache, hasked]
      · rw [if_neg hips] at hasked ⊢
        cases hids : s.getServerIds strSuffix with
        | nil =>
            rw [hids] at hasked
            cases hasked
            exact ⟨s, SameServers.refl strSuffix s, rfl⟩
        | cons id rest =>
            rw [hids] at hasked
            cases rest with
            | nil => cases hasked
            | cons next rest =>
                cases hasked
                refine ⟨_, hmade s.hashContainer (id :: next :: rest), ?_⟩
                dsimp only
                rw [circleFromContainer, hcache]

variable (md5 uKey) in
/-- Where none is asked, the suffix has few addresses, or just one server. -/
theorem hashMultiServer_unasked (hasked : s.askedCircle uValueCount strSuffix info = none) :
    (info.emValueType = .serverIpId ∧
        (s.getServerIps strSuffix).entries.length ≤ uValueCount.toNat ∧
        s.hashMultiServer md5 uKey uValueCount strSuffix =
          some (s.multiServers md5 uKey strSuffix info (s.getServerIps strSuffix))) ∨
      (s.mapCircleCache.find (toKeyString strSuffix 0xFFFFFFFF 0xFFFFFFFF) = none ∧
        info.emValueType ≠ .serverIpId ∧ ∃ id, s.getServerIds strSuffix = [id] ∧
          s.hashMultiServer md5 uKey uValueCount strSuffix =
            some (s, decide (id.toUInt32 ≠ 0), [])) := by
  unfold askedCircle at hasked
  unfold hashMultiServer
  rw [hinfo]
  dsimp only
  cases hcache : s.mapCircleCache.find (toKeyString strSuffix 0xFFFFFFFF 0xFFFFFFFF) with
  | some cached =>
      rw [hcache] at hasked
      cases hasked
  | none =>
      rw [hcache] at hasked
      dsimp only at hasked ⊢
      by_cases hips : info.emValueType = .serverIpId
      · rw [if_pos hips] at hasked ⊢
        by_cases hfew : (s.getServerIps strSuffix).entries.length ≤ uValueCount.toNat
        · refine .inl ⟨hips, hfew, ?_⟩
          by_cases hempty : (s.getServerIps strSuffix).isEmpty = true
          · have hentries : (s.getServerIps strSuffix).entries = [] := List.isEmpty_iff.mp hempty
            have hvalue : info.emValueType ≠ .serverIp := by
              rw [hips]
              decide
            rw [if_pos hempty, multiServers, if_neg hvalue, UIntSet.values, hentries]
            rfl
          · rw [if_neg hempty, if_pos hfew]
        · rw [if_neg hfew] at hasked
          cases hasked
      · rw [if_neg hips] at hasked ⊢
        cases hids : s.getServerIds strSuffix with
        | nil =>
            rw [hids] at hasked
            cases hasked
        | cons id rest =>
            rw [hids] at hasked
            cases rest with
            | nil => exact .inr ⟨rfl, hips, id, rfl, rfl⟩
            | cons next rest => cases hasked

variable (md5 uKey uValueCount) in
/-- The query ends just when the walk does. Where a suffix has one server alone, that is not
delivered; else those are that the chosen values stand for. -/
theorem hashMultiServer_returns :
    (s.Alone strSuffix info →
        s.hashMultiServer md5 uKey uValueCount strSuffix = some (s, true, [])) ∧
      (¬s.WalkEnds md5 uKey uValueCount strSuffix info →
        s.hashMultiServer md5 uKey uValueCount strSuffix = none) ∧
      (¬s.Alone strSuffix info → s.WalkEnds md5 uKey uValueCount strSuffix info →
        Returns md5 s uKey strSuffix info (s.chosen md5 uKey uValueCount strSuffix info)
          (s.hashMultiServer md5 uKey uValueCount strSuffix)) := by
  cases hasked : s.askedCircle uValueCount strSuffix info with
  | some circle =>
      obtain ⟨next, hsame, hanswer⟩ := hashMultiServer_asked md5 uKey hinfo hasked
      rw [hanswer, chosen, hasked]
      refine ⟨fun halone => ?_, fun hstuck => ?_, fun _ hends => ?_⟩
      · obtain ⟨hnone, hvalue, id, hid, -⟩ := halone
        simp [askedCircle, hnone, hvalue, hid] at hasked
      · have hcircle : ¬(circle.entries ≠ [] →
            Ends circle (placeOf md5 info.emFuncType uKey) (lookFor circle uValueCount)) := by
          intro hends
          apply hstuck
          intro other hother
          rw [hasked, Option.some.injEq] at hother
          exact hother ▸ hends
        obtain ⟨hsome, hnot⟩ := Classical.not_imp.mp hcircle
        exact multiFromCircle_stuck hsome hnot
      · exact multiFromCircle_returns hsame (hends circle hasked)
  | none =>
      have hends : s.WalkEnds md5 uKey uValueCount strSuffix info := by
        intro circle hcircle
        rw [hasked] at hcircle
        cases hcircle
      rw [chosen, hasked]
      rcases hashMultiServer_unasked md5 uKey hinfo hasked with
        ⟨hips, -, hanswer⟩ | ⟨hnone, hids, id, hid, hanswer⟩
      · refine ⟨fun halone => absurd hips halone.2.1, fun hstuck => absurd hends hstuck,
          fun _ _ => ?_⟩
        have hvalue : info.emValueType ≠ .serverIp := by
          rw [hips]
          decide
        rw [hanswer]
        apply multiServers_returns (SameServers.refl strSuffix s)
        · intro hip
          exact absurd hip hvalue
        · intro value
          dsimp only
          rw [if_pos hips]
      · refine ⟨fun halone => ?_, fun hstuck => absurd hends hstuck, fun hnot _ => ?_⟩
        · obtain ⟨-, -, other, hother, hne⟩ := halone
          rw [hid, List.singleton_inj] at hother
          rw [hanswer, hother, decide_eq_true hne]
        · have hzero : ¬id.toUInt32 ≠ 0 := fun hne => hnot ⟨hnone, hids, id, hid, hne⟩
          rw [hanswer, decide_eq_false hzero]
          refine ⟨s, [], rfl, List.nodup_nil, ?_⟩
          intro value
          dsimp only
          rw [if_neg hids]

end Query

/-- The answer is as meant: true just when a server is delivered, and then servers of the suffix,
each once, and no more than wanted. -/
def Delivers (md5 : List UInt8 → UInt32) (s : CServerSelectorImp) (uKey uValueCount : UInt32)
    (strSuffix : String) : Prop :=
  ∃ next ret vecValues,
    s.hashMultiServer md5 uKey uValueCount strSuffix = some (next, ret, vecValues) ∧
      (ret = true ↔ vecValues ≠ []) ∧
      (ret = true → vecValues.Nodup ∧
        (∀ uServerId ∈ vecValues, ∃ id ∈ s.getServerIds strSuffix, uServerId = id.toUInt32) ∧
        vecValues.length ≤ uValueCount.toNat)

/-- The chosen values stand for servers of the suffix, no two for the same one. When none is
wanted, they stand for none. -/
structure OwnServers (md5 : List UInt8 → UInt32) (s : CServerSelectorImp)
    (uKey uValueCount : UInt32) (strSuffix : String) (info : SHashInfo) : Prop where
  own : ∀ value ∈ s.chosen md5 uKey uValueCount strSuffix info, ∀ uServerId,
    s.serverFor md5 uKey strSuffix info value = some uServerId →
      ∃ id ∈ s.getServerIds strSuffix, uServerId = id.toUInt32
  apart : ∀ value ∈ s.chosen md5 uKey uValueCount strSuffix info,
    ∀ other ∈ s.chosen md5 uKey uValueCount strSuffix info, ∀ uServerId,
      s.serverFor md5 uKey strSuffix info value = some uServerId →
        s.serverFor md5 uKey strSuffix info other = some uServerId → value = other
  wanted : uValueCount ≠ 0 ∨ ∀ value ∈ s.chosen md5 uKey uValueCount strSuffix info,
    s.serverFor md5 uKey strSuffix info value = none

end Answer

/-- With groups of servers by address, it is enough that each point of the circle of an address
is of a server of the suffix that has this address. -/
theorem ownServers_of_circles {md5 : List UInt8 → UInt32} {s : CServerSelectorImp}
    {uKey uValueCount : UInt32} {strSuffix : String} {info : SHashInfo}
    (hips : info.emValueType = .serverIpId) (hwanted : uValueCount ≠ 0)
    (hcircles : ∀ ip serverIds position uServerId, s.mapIpServerIds.find ip = some serverIds →
      (s.ipCircle strSuffix ip serverIds).find position = some uServerId →
        ∃ server, (s.getServersInfo strSuffix).find uServerId.toNat = some server ∧
          server.testSrvIp.toNat = ip) :
    s.OwnServers md5 uKey uValueCount strSuffix info := by
  have hvalue : info.emValueType ≠ .serverIp := by
    rw [hips]
    decide
  have hserver : ∀ value uServerId, s.serverFor md5 uKey strSuffix info value = some uServerId →
      ∃ server, (s.getServersInfo strSuffix).find uServerId.toNat = some server ∧
        server.testSrvIp.toNat = value := by
    intro value uServerId hfor
    rw [serverFor, if_neg hvalue] at hfor
    cases hfind : s.mapIpServerIds.find value with
    | none =>
        rw [hfind] at hfor
        cases hfor
    | some serverIds =>
        rw [hfind] at hfor
        dsimp only at hfor
        split at hfor
        next hsome =>
          cases hfor
          rcases getValueByKey_find md5 (s.ipCircle strSuffix value serverIds) info.emFuncType uKey
            with ⟨-, hnone⟩ | ⟨position, hposition⟩
          · exact absurd hnone hsome
          · exact hcircles value serverIds position _ hfind hposition
        next => cases hfor
  refine ⟨fun value _ uServerId hfor => ?_, fun value _ other _ uServerId hfor hother => ?_,
    .inl hwanted⟩
  · obtain ⟨server, hfind, -⟩ := hserver value uServerId hfor
    refine ⟨uServerId.toNat, mem_serverIdsWhere.mpr ⟨server, hfind, rfl⟩, ?_⟩
    exact (UInt32.ofNat_toNat).symm
  · obtain ⟨server, hfind, hip⟩ := hserver value uServerId hfor
    obtain ⟨same, hsame, hother⟩ := hserver other uServerId hother
    rw [hfind, Option.some.injEq] at hsame
    rw [← hip, ← hother, hsame]

/-- Where ids are hashed, a server is delivered only for an id that is an address of some suffix:
the values are looked up in the table of addresses. -/
theorem chosen_undelivered {md5 : List UInt8 → UInt32} {s : CServerSelectorImp}
    {uKey uValueCount : UInt32} {strSuffix : String} {info : SHashInfo}
    (hinfo : s.mapSuffix.find strSuffix = some info) (hids : info.emValueType = .serverId)
    (hnot : ¬s.Alone strSuffix info) (hends : s.WalkEnds md5 uKey uValueCount strSuffix info)
    (htable : ∀ value ∈ s.chosen md5 uKey uValueCount strSuffix info,
      s.mapIpServerIds.find value = none) :
    ∃ next, s.hashMultiServer md5 uKey uValueCount strSuffix = some (next, false, []) := by
  obtain ⟨last, values, hanswer, -, hvalues⟩ :=
    (hashMultiServer_returns md5 uKey uValueCount hinfo).2.2 hnot hends
  have hvalue : info.emValueType ≠ .serverIp := by
    rw [hids]
    decide
  have hnone : values.filterMap (s.serverFor md5 uKey strSuffix info) = [] := by
    rw [List.filterMap_eq_nil_iff]
    intro value hmem
    rw [serverFor, if_neg hvalue, htable value ((hvalues value).mp hmem)]
  rw [hnone] at hanswer
  exact ⟨last, hanswer⟩

end CServerSelectorImp

end ServiceFrame
