import ServiceFrame.DaoProxy.DaoManager

/-! # Requests on their way

`sending_request` of a dao counts the requests that a server has not answered. The requests of
`ReqFSM` are kept beside the manager here, from `start_send_one` to `end_recv_one`, whatever
pings and configurations make of the entries in between.
-/

namespace ServiceFrame

open Foundation

namespace DaoStatManager

variable {Num : Type} {s next : DaoStatManager Num} {serverName daoName : String}

/-- `sending_request`, if the server has the dao. -/
def onway (s : DaoStatManager Num) (server dao : String) : Option UInt32 :=
  (s.servInfos.find server).bind fun info => (info.daoInfos.find dao).map (·.sendingRequest)

theorem onway_set {info : ServINFO Num}
    (hnext : next.servInfos = s.servInfos.set serverName info) (server dao : String) :
    next.onway server dao =
      if server = serverName then (info.daoInfos.find dao).map (·.sendingRequest)
      else s.onway server dao := by
  rw [onway, hnext]
  split
  next hserver => rw [hserver, OrderedMap.find_set_self, Option.bind_some]
  next hother => rw [OrderedMap.find_set_of_ne _ hother, onway]

theorem onway_erase (hnext : next.servInfos = s.servInfos.erase serverName)
    (server dao : String) :
    next.onway server dao = if server = serverName then none else s.onway server dao := by
  rw [onway, hnext]
  split
  next hserver => rw [hserver, OrderedMap.find_erase_self, Option.bind_none]
  next hother => rw [OrderedMap.find_erase_of_ne _ hother, onway]

/-- One dao of one server is written. -/
theorem onway_rewrite {old info : ServINFO Num} {dinf : DaoINFO Num}
    (hfind : s.servInfos.find serverName = some old)
    (hinfo : info.daoInfos = old.daoInfos.set daoName dinf) (server dao : String) :
    ({ s with servInfos := s.servInfos.set serverName info } : DaoStatManager Num).onway
        server dao =
      if server = serverName ∧ dao = daoName then some dinf.sendingRequest
      else s.onway server dao := by
  rw [onway_set rfl, hinfo]
  by_cases hserver : server = serverName
  · subst hserver
    by_cases hdao : dao = daoName
    · subst hdao
      rw [if_pos rfl, if_pos ⟨rfl, rfl⟩, OrderedMap.find_set_self, Option.map_some]
    · rw [if_pos rfl, if_neg (fun hboth => hdao hboth.2), OrderedMap.find_set_of_ne _ hdao, onway,
        hfind, Option.bind_some]
  · rw [if_neg hserver, if_neg (fun hboth => hserver hboth.1)]

theorem onway_known {serv : ServINFO Num} (hfind : s.servInfos.find serverName = some serv) :
    s.onway serverName daoName = (serv.daoInfos.find daoName).map (·.sendingRequest) := by
  rw [onway, hfind, Option.bind_some]

/-- A dao that is there is written, with its counter changed. -/
theorem onway_rewrite_map {old info : ServINFO Num} {before after : DaoINFO Num}
    (change : UInt32 → UInt32) (hfind : s.servInfos.find serverName = some old)
    (hdao : old.daoInfos.find daoName = some before)
    (hinfo : info.daoInfos = old.daoInfos.set daoName after)
    (hchange : after.sendingRequest = change before.sendingRequest) (server dao : String) :
    ({ s with servInfos := s.servInfos.set serverName info } : DaoStatManager Num).onway
        server dao =
      if server = serverName ∧ dao = daoName then (s.onway server dao).map change
      else s.onway server dao := by
  rw [onway_rewrite hfind hinfo]
  split
  next hsame =>
    obtain ⟨rfl, rfl⟩ := hsame
    rw [onway_known hfind, hdao, Option.map_some, Option.map_some, hchange]
  next => rfl

/-- A change that has no effect on the counter it is for has none at all. -/
theorem onway_unchanged {change : UInt32 → UInt32}
    (hsame : (s.onway serverName daoName).map change = s.onway serverName daoName)
    (server dao : String) :
    s.onway server dao =
      if server = serverName ∧ dao = daoName then (s.onway server dao).map change
      else s.onway server dao := by
  split
  next heq =>
    obtain ⟨rfl, rfl⟩ := heq
    exact hsame.symm
  next => rfl

/-! ## What the operations do to the counters -/

theorem onway_updateServerdaoFree (s : DaoStatManager Num) (sername daoname : String)
    (free : UInt32) (server dao : String) :
    (s.updateServerdaoFree sername daoname free).1.onway server dao = s.onway server dao := by
  unfold updateServerdaoFree
  cases hserver : s.servInfos.find sername with
  | none => rfl
  | some i =>
      dsimp only
      cases hdao : i.daoInfos.find daoname with
      | none => rfl
      | some v =>
          dsimp only
          apply (onway_rewrite_map id hserver hdao (by rfl) (by rfl) server dao).trans
          rw [Option.map_id_fun, id, ite_self]

theorem onway_predictSendOne {pserv : String} {now : Nat}
    (hnext : s.predictSendOne pserv daoName now = some next) (server dao : String) :
    next.onway server dao = s.onway server dao := by
  unfold predictSendOne at hnext
  obtain ⟨serv, hserver, hnext⟩ := Option.bind_eq_some_iff.mp hnext
  cases hdao : serv.daoInfos.find daoName with
  | none =>
      rw [hdao] at hnext
      cases hnext
      rfl
  | some b =>
      rw [hdao] at hnext
      cases hnext
      refine (onway_rewrite_map id hserver hdao (by rfl) ?_ server dao).trans ?_
      · split <;> rfl
      · rw [Option.map_id_fun, id, ite_self]

theorem onway_startSendOne {pserv : String} (hnext : s.startSendOne pserv daoName = some next)
    (server dao : String) :
    next.onway server dao =
      if server = pserv ∧ dao = daoName then (s.onway server dao).map (· + 1)
      else s.onway server dao := by
  unfold startSendOne at hnext
  obtain ⟨serv, hserver, hnext⟩ := Option.bind_eq_some_iff.mp hnext
  cases hdao : serv.daoInfos.find daoName with
  | none =>
      rw [hdao] at hnext
      cases hnext
      refine onway_unchanged ?_ server dao
      rw [onway_known hserver, hdao]
      rfl
  | some b =>
      rw [hdao] at hnext
      cases hnext
      exact onway_rewrite_map (· + 1) hserver hdao (by rfl) (by rfl) server dao

theorem onway_endRecvOne (s : DaoStatManager Num) (serverName daoName server dao : String) :
    (s.endRecvOne serverName daoName).onway server dao =
      if server = serverName ∧ dao = daoName then
        (s.onway server dao).map fun n => if n > 0 then n - 1 else n
      else s.onway server dao := by
  unfold endRecvOne
  cases hserver : s.servInfos.find serverName with
  | none =>
      refine onway_unchanged ?_ server dao
      rw [onway, hserver]
      rfl
  | some serv =>
      dsimp only
      cases hdao : serv.daoInfos.find daoName with
      | none =>
          refine onway_unchanged ?_ server dao
          rw [onway_known hserver, hdao]
          rfl
      | some b =>
          dsimp only
          by_cases hpos : b.sendingRequest > 0
          · rw [if_pos hpos]
            refine onway_rewrite_map _ hserver hdao (by rfl) ?_ server dao
            exact (if_pos hpos).symm
          · rw [if_neg hpos]
            refine onway_unchanged ?_ server dao
            rw [onway_known hserver, hdao, Option.map_some, Option.map_some, if_neg hpos]

theorem innerDelServer_servInfos (hnext : s.innerDelServer serverName = some next) :
    next.servInfos = s.servInfos.erase serverName := by
  unfold innerDelServer at hnext
  cases hfind : s.servInfos.find serverName with
  | none =>
      rw [hfind] at hnext
      cases hnext
      exact (OrderedMap.erase_of_find_none hfind).symm
  | some temser =>
      rw [hfind] at hnext
      obtain ⟨daoIndex, -, hnext⟩ := Option.bind_eq_some_iff.mp hnext
      cases hnext
      rfl

/-- The loop writes at its own keys, which come once each. -/
theorem fillDynamicStat_loop (old : OrderedMap String (DaoINFO Num))
    {entries : List (String × DaoINFO Num)} (hsorted : entries.Pairwise fun a b => a.1 < b.1)
    (infos : OrderedMap String (DaoINFO Num)) (dao : String) :
    ((entries.foldl (fun infos vv =>
        match old.find vv.1 with
        | some fdOld =>
            infos.set vv.1 { vv.2 with
              sendingRequest := fdOld.sendingRequest
              lmsK := fdOld.lmsK
              lmsB := fdOld.lmsB }
        | none => infos) infos).find dao).map (·.sendingRequest) =
      if (findEntry dao entries).isSome ∧ (old.find dao).isSome then
        (old.find dao).map (·.sendingRequest)
      else (infos.find dao).map (·.sendingRequest) := by
  induction entries generalizing infos with
  | nil => simp [findEntry]
  | cons head rest ih =>
      obtain ⟨key, dinf⟩ := head
      obtain ⟨hhead, hrest⟩ := List.pairwise_cons.mp hsorted
      rw [List.foldl_cons, ih hrest, findEntry]
      by_cases hkey : dao = key
      · subst hkey
        have hgone : findEntry dao rest = none := by
          rw [Option.eq_none_iff_forall_ne_some]
          intro later hlater
          exact lt_irrefl dao (hhead _ ((findEntry_eq_some hrest).mp hlater))
        rw [hgone, if_neg (by simp), if_pos rfl]
        cases hold : old.find dao with
        | none => simp
        | some fdOld => simp [OrderedMap.find_set_self]
      · rw [if_neg hkey]
        have hsame : ∀ info, (infos.set key info).find dao = infos.find dao := fun info =>
          OrderedMap.find_set_of_ne _ hkey info
        cases hold : old.find key with
        | none => rfl
        | some fdOld => simp only [hsame]

/-- A dao keeps the counter that the old entry had for it. -/
theorem fillDynamicStat_sending (old infos : OrderedMap String (DaoINFO Num)) (dao : String) :
    ((fillDynamicStat old infos).find dao).map (·.sendingRequest) =
      (infos.find dao).map fun dinf =>
        ((old.find dao).map (·.sendingRequest)).getD dinf.sendingRequest := by
  apply (fillDynamicStat_loop old infos.sorted infos dao).trans
  change (if (infos.find dao).isSome ∧ (old.find dao).isSome then _ else _) = _
  cases infos.find dao with
  | none => simp
  | some dinf =>
      cases old.find dao with
      | none => simp
      | some fdOld => simp

theorem onway_innerSetServer {info : ServINFO Num}
    (hnext : s.innerSetServer serverName info = some next) (server dao : String) :
    next.onway server dao =
      if server = serverName then
        (info.daoInfos.find dao).map fun dinf => (s.onway server dao).getD dinf.sendingRequest
      else s.onway server dao := by
  unfold innerSetServer at hnext
  cases hfind : s.servInfos.find serverName with
  | none =>
      rw [hfind] at hnext
      cases hnext
      rw [onway_set rfl]
      split
      next hserver =>
        subst hserver
        have hnone : s.onway server dao = none := by rw [onway, hfind, Option.bind_none]
        simp only [hnone, Option.getD_none]
      next => rfl
  | some old =>
      rw [hfind] at hnext
      obtain ⟨middle, hmiddle, hnext⟩ := Option.bind_eq_some_iff.mp hnext
      cases hnext
      rw [onway_set rfl]
      split
      next hserver =>
        subst hserver
        have hold : s.onway server dao = (old.daoInfos.find dao).map (·.sendingRequest) := by
          rw [onway, hfind, Option.bind_some]
        rw [hold]
        exact fillDynamicStat_sending old.daoInfos info.daoInfos dao
      next hother =>
        rw [onway_erase (innerDelServer_servInfos hmiddle), if_neg hother]

/-- No counter is written: each is as it was, or gone. -/
def Fewer (s next : DaoStatManager Num) : Prop :=
  ∀ server dao, next.onway server dao = none ∨ next.onway server dao = s.onway server dao

theorem Fewer.refl (s : DaoStatManager Num) : Fewer s s := fun _ _ => Or.inr rfl

theorem Fewer.trans {middle : DaoStatManager Num} (hfirst : Fewer s middle)
    (hsecond : Fewer middle next) : Fewer s next := by
  intro server dao
  rcases hsecond server dao with hgone | hsame
  · exact Or.inl hgone
  · rw [hsame]
    exact hfirst server dao

theorem innerDelServer_fewer (hnext : s.innerDelServer serverName = some next) :
    Fewer s next := by
  intro server dao
  rw [onway_erase (innerDelServer_servInfos hnext)]
  split
  · exact Or.inl rfl
  · exact Or.inr rfl

theorem innerSetServer_fewer {address : PrcAdd}
    (hnext : s.innerSetServer serverName address.servInfo = some next) : Fewer s next := by
  intro server dao
  rw [onway_innerSetServer hnext]
  split
  · exact Or.inl rfl
  · exact Or.inr rfl

theorem setFromConf_fewer {n : String × PrcAdd} (hnext : s.setFromConf n = some next) :
    Fewer s next := by
  unfold setFromConf at hnext
  cases hfind : s.servInfos.find n.1 with
  | none =>
      rw [hfind] at hnext
      exact innerSetServer_fewer hnext
  | some o =>
      rw [hfind] at hnext
      dsimp only at hnext
      split at hnext
      · exact innerSetServer_fewer hnext
      · cases hnext
        exact Fewer.refl s

theorem initFromConf_fewer {outdat : OrderedMap String PrcAdd}
    (hnext : s.initFromConf outdat = some next) : Fewer s next := by
  obtain ⟨middle, hset, hdel⟩ := Option.bind_eq_some_iff.mp hnext
  have hfirst : Fewer s middle :=
    foldlM_related Fewer.refl Fewer.trans (fun _ _ _ => setFromConf_fewer) hset
  refine hfirst.trans (foldlM_related Fewer.refl Fewer.trans ?_ hdel)
  intro s temname next hstep
  cases hfind : outdat.find temname with
  | none =>
      rw [hfind] at hstep
      exact innerDelServer_fewer hstep
  | some address =>
      rw [hfind] at hstep
      cases hstep
      exact Fewer.refl s

section Ping

variable [Floating Num]

/-- The daos of a ping have sent nothing yet. -/
theorem daoInfosOf_find (daoinfos : List DAOLOAD) (dao : String) :
    ((daoInfosOf daoinfos : OrderedMap String (DaoINFO Num)).find dao).map (·.sendingRequest) =
      if ∃ load ∈ daoinfos, load.daoName = dao then some 0 else none := by
  induction daoinfos using List.reverseRecOn with
  | nil => simp [daoInfosOf]
  | append_singleton past load ih =>
      have hlast : (daoInfosOf (past ++ [load]) : OrderedMap String (DaoINFO Num)) =
          (daoInfosOf past).set load.daoName load.daoInfo := by
        rw [daoInfosOf, List.foldl_append]
        rfl
      rw [hlast]
      by_cases hname : dao = load.daoName
      · rw [hname, OrderedMap.find_set_self, if_pos ⟨load, by simp, rfl⟩]
        rfl
      · rw [OrderedMap.find_set_of_ne _ hname, ih]
        have hsame : (∃ other ∈ past ++ [load], other.daoName = dao) ↔
            ∃ other ∈ past, other.daoName = dao := by
          simp [or_and_right, exists_or, Ne.symm hname]
        simp only [hsame]

/-- After a ping a server has the daos of the ping: those that it had with their counters, and
the others with none on their way. -/
theorem onway_updateDaoInfo {srvname : String} {daoinfos : List DAOLOAD} {now : Nat}
    {result : Int} (hnext : s.updateDaoInfo srvname daoinfos now = some (next, result))
    (server dao : String) :
    next.onway server dao =
      if server = srvname ∧ (s.servInfos.find srvname).isSome then
        if ∃ load ∈ daoinfos, load.daoName = dao then some ((s.onway server dao).getD 0) else none
      else s.onway server dao := by
  unfold updateDaoInfo at hnext
  cases hfind : s.servInfos.find srvname with
  | none =>
      rw [hfind] at hnext
      cases hnext
      simp
  | some z =>
      rw [hfind] at hnext
      obtain ⟨middle, hset, hnext⟩ := Option.bind_eq_some_iff.mp hnext
      cases hnext
      rw [onway_innerSetServer hset]
      by_cases hserver : server = srvname
      · have hfound := @daoInfosOf_find Num _ daoinfos dao
        rw [if_pos hserver, if_pos ⟨hserver, rfl⟩]
        split at hfound
        next hnamed =>
          obtain ⟨dinf, hdinf, hzero⟩ := Option.map_eq_some_iff.mp hfound
          rw [if_pos hnamed, hdinf, Option.map_some, hzero]
        next hunnamed =>
          rw [if_neg hunnamed, Option.map_eq_none_iff.mp hfound, Option.map_none]
      · rw [if_neg hserver, if_neg (fun hboth => hserver hboth.1)]

end Ping

end DaoStatManager

/-- The manager, and the server and the dao of each request that was sent and has neither been
answered nor timed out. -/
structure InFlight (Num : Type) where
  stat : DaoStatManager Num
  sent : List (String × String)

namespace InFlight

open DaoStatManager

variable {Num : Type}

/-- `start` is a request for which a server of the dao was selected; it is sent unless there is
no connection. -/
inductive Event where
  | conf (outdat : OrderedMap String PrcAdd)
  | ping (srvname : String) (daoinfos : List DAOLOAD) (now : Nat)
  | start (server dao : String) (now : Nat) (sends : Bool)
  | answered (server dao : String) (free : UInt32)
  | timedOut (server dao : String)

/-- `ReqFSM::start` behind its selections. -/
def start (f : InFlight Num) (server dao : String) (now : Nat) (sends : Bool) :
    Option (InFlight Num) := do
  let predicted ← f.stat.predictSendOne server dao now
  if sends then
    let started ← predicted.startSendOne server dao
    some ⟨started, (server, dao) :: f.sent⟩
  else some ⟨predicted, f.sent⟩

def step [Floating Num] (f : InFlight Num) : Event → Option (InFlight Num)
  | .conf outdat => (f.stat.initFromConf outdat).map fun stat => ⟨stat, f.sent⟩
  | .ping srvname daoinfos now =>
      (f.stat.updateDaoInfo srvname daoinfos now).map fun updated => ⟨updated.1, f.sent⟩
  | .start server dao now sends =>
      if (f.stat.onway server dao).isSome then f.start server dao now sends else none
  | .answered server dao free =>
      if (server, dao) ∈ f.sent then
        some ⟨((f.stat.endRecvOne server dao).updateServerdaoFree server dao free).1,
          f.sent.erase (server, dao)⟩
      else none
  | .timedOut server dao =>
      if (server, dao) ∈ f.sent then
        some ⟨f.stat.endRecvOne server dao, f.sent.erase (server, dao)⟩
      else none

/-- Each dao that a server provides counts the requests that are on their way to it. -/
def Accounted (f : InFlight Num) : Prop :=
  ∀ server dao n, f.stat.onway server dao = some n → n.toNat = f.sent.count (server, dao)

/-- A ping brings a server no dao that it has not and that requests are still on their way to,
and no counter is full. -/
def Countable (f : InFlight Num) : Event → Prop
  | .ping srvname daoinfos _ =>
      (f.stat.servInfos.find srvname).isSome → ∀ load ∈ daoinfos,
        f.stat.onway srvname load.daoName = none → (srvname, load.daoName) ∉ f.sent
  | .start server dao _ sends =>
      sends = true → (f.stat.onway server dao).isSome → f.sent.count (server, dao) + 1 < 2 ^ 32
  | _ => True

variable {f next : InFlight Num}

theorem isSome_onway {s : DaoStatManager Num} {server dao : String}
    (hsome : (s.onway server dao).isSome) : ∃ serv, s.servInfos.find server = some serv := by
  cases hfind : s.servInfos.find server with
  | none => simp [onway, hfind] at hsome
  | some serv => exact ⟨serv, rfl⟩

/-! ## One step -/

/-- A request that ends is taken from both. -/
theorem accounted_end (haccounted : Accounted f) {server dao : String}
    (hsent : (server, dao) ∈ f.sent) :
    Accounted ⟨f.stat.endRecvOne server dao, f.sent.erase (server, dao)⟩ := by
  intro other otherDao n hn
  change (f.stat.endRecvOne server dao).onway other otherDao = some n at hn
  change n.toNat = (f.sent.erase (server, dao)).count (other, otherDao)
  rw [onway_endRecvOne] at hn
  split at hn
  next hsame =>
    obtain ⟨rfl, rfl⟩ := hsame
    obtain ⟨old, hold, hlower⟩ := Option.map_eq_some_iff.mp hn
    have hcount := haccounted other otherDao old hold
    have hpositive : 0 < f.sent.count (other, otherDao) := List.count_pos_iff.mpr hsent
    have hpos : old > 0 := by
      rw [gt_iff_lt, UInt32.lt_iff_toNat_lt, hcount]
      exact hpositive
    rw [if_pos hpos] at hlower
    rw [← hlower, List.count_erase_self, ← hcount, UInt32.toNat_sub_of_le]
    · rfl
    · rw [UInt32.le_iff_toNat_le, hcount]
      exact hpositive
  next hdiff =>
    have hne : (server, dao) ≠ (other, otherDao) := by
      intro heq
      cases heq
      exact hdiff ⟨rfl, rfl⟩
    rw [List.count_erase_of_ne hne.symm]
    exact haccounted other otherDao n hn

theorem accounted_answered (haccounted : Accounted f) {server dao : String}
    (hsent : (server, dao) ∈ f.sent) (free : UInt32) :
    Accounted ⟨((f.stat.endRecvOne server dao).updateServerdaoFree server dao free).1,
      f.sent.erase (server, dao)⟩ := by
  intro other otherDao n hn
  change DaoStatManager.onway _ _ _ = _ at hn
  rw [onway_updateServerdaoFree] at hn
  exact accounted_end haccounted hsent other otherDao n hn

theorem accounted_conf (haccounted : Accounted f) {stat : DaoStatManager Num}
    (hfewer : Fewer f.stat stat) : Accounted ⟨stat, f.sent⟩ := by
  intro server dao n hn
  change stat.onway server dao = some n at hn
  rcases hfewer server dao with hgone | hsame
  · rw [hgone] at hn
    cases hn
  · exact haccounted server dao n (hsame ▸ hn)

/-- After a ping the counters are right exactly when none starts behind. -/
theorem accounted_ping [Floating Num] (haccounted : Accounted f) {srvname : String}
    {daoinfos : List DAOLOAD} {now : Nat} {stat : DaoStatManager Num} {result : Int}
    (hnext : f.stat.updateDaoInfo srvname daoinfos now = some (stat, result)) :
    Accounted ⟨stat, f.sent⟩ ↔ Countable f (.ping srvname daoinfos now) := by
  constructor
  · intro hafter hknown load hload hnew
    have hzero : stat.onway srvname load.daoName = some 0 := by
      rw [onway_updateDaoInfo hnext, if_pos ⟨rfl, hknown⟩, if_pos ⟨load, hload, rfl⟩, hnew]
      rfl
    have hcount := hafter srvname load.daoName 0 hzero
    exact List.count_eq_zero.mp hcount.symm
  · intro hcountable server dao n hn
    change stat.onway server dao = some n at hn
    rw [onway_updateDaoInfo hnext] at hn
    split at hn
    next hpinged =>
      obtain ⟨rfl, hknown⟩ := hpinged
      split at hn
      next hnamed =>
        obtain ⟨load, hload, rfl⟩ := hnamed
        cases hold : f.stat.onway server load.daoName with
        | none =>
            rw [hold] at hn
            cases hn
            exact (List.count_eq_zero.mpr (hcountable hknown load hload hold)).symm
        | some old =>
            rw [hold] at hn
            cases hn
            exact haccounted server load.daoName _ hold
      next => cases hn
    next => exact haccounted server dao n hn

/-- A start that is not sent leaves the counters, and one that is sent is one more. -/
theorem start_cases {server dao : String} {now : Nat} {sends : Bool}
    (hnext : f.start server dao now sends = some next) :
    (sends = false ∧ next.sent = f.sent ∧ next.stat.onway = f.stat.onway) ∨
      (sends = true ∧ next.sent = (server, dao) :: f.sent ∧
        ∀ other otherDao, next.stat.onway other otherDao =
          if other = server ∧ otherDao = dao then (f.stat.onway other otherDao).map (· + 1)
          else f.stat.onway other otherDao) := by
  obtain ⟨predicted, hpredict, hnext⟩ := Option.bind_eq_some_iff.mp hnext
  have hpredicted : predicted.onway = f.stat.onway :=
    funext fun other => funext fun otherDao => onway_predictSendOne hpredict other otherDao
  cases sends with
  | false =>
      cases hnext
      exact Or.inl ⟨rfl, rfl, hpredicted⟩
  | true =>
      rw [if_pos rfl] at hnext
      obtain ⟨started, hstart, hnext⟩ := Option.bind_eq_some_iff.mp hnext
      cases hnext
      refine Or.inr ⟨rfl, rfl, fun other otherDao => ?_⟩
      rw [onway_startSendOne hstart, hpredicted]

/-- After a start the counters are right exactly when the dao's own has not gone round. -/
theorem accounted_start (haccounted : Accounted f) {server dao : String} {now : Nat}
    {sends : Bool} (hsome : (f.stat.onway server dao).isSome)
    (hnext : f.start server dao now sends = some next) :
    Accounted next ↔ Countable f (.start server dao now sends) := by
  rcases start_cases hnext with ⟨rfl, hsent, honway⟩ | ⟨rfl, hsent, honway⟩
  · refine iff_of_true (fun other otherDao n hn => ?_) (fun hsends => by cases hsends)
    rw [hsent]
    exact haccounted other otherDao n (honway ▸ hn)
  · obtain ⟨old, hold⟩ := Option.isSome_iff_exists.mp hsome
    have hadd : (old + 1).toNat = (f.sent.count (server, dao) + 1) % 2 ^ 32 := by
      rw [UInt32.toNat_add, haccounted server dao old hold]
      rfl
    constructor
    · intro hafter _ _
      have hself : next.stat.onway server dao = some (old + 1) := by
        rw [honway, if_pos ⟨rfl, rfl⟩, hold, Option.map_some]
      have hnew := hafter server dao (old + 1) hself
      rw [hadd, hsent, List.count_cons_self] at hnew
      rw [← hnew]
      exact Nat.mod_lt _ (by decide)
    · intro hcountable other otherDao n hn
      rw [honway] at hn
      rw [hsent]
      split at hn
      next hsame =>
        obtain ⟨rfl, rfl⟩ := hsame
        rw [hold] at hn
        cases hn
        rw [hadd, List.count_cons_self, Nat.mod_eq_of_lt (hcountable rfl hsome)]
      next hdiff =>
        have hne : (server, dao) ≠ (other, otherDao) := by
          intro heq
          cases heq
          exact hdiff ⟨rfl, rfl⟩
        rw [List.count_cons_of_ne hne]
        exact haccounted other otherDao n hn

/-! ## Runs -/

section Runs

structure Inv (f : InFlight Num) : Prop where
  coherent : Coherent f.stat
  accounted : Accounted f

theorem start_coherent (hcoherent : Coherent f.stat) {server dao : String} (now : Nat)
    (sends : Bool) (hsome : (f.stat.onway server dao).isSome) :
    ∃ next, f.start server dao now sends = some next ∧ Coherent next.stat := by
  obtain ⟨serv, hserver⟩ := isSome_onway hsome
  obtain ⟨predicted, hpredict, hpredicted⟩ := hcoherent.predictSendOne hserver dao now
  unfold start
  rw [hpredict, Option.bind_eq_bind, Option.bind_some]
  cases sends with
  | false => exact ⟨_, rfl, hpredicted⟩
  | true =>
      have hstill : (predicted.onway server dao).isSome := by
        rwa [onway_predictSendOne hpredict]
      obtain ⟨serv, hserver⟩ := isSome_onway hstill
      obtain ⟨started, hstart, hstarted⟩ := hpredicted.startSendOne hserver dao
      rw [if_pos rfl, hstart]
      exact ⟨_, rfl, hstarted⟩

variable [Floating Num]

/-- A step leaves the index coherent, and the counters right exactly when they can be. -/
theorem step_spec (hinv : Inv f) {event : Event} (hstep : f.step event = some next) :
    Coherent next.stat ∧ (Accounted next ↔ Countable f event) := by
  obtain ⟨hcoherent, haccounted⟩ := hinv
  cases event with
  | conf outdat =>
      obtain ⟨stat, hconf, hnext⟩ := Option.map_eq_some_iff.mp hstep
      cases hnext
      obtain ⟨other, hother, hotherCoherent⟩ := hcoherent.initFromConf outdat
      cases hconf.symm.trans hother
      exact ⟨hotherCoherent,
        iff_of_true (accounted_conf haccounted (initFromConf_fewer hconf)) trivial⟩
  | ping srvname daoinfos now =>
      obtain ⟨⟨stat, result⟩, hping, hnext⟩ := Option.map_eq_some_iff.mp hstep
      cases hnext
      obtain ⟨other, otherResult, hother, hotherCoherent⟩ :=
        hcoherent.updateDaoInfo srvname daoinfos now
      cases hping.symm.trans hother
      exact ⟨hotherCoherent, accounted_ping haccounted hping⟩
  | start server dao now sends =>
      rw [step] at hstep
      split at hstep
      next hsome =>
        obtain ⟨other, hother, hotherCoherent⟩ := start_coherent hcoherent now sends hsome
        cases hstep.symm.trans hother
        exact ⟨hotherCoherent, accounted_start haccounted hsome hstep⟩
      next => cases hstep
  | answered server dao free =>
      rw [step] at hstep
      split at hstep
      next hsent =>
        cases hstep
        exact ⟨(hcoherent.endRecvOne server dao).updateServerdaoFree server dao free,
          iff_of_true (accounted_answered haccounted hsent free) trivial⟩
      next => cases hstep
  | timedOut server dao =>
      rw [step] at hstep
      split at hstep
      next hsent =>
        cases hstep
        exact ⟨hcoherent.endRecvOne server dao,
          iff_of_true (accounted_end haccounted hsent) trivial⟩
      next => cases hstep

/-- A step that would make the counters wrong is taken. -/
theorem step_exact (hinv : Inv f) (event : Event) :
    (∀ next, f.step event = some next → Accounted next) ↔ Countable f event := by
  constructor
  · intro hall
    cases event with
    | conf outdat => trivial
    | ping srvname daoinfos now =>
        obtain ⟨stat, result, hping, -⟩ := hinv.coherent.updateDaoInfo srvname daoinfos now
        have hstep : f.step (.ping srvname daoinfos now) = some ⟨stat, f.sent⟩ := by
          rw [step, hping]
          rfl
        exact (step_spec hinv hstep).2.mp (hall _ hstep)
    | start server dao now sends =>
        intro hsends hsome
        obtain ⟨next, hnext, -⟩ := start_coherent hinv.coherent now sends hsome
        have hstep : f.step (.start server dao now sends) = some next := by
          rw [step, if_pos hsome, hnext]
        exact (step_spec hinv hstep).2.mp (hall _ hstep) hsends hsome
    | answered server dao free => trivial
    | timedOut server dao => trivial
  · exact fun hcountable next hstep => (step_spec hinv hstep).2.mpr hcountable

/-- From the constructed manager on, the counters are right in every state of a run exactly
when each of its steps lets them be. -/
theorem accounted_iff (events : List Event) :
    Throughout step Accounted (⟨new, []⟩ : InFlight Num) events ↔
      Along step Countable (⟨new, []⟩ : InFlight Num) events := by
  have hstart : Inv (⟨new, []⟩ : InFlight Num) := by
    refine ⟨new_coherent, fun server dao n hn => ?_⟩
    cases hn
  refine throughout_iff_along Inv ?_ (fun f hinv => hinv.accounted) ?_ hstart events
  · intro f event next hinv hcountable hstep
    obtain ⟨hcoherent, haccounted⟩ := step_spec hinv hstep
    exact ⟨hcoherent, haccounted.mpr hcountable⟩
  · exact fun f event hinv => step_exact hinv event

/-- Numbers that are not rounded. -/
instance rationals : Floating Rat where
  lt first second := first < second
  le first second := first ≤ second
  float := id
  double := id

/-- A server drops a dao from a ping and has it in the next one, with a request on its way. -/
def daoReturns : List Event :=
  let load : DAOLOAD := ⟨"dao", 0, 100, 1, ""⟩
  [.conf (OrderedMap.empty.set "server" ⟨[("127.0.0.1", 345)], 0⟩), .ping "server" [load] 0,
    .start "server" "dao" 0 true, .ping "server" [] 1, .ping "server" [load] 2]

theorem request_forgotten :
    ¬ Throughout step Accounted (⟨new, []⟩ : InFlight Rat) daoReturns := by
  intro hall
  have hcounts : (run step (⟨new, []⟩ : InFlight Rat) daoReturns).map (fun f =>
      (f.stat.onway "server" "dao", f.sent.count ("server", "dao"))) = some (some 0, 1) := by
    decide +kernel
  obtain ⟨final, hrun, hfinal⟩ := Option.map_eq_some_iff.mp hcounts
  obtain ⟨hzero, hone⟩ := Prod.mk.inj hfinal
  have hcount := hall.final hrun "server" "dao" 0 hzero
  rw [hone] at hcount
  cases hcount

end Runs

end InFlight

end ServiceFrame
