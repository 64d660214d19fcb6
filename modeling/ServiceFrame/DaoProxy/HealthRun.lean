import Mathlib.Tactic.IntervalCases
import ServiceFrame.DaoProxy.DaoConnectionManager
import ServiceFrame.Foundation.Run

/-! # Levels and counters over runs

Whatever raises, lowers and reloads them, the bad levels and the ping counters stay in their
ranges, and so the counter of an address comes to 0, and a ping is sent, again and again.
-/

namespace ServiceFrame

open Foundation

namespace DaoConnectionManager

open PxGlobalConf

variable {Num : Type}

/-! ## Ranges -/

structure IPINFO.InRange (info : IPINFO Num) : Prop where
  levelNonneg : 0 ≤ info.badLevel
  levelLe : info.badLevel ≤ 6
  counterPos : 1 ≤ info.pingCounter
  counterLe : info.pingCounter ≤ 64

theorem addbadlevel_range {level : Int} (hnonneg : 0 ≤ level) (hle : level ≤ 6) :
    0 ≤ addbadlevel level ∧ addbadlevel level ≤ 6 := by
  unfold addbadlevel
  split <;> omega

theorem tinyaddbadlevel_range {level : Int} (hnonneg : 0 ≤ level) (hle : level ≤ 6) :
    0 ≤ tinyaddbadlevel level ∧ tinyaddbadlevel level ≤ 6 := by
  unfold tinyaddbadlevel
  split <;> omega

theorem okrespbadlevel_range {level : Int} (hnonneg : 0 ≤ level) (hle : level ≤ 6) :
    0 ≤ okrespbadlevel level ∧ okrespbadlevel level ≤ 6 := by
  unfold okrespbadlevel
  split
  · omega
  · split <;> omega

/-- The counter of any level is one of 1, 2, 4, .., 64. -/
theorem badlevel2time_range (level : Int) :
    1 ≤ badlevel2time level / 5 ∧ badlevel2time level / 5 ≤ 64 := by
  unfold badlevel2time
  split
  next => omega
  next hlow =>
    split
    next => omega
    next hpos =>
      have hlower : 1 ≤ level := by omega
      have hupper : level ≤ 5 := by omega
      interval_cases level <;> decide

section Address

variable {info : IPINFO Num} (factory : Factory) (ipport : IpPort)

theorem getConnection_counter :
    (info.getConnection factory ipport).2.2.pingCounter = info.pingCounter := by
  unfold IPINFO.getConnection
  split
  · rfl
  · dsimp only
    split
    · split <;> rfl
    · split <;> rfl

theorem getConnection_inRange (hrange : info.InRange) :
    (info.getConnection factory ipport).2.2.InRange := by
  have hadd := addbadlevel_range hrange.levelNonneg hrange.levelLe
  obtain ⟨hnonneg, hle, hpos, hcounter⟩ := hrange
  unfold IPINFO.getConnection
  split
  · exact ⟨hnonneg, hle, hpos, hcounter⟩
  · dsimp only
    split
    · split
      · exact ⟨hadd.1, hadd.2, hpos, hcounter⟩
      · exact ⟨hnonneg, hle, hpos, hcounter⟩
    · split
      · exact ⟨hadd.1, hadd.2, hpos, hcounter⟩
      · exact ⟨hnonneg, hle, hpos, hcounter⟩

theorem ping_inRange (hnonneg : 0 ≤ info.badLevel) (hle : info.badLevel ≤ 6) (now : UInt64) :
    (info.ping factory ipport now).2.InRange := by
  have hadd := addbadlevel_range hnonneg hle
  have hlevel : 0 ≤ (if info.mState = 1 then addbadlevel info.badLevel else info.badLevel) ∧
      (if info.mState = 1 then addbadlevel info.badLevel else info.badLevel) ≤ 6 := by
    split
    · exact hadd
    · exact ⟨hnonneg, hle⟩
  have hcounter := badlevel2time_range
    (if info.mState = 1 then addbadlevel info.badLevel else info.badLevel)
  exact getConnection_inRange factory ipport ⟨hlevel.1, hlevel.2, hcounter.1, hcounter.2⟩

/-- In its turn an address is pinged, or its counter goes down by one. -/
theorem tick_cases (hrange : info.InRange) (now : UInt64) :
    (info.tick factory ipport now).2.InRange ∧
      ((∃ id, (info.tick factory ipport now).1 = some id) ∨
        (info.tick factory ipport now).2.pingCounter = info.pingCounter - 1) := by
  obtain ⟨hnonneg, hle, hpos, hcounter⟩ := hrange
  unfold IPINFO.tick
  dsimp only
  split
  next hzero =>
    exact ⟨ping_inRange factory ipport hnonneg hle now, Or.inl ⟨_, rfl⟩⟩
  next hmore =>
    refine ⟨⟨hnonneg, hle, ?_, ?_⟩, Or.inr rfl⟩
    · dsimp only
      omega
    · dsimp only
      omega

theorem hurry_inRange (hrange : info.InRange) :
    info.hurry.InRange ∧ info.hurry.pingCounter ≤ info.pingCounter := by
  obtain ⟨hnonneg, hle, hpos, hcounter⟩ := hrange
  unfold IPINFO.hurry
  split
  next hlong =>
    refine ⟨⟨hnonneg, hle, ?_, ?_⟩, ?_⟩
    · dsimp only
      omega
    · dsimp only
      omega
    · dsimp only
      omega
  next => exact ⟨⟨hnonneg, hle, hpos, hcounter⟩, le_refl _⟩

end Address

theorem freshInfo_inRange [RespTime Num] (now : UInt64) :
    (freshInfo now : IPINFO Num).InRange := by
  have hcounter := badlevel2time_range 1
  refine ⟨?_, ?_, hcounter.1, hcounter.2⟩
  · change (0 : Int) ≤ 1
    decide
  · change (1 : Int) ≤ 6
    decide

/-! ## Tables -/

abbrev Table (Num : Type) : Type := OrderedMap (Text ×ₗ Int32) (IPINFO Num)

def AllInRange (ipinfo : Table Num) : Prop :=
  ∀ address info, ipinfo.find address = some info → info.InRange

/-- Between two ticks no counter goes up, and what was in range stays so. -/
def Follows (ipinfo next : Table Num) : Prop :=
  ∀ address info, next.find address = some info →
    ∃ old, ipinfo.find address = some old ∧ (old.InRange → info.InRange) ∧
      info.pingCounter ≤ old.pingCounter

variable {ipinfo next : Table Num}

theorem Follows.refl (ipinfo : Table Num) : Follows ipinfo ipinfo :=
  fun _ info hfind => ⟨info, hfind, fun hrange => hrange, le_refl _⟩

theorem Follows.trans {middle : Table Num} (hfirst : Follows ipinfo middle)
    (hsecond : Follows middle next) : Follows ipinfo next := by
  intro address info hfind
  obtain ⟨between, hbetween, hrange, hcounter⟩ := hsecond address info hfind
  obtain ⟨old, hold, hrange', hcounter'⟩ := hfirst address between hbetween
  exact ⟨old, hold, fun hin => hrange (hrange' hin), hcounter.trans hcounter'⟩

theorem follows_set {key : Text ×ₗ Int32} {info changed : IPINFO Num}
    (hfind : ipinfo.find key = some info) (hrange : info.InRange → changed.InRange)
    (hcounter : changed.pingCounter ≤ info.pingCounter) :
    Follows ipinfo (ipinfo.set key changed) := by
  intro address other hother
  by_cases hkey : address = key
  · rw [hkey, OrderedMap.find_set_self] at hother
    cases hother
    exact ⟨info, hkey ▸ hfind, hrange, hcounter⟩
  · rw [OrderedMap.find_set_of_ne _ hkey] at hother
    exact ⟨other, hother, fun hin => hin, le_refl _⟩

theorem Follows.allInRange (hfollows : Follows ipinfo next) (hall : AllInRange ipinfo) :
    AllInRange next := by
  intro address info hfind
  obtain ⟨old, hold, hrange, -⟩ := hfollows address info hfind
  exact hrange (hall address old hold)

/-! ## Operations -/

section Operations

variable (m : DaoConnectionManager Num)

theorem pingResp_follows [RespTime Num] (ipp : IpPort) (startTimeUs recvTimeUs : UInt64) :
    Follows m.ipinfo (m.pingResp ipp startTimeUs recvTimeUs).2.ipinfo ∧
      (m.pingResp ipp startTimeUs recvTimeUs).2.pinged = m.pinged := by
  unfold pingResp
  cases hfind : m.ipinfo.find (toLex ipp) with
  | none => exact ⟨Follows.refl _, rfl⟩
  | some info =>
      dsimp only
      split
      · exact ⟨Follows.refl _, rfl⟩
      · split
        · exact ⟨Follows.refl _, rfl⟩
        · split
          · exact ⟨follows_set hfind (fun ⟨hnonneg, hle, hpos, hcounter⟩ =>
              ⟨hnonneg, hle, hpos, hcounter⟩) (le_refl _), rfl⟩
          · refine ⟨follows_set hfind ?_ ?_, rfl⟩
            · rintro ⟨hnonneg, hle, hpos, hcounter⟩
              have hlevel := okrespbadlevel_range hnonneg hle
              have hnew := badlevel2time_range (okrespbadlevel info.badLevel)
              refine ⟨hlevel.1, hlevel.2, ?_, ?_⟩
              · dsimp only
                split <;> omega
              · dsimp only
                split <;> omega
            · dsimp only
              split <;> omega

theorem getConnection_follows (factory : Factory) (ipport : IpPort) :
    Follows m.ipinfo (m.getConnection factory ipport).2.ipinfo ∧
      (m.getConnection factory ipport).2.pinged = m.pinged := by
  unfold getConnection
  cases hfind : m.ipinfo.find (toLex ipport) with
  | none => exact ⟨Follows.refl _, rfl⟩
  | some info =>
      exact ⟨follows_set hfind (getConnection_inRange factory ipport)
        (getConnection_counter factory ipport).le, rfl⟩

theorem predictBadLevel_follows {add : Int → Int}
    (hadd : ∀ {level}, 0 ≤ level → level ≤ 6 → 0 ≤ add level ∧ add level ≤ 6)
    (ipports : List IpPort) :
    Follows m.ipinfo (m.predictBadLevel add ipports).ipinfo := by
  unfold predictBadLevel
  dsimp only
  generalize m.ipinfo = ipinfo
  induction ipports generalizing ipinfo with
  | nil => exact Follows.refl _
  | cons ipport rest ih =>
      rw [List.foldl_cons]
      refine Follows.trans ?_ (ih _)
      cases hfind : ipinfo.find (toLex ipport) with
      | none => exact Follows.refl _
      | some info =>
          refine follows_set hfind ?_ (le_refl _)
          rintro ⟨hnonneg, hle, hpos, hcounter⟩
          have hlevel := hadd hnonneg hle
          exact ⟨hlevel.1, hlevel.2, hpos, hcounter⟩

/-- At a tick each known address is pinged, or its counter goes down. -/
theorem handleTimeout_known (hall : AllInRange m.ipinfo) (factory : Factory)
    (now : IpPort → UInt64) {address : Text ×ₗ Int32} {info : IPINFO Num}
    (hnext : (m.handleTimeout factory now).ipinfo.find address = some info) :
    info.InRange ∧ ∀ old, m.ipinfo.find address = some old →
      (∃ id, (ofLex address, id) ∈ m.pings factory now) ∨
        info.pingCounter ≤ old.pingCounter - 1 := by
  obtain ⟨ticked, hticked, hinfo⟩ : ∃ ticked,
      (m.ipinfo.mapValues fun ipport info =>
        (info.tick factory (ofLex ipport) (now (ofLex ipport))).2).find address = some ticked ∧
      (ticked.InRange → info.InRange ∧ info.pingCounter ≤ ticked.pingCounter) := by
    unfold handleTimeout at hnext
    dsimp only at hnext
    split at hnext
    · rw [OrderedMap.find_mapValues] at hnext
      obtain ⟨ticked, hticked, rfl⟩ := Option.map_eq_some_iff.mp hnext
      exact ⟨ticked, hticked, hurry_inRange⟩
    · exact ⟨info, hnext, fun hrange => ⟨hrange, le_refl _⟩⟩
  rw [OrderedMap.find_mapValues] at hticked
  obtain ⟨old, hold, rfl⟩ := Option.map_eq_some_iff.mp hticked
  obtain ⟨hrange, hcases⟩ :=
    tick_cases factory (ofLex address) (hall address old hold) (now (ofLex address))
  obtain ⟨hinRange, hcounter⟩ := hinfo hrange
  refine ⟨hinRange, fun other hother => ?_⟩
  cases hold.symm.trans hother
  rcases hcases with ⟨id, hid⟩ | hdown
  · refine Or.inl ⟨id, List.mem_filterMap.mpr ⟨(address, old), ?_, ?_⟩⟩
    · exact OrderedMap.mem_entries.mpr hold
    · rw [hid]
      rfl
  · exact Or.inr (hdown ▸ hcounter)

/-- Of an accepted configuration, an address that was known is known as it was. -/
theorem initFromConf_known [RespTime Num] (hall : AllInRange m.ipinfo)
    {outdat : OrderedMap Text PxGlobalConf.PrcAdd} (hnodup : (ipportsOf outdat).Nodup)
    (now : IpPort → UInt64) {address : Text ×ₗ Int32} {info : IPINFO Num}
    (hnext : (m.initFromConf outdat now).ipinfo.find address = some info) :
    info.InRange ∧ ∀ old, m.ipinfo.find address = some old →
      info.pingCounter ≤ old.pingCounter := by
  rw [m.initFromConf_find hnodup] at hnext
  split at hnext
  next =>
    cases hold : m.ipinfo.find address with
    | none =>
        rw [hold] at hnext
        cases hnext
        refine ⟨freshInfo_inRange _, fun old hsome => ?_⟩
        cases hsome
    | some old =>
        rw [hold] at hnext
        cases hnext
        refine ⟨hall address _ hold, fun other hsome => ?_⟩
        cases hsome
        exact le_refl _
  next => cases hnext

end Operations

/-! ## Runs -/

inductive Event where
  | tick (factory : Factory) (now : IpPort → UInt64)
  | pingResp (ipp : IpPort) (startTimeUs recvTimeUs : UInt64)
  | getConnection (factory : Factory) (ipport : IpPort)
  | predictAddBadLevel (ipports : List IpPort)
  | predictTinyAddBadLevel (ipports : List IpPort)
  | reload (strXml : Text) (now : IpPort → UInt64)

def Event.ticks : Event → Nat
  | tick _ _ => 1
  | _ => 0

/-- What a step does to what is known of the addresses, with the pings `new` that it sends. -/
structure StepKeeps (m next : DaoConnectionManager Num) (event : Event)
    (new : List (IpPort × UInt64)) : Prop where
  pinged : next.pinged = m.pinged ++ new
  inRange : AllInRange next.ipinfo
  counts : ∀ address old info, m.ipinfo.find address = some old →
    next.ipinfo.find address = some info →
    (∃ id, (ofLex address, id) ∈ new) ∨ info.pingCounter + event.ticks ≤ old.pingCounter

theorem StepKeeps.of_follows {m next : DaoConnectionManager Num} {event : Event}
    (hall : AllInRange m.ipinfo) (hquiet : event.ticks = 0)
    (hfollows : Follows m.ipinfo next.ipinfo) (hpinged : next.pinged = m.pinged) :
    StepKeeps m next event [] where
  pinged := by rw [hpinged, List.append_nil]
  inRange := hfollows.allInRange hall
  counts address old info hold hinfo := by
    obtain ⟨other, hother, -, hcounter⟩ := hfollows address info hinfo
    cases hold.symm.trans hother
    rw [hquiet]
    exact Or.inr (by omega)

section Steps

variable [RespTime Num] (libs : ConfLibs)

/-- A content that is not accepted is not reloaded from. -/
def step (m : DaoConnectionManager Num) : Event → Option (DaoConnectionManager Num)
  | .tick factory now => some (m.handleTimeout factory now)
  | .pingResp ipp startTimeUs recvTimeUs => some (m.pingResp ipp startTimeUs recvTimeUs).2
  | .getConnection factory ipport => some (m.getConnection factory ipport).2
  | .predictAddBadLevel ipports => some (m.predictAddBadLevel ipports)
  | .predictTinyAddBadLevel ipports => some (m.predictTinyAddBadLevel ipports)
  | .reload strXml now =>
      some (match accepted libs strXml with
        | some maps => m.initFromConf maps.daoList now
        | none => m)

/-- Before the first configuration. -/
def start : DaoConnectionManager Num := ⟨.empty, [], []⟩

variable {libs}

theorem step_keeps {m next : DaoConnectionManager Num} {event : Event}
    (hall : AllInRange m.ipinfo) (hstep : step libs m event = some next) :
    ∃ new, StepKeeps m next event new := by
  cases event with
  | tick factory now =>
      cases hstep
      refine ⟨m.pings factory now, rfl, ?_, ?_⟩
      · exact fun address info hinfo => (m.handleTimeout_known hall factory now hinfo).1
      · intro address old info hold hinfo
        rcases (m.handleTimeout_known hall factory now hinfo).2 old hold with hping | hdown
        · exact Or.inl hping
        · exact Or.inr (by simp only [Event.ticks]; omega)
  | pingResp ipp startTimeUs recvTimeUs =>
      cases hstep
      obtain ⟨hfollows, hpinged⟩ := m.pingResp_follows ipp startTimeUs recvTimeUs
      exact ⟨[], StepKeeps.of_follows hall rfl hfollows hpinged⟩
  | getConnection factory ipport =>
      cases hstep
      obtain ⟨hfollows, hpinged⟩ := m.getConnection_follows factory ipport
      exact ⟨[], StepKeeps.of_follows hall rfl hfollows hpinged⟩
  | predictAddBadLevel ipports =>
      cases hstep
      exact ⟨[], StepKeeps.of_follows hall rfl
        (m.predictBadLevel_follows addbadlevel_range ipports) rfl⟩
  | predictTinyAddBadLevel ipports =>
      cases hstep
      exact ⟨[], StepKeeps.of_follows hall rfl
        (m.predictBadLevel_follows tinyaddbadlevel_range ipports) rfl⟩
  | reload strXml now =>
      cases haccepted : accepted libs strXml with
      | none =>
          rw [step, haccepted] at hstep
          cases hstep
          exact ⟨[], StepKeeps.of_follows hall rfl (Follows.refl _) rfl⟩
      | some maps =>
          rw [step, haccepted] at hstep
          cases hstep
          have hnodup := (accepted_distinct haccepted).nodup.of_append_left
          refine ⟨[], (List.append_nil _).symm, ?_, ?_⟩
          · exact fun address info hinfo => (m.initFromConf_known hall hnodup now hinfo).1
          · intro address old info hold hinfo
            have hcounter := (m.initFromConf_known hall hnodup now hinfo).2 old hold
            exact Or.inr (by simp only [Event.ticks]; omega)

theorem run_inRange {m final : DaoConnectionManager Num} {events : List Event}
    (hall : AllInRange m.ipinfo) (hrun : run (step libs) m events = some final) :
    AllInRange final.ipinfo := by
  have hinv : ∀ (m : DaoConnectionManager Num) event next, AllInRange m.ipinfo →
      step libs m event = some next → AllInRange next.ipinfo := by
    intro m event next hall hstep
    obtain ⟨new, hkeeps⟩ := step_keeps hall hstep
    exact hkeeps.inRange
  exact @run_invariant _ _ _ (fun m => AllInRange m.ipinfo) hinv _ _ _ hall hrun

theorem run_pinged {m final : DaoConnectionManager Num} {events : List Event}
    (hall : AllInRange m.ipinfo) (hrun : run (step libs) m events = some final) :
    ∃ new, final.pinged = m.pinged ++ new := by
  induction events generalizing m with
  | nil =>
      cases hrun
      exact ⟨[], (List.append_nil _).symm⟩
  | cons event rest ih =>
      obtain ⟨next, hstep, hrest⟩ := Option.bind_eq_some_iff.mp hrun
      obtain ⟨first, hkeeps⟩ := step_keeps hall hstep
      obtain ⟨later, hlater⟩ := ih hkeeps.inRange hrest
      exact ⟨first ++ later, by rw [hlater, hkeeps.pinged, List.append_assoc]⟩

/-- An address that stays known is pinged before there are more ticks than its counter says. -/
theorem run_probes {m final : DaoConnectionManager Num} {events : List Event}
    (hall : AllInRange m.ipinfo) (hrun : run (step libs) m events = some final)
    {address : Text ×ₗ Int32} {info : IPINFO Num} (hfind : m.ipinfo.find address = some info)
    (hknown : Throughout (step libs) (fun m => (m.ipinfo.find address).isSome) m events)
    (hticks : info.pingCounter ≤ (events.map Event.ticks).sum) :
    ∃ new id, final.pinged = m.pinged ++ new ∧ (ofLex address, id) ∈ new := by
  induction events generalizing m info with
  | nil =>
      have hpos := (hall address info hfind).counterPos
      simp only [List.map_nil, List.sum_nil, Nat.cast_zero] at hticks
      omega
  | cons event rest ih =>
      obtain ⟨next, hstep, hrest⟩ := Option.bind_eq_some_iff.mp hrun
      obtain ⟨first, hkeeps⟩ := step_keeps hall hstep
      have hstill := hknown.2 next hstep
      obtain ⟨later, hlater⟩ := Option.isSome_iff_exists.mp hstill.head
      rcases hkeeps.counts address info later hfind hlater with ⟨id, hping⟩ | hcounter
      · obtain ⟨behind, hbehind⟩ := run_pinged hkeeps.inRange hrest
        refine ⟨first ++ behind, id, ?_, List.mem_append_left _ hping⟩
        rw [hbehind, hkeeps.pinged, List.append_assoc]
      · have hleft : later.pingCounter ≤ (rest.map Event.ticks).sum := by
          rw [List.map_cons, List.sum_cons, Nat.cast_add] at hticks
          omega
        obtain ⟨behind, id, hbehind, hping⟩ := ih hkeeps.inRange hrest hlater hstill hleft
        refine ⟨first ++ behind, id, ?_, List.mem_append_right _ hping⟩
        rw [hbehind, hkeeps.pinged, List.append_assoc]

/-- In whatever follows, an address that stays known is pinged within 64 ticks. -/
def KeepsProbing (libs : ConfLibs) (m : DaoConnectionManager Num) : Prop :=
  ∀ address events final, run (step libs) m events = some final →
    Throughout (step libs) (fun m => (m.ipinfo.find address).isSome) m events →
    64 ≤ (events.map Event.ticks).sum →
    ∃ new id, final.pinged = m.pinged ++ new ∧ (ofLex address, id) ∈ new

/-- Every state that is reached is in range, and keeps probing. -/
theorem health_kept {m : DaoConnectionManager Num} {events : List Event}
    (hrun : run (step libs) start events = some m) :
    AllInRange m.ipinfo ∧ KeepsProbing libs m := by
  have hstart : AllInRange (start : DaoConnectionManager Num).ipinfo := by
    intro address info hfind
    cases hfind
  have hall := run_inRange hstart hrun
  refine ⟨hall, fun address rest final hrest hknown hticks => ?_⟩
  obtain ⟨info, hfind⟩ := Option.isSome_iff_exists.mp hknown.head
  have hcounter := (hall address info hfind).counterLe
  exact run_probes hall hrest hfind hknown (by omega)

/-- One address is loaded, and its first ping is due. -/
theorem health_kept_loaded : AllInRange
      (((start : DaoConnectionManager Int).initFromConf sampleMaps.daoList fun _ => 0).handleTimeout
        ⟨fun _ => 0, fun _ => some 7⟩ fun _ => 5).ipinfo ∧
    KeepsProbing sampleLibs
      (((start : DaoConnectionManager Int).initFromConf sampleMaps.daoList fun _ => 0).handleTimeout
        ⟨fun _ => 0, fun _ => some 7⟩ fun _ => 5) :=
  @health_kept Int _ sampleLibs _
    [.reload sampleContent fun _ => 0, .tick ⟨fun _ => 0, fun _ => some 7⟩ fun _ => 5] rfl

end Steps

end DaoConnectionManager

end ServiceFrame
