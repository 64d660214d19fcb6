import ServiceFrame.ServerLib.UrlHelper
import ServiceFrame.ServerLib.Watcher

/-! # The watchdog

`CWatchDog` of `server-lib`. It watches the servers whose suffix has a request wrapper. Its
timer takes turns: one time every server is sent its test request, the next time a server that
was not heard of for more than 61 seconds is reported. Any message that comes from a server
counts as heard.
-/

namespace ServiceFrame

open Foundation

/-- `CServerData`: a server, and when it was last heard of, in seconds. -/
structure CServerData where
  fs : FavorStrSV
  lastRecv : Int
deriving DecidableEq

structure CWatchDog where
  random : UInt32
  serverData : OrderedMap UInt32 CServerData

namespace CWatchDog

/-- What the watchdog does at an event, but for its log. -/
inductive Output where
  | testRequest (serverId : UInt32)
  | mayNotWork (fs : FavorStrSV) (seconds : Int)
  | serverAdded (fs : FavorStrSV)
  | serverRemoved (fs : FavorStrSV)
  | statusChanged (fs : FavorStrSV)
  | recovered
  | response (uri : UInt32)
  | dispatched (key : List UInt8) (uri : UInt32)
deriving DecidableEq

/-- The calls of the daemon client, with the servers that it knows, and the others. -/
inductive Event where
  | onRefreshSV (sv : List FavorStrSV)
  | onRecoverRefreshSV (sv : List FavorStrSV)
  | onAddSV (fs : FavorStrSV)
  | onServerRemovedSV (fs : FavorStrSV)
  | onServerStatusChangeSV (fs : FavorStrSV)
  | timeout
  | request (key : List UInt8) (uri : UInt32)

variable (services : String → Bool) (responses : UInt32 → Bool)

def start : CWatchDog := ⟨0, .empty⟩

/-- A server that runs, and for whose suffix there is a request wrapper. -/
def watches (fs : FavorStrSV) : Bool := fs.serverStatus = .RUNNING && services fs.sstr

/-- `onRefreshSV`, for one server of the list. -/
def refreshOne (now : Int) (dog : CWatchDog) (fs : FavorStrSV) : CWatchDog :=
  if watches services fs then { dog with serverData := dog.serverData.set fs.sid ⟨fs, now⟩ }
  else dog

def onRefreshSV (dog : CWatchDog) (now : Int) (sv : List FavorStrSV) : CWatchDog :=
  sv.foldl (refreshOne services now) dog

def onAddSV (dog : CWatchDog) (now : Int) (fs : FavorStrSV) : CWatchDog × List Output :=
  if watches services fs then
    ({ dog with serverData := dog.serverData.set fs.sid ⟨fs, now⟩ }, [.serverAdded fs])
  else (dog, [])

def onServerRemovedSV (dog : CWatchDog) (fs : FavorStrSV) : CWatchDog × List Output :=
  ({ dog with serverData := dog.serverData.erase fs.sid }, [.serverRemoved fs])

/-- The body of the loop of `handle`, for one server. -/
def handleOne (bRand : Bool) (now : Int) (entry : UInt32 × CServerData) : List Output :=
  if services entry.2.fs.sstr then
    if bRand then [.testRequest entry.2.fs.sid]
    else if now - entry.2.lastRecv > 61 then [.mayNotWork entry.2.fs (now - entry.2.lastRecv)]
    else []
  else []

/-- `handle(SEL_TIMEOUT)`. -/
def handle (dog : CWatchDog) (now : Int) : CWatchDog × List Output :=
  ({ dog with random := dog.random + 1 },
    dog.serverData.entries.flatMap (handleOne services (dog.random % 2 = 1) now))

def requestDispatch (dog : CWatchDog) (now : Int) (key : List UInt8) (uri : UInt32) :
    CWatchDog × List Output :=
  let (found, svrID) := DomainName.getSid key
  match if found then dog.serverData.find svrID else none with
  | some data =>
      ({ dog with serverData := dog.serverData.set svrID { data with lastRecv := now } },
        if responses uri then [.response uri] else [.dispatched key uri])
  | none => (dog, [.dispatched key uri])

def react (dog : CWatchDog) (now : Int) : Event → CWatchDog × List Output
  | .onRefreshSV sv => (dog.onRefreshSV services now sv, [])
  | .onRecoverRefreshSV sv => (dog.onRefreshSV services now sv, [.recovered])
  | .onAddSV fs => dog.onAddSV services now fs
  | .onServerRemovedSV fs => dog.onServerRemovedSV fs
  | .onServerStatusChangeSV fs => (dog, [.statusChanged fs])
  | .timeout => dog.handle services now
  | .request key uri => dog.requestDispatch responses now key uri

/-- An event, and what the clock reads. -/
structure Timed where
  now : Int
  event : Event

def step (dog : CWatchDog) (timed : Timed) : Option CWatchDog :=
  some (dog.react services responses timed.now timed.event).1

/-- All that is put out in a run. -/
def outputs : CWatchDog → List Timed → List Output
  | _, [] => []
  | dog, timed :: rest =>
      (dog.react services responses timed.now timed.event).2 ++
        outputs (dog.react services responses timed.now timed.event).1 rest

/-! ## The table -/

variable {services responses} {dog next : CWatchDog} {now : Int} {id : UInt32}
  {event : Event}

/-- The entry of a server after the refresh of another one, or of itself. -/
theorem find_refreshOne (fs : FavorStrSV) :
    (refreshOne services now dog fs).serverData.find id =
      if watches services fs = true ∧ fs.sid = id then some ⟨fs, now⟩
      else dog.serverData.find id := by
  unfold refreshOne
  by_cases hwatches : watches services fs = true
  · rw [if_pos hwatches]
    dsimp only
    rw [OrderedMap.find_set, Function.update_apply]
    simp only [hwatches, true_and, eq_comm]
  · rw [if_neg hwatches, if_neg fun hboth => hwatches hboth.1]

/-- What an event does to an entry: nothing, or it makes it new, takes it out, or notes that
the server was heard of. -/
theorem react_find (services : String → Bool) (responses : UInt32 → Bool) (dog : CWatchDog)
    (now : Int) (event : Event) (id : UInt32) :
    (dog.react services responses now event).1.serverData.find id = dog.serverData.find id ∨
    (∃ fs, watches services fs = true ∧ fs.sid = id ∧
      (dog.react services responses now event).1.serverData.find id = some ⟨fs, now⟩) ∨
    (dog.react services responses now event).1.serverData.find id = none ∨
    ∃ data, dog.serverData.find id = some data ∧
      (dog.react services responses now event).1.serverData.find id =
        some { data with lastRecv := now } := by
  have hrefresh : ∀ (sv : List FavorStrSV) (dog : CWatchDog),
      (dog.onRefreshSV services now sv).serverData.find id = dog.serverData.find id ∨
      ∃ fs, watches services fs = true ∧ fs.sid = id ∧
        (dog.onRefreshSV services now sv).serverData.find id = some ⟨fs, now⟩ := by
    intro sv
    induction sv using List.reverseRecOn with
    | nil => exact fun _ => Or.inl rfl
    | append_singleton past fs ih =>
        intro dog
        rw [onRefreshSV, List.foldl_append, List.foldl_cons, List.foldl_nil, find_refreshOne]
        split
        next hboth => exact Or.inr ⟨fs, hboth.1, hboth.2, rfl⟩
        next => exact ih dog
  cases event with
  | onRefreshSV sv =>
      exact (hrefresh sv dog).imp_right Or.inl
  | onRecoverRefreshSV sv =>
      exact (hrefresh sv dog).imp_right Or.inl
  | onAddSV fs =>
      rw [react, onAddSV]
      split
      next hwatches =>
        dsimp only
        rw [OrderedMap.find_set, Function.update_apply]
        split
        next hsame => exact Or.inr (Or.inl ⟨fs, hwatches, hsame.symm, rfl⟩)
        next => exact Or.inl rfl
      next => exact Or.inl rfl
  | onServerRemovedSV fs =>
      rw [react, onServerRemovedSV]
      dsimp only
      rw [OrderedMap.find_erase, Function.update_apply]
      split
      next => exact Or.inr (Or.inr (Or.inl rfl))
      next => exact Or.inl rfl
  | onServerStatusChangeSV fs => exact Or.inl rfl
  | timeout => exact Or.inl rfl
  | request key uri =>
      rw [react, requestDispatch]
      dsimp only
      split
      next data hdata =>
        dsimp only
        rw [OrderedMap.find_set, Function.update_apply]
        split
        next hsame =>
          split at hdata
          · exact Or.inr (Or.inr (Or.inr ⟨data, hsame ▸ hdata, rfl⟩))
          · cases hdata
        next => exact Or.inl rfl
      next => exact Or.inl rfl

/-- Each entry is of a server with a request wrapper, and stands under its id. -/
def Keyed (services : String → Bool) (dog : CWatchDog) : Prop :=
  ∀ id data, dog.serverData.find id = some data →
    data.fs.sid = id ∧ services data.fs.sstr = true

theorem react_keyed (hkeyed : Keyed services dog) :
    Keyed services (dog.react services responses now event).1 := by
  intro id data hfind
  obtain hsame | ⟨fs, hwatches, hsid, hnew⟩ | hnone | ⟨old, hold, hnew⟩ :=
    react_find services responses dog now event id
  · exact hkeyed id data (hsame.symm.trans hfind)
  · rw [hnew] at hfind
    cases hfind
    rw [watches, Bool.and_eq_true] at hwatches
    exact ⟨hsid, hwatches.2⟩
  · rw [hnone] at hfind
    cases hfind
  · rw [hnew] at hfind
    cases hfind
    exact hkeyed id old hold

theorem run_keyed {events : List Timed}
    (hrun : run (step services responses) start events = some dog) : Keyed services dog := by
  have hstep : ∀ dog timed next, Keyed services dog →
      step services responses dog timed = some next → Keyed services next := by
    intro dog timed next hkeyed hstep
    cases hstep
    exact react_keyed hkeyed
  refine run_invariant hstep (fun id data hfind => ?_) hrun
  cases hfind

/-- If the server is in the table, it was heard of at this time or later. -/
def Recent (time : Int) (id : UInt32) (dog : CWatchDog) : Prop :=
  ∀ data, dog.serverData.find id = some data → time ≤ data.lastRecv

theorem react_recent {time : Int} (hrecent : Recent time id dog) (hnow : time ≤ now) :
    Recent time id (dog.react services responses now event).1 := by
  intro data hfind
  obtain hsame | ⟨fs, -, -, hnew⟩ | hnone | ⟨old, -, hnew⟩ :=
    react_find services responses dog now event id
  · exact hrecent data (hsame.symm.trans hfind)
  · rw [hnew] at hfind
    cases hfind
    exact hnow
  · rw [hnone] at hfind
    cases hfind
  · rw [hnew] at hfind
    cases hfind
    exact hnow

theorem run_recent {time : Int} {events : List Timed} (hrecent : Recent time id dog)
    (hnow : ∀ timed ∈ events, time ≤ timed.now)
    (hrun : run (step services responses) dog events = some next) : Recent time id next := by
  have hstep : ∀ dog timed next, Recent time id dog → time ≤ timed.now →
      step services responses dog timed = some next → Recent time id next := by
    intro dog timed next hdog hlater hstep
    cases hstep
    exact react_recent hdog hlater
  exact run_invariant_along hstep hrecent (along_of_mem hnow) hrun

/-- A message that a server sends. -/
def Event.isFrom (id : UInt32) : Event → Prop
  | .request key _ => DomainName.getSid key = (true, id)
  | _ => False

theorem react_answer (hfrom : event.isFrom id) :
    Recent now id (dog.react services responses now event).1 := by
  cases event with
  | request key uri =>
      rw [Event.isFrom] at hfrom
      intro data hfind
      rw [react, requestDispatch, hfrom] at hfind
      dsimp only at hfind
      rw [if_pos rfl] at hfind
      split at hfind
      · dsimp only at hfind
        rw [OrderedMap.find_set_self] at hfind
        cases hfind
        exact Int.le_refl _
      next hnone =>
        rw [hnone] at hfind
        cases hfind
  | _ => exact absurd hfrom (by simp [Event.isFrom])

/-! ## The timer -/

def Event.isTimeout : Event → Bool
  | .timeout => true
  | _ => false

theorem react_random : (dog.react services responses now event).1.random =
    if event.isTimeout then dog.random + 1 else dog.random := by
  have hrefresh : ∀ (sv : List FavorStrSV) (dog : CWatchDog),
      (dog.onRefreshSV services now sv).random = dog.random := by
    intro sv
    induction sv with
    | nil => exact fun _ => rfl
    | cons fs rest ih =>
        intro dog
        rw [onRefreshSV, List.foldl_cons]
        refine (ih _).trans ?_
        unfold refreshOne
        split <;> rfl
  cases event with
  | onRefreshSV sv => exact hrefresh sv dog
  | onRecoverRefreshSV sv => exact hrefresh sv dog
  | onAddSV fs =>
      rw [react, onAddSV]
      split <;> rfl
  | onServerRemovedSV fs => rfl
  | onServerStatusChangeSV fs => rfl
  | timeout => rfl
  | request key uri =>
      rw [react, requestDispatch]
      dsimp only
      split <;> rfl

/-- The timer takes turns, also when its counter wraps. -/
theorem turn_flips (random : UInt32) : (random + 1) % 2 = 1 ↔ ¬ random % 2 = 1 := by
  simp only [← UInt32.toNat_inj, UInt32.toNat_mod, UInt32.toNat_add]
  have hlt := random.toNat_lt
  change (random.toNat + 1) % 2 ^ 32 % 2 = 1 ↔ ¬ random.toNat % 2 = 1
  omega

/-- Between two turns of the timer nothing changes whose turn it is. -/
theorem run_random {events : List Timed} (hquiet : ∀ timed ∈ events, timed.event.isTimeout = false)
    (hrun : run (step services responses) dog events = some next) :
    next.random = dog.random := by
  have hstep : ∀ other timed after, other.random = dog.random → timed.event.isTimeout = false →
      step services responses other timed = some after → after.random = dog.random := by
    intro other timed after hother hno hstep
    cases hstep
    rw [react_random, hno]
    exact hother
  exact run_invariant_along hstep rfl (along_of_mem hquiet) hrun

theorem mem_handle {output : Output} :
    output ∈ (dog.handle services now).2 ↔ ∃ id data, dog.serverData.find id = some data ∧
      services data.fs.sstr = true ∧
      (dog.random % 2 = 1 ∧ output = .testRequest data.fs.sid ∨
        ¬ dog.random % 2 = 1 ∧ now - data.lastRecv > 61 ∧
          output = .mayNotWork data.fs (now - data.lastRecv)) := by
  rw [handle, List.mem_flatMap]
  constructor
  · rintro ⟨⟨id, data⟩, hentry, hout⟩
    refine ⟨id, data, OrderedMap.mem_entries.mp hentry, ?_⟩
    unfold handleOne at hout
    split at hout
    next hservice =>
      refine ⟨hservice, ?_⟩
      split at hout
      next hturn => exact Or.inl ⟨of_decide_eq_true hturn, List.mem_singleton.mp hout⟩
      next hturn =>
        split at hout
        next hlong =>
          exact Or.inr ⟨fun hthis => hturn (decide_eq_true hthis), hlong,
            List.mem_singleton.mp hout⟩
        · cases hout
    · cases hout
  · rintro ⟨id, data, hfind, hservice, hout⟩
    refine ⟨(id, data), OrderedMap.mem_entries.mpr hfind, ?_⟩
    obtain ⟨hturn, rfl⟩ | ⟨hturn, hlong, rfl⟩ := hout
    · simp [handleOne, hservice, hturn]
    · simp [handleOne, hservice, hturn, hlong]

/-- Only the timer reports that a server may not work. -/
theorem isTimeout_of_mayNotWork {fs : FavorStrSV} {seconds : Int}
    (hout : .mayNotWork fs seconds ∈ (dog.react services responses now event).2) :
    event = .timeout := by
  cases event with
  | timeout => rfl
  | onRefreshSV sv => cases hout
  | onRecoverRefreshSV sv => simp [react] at hout
  | onAddSV added =>
      rw [react, onAddSV] at hout
      split at hout <;> simp at hout
  | onServerRemovedSV removed => simp [react, onServerRemovedSV] at hout
  | onServerStatusChangeSV changed => simp [react] at hout
  | request key uri =>
      rw [react, requestDispatch] at hout
      dsimp only at hout
      split at hout
      · dsimp only at hout
        split at hout <;> simp at hout
      · simp at hout

/-! ## A server that answers -/

theorem mem_outputs {events : List Timed} {output : Output}
    (hout : output ∈ outputs services responses dog events) :
    ∃ past timed rest middle, events = past ++ timed :: rest ∧
      run (step services responses) dog past = some middle ∧
      output ∈ (middle.react services responses timed.now timed.event).2 := by
  induction events generalizing dog with
  | nil => cases hout
  | cons timed rest ih =>
      rw [outputs, List.mem_append] at hout
      obtain hout | hout := hout
      · exact ⟨[], timed, rest, dog, rfl, rfl, hout⟩
      · obtain ⟨past, later, behind, middle, rfl, hrun, hlater⟩ := ih hout
        exact ⟨timed :: past, later, behind, middle, rfl, hrun, hlater⟩

/-- The last turn of the timer, if there was one. -/
theorem last_timeout (events : List Timed) :
    (∀ timed ∈ events, timed.event.isTimeout = false) ∨
    ∃ before time middle, events = before ++ ⟨time, .timeout⟩ :: middle ∧
      ∀ timed ∈ middle, timed.event.isTimeout = false := by
  induction events using List.reverseRecOn with
  | nil => exact Or.inl (List.forall_mem_nil _)
  | append_singleton past last ih =>
      obtain ⟨time, event⟩ := last
      by_cases hlast : event.isTimeout = true
      · right
        refine ⟨past, time, [], ?_, List.forall_mem_nil _⟩
        cases event <;> first | rfl | cases hlast
      · rw [Bool.not_eq_true] at hlast
        obtain hnone | ⟨before, time', middle, rfl, hmiddle⟩ := ih
        · left
          simpa only [List.forall_mem_append, List.forall_mem_singleton] using ⟨hnone, hlast⟩
        · right
          refine ⟨before, time', middle ++ [⟨time, event⟩], by simp, ?_⟩
          simpa only [List.forall_mem_append, List.forall_mem_singleton] using ⟨hmiddle, hlast⟩

/-- The timer takes its turns at most 61 seconds apart, the first one after `time`. -/
structure Punctual (time : Int) (events : List Timed) : Prop where
  ordered : (time :: events.map Timed.now).Pairwise (· ≤ ·)
  first : ∀ middle now rest, events = middle ++ ⟨now, .timeout⟩ :: rest →
    (∀ timed ∈ middle, timed.event.isTimeout = false) → now - time ≤ 61
  next : ∀ past earlier middle now rest,
    events = past ++ ⟨earlier, .timeout⟩ :: (middle ++ ⟨now, .timeout⟩ :: rest) →
    (∀ timed ∈ middle, timed.event.isTimeout = false) → now - earlier ≤ 61

/-- The server answers each test request before the next turn of the timer. -/
def Answers (services : String → Bool) (responses : UInt32 → Bool) (id : UInt32)
    (events : List Timed) : Prop :=
  ∀ past earlier middle now rest dog,
    events = past ++ ⟨earlier, .timeout⟩ :: (middle ++ ⟨now, .timeout⟩ :: rest) →
    (∀ timed ∈ middle, timed.event.isTimeout = false) →
    run (step services responses) start past = some dog →
    .testRequest id ∈ (dog.handle services earlier).2 →
    ∃ timed ∈ middle, timed.event.isFrom id

/-- Before a turn in which it is checked, the server was tested and heard of, or it was
entered since. -/
theorem recent_of_answers {past middle rest : List Timed} {earlier : Int} {dog : CWatchDog}
    (hanswers : Answers services responses id
      (past ++ ⟨earlier, .timeout⟩ :: (middle ++ ⟨now, .timeout⟩ :: rest)))
    (hmiddle : ∀ timed ∈ middle, timed.event.isTimeout = false)
    (hlater : ∀ timed ∈ middle, earlier ≤ timed.now)
    (hrun : run (step services responses) start (past ++ ⟨earlier, .timeout⟩ :: middle) = some dog)
    (hturn : ¬ dog.random % 2 = 1) : Recent earlier id dog := by
  obtain ⟨before, hbefore, hrun⟩ := run_split hrun
  rw [run_cons, Option.bind_eq_some_iff] at hrun
  obtain ⟨after, hstep, hrun⟩ := hrun
  cases hstep
  -- this time every server was tested
  have htested : before.random % 2 = 1 := by
    rw [run_random hmiddle hrun] at hturn
    by_contra hnot
    exact hturn ((turn_flips before.random).mpr hnot)
  have hkeyed := run_keyed hbefore
  cases hfind : before.serverData.find id with
  | none =>
      refine run_recent (fun data hdata => ?_) hlater hrun
      have hthis : before.serverData.find id = some data := hdata
      rw [hfind] at hthis
      cases hthis
  | some data =>
      obtain ⟨hsid, hservice⟩ := hkeyed id data hfind
      obtain ⟨timed, hmem, hfrom⟩ := hanswers past earlier middle now rest before rfl hmiddle
        hbefore (mem_handle.mpr ⟨id, data, hfind, hservice, Or.inl ⟨htested, by rw [hsid]⟩⟩)
      obtain ⟨start, behind, rfl⟩ := List.append_of_mem hmem
      obtain ⟨heard, -, hrun⟩ := run_split hrun
      rw [run_cons, Option.bind_eq_some_iff] at hrun
      obtain ⟨noted, hstep, hrun⟩ := hrun
      cases hstep
      refine run_recent (fun data hdata => ?_)
        (fun other hother => hlater other (by simp [hother])) hrun
      exact (hlater timed hmem).trans (react_answer hfrom data hdata)

/-- A server that answers every test request is never reported, whatever else happens: other
servers come and go and are silent, it is added, removed and added again. -/
theorem no_false_alarm (services : String → Bool) (responses : UInt32 → Bool) (id : UInt32)
    (time : Int) (events : List Timed) (hpunctual : Punctual time events)
    (hanswers : Answers services responses id events) (fs : FavorStrSV) (hsid : fs.sid = id)
    (seconds : Int) : .mayNotWork fs seconds ∉ outputs services responses start events := by
  intro hout
  obtain ⟨past, ⟨now, event⟩, rest, dog, rfl, hrun, hout⟩ := mem_outputs hout
  obtain rfl := isTimeout_of_mayNotWork hout
  obtain ⟨other, data, hfind, -, ⟨-, hno⟩ | ⟨hturn, hlong, hreport⟩⟩ := mem_handle.mp hout
  · cases hno
  · cases hreport
    obtain ⟨rfl, -⟩ := run_keyed hrun other data hfind
    rw [hsid] at hfind
    have hordered := hpunctual.ordered
    rw [List.map_append, ← List.cons_append, List.pairwise_append] at hordered
    obtain hnone | ⟨before, earlier, middle, rfl, hmiddle⟩ := last_timeout past
    · -- there was no turn before: the server was entered since the start
      have hfirst := hpunctual.first past now rest rfl hnone
      have hrecent : Recent time id dog := by
        refine run_recent (fun data hdata => ?_) (fun timed htimed => ?_) hrun
        · cases hdata
        · exact (List.pairwise_cons.mp hordered.1).1 timed.now (List.mem_map_of_mem htimed)
      have hthis := hrecent data hfind
      dsimp only at hlong
      omega
    · have hnext := hpunctual.next before earlier middle now rest (by simp) hmiddle
      have hlater : ∀ timed ∈ middle, earlier ≤ timed.now := by
        intro timed htimed
        have hpast := (List.pairwise_cons.mp hordered.1).2
        rw [List.map_append, List.pairwise_append, List.map_cons, List.pairwise_cons] at hpast
        exact hpast.2.1.1 timed.now (List.mem_map_of_mem htimed)
      have hwhole : Answers services responses id
          (before ++ ⟨earlier, .timeout⟩ :: (middle ++ ⟨now, .timeout⟩ :: rest)) := by
        simpa using hanswers
      have hthis := recent_of_answers hwhole hmiddle hlater hrun hturn data hfind
      dsimp only at hlong
      omega

/-- A server of the suffix `linkd`, added, checked, tested and checked again. -/
def answering : FavorStrSV := ⟨"linkd", 0, 0, 80, 7, 1, .RUNNING⟩

def answered : List Timed :=
  [⟨4, .onAddSV answering⟩, ⟨5, .timeout⟩, ⟨35, .timeout⟩,
    ⟨36, .request (DomainName.uidFrom 1 7) 9⟩, ⟨65, .timeout⟩]

theorem no_false_alarm_answering :
    .testRequest 7 ∈ outputs (· == "linkd") (· == 9) start answered ∧
      .mayNotWork answering 61 ∉ outputs (· == "linkd") (· == 9) start answered := by
  have htimes : ∀ timed ∈ answered, 4 ≤ timed.now ∧ timed.now ≤ 65 := by decide
  refine ⟨by decide, no_false_alarm (· == "linkd") (· == 9) 7 4 answered ⟨by decide, ?_, ?_⟩ ?_
    answering rfl 61⟩
  · intro middle now rest hevents _
    have hthis := htimes ⟨now, .timeout⟩ (by simp [hevents])
    dsimp only at hthis
    omega
  · intro past earlier middle now rest hevents _
    have hearlier := htimes ⟨earlier, .timeout⟩ (by simp [hevents])
    have hnow := htimes ⟨now, .timeout⟩ (by simp [hevents])
    dsimp only at hearlier hnow
    omega
  · intro past earlier middle now rest dog hevents hmiddle hrun htest
    rw [answered] at hevents
    rcases past with _ | ⟨first, _ | ⟨second, _ | ⟨third, past⟩⟩⟩ <;>
      simp only [List.nil_append, List.cons_append, List.cons.injEq, Timed.mk.injEq] at hevents
    · exact absurd hevents.1.2 (by simp)
    · obtain ⟨rfl, ⟨rfl, -⟩, -⟩ := hevents
      cases hrun
      exact absurd htest (by decide)
    · rcases middle with _ | ⟨answer, middle⟩ <;>
        simp only [List.nil_append, List.cons_append, List.cons.injEq, Timed.mk.injEq] at hevents
      · exact absurd hevents.2.2.2.1.2 (by simp)
      · obtain ⟨-, -, -, rfl, -⟩ := hevents
        refine ⟨_, List.mem_cons_self, ?_⟩
        rw [Event.isFrom]
        decide
    · rcases past with _ | ⟨fourth, past⟩
      · exact absurd (List.cons.inj hevents.2.2.2).1 (by simp)
      · have hlength := congrArg List.length hevents.2.2.2
        simp only [List.length_append, List.length_cons, List.length_nil] at hlength
        omega

/-! ## A server that is silent -/

end CWatchDog

end ServiceFrame
