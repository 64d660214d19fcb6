import Mathlib.Data.List.Perm.Subperm
import Mathlib.Data.Nat.ModEq
import ServiceFrame.ThriftConnPool.AsyncThriftConnFactory

/-! # Going round the hosts, and trying bad ones again

A lookup tries its hosts in their order, each once. While there is a bad host the timer is armed,
or its handler runs, or the report of the only one is about to arm it: so long as reports do not
come between each other's statements, nor into the handler's loop.
-/

namespace ServiceFrame

open Foundation

universe uConn uThread

variable {Conn : Type uConn} {Thread : Type uThread}

namespace AsyncThriftConnFactory

/-! ## What the pool is for -/

section Searches

variable (hosts : List UInt8 → List ZkThriftConfig)

def Search.size (search : Search) : Nat := (hosts search.name).length

/-- The hosts have been tried in turn, from the one behind the last one used. -/
def Search.InTurn (search : Search) : Prop :=
  search.tried.map Prod.fst =
    (List.range search.tried.length).map fun j => (search.old.toNat + 1 + j) % search.size hosts

/-- In turn, and each at most once. -/
structure Search.Fair (search : Search) : Prop where
  inTurn : search.InTurn hosts
  once : (search.tried.map Prod.fst).Nodup
  inside : ∀ index ∈ search.tried.map Prod.fst, index < search.size hosts

/-- No host has given a connection. -/
def Search.Fruitless (search : Search) : Prop := ∀ tried ∈ search.tried, tried.2 ≠ .connected

/-- Every host has been tried, and was bad or failed. -/
structure Search.Exhausted (search : Search) : Prop where
  all : ∀ index < search.size hosts, index ∈ search.tried.map Prod.fst
  fruitless : search.Fruitless

namespace Phase

/-- The lookup that the thread is in, or that has returned. -/
def search? : Phase Conn → Option Search
  | .looking search | .connecting search _ | .leaving search _ | .returned search _ => some search
  | .finding _ after | .pushing _ after | .counting after => after
  | _ => none

/-- Between the lock and the unlock of a lookup. -/
def Searches : Phase Conn → Prop
  | .looking _ | .connecting _ _ | .leaving _ _ => True
  | .finding _ after | .pushing _ after | .counting after => after.isSome
  | _ => False

/-- What a thread has still before it until it gives up the mutex, when so many hosts are bad. -/
def rank (bad : Nat) : Phase Conn → Nat
  | .looking search => 5 * (search.size hosts - search.tried.length) + 2
  | .connecting search _ => 5 * (search.size hosts - search.tried.length) + 1
  | .finding _ (some search) => 5 * (search.size hosts - search.tried.length) + 5
  | .pushing _ (some search) => 5 * (search.size hosts - search.tried.length) + 4
  | .counting (some search) => 5 * (search.size hosts - search.tried.length) + 3
  | .leaving _ _ => 1
  | .scanning it _ => bad - it + 3
  | .replacing _ => 2
  | .rearming => 1
  | _ => 0

end Phase

end Searches

section Properties

variable [DecidableEq Thread] (main : Thread) (hosts : List UInt8 → List ZkThriftConfig)

structure Good (factory : AsyncThriftConnFactory Conn Thread) : Prop where
  timer : factory.badHosts ≠ [] → factory.armed ∨ (factory.threads main).Handles ∨
    factory.badHosts.length = 1 ∧ ∃ thread, (factory.threads thread).Counting
  distinct : (factory.badHosts.map ZkThriftConfig.key).Nodup
  intact : factory.dangling = false
  fair : ∀ thread search, (factory.threads thread).search? = some search → search.Fair hosts
  /-- The host that is about to be asked is the next one in turn. -/
  turn : ∀ thread search host, factory.threads thread = .connecting search host →
    (factory.inc search.name).toNat =
      (search.old.toNat + 1 + search.tried.length) % search.size hosts
  exhausted : ∀ thread search, factory.threads thread = .returned search none →
    search.Exhausted hosts
  /-- A thread that has the mutex goes on, whatever the hosts do, and comes to give it up. -/
  ends : ∀ thread created, (factory.threads thread).HoldsMutex →
    ∃ next, factory.advance main hosts thread created = some next ∧
      (next.threads thread).rank hosts next.badHosts.length <
        (factory.threads thread).rank hosts factory.badHosts.length

/-- A host is pushed when it is still not in the vector, through which the handler is not going,
and while the timer or the handler looks after the hosts that are. A cursor does not wrap. -/
def Guarded (factory : AsyncThriftConnFactory Conn Thread) : Event Conn Thread → Prop
  | .next thread _ =>
      match factory.threads thread with
      | .pushing host _ =>
          ¬ factory.IsBad host ∧ ¬ (factory.threads main).Scans ∧
            (factory.badHosts = [] ∨ factory.armed ∨ (factory.threads main).Handles)
      | .looking search =>
          (factory.inc search.name).toNat + 1 < 2 ^ 32 ∨ search.size hosts ≤ 2 ^ 32
      | _ => True
  | _ => True

end Properties

/-! ## Indices -/

section Indices

variable {hosts : List UInt8 → List ZkThriftConfig} {search : Search}

/-- Fewer steps round than there are hosts come to different ones. -/
theorem index_inj {size old first second : Nat} (hfirst : first < size) (hsecond : second < size)
    (hsame : (old + 1 + first) % size = (old + 1 + second) % size) : first = second := by
  have hmod : Nat.ModEq size first second := Nat.ModEq.add_left_cancel' (old + 1) hsame
  rwa [Nat.ModEq, Nat.mod_eq_of_lt hfirst, Nat.mod_eq_of_lt hsecond] at hmod

theorem Search.InTurn.fair (hturn : search.InTurn hosts)
    (hsize : search.tried.length ≤ search.size hosts) : search.Fair hosts where
  inTurn := hturn
  once := by
    rw [hturn, List.nodup_map_iff_inj_on List.nodup_range]
    intro first hfirst second hsecond hsame
    rw [List.mem_range] at hfirst hsecond
    exact index_inj (hfirst.trans_le hsize) (hsecond.trans_le hsize) hsame
  inside := by
    intro index hmem
    rw [hturn] at hmem
    obtain ⟨j, hj, rfl⟩ := List.mem_map.mp hmem
    rw [List.mem_range] at hj
    exact Nat.mod_lt _ (by omega)

/-- As many different hosts as there are: all of them. -/
theorem Search.Fair.all (hfair : search.Fair hosts)
    (hsize : search.tried.length = search.size hosts) {index : Nat}
    (hindex : index < search.size hosts) : index ∈ search.tried.map Prod.fst := by
  have hperm : search.tried.map Prod.fst ⊆ List.range (search.size hosts) := fun other hother =>
    List.mem_range.mpr (hfair.inside other hother)
  have hsame := (hfair.once.subperm hperm).perm_of_length_le (by simp [hsize])
  exact hsame.mem_iff.mpr (List.mem_range.mpr hindex)

theorem Search.InTurn.try (hturn : search.InTurn hosts) {verdict : Verdict} :
    (search.try ((search.old.toNat + 1 + search.tried.length) % search.size hosts)
      verdict).InTurn hosts := by
  rw [Search.InTurn] at hturn ⊢
  rw [Search.try, List.map_append, List.length_append, List.length_singleton, List.range_succ,
    List.map_append, hturn]
  rfl

end Indices

/-! ## What holds between any two steps -/

section Invariant

variable (hosts : List UInt8 → List ZkThriftConfig)

/-- A search that goes on has found nothing yet, and its cursor is where it has come to. -/
structure Search.Going (search : Search) (inc : UInt32) : Prop where
  inTurn : search.InTurn hosts
  fruitless : search.Fruitless
  started : search.old.toNat < search.size hosts
  cursor : inc.toNat = (search.old.toNat + search.tried.length) % search.size hosts

/-- What a report from within a search says of it: a host has been tried. -/
def Reported (inc : List UInt8 → UInt32) : Option Search → Prop
  | some search =>
      search.Going hosts (inc search.name) ∧ 0 < search.tried.length ∧
        search.tried.length ≤ search.size hosts
  | none => True

/-- What the phase of a thread says of its search. -/
def Phase.Sound (inc : List UInt8 → UInt32) : Phase Conn → Prop
  | .looking search =>
      search.Going hosts (inc search.name) ∧ search.tried.length < search.size hosts
  | .connecting search _ =>
      search.InTurn hosts ∧ search.Fruitless ∧ search.old.toNat < search.size hosts ∧
        (inc search.name).toNat =
          (search.old.toNat + 1 + search.tried.length) % search.size hosts ∧
        search.tried.length < search.size hosts
  | .finding _ after | .pushing _ after | .counting after => Reported hosts inc after
  | .leaving search ret | .returned search ret =>
      search.Fair hosts ∧ (ret = none → search.Exhausted hosts)
  | _ => True

variable (main : Thread)

structure Consistent (factory : AsyncThriftConnFactory Conn Thread) : Prop where
  cursors : ∀ name, hosts name ≠ [] → (factory.inc name).toNat < (hosts name).length
  guarded : Guards factory.mutex (fun thread => (factory.threads thread).HoldsMutex)
  sound : ∀ thread, (factory.threads thread).Sound hosts factory.inc
  handler : ∀ thread, (factory.threads thread).Handles → thread = main
  timer : factory.badHosts ≠ [] → factory.armed ∨ (factory.threads main).Handles ∨
    factory.badHosts.length = 1 ∧ ∃ thread, (factory.threads thread).Counting
  distinct : (factory.badHosts.map ZkThriftConfig.key).Nodup
  intact : factory.dangling = false
  scanned : ∀ thread it failed, factory.threads thread = .scanning it failed →
    failed.Sublist (factory.badHosts.take it)
  replaced : ∀ thread failed, factory.threads thread = .replacing failed →
    (failed.map ZkThriftConfig.key).Nodup

theorem init_consistent :
    (init : AsyncThriftConnFactory Conn Thread).Consistent hosts main where
  cursors := fun name hname => List.length_pos_of_ne_nil hname
  guarded := fun thread => by simp [init, Phase.HoldsMutex]
  sound := fun thread => trivial
  handler := fun thread hhandles => hhandles.elim
  timer := fun hbad => absurd rfl hbad
  distinct := List.nodup_nil
  intact := rfl
  scanned := fun thread it failed hphase => by cases hphase
  replaced := fun thread failed hphase => by cases hphase

end Invariant

section Steps

variable {hosts : List UInt8 → List ZkThriftConfig} {inc : List UInt8 → UInt32}
  {search : Search} {phase : Phase Conn}

/-- What a thread outside the mutex is in does not depend on the cursors. -/
theorem Phase.Sound.of_not_holds (hsound : phase.Sound hosts inc) (hout : ¬ phase.HoldsMutex)
    (other : List UInt8 → UInt32) : phase.Sound hosts other := by
  cases phase with
  | looking search => exact absurd trivial hout
  | connecting search host => exact absurd trivial hout
  | finding host after =>
      cases after with
      | none => trivial
      | some search => exact absurd rfl hout
  | pushing host after =>
      cases after with
      | none => trivial
      | some search => exact absurd rfl hout
  | counting after =>
      cases after with
      | none => trivial
      | some search => exact absurd rfl hout
  | _ => exact hsound

/-- Back at the old cursor all hosts have been tried; until then there are more. -/
theorem Search.Going.back_iff {cursor : UInt32} (hgoing : search.Going hosts cursor)
    (hsome : 0 < search.tried.length) (hsize : search.tried.length ≤ search.size hosts) :
    cursor = search.old ↔ search.tried.length = search.size hosts := by
  have hcursor := hgoing.cursor
  have hstarted := hgoing.started
  rw [← UInt32.toNat_inj, hcursor]
  constructor
  · intro hsame
    by_contra hmore
    by_cases hwrap : search.old.toNat + search.tried.length < search.size hosts
    · rw [Nat.mod_eq_of_lt hwrap] at hsame
      omega
    · rw [Nat.mod_eq_sub_mod (Nat.le_of_not_lt hwrap), Nat.mod_eq_of_lt (by omega)] at hsame
      omega
  · intro hall
    rw [hall, Nat.add_mod_right, Nat.mod_eq_of_lt hstarted]

/-- The next host in turn has been tried, and has given nothing. -/
theorem Search.going_try (hturn : search.InTurn hosts) (hfruitless : search.Fruitless)
    (hstarted : search.old.toNat < search.size hosts) {cursor : UInt32}
    (hcursor : cursor.toNat = (search.old.toNat + 1 + search.tried.length) % search.size hosts)
    {verdict : Verdict} (hverdict : verdict ≠ .connected) :
    (search.try cursor.toNat verdict).Going hosts cursor where
  inTurn := by
    rw [hcursor]
    exact hturn.try
  fruitless := by
    intro tried hmem
    rcases List.mem_append.mp hmem with hold | hnew
    · exact hfruitless tried hold
    · rw [List.mem_singleton.mp hnew]
      exact hverdict
  started := hstarted
  cursor := by
    have hlength : (search.try cursor.toNat verdict).tried.length = search.tried.length + 1 := by
      rw [Search.try, List.length_append, List.length_singleton]
    rw [hlength, hcursor, Nat.add_right_comm, Nat.add_assoc]
    rfl

/-- The phase at the end of a round without a connection. -/
theorem Search.Going.onward {cursor : UInt32} (hgoing : search.Going hosts cursor)
    (hcursor : inc search.name = cursor) (hsome : 0 < search.tried.length)
    (hsize : search.tried.length ≤ search.size hosts) :
    (if cursor ≠ search.old then .looking search
      else .leaving search none : Phase Conn).Sound hosts inc := by
  have hback := hgoing.back_iff hsome hsize
  split
  next hmore =>
    have hne : search.tried.length ≠ search.size hosts := fun hall => hmore (hback.mpr hall)
    exact ⟨hcursor ▸ hgoing, by omega⟩
  next hdone =>
    have hall := hback.mp (not_not.mp hdone)
    have hfair := hgoing.inTurn.fair hsize
    exact ⟨hfair, fun _ => ⟨fun index hindex => hfair.all hall hindex, hgoing.fruitless⟩⟩

theorem Phase.Searches.holds (hsearches : phase.Searches) : phase.HoldsMutex := by
  cases phase with
  | looking search => trivial
  | connecting search host => trivial
  | leaving search ret => trivial
  | finding host after => exact hsearches
  | pushing host after => exact hsearches
  | counting after => exact hsearches
  | _ => exact hsearches.elim

theorem Phase.Searches.not_handles (hsearches : phase.Searches) : ¬ phase.Handles := by
  cases phase with
  | woken => exact hsearches.elim
  | scanning it failed => exact hsearches.elim
  | replacing failed => exact hsearches.elim
  | rearming => exact hsearches.elim
  | _ => exact id

end Steps

section Moves

variable [DecidableEq Thread] {main : Thread} {hosts : List UInt8 → List ZkThriftConfig}
  {factory next : AsyncThriftConnFactory Conn Thread} {thread : Thread} {phase : Phase Conn}

/-- The handler and the reports are where they were, but for a thread that comes to arm. -/
theorem looked_after {badHosts : List ZkThriftConfig} {armed : Bool}
    (htimer : armed ∨ (factory.threads main).Handles ∨
      badHosts.length = 1 ∧ ∃ other, (factory.threads other).Counting)
    (hhandles : (factory.threads thread).Handles → phase.Handles)
    (hcounting : (factory.threads thread).Counting → phase.Counting) :
    armed ∨ (Function.update factory.threads thread phase main).Handles ∨
      badHosts.length = 1 ∧
        ∃ other, (Function.update factory.threads thread phase other).Counting := by
  refine htimer.imp_right (Or.imp (fun hmain => ?_) (And.imp_right ?_))
  · rw [Function.update_apply]
    split
    next hsame => exact hhandles (hsame ▸ hmain)
    next => exact hmain
  · rintro ⟨other, hother⟩
    refine ⟨other, ?_⟩
    rw [Function.update_apply]
    split
    next hsame => exact hcounting (hsame ▸ hother)
    next => exact hother

/-- What one thread changes. -/
theorem Consistent.set (hfactory : factory.Consistent hosts main) {badHosts : List ZkThriftConfig}
    {inc : List UInt8 → UInt32} {mutex : Option Thread} {armed dangling : Bool}
    {connects : Thread → List (ZkThriftConfig × Conn)}
    (hcursors : ∀ name, hosts name ≠ [] → (inc name).toNat < (hosts name).length)
    (hguarded : Guards mutex
      (fun other => (Function.update factory.threads thread phase other).HoldsMutex))
    (hothers : ∀ other, other ≠ thread → (factory.threads other).Sound hosts inc)
    (hsound : phase.Sound hosts inc) (hhandler : phase.Handles → thread = main)
    (htimer : badHosts ≠ [] →
      armed ∨ (Function.update factory.threads thread phase main).Handles ∨
        badHosts.length = 1 ∧
          ∃ other, (Function.update factory.threads thread phase other).Counting)
    (hdistinct : (badHosts.map ZkThriftConfig.key).Nodup) (hintact : dangling = false)
    (hscan : ∀ it failed, phase = .scanning it failed → failed.Sublist (badHosts.take it))
    (hscanned : ∀ other, other ≠ thread → ∀ it failed,
      factory.threads other = .scanning it failed → failed.Sublist (badHosts.take it))
    (hreplaced : ∀ failed, phase = .replacing failed → (failed.map ZkThriftConfig.key).Nodup) :
    (setPhase ⟨badHosts, inc, mutex, armed, connects, factory.threads, dangling⟩ thread
      phase).Consistent hosts main where
  cursors := hcursors
  guarded := hguarded
  sound := Function.forall_update_iff _ (fun _ (phase : Phase Conn) => phase.Sound hosts inc) |>.mpr
    ⟨hsound, hothers⟩
  handler := Function.forall_update_iff _ (fun other (phase : Phase Conn) =>
      phase.Handles → other = main) |>.mpr ⟨hhandler, fun other _ => hfactory.handler other⟩
  timer := htimer
  distinct := hdistinct
  intact := hintact
  scanned := Function.forall_update_iff _ (fun _ (phase : Phase Conn) =>
      ∀ it failed, phase = .scanning it failed → failed.Sublist (badHosts.take it)) |>.mpr
    ⟨hscan, hscanned⟩
  replaced := Function.forall_update_iff _ (fun _ (phase : Phase Conn) =>
      ∀ failed, phase = .replacing failed → (failed.map ZkThriftConfig.key).Nodup) |>.mpr
    ⟨hreplaced, fun other _ => hfactory.replaced other⟩

/-- A step that leaves the bad hosts and the timer alone. -/
theorem Consistent.goes (hfactory : factory.Consistent hosts main) {mutex : Option Thread}
    {inc : List UInt8 → UInt32} {connects : Thread → List (ZkThriftConfig × Conn)}
    (hcursors : ∀ name, hosts name ≠ [] → (inc name).toNat < (hosts name).length)
    (hguarded : Guards mutex
      (fun other => (Function.update factory.threads thread phase other).HoldsMutex))
    (hothers : ∀ other, other ≠ thread → (factory.threads other).Sound hosts inc)
    (hsound : phase.Sound hosts inc)
    (hhandles : phase.Handles ↔ (factory.threads thread).Handles)
    (hcounting : (factory.threads thread).Counting → phase.Counting)
    (hscan : ∀ it failed, phase = .scanning it failed →
      failed.Sublist (factory.badHosts.take it))
    (hreplaced : ∀ failed, phase = .replacing failed → (failed.map ZkThriftConfig.key).Nodup) :
    ({ factory with mutex := mutex, inc := inc, connects := connects }.setPhase thread
      phase).Consistent hosts main :=
  hfactory.set hcursors hguarded hothers hsound
    (fun hphase => hfactory.handler thread (hhandles.mp hphase))
    (fun hbad => looked_after (hfactory.timer hbad) hhandles.mpr hcounting) hfactory.distinct
    hfactory.intact hscan (fun other _ => hfactory.scanned other) hreplaced

omit [DecidableEq Thread] in
/-- The others are as they were, whatever a thread inside the mutex does to the cursors. -/
theorem Consistent.others (hfactory : factory.Consistent hosts main)
    (hinside : (factory.threads thread).HoldsMutex) (inc : List UInt8 → UInt32) (other : Thread)
    (hother : other ≠ thread) : (factory.threads other).Sound hosts inc :=
  (hfactory.sound other).of_not_holds
    (fun hholds => hother (hfactory.guarded.unique hholds hinside)) inc

/-- Who has the mutex has it still. -/
theorem Consistent.stays (hfactory : factory.Consistent hosts main) {old : Phase Conn}
    (hphase : factory.threads thread = old) (hsame : phase.HoldsMutex ↔ old.HoldsMutex) :
    Guards factory.mutex
      (fun other => (Function.update factory.threads thread phase other).HoldsMutex) :=
  hfactory.guarded.stay (fun phase : Phase Conn => phase.HoldsMutex) (hphase ▸ hsame)

/-- The thread that has it gives it up. -/
theorem Consistent.frees (hfactory : factory.Consistent hosts main) {old : Phase Conn}
    (hphase : factory.threads thread = old) (hold : old.HoldsMutex) (hnew : ¬ phase.HoldsMutex) :
    Guards none (fun other => (Function.update factory.threads thread phase other).HoldsMutex) :=
  hfactory.guarded.drop (fun phase : Phase Conn => phase.HoldsMutex) (hphase ▸ hold) hnew

/-- A step within a lookup. -/
theorem Consistent.seeks (hfactory : factory.Consistent hosts main) {inc : List UInt8 → UInt32}
    {connects : Thread → List (ZkThriftConfig × Conn)} (hold : (factory.threads thread).Searches)
    (hnew : phase.Searches) (hcounting : (factory.threads thread).Counting → phase.Counting)
    (hcursors : ∀ name, hosts name ≠ [] → (inc name).toNat < (hosts name).length)
    (hsound : phase.Sound hosts inc) :
    ({ factory with inc := inc, connects := connects }.setPhase thread phase).Consistent hosts
      main := by
  refine hfactory.goes hcursors ?_ (hfactory.others hold.holds inc) hsound
    (iff_of_false hnew.not_handles hold.not_handles) hcounting ?_ ?_
  · exact hfactory.stays rfl (iff_of_true hnew.holds hold.holds)
  · rintro it failed rfl
    exact hnew.elim
  · rintro failed rfl
    exact hnew.elim

/-- The cursor goes to the next host, or round to the first one: as long as it does not wrap. -/
theorem nextInc_toNat_iff {inc : UInt32} {size : Nat} (hinc : inc.toNat < size) :
    (nextInc inc size).toNat = (inc.toNat + 1) % size ↔
      inc.toNat + 1 < 2 ^ 32 ∨ size ≤ 2 ^ 32 := by
  have hbound := inc.toNat_lt
  have hsucc : (inc + 1).toNat = (inc.toNat + 1) % 2 ^ 32 := by
    rw [UInt32.toNat_add]
    rfl
  unfold nextInc
  by_cases hlast : inc.toNat + 1 = size
  · refine iff_of_true ?_ (by omega)
    rw [hlast, Nat.mod_self]
    split
    next => rfl
    next hmore =>
      rw [hsucc, hlast] at hmore ⊢
      omega
  · rw [Nat.mod_eq_of_lt (by omega : inc.toNat + 1 < size), if_neg (by omega), hsucc]
    omega

/-- A round of the loop. -/
theorem Consistent.saw (hfactory : factory.Consistent hosts main) {search : Search}
    (hphase : factory.threads thread = .looking search) {host : ZkThriftConfig} {inc : UInt32}
    (hwrap : (factory.inc search.name).toNat + 1 < 2 ^ 32 ∨ search.size hosts ≤ 2 ^ 32)
    (hinc : inc = nextInc (factory.inc search.name) (hosts search.name).length)
    (hnext : phase = .connecting search host ∨
      phase = if inc ≠ search.old then .looking (search.try inc.toNat .bad)
        else .leaving (search.try inc.toNat .bad) none) :
    ({ factory with inc := Function.update factory.inc search.name inc }.setPhase thread
      phase).Consistent hosts main := by
  have hsound := hfactory.sound thread
  rw [hphase] at hsound
  obtain ⟨hgoing, hmore⟩ := hsound
  have hinside : (factory.threads thread).HoldsMutex := by rw [hphase]; trivial
  have hcursor : (factory.inc search.name).toNat < search.size hosts := by
    rw [hgoing.cursor]
    exact Nat.mod_lt _ (by omega)
  -- the cursor is one behind the last one tried, as it has not wrapped
  have hnextInc : inc.toNat =
      (search.old.toNat + 1 + search.tried.length) % search.size hosts := by
    rw [hinc, ← Search.size, (nextInc_toNat_iff hcursor).mpr hwrap, hgoing.cursor, Nat.mod_add_mod]
    congr 1
    omega
  have hself : Function.update factory.inc search.name inc search.name = inc :=
    Function.update_self _ _ _
  have hnew : phase.Searches ∧ phase.Sound hosts (Function.update factory.inc search.name inc) := by
    rcases hnext with rfl | rfl
    · exact ⟨trivial, hgoing.inTurn, hgoing.fruitless, hgoing.started, by rw [hself, hnextInc],
        hmore⟩
    · have hlength : (search.try inc.toNat .bad).tried.length = search.tried.length + 1 := by
        rw [Search.try, List.length_append, List.length_singleton]
      have hgoing' := Search.going_try hgoing.inTurn hgoing.fruitless hgoing.started hnextInc
        (by decide : Verdict.bad ≠ .connected)
      refine ⟨?_, hgoing'.onward hself (by omega) (hlength.trans_le hmore)⟩
      split <;> trivial
  refine hfactory.seeks (by rw [hphase]; trivial) hnew.1 (by rw [hphase]; exact False.elim) ?_
    hnew.2
  intro name hname
  rw [Function.update_apply]
  split
  next hsame =>
    subst hsame
    rw [hnextInc]
    exact Nat.mod_lt _ (by omega)
  next => exact hfactory.cursors name hname

/-- A lookup that has the mutex, or finds no hosts. -/
theorem Consistent.began (hfactory : factory.Consistent hosts main) {name : List UInt8}
    (hphase : factory.threads thread = .entering name) (hfree : factory.mutex = none)
    (hnext : hosts name ≠ [] ∧ phase = .looking ⟨name, factory.inc name, []⟩ ∨
      hosts name = [] ∧ phase = .leaving ⟨name, factory.inc name, []⟩ none) :
    ({ factory with mutex := some thread }.setPhase thread phase).Consistent hosts main := by
  have hguarded := hfactory.guarded
  rw [hfree] at hguarded
  have hnew : phase.Searches ∧ phase.Sound hosts factory.inc := by
    rcases hnext with ⟨hhosts, rfl⟩ | ⟨hhosts, rfl⟩
    · have hcursor := hfactory.cursors name hhosts
      refine ⟨trivial, ⟨rfl, fun _ hmem => absurd hmem List.not_mem_nil, hcursor, ?_⟩,
        List.length_pos_of_ne_nil hhosts⟩
      exact (Nat.mod_eq_of_lt hcursor).symm
    · have hturn : Search.InTurn hosts ⟨name, factory.inc name, []⟩ := rfl
      refine ⟨trivial, hturn.fair (Nat.zero_le _), fun _ => ⟨fun index hindex => ?_,
        fun _ hmem => absurd hmem List.not_mem_nil⟩⟩
      rw [Search.size, hhosts] at hindex
      exact absurd hindex (Nat.not_lt_zero _)
  refine hfactory.goes hfactory.cursors
    (hguarded.take (fun phase : Phase Conn => phase.HoldsMutex) hnew.1.holds)
    (fun other _ => hfactory.sound other) hnew.2 ?_ ?_ ?_ ?_
  · rw [hphase]
    exact iff_of_false hnew.1.not_handles id
  · rw [hphase]
    exact False.elim
  · rintro it failed rfl
    exact hnew.1.elim
  · rintro failed rfl
    exact hnew.1.elim

/-- A host has given a connection, or none. -/
theorem Consistent.connected (hfactory : factory.Consistent hosts main) {search : Search}
    {host : ZkThriftConfig} (hphase : factory.threads thread = .connecting search host)
    {connects : Thread → List (ZkThriftConfig × Conn)}
    (hnext : (∃ c, phase =
        .leaving (search.try (factory.inc search.name).toNat .connected) (some c)) ∨
      phase = .finding host (some (search.try (factory.inc search.name).toNat .failed))) :
    ({ factory with connects := connects }.setPhase thread phase).Consistent hosts main := by
  have hsound := hfactory.sound thread
  rw [hphase] at hsound
  obtain ⟨hturn, hfruitless, hstarted, hcursor, hmore⟩ := hsound
  have hlength : ∀ index verdict, (search.try index verdict).tried.length =
      search.tried.length + 1 := fun index verdict => by
    rw [Search.try, List.length_append, List.length_singleton]
  have hnew : phase.Searches ∧ phase.Sound hosts factory.inc := by
    rcases hnext with ⟨c, rfl⟩ | rfl
    · refine ⟨trivial, ?_, fun hnone => by cases hnone⟩
      rw [hcursor]
      exact hturn.try.fair ((hlength _ _).trans_le hmore)
    · refine ⟨rfl, Search.going_try hturn hfruitless hstarted hcursor
        (by decide : Verdict.failed ≠ .connected), ?_, (hlength _ _).trans_le hmore⟩
      rw [hlength]
      exact Nat.succ_pos _
  exact hfactory.seeks (by rw [hphase]; trivial) hnew.1 (by rw [hphase]; exact False.elim)
    hfactory.cursors hnew.2

theorem Consistent.found (hfactory : factory.Consistent hosts main) {host : ZkThriftConfig}
    {after : Option Search} (hphase : factory.threads thread = .finding host after)
    (hnext : phase = .counting after ∨ phase = .pushing host after) :
    (factory.setPhase thread phase).Consistent hosts main := by
  have hsound := hfactory.sound thread
  have hguarded := hfactory.guarded
  rw [hphase] at hsound
  have hholds : phase.HoldsMutex ↔ (factory.threads thread).HoldsMutex := by
    rw [hphase]
    rcases hnext with rfl | rfl <;> exact Iff.rfl
  refine hfactory.goes hfactory.cursors
    (hfactory.stays rfl hholds)
    (fun other _ => hfactory.sound other) ?_ ?_ ?_ ?_ ?_
  · rcases hnext with rfl | rfl <;> exact hsound
  · rw [hphase]
    rcases hnext with rfl | rfl <;> exact Iff.rfl
  · rw [hphase]
    exact False.elim
  · rintro it failed rfl
    simp at hnext
  · rintro failed rfl
    simp at hnext

/-- A push that has been guarded. -/
theorem Consistent.pushed (hfactory : factory.Consistent hosts main) {host : ZkThriftConfig}
    {after : Option Search} (hphase : factory.threads thread = .pushing host after)
    (hnew : ¬ factory.IsBad host) (hscans : ¬ (factory.threads main).Scans)
    (hsafe : factory.badHosts = [] ∨ factory.armed ∨ (factory.threads main).Handles) :
    ({ factory with
      badHosts := factory.badHosts ++ [host]
      dangling := factory.dangling || decide (factory.threads main).Scans }.setPhase thread
        (.counting after)).Consistent hosts main := by
  have hsound := hfactory.sound thread
  rw [hphase] at hsound
  have hcounts : (Function.update factory.threads thread (.counting after) thread).Counting := by
    rw [Function.update_self]
    trivial
  refine hfactory.set hfactory.cursors ?_ (fun other _ => hfactory.sound other) hsound False.elim
    (fun _ => ?_) ?_ ?_ (fun _ _ hscan => by cases hscan) (fun other _ it failed hother => ?_)
    (fun _ hreplaces => by cases hreplaces)
  · exact hfactory.stays hphase Iff.rfl
  · rcases hsafe with hempty | hlooked
    · rw [hempty]
      exact Or.inr (Or.inr ⟨rfl, thread, hcounts⟩)
    -- whoever looked after the others looks after this host too
    · refine (looked_after (hlooked.imp_right Or.inl) ?_ ?_)
      · rw [hphase]
        exact False.elim
      · exact fun _ => trivial
  · rw [List.map_append, List.nodup_append_comm]
    exact List.nodup_cons.mpr ⟨hnew, hfactory.distinct⟩
  · simp [hfactory.intact, hscans]
  · have hmain := hfactory.handler other (by rw [hother]; trivial)
    rw [← hmain, hother] at hscans
    exact absurd trivial hscans

/-- After the size has been looked at the timer is armed, or was needed by nobody. -/
theorem Consistent.counted (hfactory : factory.Consistent hosts main) {after : Option Search}
    (hphase : factory.threads thread = .counting after)
    (hnext : after = none ∧ phase = .idle ∨
      ∃ search, after = some search ∧ phase = factory.onward search) :
    ({ factory with
      armed := factory.armed || decide (factory.badHosts.length = 1) }.setPhase thread
        phase).Consistent hosts main := by
  have hsound := hfactory.sound thread
  rw [hphase] at hsound
  have hnew : (phase.HoldsMutex ↔ (factory.threads thread).HoldsMutex) ∧
      phase.Sound hosts factory.inc ∧ (phase = .idle ∨ phase.Searches) := by
    rw [hphase]
    rcases hnext with ⟨rfl, rfl⟩ | ⟨search, rfl, rfl⟩
    · exact ⟨iff_of_false id Bool.false_ne_true, trivial, Or.inl rfl⟩
    · obtain ⟨hgoing, hsome, hsize⟩ := hsound
      have hsearches : (factory.onward search : Phase Conn).Searches := by
        unfold onward
        split <;> trivial
      exact ⟨iff_of_true hsearches.holds rfl, hgoing.onward rfl hsome hsize, Or.inr hsearches⟩
  have hhandles : ¬ phase.Handles := by
    rcases hnew.2.2 with rfl | hsearches
    · exact id
    · exact hsearches.not_handles
  refine hfactory.set hfactory.cursors ?_ (fun other _ => hfactory.sound other) hnew.2.1
    (fun hphase => absurd hphase hhandles) (fun hbad => ?_) hfactory.distinct hfactory.intact ?_
    (fun other _ => hfactory.scanned other) ?_
  · exact hfactory.stays rfl hnew.1
  -- with one bad host the report arms the timer; with more somebody else has seen to it
  · by_cases hone : factory.badHosts.length = 1
    · simp [hone]
    · have hlooked : factory.armed ∨ (factory.threads main).Handles := by
        rcases hfactory.timer hbad with harmed | hmain | ⟨hlength, -⟩
        · exact Or.inl harmed
        · exact Or.inr hmain
        · exact absurd hlength hone
      rcases hlooked with harmed | hmain
      · simp [harmed]
      · have hother : main ≠ thread := by
          rintro rfl
          rw [hphase] at hmain
          exact hmain
        rw [Function.update_of_ne hother]
        exact Or.inr (Or.inl hmain)
  · rintro it failed rfl
    exact absurd trivial hhandles
  · rintro failed rfl
    exact absurd trivial hhandles

theorem Consistent.left (hfactory : factory.Consistent hosts main) {search : Search}
    {ret : Option Conn} (hphase : factory.threads thread = .leaving search ret) :
    ({ factory with mutex := none }.setPhase thread (.returned search ret)).Consistent hosts
      main := by
  have hsound := hfactory.sound thread
  rw [hphase] at hsound
  refine hfactory.goes hfactory.cursors ?_ (fun other _ => hfactory.sound other) hsound ?_ ?_
    (fun _ _ hscan => by cases hscan) (fun _ hreplaces => by cases hreplaces)
  · exact hfactory.frees hphase trivial id
  · rw [hphase]
    exact Iff.rfl
  · rw [hphase]
    exact False.elim

/-- A step of the handler's own, which leaves the bad hosts and the timer alone. -/
theorem Consistent.handled (hfactory : factory.Consistent hosts main) {mutex : Option Thread}
    {connects : Thread → List (ZkThriftConfig × Conn)}
    (hold : (factory.threads thread).Handles) (hnew : phase.Handles)
    (hguarded : Guards mutex
      (fun other => (Function.update factory.threads thread phase other).HoldsMutex))
    (hscan : ∀ it failed, phase = .scanning it failed →
      failed.Sublist (factory.badHosts.take it))
    (hreplaced : ∀ failed, phase = .replacing failed → (failed.map ZkThriftConfig.key).Nodup) :
    ({ factory with mutex := mutex, connects := connects }.setPhase thread phase).Consistent hosts
      main := by
  have hsound : phase.Sound hosts factory.inc := by
    cases phase with
    | woken => trivial
    | scanning it failed => trivial
    | replacing failed => trivial
    | rearming => trivial
    | _ => exact hnew.elim
  refine hfactory.goes hfactory.cursors hguarded (fun other _ => hfactory.sound other) hsound
    (iff_of_true hnew hold) ?_ hscan hreplaced
  cases hphase : factory.threads thread with
  | counting after =>
      rw [hphase] at hold
      exact hold.elim
  | _ => exact False.elim

/-- The handler has not got the mutex. -/
theorem Consistent.refused (hfactory : factory.Consistent hosts main)
    (hphase : factory.threads thread = .woken) :
    ({ factory with armed := true }.setPhase thread .idle).Consistent hosts main := by
  refine hfactory.set hfactory.cursors ?_ (fun other _ => hfactory.sound other) trivial False.elim
    (fun _ => Or.inl rfl) hfactory.distinct hfactory.intact (fun _ _ hscan => by cases hscan)
    (fun other _ => hfactory.scanned other) (fun _ hreplaces => by cases hreplaces)
  exact hfactory.stays hphase Iff.rfl

/-- The handler puts those that have failed again in the place of the bad hosts. -/
theorem Consistent.replaces (hfactory : factory.Consistent hosts main)
    {failed : List ZkThriftConfig} (hphase : factory.threads thread = .replacing failed) :
    ({ factory with badHosts := failed }.setPhase thread .rearming).Consistent hosts main := by
  have hmain : thread = main := hfactory.handler thread (by rw [hphase]; trivial)
  refine hfactory.set hfactory.cursors ?_ (fun other _ => hfactory.sound other) trivial
    (fun _ => hmain) (fun _ => ?_) (hfactory.replaced thread failed hphase) hfactory.intact
    (fun _ _ hscan => by cases hscan) (fun other hother it more hscans => ?_)
    (fun _ hreplaces => by cases hreplaces)
  · exact hfactory.stays hphase Iff.rfl
  · rw [hmain, Function.update_self]
    exact Or.inr (Or.inl trivial)
  · -- No other thread runs the handler.
    have hhandles := hfactory.handler other (by rw [hscans]; trivial)
    exact absurd (hhandles.trans hmain.symm) hother

theorem Consistent.rearms (hfactory : factory.Consistent hosts main)
    (hphase : factory.threads thread = .rearming) :
    ({ factory with
      mutex := none
      armed := factory.armed || decide (factory.badHosts ≠ []) }.setPhase thread
        .idle).Consistent hosts main := by
  refine hfactory.set hfactory.cursors ?_ (fun other _ => hfactory.sound other) trivial False.elim
    (fun hbad => ?_) hfactory.distinct hfactory.intact (fun _ _ hscan => by cases hscan)
    (fun other _ => hfactory.scanned other) (fun _ hreplaces => by cases hreplaces)
  · exact hfactory.frees hphase trivial id
  · simp [hbad]

/-- Every step of a thread keeps what is so, when it is guarded. -/
theorem Consistent.moved (hfactory : factory.Consistent hosts main) {created : Option Conn}
    (hguarded : Guarded main hosts factory (.next thread created))
    (hmoved : Moved main hosts factory thread next) : next.Consistent hosts main := by
  cases hmoved with
  | began name hphase hfree hhosts =>
      exact hfactory.began hphase hfree (Or.inl ⟨hhosts, rfl⟩)
  | unlisted name hphase hfree hhosts =>
      exact hfactory.began hphase hfree (Or.inr ⟨hhosts, rfl⟩)
  | saw search host hphase inc hinc hhost phase hnext =>
      rw [Guarded, hphase] at hguarded
      exact hfactory.saw hphase hguarded hinc (hnext.imp And.right And.right)
  | got search host c connects hphase => exact hfactory.connected hphase (Or.inl ⟨c, rfl⟩)
  | missed search host connects hphase => exact hfactory.connected hphase (Or.inr rfl)
  | found host after hphase phase hnext =>
      exact hfactory.found hphase (hnext.imp And.right And.right)
  | pushed host after hphase =>
      rw [Guarded, hphase] at hguarded
      exact hfactory.pushed hphase hguarded.1 hguarded.2.1 hguarded.2.2
  | counted after hphase phase hnext => exact hfactory.counted hphase hnext
  | left search ret hphase => exact hfactory.left hphase
  | locked hphase hfree =>
      have hmutex := hfactory.guarded
      rw [hfree] at hmutex
      refine hfactory.handled (by rw [hphase]; trivial) trivial
        (hmutex.take (fun phase : Phase Conn => phase.HoldsMutex) trivial) ?_
        (fun _ hreplaces => by cases hreplaces)
      intro it failed hscan
      cases hscan
      exact List.nil_sublist _
  | refused hphase => exact hfactory.refused hphase
  | scanned it failed more host connects hphase hhost hmore =>
      have hsublist := hfactory.scanned thread it failed hphase
      refine hfactory.handled (by rw [hphase]; trivial) trivial
        (hfactory.stays hphase Iff.rfl) ?_ (fun _ hreplaces => by cases hreplaces)
      intro it' failed' hscan
      cases hscan
      rw [List.take_add_one, hhost, Option.toList_some]
      rcases hmore with rfl | rfl
      · exact hsublist.trans (List.sublist_append_left _ _)
      · exact hsublist.append (List.Sublist.refl _)
  | scannedAll it failed hphase =>
      have hsublist := (hfactory.scanned thread it failed hphase).trans (List.take_sublist _ _)
      refine hfactory.handled (by rw [hphase]; trivial) trivial
        (hfactory.stays hphase Iff.rfl) (fun _ _ hscan => by cases hscan) ?_
      intro failed' hreplaces
      cases hreplaces
      exact hfactory.distinct.sublist (hsublist.map _)
  | replaced failed hphase => exact hfactory.replaces hphase
  | rearmed hphase => exact hfactory.rearms hphase

/-- A thread that is free has nothing of all this. -/
theorem Phase.Free.spec {phase : Phase Conn} (hfree : phase.Free) :
    ¬ phase.HoldsMutex ∧ ¬ phase.Handles ∧ ¬ phase.Counting := by
  cases phase with
  | idle => exact ⟨id, id, id⟩
  | returned search ret => exact ⟨id, id, id⟩
  | _ => exact hfree.elim

/-- A call begins. -/
theorem Consistent.called (hfactory : factory.Consistent hosts main)
    (hfree : (factory.threads thread).Free)
    (hnext : (∃ name, phase = .entering name) ∨ ∃ host, phase = .finding host none) :
    (factory.setPhase thread phase).Consistent hosts main := by
  obtain ⟨hholds, hhandles, hcounting⟩ := hfree.spec
  refine hfactory.goes hfactory.cursors ?_ (fun other _ => hfactory.sound other) ?_ ?_
    (fun hcounts => absurd hcounts hcounting) ?_ ?_
  · refine hfactory.stays rfl (iff_of_false ?_ hholds)
    rcases hnext with ⟨name, rfl⟩ | ⟨host, rfl⟩
    · exact id
    · exact Bool.false_ne_true
  · rcases hnext with ⟨name, rfl⟩ | ⟨host, rfl⟩ <;> trivial
  · refine iff_of_false ?_ hhandles
    rcases hnext with ⟨name, rfl⟩ | ⟨host, rfl⟩ <;> exact id
  · rintro it failed rfl
    simp at hnext
  · rintro failed rfl
    simp at hnext

theorem Consistent.fires (hfactory : factory.Consistent hosts main)
    (hfree : (factory.threads main).Free) :
    ({ factory with armed := false }.setPhase main .woken).Consistent hosts main := by
  refine hfactory.set hfactory.cursors ?_ (fun other _ => hfactory.sound other) trivial
    (fun _ => rfl) (fun _ => ?_) hfactory.distinct hfactory.intact
    (fun _ _ hscan => by cases hscan) (fun other _ => hfactory.scanned other)
    (fun _ hreplaces => by cases hreplaces)
  · exact hfactory.stays rfl (iff_of_false id hfree.spec.1)
  · rw [Function.update_self]
    exact Or.inr (Or.inl trivial)

theorem Consistent.step [DecidableEq Conn] (hfactory : factory.Consistent hosts main)
    {event : Event Conn Thread} (hguarded : Guarded main hosts factory event)
    (hnext : factory.step main hosts event = some next) : next.Consistent hosts main := by
  cases event with
  | getConnectionByName thread name =>
      rw [AsyncThriftConnFactory.step, Option.ite_none_right_eq_some, Option.some.injEq] at hnext
      obtain ⟨⟨hfree, -⟩, rfl⟩ := hnext
      exact hfactory.called hfree (Or.inl ⟨name, rfl⟩)
  | connectBroken thread host =>
      rw [AsyncThriftConnFactory.step, Option.ite_none_right_eq_some, Option.some.injEq] at hnext
      obtain ⟨hfree, rfl⟩ := hnext
      exact hfactory.called hfree (Or.inr ⟨host, rfl⟩)
  | releaseConnection thread conn =>
      rw [AsyncThriftConnFactory.step, Option.ite_none_right_eq_some, Option.some.injEq] at hnext
      obtain ⟨-, rfl⟩ := hnext
      exact ⟨hfactory.cursors, hfactory.guarded, hfactory.sound, hfactory.handler, hfactory.timer,
        hfactory.distinct, hfactory.intact, hfactory.scanned, hfactory.replaced⟩
  | timeout =>
      rw [AsyncThriftConnFactory.step, Option.ite_none_right_eq_some, Option.some.injEq] at hnext
      obtain ⟨⟨-, hfree⟩, rfl⟩ := hnext
      exact hfactory.fires hfree
  | next thread created => exact hfactory.moved hguarded (advance_spec hnext)

/-! ## A thread that has the mutex gives it up -/

omit [DecidableEq Thread] in
/-- What comes after a round without a connection is less than its end. -/
theorem rank_onward_lt {search : Search} {bad : Nat} :
    (factory.onward search : Phase Conn).rank hosts bad <
      5 * (search.size hosts - search.tried.length) + 3 := by
  unfold onward
  split
  · exact Nat.lt_succ_self _
  · exact Nat.lt_add_left _ (by decide : 1 < 3)

/-- A host that has been tried is one less to try. -/
theorem Search.size_try {search : Search} (hmore : search.tried.length < search.size hosts)
    (index : Nat) (verdict : Verdict) :
    (search.try index verdict).size hosts - (search.try index verdict).tried.length + 1 =
      search.size hosts - search.tried.length := by
  have hlength : (search.try index verdict).tried.length = search.tried.length + 1 := by
    rw [Search.try, List.length_append, List.length_singleton]
  have hsize : (search.try index verdict).size hosts = search.size hosts := rfl
  omega

/-- The cursor stays inside the list, wherever it comes from. -/
theorem nextInc_lt (inc : UInt32) {size : Nat} (hsize : 0 < size) :
    (nextInc inc size).toNat < size := by
  unfold nextInc
  split
  next => exact hsize
  next hless => exact Nat.lt_of_not_le hless

/-- Whoever has the mutex has a step. -/
theorem Consistent.goes_on (hfactory : factory.Consistent hosts main)
    (hholds : (factory.threads thread).HoldsMutex) (created : Option Conn) :
    ∃ next, factory.advance main hosts thread created = some next := by
  have hsound := hfactory.sound thread
  unfold advance
  cases hphase : factory.threads thread with
  | looking search =>
      rw [hphase] at hsound
      have hinside := nextInc_lt (factory.inc search.name) (Nat.zero_lt_of_lt hsound.2)
      exact ⟨_, Option.map_eq_some_iff.mpr ⟨_, List.getElem?_eq_getElem hinside, rfl⟩⟩
  | idle =>
      rw [hphase] at hholds
      exact hholds.elim
  | entering name =>
      rw [hphase] at hholds
      exact hholds.elim
  | returned search ret =>
      rw [hphase] at hholds
      exact hholds.elim
  | woken =>
      rw [hphase] at hholds
      exact hholds.elim
  | _ => exact ⟨_, rfl⟩

/-- And comes nearer to where it gives it up. -/
theorem Consistent.nears (hfactory : factory.Consistent hosts main)
    (hholds : (factory.threads thread).HoldsMutex)
    (hmoved : Moved main hosts factory thread next) :
    (next.threads thread).rank hosts next.badHosts.length <
      (factory.threads thread).rank hosts factory.badHosts.length := by
  have hsound := hfactory.sound thread
  cases hmoved with
  | saw search host hphase inc hinc hhost phase hnext =>
      rw [hphase] at hsound ⊢
      have htried := Search.size_try hsound.2 inc.toNat .bad
      rw [setPhase_threads_self]
      rcases hnext with ⟨-, rfl⟩ | ⟨-, rfl⟩
      · exact Nat.lt_succ_self _
      · split <;> simp only [Phase.rank] <;> omega
  | got search host c connects hphase =>
      rw [hphase] at hsound ⊢
      have hmore := hsound.2.2.2.2
      rw [setPhase_threads_self]
      simp only [Phase.rank]
      omega
  | missed search host connects hphase =>
      rw [hphase] at hsound ⊢
      have htried := Search.size_try hsound.2.2.2.2 (factory.inc search.name).toNat .failed
      rw [setPhase_threads_self]
      simp only [Phase.rank]
      omega
  | found host after hphase phase hnext =>
      rw [hphase] at hholds ⊢
      obtain ⟨search, rfl⟩ := Option.isSome_iff_exists.mp hholds
      rw [setPhase_threads_self]
      rcases hnext with ⟨-, rfl⟩ | ⟨-, rfl⟩
      · exact Nat.add_lt_add_left (by decide) _
      · exact Nat.lt_succ_self _
  | pushed host after hphase =>
      rw [hphase] at hholds ⊢
      obtain ⟨search, rfl⟩ := Option.isSome_iff_exists.mp hholds
      rw [setPhase_threads_self]
      exact Nat.lt_succ_self _
  | counted after hphase phase hnext =>
      rw [hphase] at hholds ⊢
      rcases hnext with ⟨rfl, -⟩ | ⟨search, rfl, rfl⟩
      · exact absurd hholds Bool.false_ne_true
      · rw [setPhase_threads_self]
        exact rank_onward_lt
  | left search ret hphase =>
      rw [hphase, setPhase_threads_self]
      exact Nat.zero_lt_one
  | scanned it failed more host connects hphase hhost hmore =>
      rw [hphase, setPhase_threads_self, setPhase_badHosts]
      have hinside := (List.getElem?_eq_some_iff.mp hhost).1
      simp only [Phase.rank]
      omega
  | scannedAll it failed hphase =>
      rw [hphase, setPhase_threads_self]
      exact Nat.lt_add_left _ (by decide : 2 < 3)
  | replaced failed hphase =>
      rw [hphase, setPhase_threads_self]
      exact Nat.one_lt_two
  | rearmed hphase =>
      rw [hphase, setPhase_threads_self]
      exact Nat.zero_lt_one
  | began name hphase hfree hhosts =>
      rw [hphase] at hholds
      exact hholds.elim
  | unlisted name hphase hfree hhosts =>
      rw [hphase] at hholds
      exact hholds.elim
  | locked hphase hfree =>
      rw [hphase] at hholds
      exact hholds.elim
  | refused hphase =>
      rw [hphase] at hholds
      exact hholds.elim

/-! ## The pool, and what it is for -/

/-- What a thread is in, or has come back from, has been fair. -/
theorem Phase.Sound.fair {inc : List UInt8 → UInt32} {search : Search}
    (hsound : phase.Sound hosts inc) (hsearch : phase.search? = some search) :
    search.Fair hosts := by
  cases phase with
  | looking other =>
      cases hsearch
      exact hsound.1.inTurn.fair (Nat.le_of_lt hsound.2)
  | connecting other host =>
      cases hsearch
      exact hsound.1.fair (Nat.le_of_lt hsound.2.2.2.2)
  | finding host after =>
      cases hsearch
      exact hsound.1.inTurn.fair hsound.2.2
  | pushing host after =>
      cases hsearch
      exact hsound.1.inTurn.fair hsound.2.2
  | counting after =>
      cases hsearch
      exact hsound.1.inTurn.fair hsound.2.2
  | leaving other ret =>
      cases hsearch
      exact hsound.1
  | returned other ret =>
      cases hsearch
      exact hsound.1
  | _ => cases hsearch

theorem Consistent.good (hfactory : factory.Consistent hosts main) : factory.Good main hosts where
  timer := hfactory.timer
  distinct := hfactory.distinct
  intact := hfactory.intact
  fair := fun thread search hsearch => (hfactory.sound thread).fair hsearch
  turn := fun thread search host hphase => by
    have hsound := hfactory.sound thread
    rw [hphase] at hsound
    exact hsound.2.2.2.1
  exhausted := fun thread search hphase => by
    have hsound := hfactory.sound thread
    rw [hphase] at hsound
    exact hsound.2 rfl
  ends := fun thread created hholds => by
    obtain ⟨next, hnext⟩ := hfactory.goes_on hholds created
    exact ⟨next, hnext, hfactory.nears hholds (advance_spec hnext)⟩

/-- A push after which the pool is good has been guarded. -/
theorem Good.pushed {host : ZkThriftConfig} {after : Option Search}
    (hgood : ({ factory with
      badHosts := factory.badHosts ++ [host]
      dangling := factory.dangling || decide (factory.threads main).Scans }.setPhase thread
        (.counting after)).Good main hosts) :
    ¬ factory.IsBad host ∧ ¬ (factory.threads main).Scans ∧
      (factory.badHosts = [] ∨ factory.armed ∨ (factory.threads main).Handles) := by
  refine ⟨?_, ?_, ?_⟩
  · have hdistinct := hgood.distinct
    rw [setPhase_badHosts, List.map_append, List.nodup_append_comm] at hdistinct
    exact (List.nodup_cons.mp hdistinct).1
  · have hintact := hgood.intact
    exact of_decide_eq_false (Bool.or_eq_false_iff.mp hintact).2
  · rcases hgood.timer (List.append_ne_nil_of_right_ne_nil _ (List.cons_ne_nil _ _)) with
      harmed | hmain | ⟨hone, -⟩
    · exact Or.inr (Or.inl harmed)
    · by_cases hsame : main = thread
      · rw [hsame, setPhase_threads_self] at hmain
        exact hmain.elim
      · refine Or.inr (Or.inr ?_)
        rwa [setPhase_threads_of_ne _ _ hsame] at hmain
    · left
      rw [setPhase_badHosts, List.length_append, List.length_singleton] at hone
      exact List.eq_nil_of_length_eq_zero (by omega)

/-- The last index that has been tried. -/
theorem Search.InTurn.last {search : Search} {index : Nat} {verdict : Verdict}
    (hturn : (search.try index verdict).InTurn hosts) :
    index = (search.old.toNat + 1 + search.tried.length) % search.size hosts := by
  rw [Search.InTurn, Search.try, List.map_append, List.length_append, List.length_singleton,
    List.range_succ, List.map_append] at hturn
  exact List.head_eq_of_cons_eq (List.append_inj' hturn rfl).2

/-- Nor has a cursor wrapped. -/
theorem Consistent.not_wrapped (hfactory : factory.Consistent hosts main) {search : Search}
    (hphase : factory.threads thread = .looking search)
    (hgood : ∀ next, factory.look hosts thread search = some next → next.Good main hosts) :
    (factory.inc search.name).toNat + 1 < 2 ^ 32 ∨ search.size hosts ≤ 2 ^ 32 := by
  have hsound := hfactory.sound thread
  rw [hphase] at hsound
  obtain ⟨hgoing, hmore⟩ := hsound
  have hcursor : (factory.inc search.name).toNat < search.size hosts := by
    rw [hgoing.cursor]
    exact Nat.mod_lt _ (by omega)
  rw [← nextInc_toNat_iff hcursor, hgoing.cursor, Nat.mod_add_mod, Nat.add_right_comm]
  have hinside : (nextInc (factory.inc search.name) (hosts search.name).length).toNat <
      (hosts search.name).length := nextInc_lt _ (Nat.zero_lt_of_lt hmore)
  have hnext := hgood _ (Option.map_eq_some_iff.mpr ⟨_, List.getElem?_eq_getElem hinside, rfl⟩)
  dsimp only at hnext
  split at hnext
  next =>
    have hfair := hnext.fair thread
      (search.try (nextInc (factory.inc search.name) (hosts search.name).length).toNat .bad) (by
        rw [setPhase_threads_self, onward]
        split <;> rfl)
    exact hfair.inTurn.last
  next =>
    have hturn := hnext.turn thread search _ (setPhase_threads_self _ _ _)
    rw [setPhase_inc] at hturn
    dsimp only at hturn
    rwa [Function.update_self] at hturn

/-- Of the steps only an unguarded one spoils the pool. -/
theorem Consistent.step_good_iff [DecidableEq Conn] (hfactory : factory.Consistent hosts main)
    (event : Event Conn Thread) :
    (∀ next, factory.step main hosts event = some next → next.Good main hosts) ↔
      Guarded main hosts factory event := by
  refine ⟨fun hgood => ?_, fun hguarded next hnext => (hfactory.step hguarded hnext).good⟩
  cases event with
  | next thread created =>
      have hadvance : ∀ next, factory.advance main hosts thread created = some next →
          next.Good main hosts := hgood
      rw [Guarded]
      cases hphase : factory.threads thread with
      | looking search =>
          rw [advance, hphase] at hadvance
          exact hfactory.not_wrapped hphase hadvance
      | pushing host after =>
          rw [advance, hphase] at hadvance
          exact (hadvance _ rfl).pushed
      | _ => trivial
  | _ => trivial

end Moves

section Run

variable [DecidableEq Conn] [DecidableEq Thread] (main : Thread)
  (hosts : List UInt8 → List ZkThriftConfig)

/-- A run fails over, and looks after the bad hosts, as long as its steps are guarded. -/
theorem fails_over_iff (events : List (Event Conn Thread)) :
    Throughout (step main hosts) (Good main hosts) init events ↔
      Along (step main hosts) (Guarded main hosts) init events :=
  throughout_iff_along (Consistent hosts main)
    (fun _ _ _ hfactory hguarded hnext => hfactory.step hguarded hnext)
    (fun _ hfactory => hfactory.good) (fun _ event hfactory => hfactory.step_good_iff event)
    (init_consistent hosts main) events

end Run

/-! ## In one thread -/

section Alone

variable [DecidableEq Thread] {main : Thread} {hosts : List UInt8 → List ZkThriftConfig}
  {factory next : AsyncThriftConnFactory Conn Thread}

/-- What a report is about to push is still not there. -/
def PushesNew (factory : AsyncThriftConnFactory Conn Thread) : Prop :=
  ∀ thread host after, factory.threads thread = .pushing host after → ¬ factory.IsBad host

omit [DecidableEq Thread] in
/-- No other thread comes between. -/
theorem Consistent.guarded_alone [Subsingleton Thread] (hfactory : factory.Consistent hosts main)
    (hpushes : factory.PushesNew) (hsizes : ∀ name, (hosts name).length ≤ 2 ^ 32)
    (event : Event Conn Thread) : Guarded main hosts factory event := by
  cases event with
  | next thread created =>
      rw [Guarded]
      cases hphase : factory.threads thread with
      | looking search => exact Or.inr (hsizes search.name)
      | pushing host after =>
          have hall : ∀ other, factory.threads other = .pushing host after := fun other =>
            Subsingleton.elim thread other ▸ hphase
          refine ⟨hpushes thread host after hphase, by rw [hall main]; exact id, ?_⟩
          by_cases hbad : factory.badHosts = []
          · exact Or.inl hbad
          · rcases hfactory.timer hbad with harmed | hmain | ⟨-, other, hcounting⟩
            · exact Or.inr (Or.inl harmed)
            · exact Or.inr (Or.inr hmain)
            · rw [hall other] at hcounting
              exact hcounting.elim
      | _ => trivial
  | _ => trivial

/-- A thread comes to push what it has just not found. -/
theorem Moved.pushes {thread : Thread} (hmoved : Moved main hosts factory thread next)
    {host : ZkThriftConfig} {after : Option Search}
    (hphase : next.threads thread = .pushing host after) : ¬ next.IsBad host := by
  cases hmoved with
  | found other after' hold phase hnext =>
      rw [setPhase_threads_self] at hphase
      rcases hnext with ⟨-, rfl⟩ | ⟨hnew, rfl⟩
      · cases hphase
      · cases hphase
        exact hnew
  | saw search other hold inc hinc hhost phase hnext =>
      rw [setPhase_threads_self] at hphase
      rcases hnext with ⟨-, rfl⟩ | ⟨-, rfl⟩
      · cases hphase
      · split at hphase <;> cases hphase
  | counted after' hold phase hnext =>
      rw [setPhase_threads_self] at hphase
      rcases hnext with ⟨-, rfl⟩ | ⟨search, -, rfl⟩
      · cases hphase
      · unfold onward at hphase
        split at hphase <;> cases hphase
  | _ =>
      rw [setPhase_threads_self] at hphase
      cases hphase

theorem PushesNew.step [DecidableEq Conn] [Subsingleton Thread] (hpushes : factory.PushesNew)
    {event : Event Conn Thread} (hnext : factory.step main hosts event = some next) :
    next.PushesNew := by
  intro thread host after hphase
  cases event with
  | getConnectionByName other name =>
      obtain ⟨-, ⟨⟩⟩ := Option.ite_none_right_eq_some.mp hnext
      rw [Subsingleton.elim thread other, setPhase_threads_self] at hphase
      cases hphase
  | connectBroken other reported =>
      obtain ⟨-, ⟨⟩⟩ := Option.ite_none_right_eq_some.mp hnext
      rw [Subsingleton.elim thread other, setPhase_threads_self] at hphase
      cases hphase
  | releaseConnection other conn =>
      obtain ⟨-, ⟨⟩⟩ := Option.ite_none_right_eq_some.mp hnext
      exact hpushes thread host after hphase
  | timeout =>
      obtain ⟨-, ⟨⟩⟩ := Option.ite_none_right_eq_some.mp hnext
      rw [Subsingleton.elim thread main, setPhase_threads_self] at hphase
      cases hphase
  | next other created =>
      rw [Subsingleton.elim thread other] at hphase
      exact (advance_spec hnext).pushes hphase

/-- In one thread no bad host is forgotten. -/
theorem alone_good [DecidableEq Conn] [Subsingleton Thread]
    (hsizes : ∀ name, (hosts name).length ≤ 2 ^ 32) (events : List (Event Conn Thread)) :
    Throughout (step main hosts) (Good main hosts) init events := by
  have hstep : ∀ (factory : AsyncThriftConnFactory Conn Thread) event next,
      factory.Consistent hosts main ∧ factory.PushesNew → True →
      factory.step main hosts event = some next → next.Consistent hosts main ∧ next.PushesNew := by
    rintro factory event next ⟨hfactory, hpushes⟩ - hnext
    have hguarded := hfactory.guarded_alone hpushes hsizes event
    exact ⟨hfactory.step hguarded hnext, hpushes.step hnext⟩
  have hinit : (init : AsyncThriftConnFactory Conn Thread).PushesNew := fun _ _ _ hphase => by
    cases hphase
  exact throughout_of_along hstep (fun _ hfactory => hfactory.1.good)
    ⟨init_consistent hosts main, hinit⟩ (along_trivial init events)

end Alone

section Forgotten

/-- A host by its group. -/
def groupHost (groupid : UInt32) : ZkThriftConfig := ⟨[], 9090, groupid, 0⟩

/-- Two threads report a host each. -/
def forgottenReports : List (Event Unit (Fin 3)) :=
  [.connectBroken 1 (groupHost 1), .connectBroken 2 (groupHost 2), .next 1 none, .next 2 none,
    .next 1 none, .next 2 none, .next 1 none, .next 2 none]

/-- Each looks at the size when both have pushed: two hosts are bad, no call is going on, and no
timer will try them again. -/
theorem reports_forgotten :
    (∃ final, run (step 0 fun _ => []) init forgottenReports = some final ∧
      final.badHosts = [groupHost 1, groupHost 2] ∧ final.armed = false ∧
      ∀ thread, final.threads thread = .idle) ∧
    ¬ Throughout (step 0 fun _ => []) (Good 0 fun _ => []) init forgottenReports := by
  have hrun : ∃ final, run (step 0 fun _ => []) init forgottenReports = some final ∧
      final.badHosts = [groupHost 1, groupHost 2] ∧ final.armed = false ∧
      ∀ thread, final.threads thread = .idle := ⟨_, rfl, rfl, rfl, by decide⟩
  refine ⟨hrun, fun hgood => ?_⟩
  obtain ⟨final, hfinal, hbad, harmed, hidle⟩ := hrun
  rcases (hgood.final hfinal).timer (by rw [hbad]; exact List.cons_ne_nil _ _) with
    htimer | hmain | ⟨hone, -⟩
  · rw [harmed] at htimer
    exact Bool.false_ne_true htimer
  · rw [hidle] at hmain
    exact hmain
  · rw [hbad] at hone
    exact absurd hone (by decide)

end Forgotten

end AsyncThriftConnFactory

end ServiceFrame
