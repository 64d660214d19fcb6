import Mathlib.Data.List.Basic
import Mathlib.Data.List.Nodup
import ServiceFrame.Foundation.Run
import ServiceFrame.Foundation.Threads

/-! # Connections to hosts that fail

`AsyncThriftConnFactory` goes round the hosts of a name until one gives a connection. A host that
gives none is bad, and is tried again by a timer. Lookups hold the mutex and the timer's handler
tries to get it, but `connectBroken` may be called without it: each statement on `badHosts` is a
step of its own, and the threads take theirs in any order.
-/

namespace ServiceFrame

open Foundation

universe uConn uThread

variable {Conn : Type uConn} {Thread : Type uThread}

structure ZkThriftConfig where
  host : List UInt8
  port : UInt16
  groupid : UInt32
  time_out : UInt32
  deriving DecidableEq

/-- What `operator==` compares. -/
def ZkThriftConfig.key (config : ZkThriftConfig) : List UInt8 × UInt16 × UInt32 :=
  (config.host, config.port, config.groupid)

namespace AsyncThriftConnFactory

/-- What came of a host that a lookup has tried. -/
inductive Verdict where
  | bad
  | failed
  | connected
  deriving DecidableEq

/-- A call of `getConnectionByName`: the cursor it began with, and the hosts tried by their
indices. -/
structure Search where
  name : List UInt8
  old : UInt32
  tried : List (Nat × Verdict)
  deriving DecidableEq

/-- What a thread is about to do. `connectBroken` is called by a search or from outside. -/
inductive Phase (Conn : Type uConn) where
  | idle
  /-- Before the lock of `getConnectionByName`. -/
  | entering (name : List UInt8)
  /-- Before the next round of its loop. -/
  | looking (search : Search)
  /-- Before `cm->getConnection`. -/
  | connecting (search : Search) (host : ZkThriftConfig)
  /-- In `connectBroken`, before `std::find`. -/
  | finding (host : ZkThriftConfig) (after : Option Search)
  /-- Before `push_back`. -/
  | pushing (host : ZkThriftConfig) (after : Option Search)
  /-- Before the size is looked at. -/
  | counting (after : Option Search)
  /-- Before the unlock of `getConnectionByName`. -/
  | leaving (search : Search) (ret : Option Conn)
  | returned (search : Search) (ret : Option Conn)
  /-- In `handle`, before it tries to get the mutex. -/
  | woken
  /-- In its loop, at an index of `badHosts`. -/
  | scanning (it : Nat) (failed : List ZkThriftConfig)
  /-- Before `badHosts = failed`. -/
  | replacing (failed : List ZkThriftConfig)
  /-- Before the last look at `badHosts`. -/
  | rearming
  deriving DecidableEq

namespace Phase

/-- Between the lock and the unlock. -/
def HoldsMutex : Phase Conn → Prop
  | .looking _ | .connecting _ _ | .leaving _ _ | .scanning _ _ | .replacing _ | .rearming => True
  | .finding _ after | .pushing _ after | .counting after => after.isSome
  | _ => False

/-- The thread runs `handle`. -/
def Handles : Phase Conn → Prop
  | .woken | .scanning _ _ | .replacing _ | .rearming => True
  | _ => False

def Scans : Phase Conn → Prop
  | .scanning _ _ => True
  | _ => False

def Counting : Phase Conn → Prop
  | .counting _ => True
  | _ => False

/-- The thread may make a call. -/
def Free : Phase Conn → Prop
  | .idle | .returned _ _ => True
  | _ => False

instance decidableFree : (phase : Phase Conn) → Decidable phase.Free
  | .idle | .returned _ _ => isTrue trivial
  | .entering _ | .looking _ | .connecting _ _ | .finding _ _ | .pushing _ _ | .counting _
  | .leaving _ _ | .woken | .scanning _ _ | .replacing _ | .rearming => isFalse id

instance decidableScans : (phase : Phase Conn) → Decidable phase.Scans
  | .scanning _ _ => isTrue trivial
  | .idle | .returned _ _ | .entering _ | .looking _ | .connecting _ _ | .finding _ _
  | .pushing _ _ | .counting _ | .leaving _ _ | .woken | .replacing _ | .rearming => isFalse id

instance decidableHandles : (phase : Phase Conn) → Decidable phase.Handles
  | .woken | .scanning _ _ | .replacing _ | .rearming => isTrue trivial
  | .idle | .returned _ _ | .entering _ | .looking _ | .connecting _ _ | .finding _ _
  | .pushing _ _ | .counting _ | .leaving _ _ => isFalse id

end Phase

inductive Event (Conn : Type uConn) (Thread : Type uThread) where
  | getConnectionByName (thread : Thread) (name : List UInt8)
  | connectBroken (thread : Thread) (host : ZkThriftConfig)
  | releaseConnection (thread : Thread) (conn : Conn)
  /-- The timer, which is armed once at a time, calls `handle`. -/
  | timeout
  /-- The thread goes on; `created` is what `createConnect` makes of a host, if it is called. -/
  | next (thread : Thread) (created : Option Conn)

end AsyncThriftConnFactory

open AsyncThriftConnFactory

/-- The factory, its timer, the connections of each thread and where the threads are. In `inc`
is the cursor of each name. -/
structure AsyncThriftConnFactory (Conn : Type uConn) (Thread : Type uThread) where
  badHosts : List ZkThriftConfig
  inc : List UInt8 → UInt32
  mutex : Option Thread
  armed : Bool
  connects : Thread → List (ZkThriftConfig × Conn)
  threads : Thread → Phase Conn
  /-- The vector has grown under the iterator of the handler, so that anything may happen. -/
  dangling : Bool

/-- `ConnectionMap::getConnection`. -/
def ConnectionMap.getConnection (connects : List (ZkThriftConfig × Conn)) (param : ZkThriftConfig)
    (created : Option Conn) : Option Conn × List (ZkThriftConfig × Conn) :=
  match connects.find? fun entry => entry.1.key = param.key with
  | some entry => (some entry.2, connects)
  | none => (created, connects ++ created.toList.map fun c => (param, c))

/-- `ConnectionMap::releaseConnection`. -/
def ConnectionMap.releaseConnection [DecidableEq Conn] (connects : List (ZkThriftConfig × Conn))
    (conn : Conn) : List (ZkThriftConfig × Conn) :=
  connects.filter fun entry => entry.2 ≠ conn

namespace AsyncThriftConnFactory

def init : AsyncThriftConnFactory Conn Thread :=
  { badHosts := [], inc := fun _ => 0, mutex := none, armed := false, connects := fun _ => [],
    threads := fun _ => .idle, dangling := false }

variable [DecidableEq Thread]

def setPhase (factory : AsyncThriftConnFactory Conn Thread) (thread : Thread)
    (phase : Phase Conn) : AsyncThriftConnFactory Conn Thread :=
  { factory with threads := Function.update factory.threads thread phase }

@[simp] theorem setPhase_threads_self (factory : AsyncThriftConnFactory Conn Thread)
    (thread : Thread) (phase : Phase Conn) :
    (factory.setPhase thread phase).threads thread = phase :=
  Function.update_self _ _ _

theorem setPhase_threads_of_ne (factory : AsyncThriftConnFactory Conn Thread)
    {thread other : Thread} (phase : Phase Conn) (hother : other ≠ thread) :
    (factory.setPhase thread phase).threads other = factory.threads other :=
  Function.update_of_ne hother _ _

@[simp] theorem setPhase_badHosts (factory : AsyncThriftConnFactory Conn Thread)
    (thread : Thread) (phase : Phase Conn) :
    (factory.setPhase thread phase).badHosts = factory.badHosts := rfl

@[simp] theorem setPhase_inc (factory : AsyncThriftConnFactory Conn Thread)
    (thread : Thread) (phase : Phase Conn) :
    (factory.setPhase thread phase).inc = factory.inc := rfl

def IsBad (factory : AsyncThriftConnFactory Conn Thread) (host : ZkThriftConfig) : Prop :=
  host.key ∈ factory.badHosts.map ZkThriftConfig.key

instance (factory : AsyncThriftConnFactory Conn Thread) (host : ZkThriftConfig) :
    Decidable (factory.IsBad host) :=
  inferInstanceAs (Decidable (_ ∈ _))

def Search.try (search : Search) (index : Nat) (verdict : Verdict) : Search :=
  { search with tried := search.tried ++ [(index, verdict)] }

/-- The end of the loop's body, when it has found no connection. -/
def onward (factory : AsyncThriftConnFactory Conn Thread) (search : Search) : Phase Conn :=
  if factory.inc search.name ≠ search.old then .looking search else .leaving search none

/-- The cursor after `++inc`; the size of the list is a `size_t`. -/
def nextInc (inc : UInt32) (sz : Nat) : UInt32 := if (inc + 1).toNat ≥ sz then 0 else inc + 1

section Model

-- The thread of the event loop, and the hosts of each name: none for a name that is not there.
variable (main : Thread) (hosts : List UInt8 → List ZkThriftConfig)

/-- A round of the loop, up to `isBad`. -/
def look (factory : AsyncThriftConnFactory Conn Thread) (thread : Thread) (search : Search) :
    Option (AsyncThriftConnFactory Conn Thread) :=
  let inc := nextInc (factory.inc search.name) (hosts search.name).length
  let factory := { factory with inc := Function.update factory.inc search.name inc }
  (hosts search.name)[inc.toNat]?.map fun host =>
    if factory.IsBad host then
      let search := search.try inc.toNat .bad
      factory.setPhase thread (factory.onward search)
    else factory.setPhase thread (.connecting search host)

/-- `cm->getConnection`, and what `getConnection` makes of it. -/
def connect (factory : AsyncThriftConnFactory Conn Thread) (thread : Thread) (search : Search)
    (host : ZkThriftConfig) (created : Option Conn) : AsyncThriftConnFactory Conn Thread :=
  let index := (factory.inc search.name).toNat
  let (ret, connects) := ConnectionMap.getConnection (factory.connects thread) host created
  let factory := { factory with connects := Function.update factory.connects thread connects }
  match ret with
  | some c => factory.setPhase thread (.leaving (search.try index .connected) (some c))
  | none => factory.setPhase thread (.finding host (some (search.try index .failed)))

/-- A host of the handler's loop, or its end. -/
def scan (factory : AsyncThriftConnFactory Conn Thread) (thread : Thread) (it : Nat)
    (failed : List ZkThriftConfig) (created : Option Conn) : AsyncThriftConnFactory Conn Thread :=
  match factory.badHosts[it]? with
  | some host =>
      let (conn, connects) := ConnectionMap.getConnection (factory.connects thread) host created
      let failed := if conn.isNone then failed ++ [host] else failed
      { factory with
        connects := Function.update factory.connects thread connects }.setPhase thread
          (.scanning (it + 1) failed)
  | none => factory.setPhase thread (.replacing failed)

def advance (factory : AsyncThriftConnFactory Conn Thread) (thread : Thread)
    (created : Option Conn) : Option (AsyncThriftConnFactory Conn Thread) :=
  match factory.threads thread with
  | .idle | .returned _ _ => none
  | .entering name =>
      if factory.mutex = none then
        let search : Search := ⟨name, factory.inc name, []⟩
        some ({ factory with mutex := some thread }.setPhase thread
          (if hosts name = [] then .leaving search none else .looking search))
      else none
  | .looking search => factory.look hosts thread search
  | .connecting search host => some (factory.connect thread search host created)
  | .finding host after =>
      some (factory.setPhase thread
        (if factory.IsBad host then .counting after else .pushing host after))
  | .pushing host after =>
      some ({ factory with
        badHosts := factory.badHosts ++ [host]
        dangling := factory.dangling || decide (factory.threads main).Scans }.setPhase thread
          (.counting after))
  | .counting after =>
      some ({ factory with
        armed := factory.armed || decide (factory.badHosts.length = 1) }.setPhase thread
          (match after with
            | none => .idle
            | some search => factory.onward search))
  | .leaving search ret =>
      some ({ factory with mutex := none }.setPhase thread (.returned search ret))
  | .woken =>
      if factory.mutex = none then
        some ({ factory with mutex := some thread }.setPhase thread (.scanning 0 []))
      else some ({ factory with armed := true }.setPhase thread .idle)
  | .scanning it failed => some (factory.scan thread it failed created)
  | .replacing failed => some ({ factory with badHosts := failed }.setPhase thread .rearming)
  | .rearming =>
      some ({ factory with
        mutex := none
        armed := factory.armed || decide (factory.badHosts ≠ []) }.setPhase thread .idle)

/-- For the empty name another connection is asked for, whose code is not there. -/
def step [DecidableEq Conn] (factory : AsyncThriftConnFactory Conn Thread) :
    Event Conn Thread → Option (AsyncThriftConnFactory Conn Thread)
  | .getConnectionByName thread name =>
      if (factory.threads thread).Free ∧ name ≠ [] then
        some (factory.setPhase thread (.entering name))
      else none
  | .connectBroken thread host =>
      if (factory.threads thread).Free then some (factory.setPhase thread (.finding host none))
      else none
  | .releaseConnection thread conn =>
      if (factory.threads thread).Free ∧ factory.mutex = none then
        some { factory with
          connects := Function.update factory.connects thread
            (ConnectionMap.releaseConnection (factory.connects thread) conn) }
      else none
  | .timeout =>
      if factory.armed ∧ (factory.threads main).Free then
        some ({ factory with armed := false }.setPhase main .woken)
      else none
  | .next thread created => factory.advance main hosts thread created

end Model

/-! ## What a step can do -/

section Spec

variable {main : Thread} {hosts : List UInt8 → List ZkThriftConfig}
  {factory next : AsyncThriftConnFactory Conn Thread} {thread : Thread} {created : Option Conn}

/-- How a thread that goes on leaves the factory, whatever it does. -/
inductive Moved (main : Thread) (hosts : List UInt8 → List ZkThriftConfig)
    (factory : AsyncThriftConnFactory Conn Thread) (thread : Thread) :
    AsyncThriftConnFactory Conn Thread → Prop where
  | began (name : List UInt8) (hphase : factory.threads thread = .entering name)
      (hfree : factory.mutex = none) (hhosts : hosts name ≠ []) :
      Moved main hosts factory thread ({ factory with mutex := some thread }.setPhase thread
        (.looking ⟨name, factory.inc name, []⟩))
  | unlisted (name : List UInt8) (hphase : factory.threads thread = .entering name)
      (hfree : factory.mutex = none) (hhosts : hosts name = []) :
      Moved main hosts factory thread ({ factory with mutex := some thread }.setPhase thread
        (.leaving ⟨name, factory.inc name, []⟩ none))
  | saw (search : Search) (host : ZkThriftConfig)
      (hphase : factory.threads thread = .looking search) (inc : UInt32)
      (hinc : inc = nextInc (factory.inc search.name) (hosts search.name).length)
      (hhost : (hosts search.name)[inc.toNat]? = some host) (phase : Phase Conn)
      (hnext : ¬ factory.IsBad host ∧ phase = .connecting search host ∨
        factory.IsBad host ∧ phase = if inc ≠ search.old then .looking (search.try inc.toNat .bad)
          else .leaving (search.try inc.toNat .bad) none) :
      Moved main hosts factory thread
        ({ factory with inc := Function.update factory.inc search.name inc }.setPhase thread phase)
  | got (search : Search) (host : ZkThriftConfig) (c : Conn)
      (connects : Thread → List (ZkThriftConfig × Conn))
      (hphase : factory.threads thread = .connecting search host) :
      Moved main hosts factory thread ({ factory with connects := connects }.setPhase thread
        (.leaving (search.try (factory.inc search.name).toNat .connected) (some c)))
  | missed (search : Search) (host : ZkThriftConfig)
      (connects : Thread → List (ZkThriftConfig × Conn))
      (hphase : factory.threads thread = .connecting search host) :
      Moved main hosts factory thread ({ factory with connects := connects }.setPhase thread
        (.finding host (some (search.try (factory.inc search.name).toNat .failed))))
  | found (host : ZkThriftConfig) (after : Option Search)
      (hphase : factory.threads thread = .finding host after) (phase : Phase Conn)
      (hnext : factory.IsBad host ∧ phase = .counting after ∨
        ¬ factory.IsBad host ∧ phase = .pushing host after) :
      Moved main hosts factory thread (factory.setPhase thread phase)
  | pushed (host : ZkThriftConfig) (after : Option Search)
      (hphase : factory.threads thread = .pushing host after) :
      Moved main hosts factory thread
        ({ factory with
          badHosts := factory.badHosts ++ [host]
          dangling := factory.dangling || decide (factory.threads main).Scans }.setPhase thread
            (.counting after))
  | counted (after : Option Search) (hphase : factory.threads thread = .counting after)
      (phase : Phase Conn)
      (hnext : after = none ∧ phase = .idle ∨
        ∃ search, after = some search ∧ phase = factory.onward search) :
      Moved main hosts factory thread
        ({ factory with
          armed := factory.armed || decide (factory.badHosts.length = 1) }.setPhase thread phase)
  | left (search : Search) (ret : Option Conn)
      (hphase : factory.threads thread = .leaving search ret) :
      Moved main hosts factory thread
        ({ factory with mutex := none }.setPhase thread (.returned search ret))
  | locked (hphase : factory.threads thread = .woken) (hfree : factory.mutex = none) :
      Moved main hosts factory thread
        ({ factory with mutex := some thread }.setPhase thread (.scanning 0 []))
  | refused (hphase : factory.threads thread = .woken) :
      Moved main hosts factory thread ({ factory with armed := true }.setPhase thread .idle)
  | scanned (it : Nat) (failed more : List ZkThriftConfig) (host : ZkThriftConfig)
      (connects : Thread → List (ZkThriftConfig × Conn))
      (hphase : factory.threads thread = .scanning it failed)
      (hhost : factory.badHosts[it]? = some host)
      (hmore : more = failed ∨ more = failed ++ [host]) :
      Moved main hosts factory thread ({ factory with connects := connects }.setPhase thread
        (.scanning (it + 1) more))
  | scannedAll (it : Nat) (failed : List ZkThriftConfig)
      (hphase : factory.threads thread = .scanning it failed) :
      Moved main hosts factory thread (factory.setPhase thread (.replacing failed))
  | replaced (failed : List ZkThriftConfig)
      (hphase : factory.threads thread = .replacing failed) :
      Moved main hosts factory thread
        ({ factory with badHosts := failed }.setPhase thread .rearming)
  | rearmed (hphase : factory.threads thread = .rearming) :
      Moved main hosts factory thread
        ({ factory with
          mutex := none
          armed := factory.armed || decide (factory.badHosts ≠ []) }.setPhase thread .idle)

theorem look_spec {search : Search} (hphase : factory.threads thread = .looking search)
    (hnext : factory.look hosts thread search = some next) :
    Moved main hosts factory thread next := by
  obtain ⟨host, hhost, rfl⟩ := Option.map_eq_some_iff.mp hnext
  dsimp only
  split
  next hbad =>
    exact .saw search host hphase _ rfl hhost _ (Or.inr ⟨hbad, by simp [onward, Search.try]⟩)
  next hbad => exact .saw search host hphase _ rfl hhost _ (Or.inl ⟨hbad, rfl⟩)

theorem connect_spec {search : Search} {host : ZkThriftConfig}
    (hphase : factory.threads thread = .connecting search host) :
    Moved main hosts factory thread (factory.connect thread search host created) := by
  unfold connect
  dsimp only
  split
  next c hret => exact .got search host c _ hphase
  next hret => exact .missed search host _ hphase

theorem scan_spec {it : Nat} {failed : List ZkThriftConfig}
    (hphase : factory.threads thread = .scanning it failed) :
    Moved main hosts factory thread (factory.scan thread it failed created) := by
  unfold scan
  split
  next host hhost =>
    exact .scanned it failed _ host _ hphase hhost (ite_eq_or_eq _ _ _).symm
  next => exact .scannedAll it failed hphase

theorem advance_spec (hnext : factory.advance main hosts thread created = some next) :
    Moved main hosts factory thread next := by
  unfold advance at hnext
  split at hnext
  next => cases hnext
  next => cases hnext
  next name hphase =>
    rw [Option.ite_none_right_eq_some, Option.some.injEq] at hnext
    obtain ⟨hfree, rfl⟩ := hnext
    by_cases hhosts : hosts name = []
    · rw [if_pos hhosts]
      exact .unlisted name hphase hfree hhosts
    · rw [if_neg hhosts]
      exact .began name hphase hfree hhosts
  next search hphase => exact look_spec hphase hnext
  next search host hphase =>
    cases hnext
    exact connect_spec hphase
  next host after hphase =>
    cases hnext
    refine .found host after hphase _ ?_
    split
    next hbad => exact Or.inl ⟨hbad, rfl⟩
    next hbad => exact Or.inr ⟨hbad, rfl⟩
  next host after hphase =>
    cases hnext
    exact .pushed host after hphase
  next after hphase =>
    cases hnext
    cases after with
    | none => exact .counted none hphase .idle (Or.inl ⟨rfl, rfl⟩)
    | some search => exact .counted _ hphase _ (Or.inr ⟨search, rfl, rfl⟩)
  next search ret hphase =>
    cases hnext
    exact .left search ret hphase
  next hphase =>
    split at hnext
    next hfree =>
      cases hnext
      exact .locked hphase hfree
    next =>
      cases hnext
      exact .refused hphase
  next it failed hphase =>
    cases hnext
    exact scan_spec hphase
  next failed hphase =>
    cases hnext
    exact .replaced failed hphase
  next hphase =>
    cases hnext
    exact .rearmed hphase

end Spec

end AsyncThriftConnFactory

end ServiceFrame
