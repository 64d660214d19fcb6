import Mathlib.Data.Fintype.Basic
import ServiceFrame.Xlinux.MessageQueue

/-! # The stage: tasks and their workers

`StageImp` runs the tasks pushed into its queue on worker threads. A worker
counts itself active, runs its task and deletes it, and counts itself out.
-/

namespace ServiceFrame

open Foundation

universe uValue uThread

variable {Task : Type uValue} {Thread : Type uThread}

namespace StageImp

/-- Where a thread is in `threadRun`. -/
inductive Worker (Task : Type uValue) where
  /-- No worker. -/
  | outside
  /-- Before `m_tmqInput.pop()`. -/
  | looping
  | popping
  /-- Before the lock of the first counter update. -/
  | taken (pTask : Task)
  /-- Before its unlock. -/
  | counted (pTask : Task)
  /-- Before `pTask->doTask()`. -/
  | ready (pTask : Task)
  | running (pTask : Task)
  /-- Before `delete pTask`. -/
  | ran (pTask : Task)
  /-- Before the lock of the second counter update. -/
  | deleted
  /-- Before its unlock. -/
  | uncounted
  deriving DecidableEq

namespace Worker

/-- Between the two counter updates. -/
def Active : Worker Task → Prop
  | .counted _ | .ready _ | .running _ | .ran _ | .deleted => True
  | _ => False

def HoldsActive : Worker Task → Prop
  | .counted _ | .uncounted => True
  | _ => False

/-- The task that has been popped and is not deleted yet. -/
def task? : Worker Task → Option Task
  | .taken pTask | .counted pTask | .ready pTask | .running pTask | .ran pTask => some pTask
  | _ => none

end Worker

inductive Event (Task : Type uValue) (Thread : Type uThread) where
  /-- `PThread` with `threadRun`. -/
  | start (thread : Thread)
  | pushTask (thread : Thread) (pTask : Task)
  /-- A thread goes on in the queue. -/
  | queue (move : TMessageQueue.Move Thread)
  /-- A worker goes on in `threadRun`. -/
  | work (thread : Thread)

end StageImp

/-- The workers are fewer than the counter's `2^32`; `started`, `finished` and `deleted`
record the calls of `doTask`, their returns and the deletes so far. -/
structure StageImp (Task : Type uValue) (Thread : Type uThread) where
  m_tmqInput : TMessageQueue Task Thread
  m_mtxActive : Option Thread
  m_u64ActiveThreadNum : Nat
  workers : Thread → StageImp.Worker Task
  started : List (Thread × Task)
  finished : List Task
  deleted : List Task

namespace StageImp

def init (sz : Nat) : StageImp Task Thread :=
  { m_tmqInput := TMessageQueue.init sz, m_mtxActive := none, m_u64ActiveThreadNum := 0,
    workers := fun _ => .outside, started := [], finished := [], deleted := [] }

variable [DecidableEq Thread]

def setWorker (stage : StageImp Task Thread) (thread : Thread) (worker : Worker Task) :
    StageImp Task Thread :=
  { stage with workers := Function.update stage.workers thread worker }

/-- The next operation of a worker in `threadRun`. There is no step while `pop` has not
returned or the task is in a call of its own, nor while the mutex is taken. -/
def threadRun (stage : StageImp Task Thread) (thread : Thread) : Option (StageImp Task Thread) :=
  match stage.workers thread with
  | .outside => none
  | .looping =>
      (stage.m_tmqInput.step (.call thread .pop)).map fun m_tmqInput =>
        { stage with m_tmqInput := m_tmqInput }.setWorker thread .popping
  | .popping =>
      match stage.m_tmqInput.threads thread with
      | .returned (.value pTask) => some (stage.setWorker thread (.taken pTask))
      | _ => none
  | .taken pTask =>
      if stage.m_mtxActive = none then
        some ({ stage with
          m_mtxActive := some thread
          m_u64ActiveThreadNum := stage.m_u64ActiveThreadNum + 1 }.setWorker thread
            (.counted pTask))
      else none
  | .counted pTask => some ({ stage with m_mtxActive := none }.setWorker thread (.ready pTask))
  | .ready pTask =>
      some ({ stage with started := stage.started ++ [(thread, pTask)] }.setWorker thread
        (.running pTask))
  | .running pTask =>
      if (stage.m_tmqInput.threads thread).Idle then
        some ({ stage with finished := stage.finished ++ [pTask] }.setWorker thread (.ran pTask))
      else none
  | .ran pTask =>
      some ({ stage with deleted := stage.deleted ++ [pTask] }.setWorker thread .deleted)
  | .deleted =>
      if stage.m_mtxActive = none then
        some ({ stage with
          m_mtxActive := some thread
          m_u64ActiveThreadNum := stage.m_u64ActiveThreadNum - 1 }.setWorker thread .uncounted)
      else none
  | .uncounted => some ({ stage with m_mtxActive := none }.setWorker thread .looping)

/-- Tasks are pushed by other threads, and by tasks that run. -/
def step (stage : StageImp Task Thread) : Event Task Thread → Option (StageImp Task Thread)
  | .start thread =>
      match stage.workers thread with
      | .outside =>
          if (stage.m_tmqInput.threads thread).Idle then some (stage.setWorker thread .looping)
          else none
      | _ => none
  | .pushTask thread pTask =>
      match stage.workers thread with
      | .outside | .running _ =>
          (stage.m_tmqInput.step (.call thread (.push pTask))).map fun m_tmqInput =>
            { stage with m_tmqInput := m_tmqInput }
      | _ => none
  | .queue move =>
      (stage.m_tmqInput.moved move).map fun m_tmqInput => { stage with m_tmqInput := m_tmqInput }
  | .work thread => stage.threadRun thread

/-- A task goes to the stage once: whoever pushes it has it back only when that fails. -/
def Proper (stage : StageImp Task Thread) : Event Task Thread → Prop
  | .pushTask _ pTask => pTask ∉ stage.m_tmqInput.pushed ∧
      ∀ other, (stage.m_tmqInput.threads other).offers? ≠ some pTask
  | _ => True

instance decidableProper [DecidableEq Task] [Fintype Thread] (stage : StageImp Task Thread) :
    (event : Event Task Thread) → Decidable (stage.Proper event)
  | .pushTask _ pTask =>
      inferInstanceAs (Decidable (pTask ∉ stage.m_tmqInput.pushed ∧
        ∀ other, (stage.m_tmqInput.threads other).offers? ≠ some pTask))
  | .start _ | .queue _ | .work _ => isTrue trivial

/-! ## What holds between any two steps -/

/-- What a worker has in its hands: a task `pop` has taken, or its own. -/
def Worker.hand (phase : TMessageQueue.Phase Task) : Worker Task → Option Task
  | .popping => phase.value?
  | worker => worker.task?

def hands (stage : StageImp Task Thread) (thread : Thread) : Option Task :=
  (stage.workers thread).hand (stage.m_tmqInput.threads thread)

/-- Only workers pop, and they do nothing else in the queue until they run a task. -/
def Worker.Fits (phase : TMessageQueue.Phase Task) : Worker Task → Prop
  | .outside => phase.role = .nothing ∨ phase.role = .pushes
  | .popping => phase.role = .pops
  | .running _ => phase.role ≠ .tries ∧ (phase.role = .pops → phase.Idle)
  | _ => phase.role ≠ .tries ∧ phase.Idle

/-- The calls of `doTask`, their returns and the deletes, in their order. -/
structure Ran (stage : StageImp Task Thread) : Prop where
  once : (stage.started.map Prod.snd).Nodup
  started : ∀ thread pTask, (thread, pTask) ∈ stage.started → pTask ∈ stage.deleted ∨
    stage.workers thread = .running pTask ∨ stage.workers thread = .ran pTask
  finished : ∀ thread pTask, stage.workers thread = .ran pTask → pTask ∈ stage.finished
  deleted : ∀ pTask ∈ stage.deleted, pTask ∈ stage.finished

structure Consistent (stage : StageImp Task Thread) : Prop where
  queue : stage.m_tmqInput.Consistent
  fits : ∀ thread, (stage.workers thread).Fits (stage.m_tmqInput.threads thread)
  fresh : stage.m_tmqInput.pushed.Nodup
  offered : ∀ thread pTask, (stage.m_tmqInput.threads thread).offers? = some pTask →
    pTask ∉ stage.m_tmqInput.pushed ∧
      ∀ other, (stage.m_tmqInput.threads other).offers? = some pTask → other = thread
  custody : Custody stage.m_tmqInput.removed stage.deleted stage.hands
  ran : stage.Ran
  counted : Counts (fun thread => (stage.workers thread).Active) stage.m_u64ActiveThreadNum
  guarded : Guards stage.m_mtxActive (fun thread => (stage.workers thread).HoldsActive)

omit [DecidableEq Thread] in
theorem init_consistent (sz : Nat) : (init sz : StageImp Task Thread).Consistent where
  queue := TMessageQueue.init_consistent sz
  fits := fun thread => Or.inl rfl
  fresh := List.nodup_nil
  offered := fun thread pTask hoffers => by cases hoffers
  custody := Custody.nothing
  ran := by
    refine ⟨List.nodup_nil, fun thread pTask hmem => absurd hmem List.not_mem_nil, ?_,
      fun pTask hmem => absurd hmem List.not_mem_nil⟩
    intro thread pTask hran
    cases hran
  counted := Counts.zero fun thread => id
  guarded := fun thread => by simp [init, Worker.HoldsActive]

namespace Worker.Fits

variable {phase next : TMessageQueue.Phase Task} {worker : Worker Task}

theorem not_tries (hfits : worker.Fits phase) : phase.role ≠ .tries := by
  intro htries
  cases worker with
  | outside => simp [Worker.Fits, htries] at hfits
  | popping => simp [Worker.Fits, htries] at hfits
  | _ => exact hfits.1 htries

theorem kept (hfits : worker.Fits phase) (hrole : next.role = phase.role)
    (hidle : phase.Idle → next = phase) : worker.Fits next := by
  cases worker with
  | outside => rwa [Worker.Fits, hrole]
  | popping => rwa [Worker.Fits, hrole]
  | running pTask =>
      refine ⟨hrole ▸ hfits.1, fun hpops => ?_⟩
      have hcalm := hfits.2 (hrole.symm.trans hpops)
      rwa [hidle hcalm]
  | _ => exact ⟨by rw [hrole]; exact hfits.1, by rw [hidle hfits.2]; exact hfits.2⟩

/-- A thread that takes from the queue is a worker in `pop`. -/
theorem popping_of_takes (hfits : worker.Fits phase) (htakes : phase.Takes) :
    worker = .popping := by
  have hpops := htakes.role_eq hfits.not_tries
  cases worker with
  | popping => rfl
  | outside => simp [Worker.Fits, hpops] at hfits
  | running pTask => exact absurd (hfits.2 hpops) htakes.not_idle
  | _ => exact absurd hfits.2 htakes.not_idle

end Worker.Fits

namespace Consistent

variable {stage next : StageImp Task Thread} {thread : Thread}

/-- What is pushed was offered once, and is new. -/
theorem fresh_moved (hstage : stage.Consistent) {m_tmqInput : TMessageQueue Task Thread}
    (hmoved : TMessageQueue.Moved stage.m_tmqInput m_tmqInput) :
    m_tmqInput.pushed.Nodup ∧ ∀ thread pTask, (m_tmqInput.threads thread).offers? = some pTask →
      pTask ∉ m_tmqInput.pushed ∧
        ∀ other, (m_tmqInput.threads other).offers? = some pTask → other = thread := by
  rcases hmoved.offers with ⟨hpushed, hoffers⟩ | ⟨pusher, pushed, hpusher, hpushed, hoffers⟩
  · rw [hpushed]
    refine ⟨hstage.fresh, fun thread pTask hthread => ?_⟩
    obtain ⟨hnew, honly⟩ := hstage.offered thread pTask (hoffers thread pTask hthread)
    exact ⟨hnew, fun other hother => honly other (hoffers other pTask hother)⟩
  · obtain ⟨hnew, honly⟩ := hstage.offered pusher pushed hpusher
    rw [hpushed]
    refine ⟨?_, fun thread pTask hthread => ?_⟩
    · rw [← List.concat_eq_append, List.nodup_concat]
      exact ⟨hnew, hstage.fresh⟩
    · obtain ⟨hother, hthread⟩ := hoffers thread pTask hthread
      obtain ⟨hfirst, hunique⟩ := hstage.offered thread pTask hthread
      refine ⟨fun hmem => ?_, fun other hmore => hunique other (hoffers other pTask hmore).2⟩
      rcases List.mem_append.mp hmem with hold | hsame
      · exact hfirst hold
      · rw [List.mem_singleton.mp hsame] at hthread
        exact hother (honly thread hthread)

/-- What leaves the queue comes into the hands of the worker that popped it. -/
theorem custody_moved (hstage : stage.Consistent) {m_tmqInput : TMessageQueue Task Thread}
    (hmoved : TMessageQueue.Moved stage.m_tmqInput m_tmqInput) :
    Custody m_tmqInput.removed stage.deleted { stage with m_tmqInput := m_tmqInput }.hands := by
  rcases hmoved.values hstage.queue with ⟨hremoved, hvalues⟩ |
    ⟨popper, pTask, rest, htakes, hfront, hremoved, hthreads⟩
  · have hhands : { stage with m_tmqInput := m_tmqInput }.hands = stage.hands := by
      funext other
      dsimp only [hands]
      cases stage.workers other with
      | popping => exact hvalues other
      | _ => rfl
    rw [hremoved, hhands]
    exact hstage.custody
  · have hpopping := (hstage.fits popper).popping_of_takes htakes
    have hempty : stage.hands popper = none := by
      rw [hands, hpopping, Worker.hand, htakes.value?_eq]
    have hnew : pTask ∉ stage.m_tmqInput.removed := by
      have hfresh := hstage.fresh
      rw [hstage.queue.logged, hfront, List.nodup_append] at hfresh
      exact fun hmem => hfresh.2.2 pTask hmem pTask List.mem_cons_self rfl
    have hhands : { stage with m_tmqInput := m_tmqInput }.hands =
        Function.update stage.hands popper (some pTask) := by
      funext other
      rw [hands, hthreads, Function.update_apply, Function.update_apply]
      by_cases hsame : other = popper
      · rw [if_pos hsame, if_pos hsame, hsame, hpopping]
        rfl
      · rw [if_neg hsame, if_neg hsame]
        rfl
    rw [hremoved, hhands]
    exact hstage.custody.receive hempty hnew

theorem moved (hstage : stage.Consistent) {m_tmqInput : TMessageQueue Task Thread}
    (hmoved : TMessageQueue.Moved stage.m_tmqInput m_tmqInput) :
    { stage with m_tmqInput := m_tmqInput }.Consistent where
  queue := hstage.queue.moved hmoved
  fits := fun thread => (hstage.fits thread).kept
    (hmoved.role hstage.queue (fun other => (hstage.fits other).not_tries) thread)
    (hmoved.idle hstage.queue)
  fresh := (hstage.fresh_moved hmoved).1
  offered := (hstage.fresh_moved hmoved).2
  custody := hstage.custody_moved hmoved
  ran := ⟨hstage.ran.once, hstage.ran.started, hstage.ran.finished, hstage.ran.deleted⟩
  counted := hstage.counted
  guarded := hstage.guarded

/-- A thread's steps in `threadRun` touch no other worker. -/
theorem fits_update (hstage : stage.Consistent) {worker : Worker Task}
    (hfits : worker.Fits (stage.m_tmqInput.threads thread)) (other : Thread) :
    (Function.update stage.workers thread worker other).Fits (stage.m_tmqInput.threads other) := by
  rw [Function.update_apply]
  split
  next hsame => rwa [hsame]
  next => exact hstage.fits other

theorem hands_setWorker (stage : StageImp Task Thread) (thread : Thread) (worker : Worker Task) :
    (stage.setWorker thread worker).hands = Function.update stage.hands thread
      (worker.hand (stage.m_tmqInput.threads thread)) := by
  funext other
  change (Function.update stage.workers thread worker other).hand _ = _
  rw [Function.update_apply, Function.update_apply]
  split
  next hsame =>
    rw [hsame]
    rfl
  next => rfl

/-- A step on which no task is called, returns or is deleted. -/
theorem ran_quiet (hstage : stage.Consistent) {worker : Worker Task}
    (hold : ∀ pTask, stage.workers thread ≠ .running pTask ∧ stage.workers thread ≠ .ran pTask)
    (hnew : ∀ pTask, worker ≠ .ran pTask) : (stage.setWorker thread worker).Ran where
  once := hstage.ran.once
  started := by
    intro other pTask hmem
    refine (hstage.ran.started other pTask hmem).imp_right fun hother => ?_
    have hne : other ≠ thread := by
      rintro rfl
      exact hother.elim (hold pTask).1 (hold pTask).2
    change Function.update stage.workers thread worker other = _ ∨
      Function.update stage.workers thread worker other = _
    rwa [Function.update_of_ne hne]
  finished := by
    intro other pTask hran
    change Function.update stage.workers thread worker other = _ at hran
    rw [Function.update_apply] at hran
    split at hran
    next => exact absurd hran (hnew pTask)
    next => exact hstage.ran.finished other pTask hran
  deleted := hstage.ran.deleted

/-- A step of a worker on which it keeps what it has. -/
theorem worked (hstage : stage.Consistent) {worker : Worker Task} {mutex : Option Thread}
    {count : Nat} {started : List (Thread × Task)} {finished : List Task}
    (hfits : worker.Fits (stage.m_tmqInput.threads thread))
    (hhand : worker.hand (stage.m_tmqInput.threads thread) = stage.hands thread)
    (hran : ({ stage with started := started, finished := finished }.setWorker thread worker).Ran)
    (hcounted : Counts (fun other => (Function.update stage.workers thread worker other).Active)
      count)
    (hguarded : Guards mutex
      (fun other => (Function.update stage.workers thread worker other).HoldsActive)) :
    ({ stage with
      m_mtxActive := mutex
      m_u64ActiveThreadNum := count
      started := started
      finished := finished }.setWorker thread worker).Consistent where
  queue := hstage.queue
  fits := hstage.fits_update hfits
  fresh := hstage.fresh
  offered := hstage.offered
  custody := by
    have hsame : Function.update stage.hands thread
        (worker.hand (stage.m_tmqInput.threads thread)) = stage.hands := by
      rw [hhand, Function.update_eq_self]
    have hcustody := hstage.custody
    rw [← hsame] at hcustody
    rw [hands_setWorker]
    exact hcustody
  ran := ⟨hran.once, hran.started, hran.finished, hran.deleted⟩
  counted := hcounted
  guarded := hguarded

theorem counted_stay (hstage : stage.Consistent) {worker : Worker Task}
    (hactive : worker.Active ↔ (stage.workers thread).Active) :
    Counts (fun other => (Function.update stage.workers thread worker other).Active)
      stage.m_u64ActiveThreadNum :=
  Counts.update_stay Worker.Active hstage.counted hactive

theorem guarded_stay (hstage : stage.Consistent) {worker : Worker Task}
    (hholds : worker.HoldsActive ↔ (stage.workers thread).HoldsActive) :
    Guards stage.m_mtxActive
      (fun other => (Function.update stage.workers thread worker other).HoldsActive) :=
  Guards.stay Worker.HoldsActive hstage.guarded hholds

/-- A step outside of the mutex, on which no task is called, returns or is deleted. -/
theorem moves (hstage : stage.Consistent) {worker : Worker Task}
    (hfits : worker.Fits (stage.m_tmqInput.threads thread))
    (hhand : worker.hand (stage.m_tmqInput.threads thread) = stage.hands thread)
    (hran : (stage.setWorker thread worker).Ran)
    (hactive : worker.Active ↔ (stage.workers thread).Active)
    (hholds : worker.HoldsActive ↔ (stage.workers thread).HoldsActive) :
    (stage.setWorker thread worker).Consistent :=
  hstage.worked hfits hhand hran (hstage.counted_stay hactive) (hstage.guarded_stay hholds)

/-- A worker goes into the mutex, and counts itself in or out. -/
theorem locks (hstage : stage.Consistent) {worker : Worker Task} {count : Nat}
    (hfree : stage.m_mtxActive = none)
    (hfits : worker.Fits (stage.m_tmqInput.threads thread))
    (hhand : worker.hand (stage.m_tmqInput.threads thread) = stage.hands thread)
    (hran : (stage.setWorker thread worker).Ran)
    (hcounted : Counts (fun other => (Function.update stage.workers thread worker other).Active)
      count)
    (hholds : worker.HoldsActive) :
    ({ stage with
      m_mtxActive := some thread
      m_u64ActiveThreadNum := count }.setWorker thread worker).Consistent := by
  have hguarded := hstage.guarded
  rw [hfree] at hguarded
  exact hstage.worked hfits hhand hran hcounted (Guards.take Worker.HoldsActive hguarded hholds)

/-- A worker leaves the mutex. -/
theorem unlocks (hstage : stage.Consistent) {worker : Worker Task}
    (hfits : worker.Fits (stage.m_tmqInput.threads thread))
    (hhand : worker.hand (stage.m_tmqInput.threads thread) = stage.hands thread)
    (hran : (stage.setWorker thread worker).Ran)
    (hactive : worker.Active ↔ (stage.workers thread).Active)
    (hheld : (stage.workers thread).HoldsActive) (hleaves : ¬ worker.HoldsActive) :
    ({ stage with m_mtxActive := none }.setWorker thread worker).Consistent :=
  hstage.worked hfits hhand hran (hstage.counted_stay hactive)
    (Guards.drop Worker.HoldsActive hstage.guarded hheld hleaves)

omit [DecidableEq Thread] in
/-- The worker with a task in its hands has not called it before. -/
theorem not_started (hstage : stage.Consistent) {pTask : Task}
    (hready : stage.workers thread = .ready pTask) :
    pTask ∉ stage.started.map Prod.snd := by
  intro hmem
  obtain ⟨⟨other, called⟩, hstarted, rfl⟩ := List.mem_map.mp hmem
  have hhands : stage.hands thread = some called := by
    rw [hands, hready]
    rfl
  have hother : stage.hands other = some called → other = thread := fun hother =>
    hstage.custody.unique thread other called hhands hother
  rcases hstage.ran.started other called hstarted with hdeleted | hrunning | hran
  · exact (hstage.custody.held thread called hhands).2 hdeleted
  · have hsame := hother (by rw [hands, hrunning]; rfl)
    rw [hsame, hready] at hrunning
    cases hrunning
  · have hsame := hother (by rw [hands, hran]; rfl)
    rw [hsame, hready] at hran
    cases hran

theorem starts (hstage : stage.Consistent) {pTask : Task}
    (hready : stage.workers thread = .ready pTask) :
    ({ stage with started := stage.started ++ [(thread, pTask)] }.setWorker thread
      (.running pTask)).Ran where
  once := by
    change ((stage.started ++ [(thread, pTask)]).map Prod.snd).Nodup
    rw [List.map_append, List.map_singleton, ← List.concat_eq_append, List.nodup_concat]
    exact ⟨hstage.not_started hready, hstage.ran.once⟩
  started := by
    intro other called hmem
    change _ ∨ Function.update stage.workers thread _ other = _ ∨
      Function.update stage.workers thread _ other = _
    rcases List.mem_append.mp hmem with hold | hnew
    · refine (hstage.ran.started other called hold).imp_right fun hother => ?_
      have hne : other ≠ thread := by
        rintro rfl
        rw [hready] at hother
        simp at hother
      rwa [Function.update_of_ne hne]
    · cases List.mem_singleton.mp hnew
      rw [Function.update_self]
      exact Or.inr (Or.inl rfl)
  finished := by
    intro other called hran
    change Function.update stage.workers thread _ other = _ at hran
    rw [Function.update_apply] at hran
    split at hran
    next => cases hran
    next => exact hstage.ran.finished other called hran
  deleted := hstage.ran.deleted

theorem returns (hstage : stage.Consistent) {pTask : Task}
    (hrunning : stage.workers thread = .running pTask) :
    ({ stage with finished := stage.finished ++ [pTask] }.setWorker thread (.ran pTask)).Ran where
  once := hstage.ran.once
  started := by
    intro other called hmem
    change _ ∨ Function.update stage.workers thread _ other = _ ∨
      Function.update stage.workers thread _ other = _
    refine (hstage.ran.started other called hmem).imp_right fun hother => ?_
    by_cases hsame : other = thread
    · subst hsame
      rw [hrunning] at hother
      rcases hother with hrun | hran
      · cases hrun
        exact Or.inr (Function.update_self ..)
      · cases hran
    · rwa [Function.update_of_ne hsame]
  finished := by
    intro other called hran
    change Function.update stage.workers thread _ other = _ at hran
    rw [Function.update_apply] at hran
    split at hran
    next =>
      cases hran
      exact List.mem_append_right _ List.mem_cons_self
    next => exact List.mem_append_left _ (hstage.ran.finished other called hran)
  deleted := fun called hmem => List.mem_append_left _ (hstage.ran.deleted called hmem)

theorem deletes (hstage : stage.Consistent) {pTask : Task}
    (hran : stage.workers thread = .ran pTask) :
    ({ stage with deleted := stage.deleted ++ [pTask] }.setWorker thread .deleted).Consistent where
  queue := hstage.queue
  fits := by
    apply hstage.fits_update
    have hfits := hstage.fits thread
    rwa [hran] at hfits
  fresh := hstage.fresh
  offered := hstage.offered
  custody := by
    rw [hands_setWorker]
    apply hstage.custody.dispose
    rw [hands, hran]
    rfl
  ran := by
    refine ⟨hstage.ran.once, fun other called hmem => ?_, fun other called hother => ?_,
      fun called hmem => ?_⟩
    · change called ∈ stage.deleted ++ [pTask] ∨
        Function.update stage.workers thread _ other = _ ∨
          Function.update stage.workers thread _ other = _
      rcases hstage.ran.started other called hmem with hdeleted | hother
      · exact Or.inl (List.mem_append_left _ hdeleted)
      · by_cases hsame : other = thread
        · subst hsame
          rw [hran] at hother
          rcases hother with hrunning | hsame
          · cases hrunning
          · cases hsame
            exact Or.inl (List.mem_append_right _ List.mem_cons_self)
        · exact Or.inr (by rwa [Function.update_of_ne hsame])
    · change Function.update stage.workers thread _ other = _ at hother
      rw [Function.update_apply] at hother
      split at hother
      next => cases hother
      next => exact hstage.ran.finished other called hother
    · rcases List.mem_append.mp hmem with hold | hnew
      · exact hstage.ran.deleted called hold
      · rw [List.mem_singleton.mp hnew]
        exact hstage.ran.finished thread pTask hran
  counted := hstage.counted_stay (by rw [hran]; exact Iff.rfl)
  guarded := hstage.guarded_stay (by rw [hran]; exact Iff.rfl)

/-- A worker goes into `pop` with empty hands. -/
theorem pops (hstage : stage.Consistent) {m_tmqInput : TMessageQueue Task Thread}
    (hlooping : stage.workers thread = .looping)
    (hcall : stage.m_tmqInput.step (.call thread .pop) = some m_tmqInput) :
    ({ stage with m_tmqInput := m_tmqInput }.setWorker thread .popping).Consistent := by
  have hqueue := hstage.queue.step hcall
  obtain ⟨-, rfl⟩ := TMessageQueue.step_call hcall
  have hran : (stage.setWorker thread .popping).Ran :=
    hstage.ran_quiet (fun other => by simp [hlooping]) (fun other => by simp)
  have hhands : ({ stage with
      m_tmqInput := stage.m_tmqInput.setPhase thread (.calling .pop) }.setWorker thread
        .popping).hands = stage.hands := by
    funext other
    change (Function.update stage.workers thread _ other).hand
      (Function.update stage.m_tmqInput.threads thread _ other) = _
    by_cases hsame : other = thread
    · rw [hsame, Function.update_self, Function.update_self, hands, hlooping]
      rfl
    · rw [Function.update_of_ne hsame, Function.update_of_ne hsame, hands]
  refine ⟨hqueue, fun other => ?_, hstage.fresh, fun other pTask hoffers => ?_, ?_,
    ⟨hran.once, hran.started, hran.finished, hran.deleted⟩,
    hstage.counted_stay (by rw [hlooping]; exact Iff.rfl),
    hstage.guarded_stay (by rw [hlooping]; exact Iff.rfl)⟩
  · change (Function.update stage.workers thread _ other).Fits
      (Function.update stage.m_tmqInput.threads thread _ other)
    by_cases hsame : other = thread
    · rw [hsame, Function.update_self, Function.update_self]
      rfl
    · rw [Function.update_of_ne hsame, Function.update_of_ne hsame]
      exact hstage.fits other
  · obtain ⟨-, hother⟩ := TMessageQueue.offers_of_update rfl hoffers
    obtain ⟨hnew, honly⟩ := hstage.offered other pTask hother
    exact ⟨hnew, fun more hmore => honly more (TMessageQueue.offers_of_update rfl hmore).2⟩
  · rw [hhands]
    exact hstage.custody

/-- A task that is pushed is offered by one thread, and in nobody's hands yet. -/
theorem pushTask (hstage : stage.Consistent) {m_tmqInput : TMessageQueue Task Thread}
    {pTask : Task} (hproper : stage.Proper (.pushTask thread pTask))
    (hworker : stage.workers thread = .outside ∨ ∃ own, stage.workers thread = .running own)
    (hcall : stage.m_tmqInput.step (.call thread (.push pTask)) = some m_tmqInput) :
    { stage with m_tmqInput := m_tmqInput }.Consistent := by
  have hqueue := hstage.queue.step hcall
  obtain ⟨-, rfl⟩ := TMessageQueue.step_call hcall
  have hhands : { stage with
      m_tmqInput := stage.m_tmqInput.setPhase thread (.calling (.push pTask)) }.hands =
        stage.hands := by
    funext other
    change (stage.workers other).hand (Function.update stage.m_tmqInput.threads thread _ other) = _
    by_cases hsame : other = thread
    · rw [hsame, Function.update_self, hands]
      rcases hworker with houtside | ⟨own, hrunning⟩
      · rw [houtside]
        rfl
      · rw [hrunning]
        rfl
    · rw [Function.update_of_ne hsame, hands]
  refine ⟨hqueue, fun other => ?_, hstage.fresh, fun other called hoffers => ?_, ?_,
    ⟨hstage.ran.once, hstage.ran.started, hstage.ran.finished, hstage.ran.deleted⟩,
    hstage.counted, hstage.guarded⟩
  · change (stage.workers other).Fits (Function.update stage.m_tmqInput.threads thread _ other)
    by_cases hsame : other = thread
    · rw [hsame, Function.update_self]
      rcases hworker with houtside | ⟨own, hrunning⟩
      · rw [houtside]
        exact Or.inr rfl
      · rw [hrunning]
        exact ⟨by simp [TMessageQueue.Phase.role], fun hpops => by cases hpops⟩
    · rw [Function.update_of_ne hsame]
      exact hstage.fits other
  · -- the task offered now is new, and the others are offered as before
    have hold : ∀ {other called}, ((stage.m_tmqInput.setPhase thread
        (.calling (.push pTask))).threads other).offers? = some called → called ≠ pTask →
        (stage.m_tmqInput.threads other).offers? = some called := by
      intro other called hoffers hne
      change (Function.update stage.m_tmqInput.threads thread _ other).offers? = _ at hoffers
      rw [Function.update_apply] at hoffers
      split at hoffers
      next => exact absurd (Option.some.inj hoffers).symm hne
      next => exact hoffers
    have hnow : ∀ {other}, ((stage.m_tmqInput.setPhase thread
        (.calling (.push pTask))).threads other).offers? = some pTask → other = thread := by
      intro other hoffers
      change (Function.update stage.m_tmqInput.threads thread _ other).offers? = _ at hoffers
      rw [Function.update_apply] at hoffers
      split at hoffers
      next hsame => exact hsame
      next => exact absurd hoffers (hproper.2 other)
    by_cases hsame : called = pTask
    · subst hsame
      refine ⟨hproper.1, fun more hmore => ?_⟩
      rw [hnow hmore, hnow hoffers]
    · obtain ⟨hnew, honly⟩ := hstage.offered other called (hold hoffers hsame)
      exact ⟨hnew, fun more hmore => honly more (hold hmore hsame)⟩
  · rw [hhands]
    exact hstage.custody

theorem threadRun (hstage : stage.Consistent) (hnext : stage.threadRun thread = some next) :
    next.Consistent := by
  have hfits := hstage.fits thread
  dsimp only [StageImp.threadRun] at hnext
  split at hnext
  next => cases hnext
  next hlooping =>
    obtain ⟨m_tmqInput, hcall, rfl⟩ := Option.map_eq_some_iff.mp hnext
    exact hstage.pops hlooping hcall
  next hpopping =>
    split at hnext
    next pTask hreturned =>
      cases hnext
      have hhand : (Worker.taken pTask).hand (stage.m_tmqInput.threads thread) =
          stage.hands thread := by
        rw [hands, hpopping, Worker.hand, hreturned]
        rfl
      refine hstage.moves ?_ hhand (hstage.ran_quiet ?_ ?_) (by rw [hpopping]; exact Iff.rfl)
        (by rw [hpopping]; exact Iff.rfl)
      · rw [hreturned]
        exact ⟨by simp [TMessageQueue.Phase.role], trivial⟩
      · exact fun other => by simp [hpopping]
      · exact fun other => by simp
    next => cases hnext
  next pTask htaken =>
    rw [Option.ite_none_right_eq_some, Option.some.injEq] at hnext
    obtain ⟨hfree, rfl⟩ := hnext
    rw [htaken] at hfits
    refine hstage.locks hfree hfits ?_ (hstage.ran_quiet ?_ ?_)
      (Counts.update_enter Worker.Active hstage.counted ?_ trivial) trivial
    · rw [hands, htaken]
      rfl
    · exact fun other => by simp [htaken]
    · exact fun other => by simp
    · rw [htaken]
      exact id
  next pTask hcounted =>
    cases hnext
    rw [hcounted] at hfits
    refine hstage.unlocks hfits ?_ (hstage.ran_quiet ?_ ?_) (by rw [hcounted]; exact Iff.rfl)
      (by rw [hcounted]; trivial) id
    · rw [hands, hcounted]
      rfl
    · exact fun other => by simp [hcounted]
    · exact fun other => by simp
  next pTask hready =>
    cases hnext
    rw [hready] at hfits
    refine hstage.worked ⟨hfits.1, fun _ => hfits.2⟩ ?_ (hstage.starts hready)
      (hstage.counted_stay (by rw [hready]; exact Iff.rfl))
      (hstage.guarded_stay (by rw [hready]; exact Iff.rfl))
    rw [hands, hready]
    rfl
  next pTask hrunning =>
    rw [Option.ite_none_right_eq_some, Option.some.injEq] at hnext
    obtain ⟨hidle, rfl⟩ := hnext
    refine hstage.worked ⟨hfits.not_tries, hidle⟩ ?_ (hstage.returns hrunning)
      (hstage.counted_stay (by rw [hrunning]; exact Iff.rfl))
      (hstage.guarded_stay (by rw [hrunning]; exact Iff.rfl))
    rw [hands, hrunning]
    rfl
  next pTask hran =>
    cases hnext
    exact hstage.deletes hran
  next hdeleted =>
    rw [Option.ite_none_right_eq_some, Option.some.injEq] at hnext
    obtain ⟨hfree, rfl⟩ := hnext
    rw [hdeleted] at hfits
    have hactive : (stage.workers thread).Active := by
      rw [hdeleted]
      trivial
    have hpos : 0 < stage.m_u64ActiveThreadNum := hstage.counted.pos_iff.mpr ⟨thread, hactive⟩
    have hcounted := hstage.counted
    rw [← Nat.sub_add_cancel hpos] at hcounted
    refine hstage.locks hfree hfits ?_ (hstage.ran_quiet ?_ ?_)
      (Counts.update_leave Worker.Active hcounted hactive id) trivial
    · rw [hands, hdeleted]
      rfl
    · exact fun other => by simp [hdeleted]
    · exact fun other => by simp
  next huncounted =>
    cases hnext
    rw [huncounted] at hfits
    refine hstage.unlocks hfits ?_ (hstage.ran_quiet ?_ ?_) (by rw [huncounted]; exact Iff.rfl)
      (by rw [huncounted]; trivial) id
    · rw [hands, huncounted]
      rfl
    · exact fun other => by simp [huncounted]
    · exact fun other => by simp

theorem step (hstage : stage.Consistent) {event : Event Task Thread}
    (hproper : stage.Proper event) (hnext : stage.step event = some next) : next.Consistent := by
  cases event with
  | start thread =>
      dsimp only [StageImp.step] at hnext
      split at hnext
      next houtside =>
        rw [Option.ite_none_right_eq_some, Option.some.injEq] at hnext
        obtain ⟨hidle, rfl⟩ := hnext
        refine hstage.moves ⟨(hstage.fits thread).not_tries, hidle⟩ ?_ (hstage.ran_quiet ?_ ?_)
          (by rw [houtside]; exact Iff.rfl) (by rw [houtside]; exact Iff.rfl)
        · rw [hands, houtside]
          rfl
        · exact fun other => by simp [houtside]
        · exact fun other => by simp
      next => cases hnext
  | pushTask thread pTask =>
      dsimp only [StageImp.step] at hnext
      split at hnext
      next houtside =>
        obtain ⟨m_tmqInput, hcall, rfl⟩ := Option.map_eq_some_iff.mp hnext
        exact hstage.pushTask hproper (Or.inl houtside) hcall
      next own hrunning =>
        obtain ⟨m_tmqInput, hcall, rfl⟩ := Option.map_eq_some_iff.mp hnext
        exact hstage.pushTask hproper (Or.inr ⟨own, hrunning⟩) hcall
      next => cases hnext
  | queue move =>
      obtain ⟨m_tmqInput, hmoved, rfl⟩ := Option.map_eq_some_iff.mp hnext
      exact hstage.moved (TMessageQueue.moved_spec hmoved)
  | work thread => exact hstage.threadRun hnext

end Consistent

/-! ## What the stage is for -/

/-- A task that `pushTask` has taken waits in the queue, or one worker has it, or it has been
deleted, once and after its `doTask`. -/
structure Sound (stage : StageImp Task Thread) : Prop where
  queue : stage.m_tmqInput.Sound
  one_worker : ∀ first second pTask, (first, pTask) ∈ stage.started →
    (second, pTask) ∈ stage.started → first = second
  run_once : (stage.started.map Prod.snd).Nodup
  deleted_once : stage.deleted.Nodup
  deleted_after : ∀ pTask ∈ stage.deleted, pTask ∈ stage.finished
  somewhere : ∀ pTask ∈ stage.m_tmqInput.pushed,
    pTask ∈ stage.m_tmqInput.m_seqContainer ∧ (∀ thread, stage.hands thread ≠ some pTask) ∧
      pTask ∉ stage.deleted ∨
    (∃ thread, stage.hands thread = some pTask ∧
      ∀ other, stage.hands other = some pTask → other = thread) ∧ pTask ∉ stage.deleted ∨
    pTask ∈ stage.deleted
  active : Counts (fun thread => (stage.workers thread).Active) stage.m_u64ActiveThreadNum

omit [DecidableEq Thread] in
theorem Consistent.somewhere {stage : StageImp Task Thread} (hstage : stage.Consistent)
    {pTask : Task} (hpushed : pTask ∈ stage.m_tmqInput.pushed) :
    pTask ∈ stage.m_tmqInput.m_seqContainer ∧ (∀ thread, stage.hands thread ≠ some pTask) ∧
      pTask ∉ stage.deleted ∨
    (∃ thread, stage.hands thread = some pTask ∧
      ∀ other, stage.hands other = some pTask → other = thread) ∧ pTask ∉ stage.deleted ∨
    pTask ∈ stage.deleted := by
  have hfresh := hstage.fresh
  rw [hstage.queue.logged] at hpushed hfresh
  rcases List.mem_append.mp hpushed with hremoved | hwaits
  · rcases hstage.custody.kept pTask hremoved with hdeleted | ⟨thread, hthread⟩
    · exact Or.inr (Or.inr hdeleted)
    · exact Or.inr (Or.inl ⟨⟨thread, hthread, fun other hother =>
        hstage.custody.unique thread other pTask hthread hother⟩,
        (hstage.custody.held thread pTask hthread).2⟩)
  · have hinside : pTask ∉ stage.m_tmqInput.removed := fun hremoved =>
      (List.nodup_append.mp hfresh).2.2 pTask hremoved pTask hwaits rfl
    exact Or.inl ⟨hwaits,
      fun thread hthread => hinside (hstage.custody.held thread pTask hthread).1,
      fun hdeleted => hinside (hstage.custody.known pTask hdeleted)⟩

theorem Consistent.sound {stage : StageImp Task Thread} (hstage : stage.Consistent) :
    stage.Sound where
  queue := hstage.queue.sound
  one_worker := by
    intro first second pTask hfirst hsecond
    have hsame := List.inj_on_of_nodup_map hstage.ran.once hfirst hsecond rfl
    exact congrArg Prod.fst hsame
  run_once := hstage.ran.once
  deleted_once := hstage.custody.once
  deleted_after := hstage.ran.deleted
  somewhere := fun _ hpushed => hstage.somewhere hpushed
  active := hstage.counted

end StageImp

/-- However the threads interleave, the queue and the stage lose, repeat and strand nothing. -/
theorem queue_and_stage_sound {Value : Type uValue} [DecidableEq Thread] (limit : Nat) :
    (∀ events : List (TMessageQueue.Event Value Thread),
      Throughout TMessageQueue.step TMessageQueue.Sound (TMessageQueue.init limit) events) ∧
    ∀ events : List (StageImp.Event Task Thread),
      Along StageImp.step StageImp.Proper (StageImp.init limit) events →
        Throughout StageImp.step StageImp.Sound (StageImp.init limit) events := by
  have hqueue : ∀ (queue : TMessageQueue Value Thread) event next, queue.Consistent → True →
      queue.step event = some next → next.Consistent :=
    fun _ _ _ hqueue _ hnext => hqueue.step hnext
  have hstage : ∀ (stage : StageImp Task Thread) event next, stage.Consistent →
      stage.Proper event → stage.step event = some next → next.Consistent :=
    fun _ _ _ hstage hproper hnext => hstage.step hproper hnext
  constructor
  · intro events
    exact throughout_of_along hqueue (fun _ hsound => hsound.sound)
      (TMessageQueue.init_consistent limit) (along_trivial _ events)
  · intro events hproper
    exact throughout_of_along hstage (fun _ hsound => hsound.sound)
      (StageImp.init_consistent limit) hproper

/-- A worker sleeps, is signalled for the task that is pushed, and runs and deletes it. -/
theorem queue_and_stage_sound_one_task :
    let events : List (StageImp.Event Nat (Fin 2)) :=
      [.start 0, .work 0, .queue (.next 0), .queue (.next 0), .pushTask 1 7, .queue (.next 1),
        .queue (.signal 1 0), .queue (.next 1), .queue (.next 0), .queue (.next 0), .work 0,
        .work 0, .work 0, .work 0, .work 0, .work 0, .work 0, .work 0]
    (run StageImp.step (StageImp.init 1) events).map StageImp.deleted = some [7] ∧
      Throughout StageImp.step StageImp.Sound (StageImp.init 1) events :=
  ⟨by decide, (@queue_and_stage_sound Nat (Fin 2) Nat _ 1).2 _ (by decide)⟩

end ServiceFrame
