import Mathlib.Data.Finset.Card

/-! # Threads and their places

Threads are any type, each with a local state, and a step moves one of them. A
mutex is held by the one thread inside what it guards. How many threads are at
some place is a number only when finitely many are there, and it changes by
what the moving thread does. What threads receive is in one hand at a time until
it is disposed of.
-/

namespace ServiceFrame.Foundation

universe uThread uLocal

variable {Thread : Type uThread} {Local : Type uLocal}

section Update

variable [DecidableEq Thread] {threads : Thread → Local} {mover : Thread} {next : Local}

/-- What the moving thread keeps, everybody keeps. -/
theorem update_same {β : Type*} (view : Local → β) (hsame : view next = view (threads mover))
    (thread : Thread) :
    view (Function.update threads mover next thread) = view (threads thread) := by
  rw [Function.update_apply]
  split
  next hmover => rw [hsame, hmover]
  next => rfl

end Update

/-- The mutex is held by the thread inside what it guards, and free when none is. -/
def Guards (mutex : Option Thread) (inside : Thread → Prop) : Prop :=
  ∀ thread, mutex = some thread ↔ inside thread

namespace Guards

variable {mutex : Option Thread} {inside : Thread → Prop}

/-- At most one thread is inside. -/
theorem unique (hguards : Guards mutex inside) {first second : Thread} (hfirst : inside first)
    (hsecond : inside second) : first = second := by
  have hboth := ((hguards first).mpr hfirst).symm.trans ((hguards second).mpr hsecond)
  exact Option.some.inj hboth

theorem free_iff (hguards : Guards mutex inside) :
    mutex = none ↔ ∀ thread, ¬ inside thread := by
  rw [Option.eq_none_iff_forall_ne_some]
  exact forall_congr' fun thread => not_congr (hguards thread)

variable [DecidableEq Thread] {threads : Thread → Local} (here : Local → Prop) {mover : Thread}
  {next : Local}

theorem take (hguards : Guards none (fun thread => here (threads thread))) (hnext : here next) :
    Guards (some mover) (fun thread => here (Function.update threads mover next thread)) := by
  intro thread
  beta_reduce
  rw [Function.update_apply, Option.some.injEq]
  split
  next hsame => exact iff_of_true hsame.symm hnext
  next hother =>
    exact iff_of_false (fun hsame => hother hsame.symm) (hguards.free_iff.mp rfl thread)

theorem drop (hguards : Guards mutex (fun thread => here (threads thread)))
    (hinside : here (threads mover)) (hnext : ¬ here next) :
    Guards none (fun thread => here (Function.update threads mover next thread)) := by
  intro thread
  beta_reduce
  rw [Function.update_apply]
  apply iff_of_false (by simp)
  split
  next => exact hnext
  next hother => exact fun hthread => hother (hguards.unique hthread hinside)

theorem stay (hguards : Guards mutex (fun thread => here (threads thread)))
    (hstay : here next ↔ here (threads mover)) :
    Guards mutex (fun thread => here (Function.update threads mover next thread)) := by
  intro thread
  beta_reduce
  rw [Function.update_apply, hguards thread]
  split
  next hsame => rw [hsame, hstay]
  next => exact Iff.rfl

end Guards

/-- There are `count` threads at `place`. -/
def Counts (place : Thread → Prop) (count : Nat) : Prop :=
  ∃ threads : Finset Thread, (∀ thread, thread ∈ threads ↔ place thread) ∧ threads.card = count

namespace Counts

variable {place other : Thread → Prop} {count : Nat}

theorem congr (hcount : Counts place count) (hsame : ∀ thread, other thread ↔ place thread) :
    Counts other count := by
  obtain ⟨threads, hmem, hcard⟩ := hcount
  exact ⟨threads, fun thread => (hmem thread).trans (hsame thread).symm, hcard⟩

theorem zero (hnone : ∀ thread, ¬ place thread) : Counts place 0 :=
  ⟨∅, fun thread => iff_of_false (Finset.notMem_empty thread) (hnone thread), rfl⟩

theorem unique {more : Nat} (hcount : Counts place count) (hmore : Counts place more) :
    count = more := by
  obtain ⟨threads, hmem, rfl⟩ := hcount
  obtain ⟨others, hothers, rfl⟩ := hmore
  congr 1
  ext thread
  rw [hmem, hothers]

theorem pos_iff (hcount : Counts place count) : 0 < count ↔ ∃ thread, place thread := by
  obtain ⟨threads, hmem, rfl⟩ := hcount
  rw [Finset.card_pos]
  exact exists_congr hmem

section Moves

variable [DecidableEq Thread] {mover : Thread}

/-- One thread comes to the place. -/
theorem enter (hcount : Counts place count) (hout : ¬ place mover)
    (hplace : ∀ thread, other thread ↔ thread = mover ∨ place thread) :
    Counts other (count + 1) := by
  obtain ⟨threads, hmem, rfl⟩ := hcount
  refine ⟨insert mover threads, fun thread => ?_, ?_⟩
  · rw [Finset.mem_insert, hmem, hplace]
  · exact Finset.card_insert_of_notMem fun hin => hout ((hmem mover).mp hin)

/-- One thread goes from the place. -/
theorem leave (hcount : Counts place (count + 1)) (hin : place mover)
    (hplace : ∀ thread, other thread ↔ thread ≠ mover ∧ place thread) : Counts other count := by
  obtain ⟨threads, hmem, hcard⟩ := hcount
  refine ⟨threads.erase mover, fun thread => ?_, ?_⟩
  · rw [Finset.mem_erase, hmem, hplace]
  · rw [Finset.card_erase_of_mem ((hmem mover).mpr hin), hcard, Nat.add_sub_cancel]

variable {threads : Thread → Local} (here : Local → Prop) {next : Local}

theorem update_enter (hcount : Counts (fun thread => here (threads thread)) count)
    (hout : ¬ here (threads mover)) (hnext : here next) :
    Counts (fun thread => here (Function.update threads mover next thread)) (count + 1) := by
  refine hcount.enter hout fun thread => ?_
  rw [Function.update_apply]
  by_cases hsame : thread = mover
  · simp [hsame, hnext]
  · simp [hsame]

theorem update_leave (hcount : Counts (fun thread => here (threads thread)) (count + 1))
    (hin : here (threads mover)) (hnext : ¬ here next) :
    Counts (fun thread => here (Function.update threads mover next thread)) count := by
  refine hcount.leave hin fun thread => ?_
  rw [Function.update_apply]
  by_cases hsame : thread = mover
  · simp [hsame, hnext]
  · simp [hsame]

theorem update_stay (hcount : Counts (fun thread => here (threads thread)) count)
    (hstay : here next ↔ here (threads mover)) :
    Counts (fun thread => here (Function.update threads mover next thread)) count := by
  refine hcount.congr fun thread => ?_
  rw [Function.update_apply]
  by_cases hsame : thread = mover
  · rw [if_pos hsame, hsame, hstay]
  · rw [if_neg hsame]

end Moves

end Counts

/-- What was received is in the hands of one thread, until it is disposed of once. -/
structure Custody {Item : Type uLocal} (received disposed : List Item)
    (hands : Thread → Option Item) : Prop where
  unique : ∀ first second item, hands first = some item → hands second = some item →
    second = first
  held : ∀ thread item, hands thread = some item → item ∈ received ∧ item ∉ disposed
  kept : ∀ item ∈ received, item ∈ disposed ∨ ∃ thread, hands thread = some item
  once : disposed.Nodup
  known : ∀ item ∈ disposed, item ∈ received

namespace Custody

variable {Item : Type uLocal} {received disposed : List Item} {hands : Thread → Option Item}

theorem nothing : Custody ([] : List Item) [] (fun _ : Thread => none) where
  unique := fun _ _ _ hfirst => by cases hfirst
  held := fun _ _ hheld => by cases hheld
  kept := fun _ hmem => absurd hmem List.not_mem_nil
  once := List.nodup_nil
  known := fun _ hmem => hmem

variable [DecidableEq Thread] {mover : Thread} {item : Item}

/-- An empty hand receives something new. -/
theorem receive (hcustody : Custody received disposed hands) (hempty : hands mover = none)
    (hnew : item ∉ received) :
    Custody (received ++ [item]) disposed (Function.update hands mover (some item)) where
  unique := by
    intro first second other hfirst hsecond
    rw [Function.update_apply] at hfirst hsecond
    split at hfirst
    next hmover =>
      split at hsecond
      next hsame => rw [hmover, hsame]
      next => exact absurd (hcustody.held second other hsecond).1 (Option.some.inj hfirst ▸ hnew)
    next =>
      split at hsecond
      next => exact absurd (hcustody.held first other hfirst).1 (Option.some.inj hsecond ▸ hnew)
      next => exact hcustody.unique first second other hfirst hsecond
  held := by
    intro thread other hheld
    rw [Function.update_apply] at hheld
    split at hheld
    next =>
      cases hheld
      exact ⟨List.mem_append_right _ List.mem_cons_self,
        fun hdisposed => hnew (hcustody.known item hdisposed)⟩
    next => exact (hcustody.held thread other hheld).imp_left (List.mem_append_left _)
  kept := by
    intro other hother
    rcases List.mem_append.mp hother with hold | hnew
    · apply (hcustody.kept other hold).imp_right
      rintro ⟨thread, hthread⟩
      refine ⟨thread, ?_⟩
      rwa [Function.update_of_ne]
      rintro rfl
      rw [hempty] at hthread
      cases hthread
    · rw [List.mem_singleton.mp hnew]
      exact Or.inr ⟨mover, Function.update_self ..⟩
  once := hcustody.once
  known := fun other hother => List.mem_append_left _ (hcustody.known other hother)

/-- A hand disposes of what is in it. -/
theorem dispose (hcustody : Custody received disposed hands) (hholds : hands mover = some item) :
    Custody received (disposed ++ [item]) (Function.update hands mover none) where
  unique := by
    intro first second other hfirst hsecond
    rw [Function.update_apply] at hfirst hsecond
    split at hfirst
    next => cases hfirst
    next =>
      split at hsecond
      next => cases hsecond
      next => exact hcustody.unique first second other hfirst hsecond
  held := by
    intro thread other hheld
    rw [Function.update_apply] at hheld
    split at hheld
    next => cases hheld
    next hother =>
      refine ⟨(hcustody.held thread other hheld).1, fun hmem => ?_⟩
      rcases List.mem_append.mp hmem with hold | hnew
      · exact (hcustody.held thread other hheld).2 hold
      · rw [List.mem_singleton.mp hnew] at hheld
        exact hother (hcustody.unique mover thread item hholds hheld)
  kept := by
    intro other hother
    rcases hcustody.kept other hother with hold | ⟨thread, hthread⟩
    · exact Or.inl (List.mem_append_left _ hold)
    · by_cases hmover : thread = mover
      · subst hmover
        cases hthread.symm.trans hholds
        exact Or.inl (List.mem_append_right _ List.mem_cons_self)
      · exact Or.inr ⟨thread, by rwa [Function.update_of_ne hmover]⟩
  once := by
    rw [← List.concat_eq_append, List.nodup_concat]
    exact ⟨(hcustody.held mover item hholds).2, hcustody.once⟩
  known := by
    intro other hother
    rcases List.mem_append.mp hother with hold | hnew
    · exact hcustody.known other hold
    · rw [List.mem_singleton.mp hnew]
      exact (hcustody.held mover item hholds).1

end Custody

end ServiceFrame.Foundation
