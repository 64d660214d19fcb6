import ServiceFrame.Common.BlockBuffer
import ServiceFrame.Foundation.Run

/-! # The block buffer as a list of bytes

A run is any sequence of calls that report success. The contents of the buffer
after it are what the same calls make of a plain list of bytes. A call that reports
failure leaves them alone, with one exception.
-/

namespace ServiceFrame

open Foundation

/-- The calls that change a buffer, with their arguments. -/
inductive BlockOp where
  | append (app : List UInt8)
  | resize (n : Nat) (c : UInt8)
  | erase (pos n : Nat) (hold : Bool)
  | replace (pos : Nat) (rep : List UInt8)
  | reserve (n : Nat)
deriving DecidableEq, Repr

namespace BlockOp

/-- What the call asks of its position: `erase` asserts it. -/
def InRange (size : Nat) : BlockOp → Prop
  | append _ | resize _ _ | reserve _ => True
  | erase pos _ _ | replace pos _ => pos ≤ size

instance (size : Nat) (op : BlockOp) : Decidable (op.InRange size) := by
  cases op <;> unfold InRange <;> infer_instance

/-- The call, with the answer `ordered_malloc` gives should it be asked. -/
def exec (params : BlockParams) (malloc : Malloc) (buffer : BlockBuffer) :
    BlockOp → Bool × BlockBuffer
  | append app => buffer.append params malloc app
  | resize n c => buffer.resize params malloc n c
  | erase pos n hold => (true, buffer.erase pos n hold)
  | replace pos rep => buffer.replace params malloc pos rep
  | reserve n => buffer.reserve params malloc n

/-- The same call on a plain list of bytes. -/
def onList : BlockOp → List UInt8 → List UInt8
  | append app, bytes => bytes ++ app
  | resize n c, bytes => bytes.take n ++ List.replicate (n - bytes.length) c
  | erase pos n _, bytes => bytes.take pos ++ bytes.drop (pos + n)
  | replace pos rep, bytes => bytes.take pos ++ rep ++ bytes.drop (pos + rep.length)
  | reserve _, bytes => bytes

/-- A call that reports success, and only such a call, takes a step. -/
def step (params : BlockParams) (buffer : BlockBuffer) (call : BlockOp × Malloc) :
    Option BlockBuffer :=
  if call.1.InRange buffer.mSize then
    match call.1.exec params call.2 buffer with
    | (true, next) => some next
    | (false, _) => none
  else none

variable {params : BlockParams}

theorem exec_true {malloc : Malloc} {buffer next : BlockBuffer} {op : BlockOp}
    (hbuffer : buffer.WellFormed params) (hrange : op.InRange buffer.mSize)
    (hexec : op.exec params malloc buffer = (true, next)) :
    next.WellFormed params ∧ next.data = op.onList buffer.data := by
  cases op with
  | append app => exact BlockBuffer.append_true hbuffer hexec
  | resize n c =>
      rw [onList, hbuffer.length_data]
      exact BlockBuffer.resize_true hbuffer hexec
  | erase pos n hold =>
      cases hexec
      exact BlockBuffer.erase_spec _ _ hbuffer hrange
  | replace pos rep => exact BlockBuffer.replace_true hbuffer hexec
  | reserve n => exact BlockBuffer.reserve_true hbuffer hexec

theorem step_some {buffer next : BlockBuffer} {call : BlockOp × Malloc}
    (hbuffer : buffer.WellFormed params) (hstep : step params buffer call = some next) :
    next.WellFormed params ∧ next.data = call.1.onList buffer.data := by
  unfold step at hstep
  split at hstep
  next hrange =>
    split at hstep
    next result hexec =>
      cases hstep
      exact exec_true hbuffer hrange hexec
    next => cases hstep
  next => cases hstep

theorem run_some {calls : List (BlockOp × Malloc)} {buffer next : BlockBuffer}
    (hbuffer : buffer.WellFormed params) (hrun : run (step params) buffer calls = some next) :
    next.WellFormed params ∧
      next.data = calls.foldl (fun bytes call => call.1.onList bytes) buffer.data := by
  induction calls generalizing buffer with
  | nil =>
      cases hrun
      exact ⟨hbuffer, rfl⟩
  | cons call rest ih =>
      obtain ⟨middle, hmiddle, hrest⟩ := Option.bind_eq_some_iff.mp hrun
      obtain ⟨hwell, hdata⟩ := step_some hbuffer hmiddle
      rw [List.foldl_cons, ← hdata]
      exact ih hwell hrest

end BlockOp

/-- After every sequence of successful calls the buffer holds the list the same
calls produce, in storage of whole blocks within the configured maximum. -/
theorem blockBuffer_simulates_list (params : BlockParams) (calls : List (BlockOp × Malloc))
    (buffer : BlockBuffer) (hrun : run (BlockOp.step params) .init calls = some buffer) :
    buffer.data = calls.foldl (fun bytes call => call.1.onList bytes) [] ∧
      buffer.mSize = buffer.data.length ∧
      buffer.mSize ≤ buffer.capacity params ∧
      buffer.capacity params = buffer.mBlock * params.requestedSize ∧
      buffer.capacity params ≤ BlockBuffer.maxsize params := by
  obtain ⟨hwell, hdata⟩ := BlockOp.run_some BlockBuffer.init_wellFormed hrun
  exact ⟨hdata, hwell.length_data.symm, hwell.size_le, rfl, hwell.capacity_le_maxsize⟩

/-- Two blocks of four bytes, driven through growth, a moved tail, a
replacement past the end and a refill. -/
theorem blockBuffer_simulates_list_small :
    ∃ buffer, run (BlockOp.step ⟨4, 2, by decide⟩) .init
        [(.append [1, 2, 3, 4, 5], some fun _ => 0), (.erase 1 2 false, none),
          (.replace 2 [9, 8], none), (.resize 6 7, none), (.reserve 8, none)] = some buffer ∧
      buffer.data = [1, 4, 9, 8, 7, 7] ∧ buffer.capacity ⟨4, 2, by decide⟩ ≤ 8 := by
  refine ⟨_, rfl, ?_⟩
  have hsim := blockBuffer_simulates_list ⟨4, 2, by decide⟩
    [(.append [1, 2, 3, 4, 5], some fun _ => 0), (.erase 1 2 false, none),
      (.replace 2 [9, 8], none), (.resize 6 7, none), (.reserve 8, none)] _ rfl
  exact ⟨hsim.1, hsim.2.2.2.2⟩

/-! ## Calls that report failure -/

namespace BlockOp

/-- A call of `replace` with its position in the data. -/
def ReplacesInside (size : Nat) : BlockOp → Prop
  | replace pos _ => pos < size
  | append _ | resize _ _ | erase _ _ _ | reserve _ => False

instance (size : Nat) (op : BlockOp) : Decidable (op.ReplacesInside size) := by
  cases op <;> unfold ReplacesInside <;> infer_instance

/-- What `data()` and `size()` show is the same. -/
structure Unchanged (buffer next : BlockBuffer) : Prop where
  data : next.data = buffer.data
  size : next.mSize = buffer.mSize

theorem Unchanged.refl (buffer : BlockBuffer) : Unchanged buffer buffer := ⟨rfl, rfl⟩

variable {params : BlockParams} {malloc : Malloc} {buffer next : BlockBuffer}

theorem reserve_false {n : Nat} (hreserve : buffer.reserve params malloc n = (false, next)) :
    next = buffer := by
  unfold BlockBuffer.reserve at hreserve
  split at hreserve
  · cases hreserve
  · exact BlockBuffer.increaseCapacity_false hreserve

theorem resize_false {n : Nat} {c : UInt8}
    (hresize : buffer.resize params malloc n c = (false, next)) : next = buffer := by
  unfold BlockBuffer.resize at hresize
  split at hresize
  · dsimp only at hresize
    split at hresize
    next same hgrow =>
      cases hresize
      exact BlockBuffer.increaseCapacity_false hgrow
    · cases hresize
  · cases hresize

/-- A `replace` inside the data fails after it has cut the data at its position. -/
theorem replace_false {pos : Nat} {rep : List UInt8}
    (hreplace : buffer.replace params malloc pos rep = (false, next)) :
    next = if pos < buffer.mSize then { buffer with mSize := pos } else buffer := by
  unfold BlockBuffer.replace at hreplace
  split at hreplace
  next hend =>
    rw [if_neg (by omega)]
    exact BlockBuffer.append_false hreplace
  next hinside =>
    rw [if_pos (by omega)]
    split at hreplace
    · exact BlockBuffer.append_false hreplace
    · split at hreplace
      · cases hreplace
      · cases hreplace

/-- A call that reports failure leaves the data as they were, unless it is a `replace`
inside them. -/
theorem failed_unchanged_iff (params : BlockParams) (malloc : Malloc) (buffer next : BlockBuffer)
    (op : BlockOp) (hfails : op.exec params malloc buffer = (false, next)) :
    Unchanged buffer next ↔ ¬ op.ReplacesInside buffer.mSize := by
  cases op with
  | append app =>
      rw [BlockBuffer.append_false hfails]
      exact iff_of_true (Unchanged.refl buffer) id
  | resize n c =>
      rw [resize_false hfails]
      exact iff_of_true (Unchanged.refl buffer) id
  | erase pos n hold => cases hfails
  | replace pos rep =>
      rw [replace_false hfails]
      by_cases hinside : pos < buffer.mSize
      · rw [if_pos hinside]
        refine iff_of_false (fun hsame => ?_) (fun houtside => houtside hinside)
        exact absurd hsame.size (Nat.ne_of_lt hinside)
      · rw [if_neg hinside]
        exact iff_of_true (Unchanged.refl buffer) hinside
  | reserve n =>
      rw [reserve_false hfails]
      exact iff_of_true (Unchanged.refl buffer) id

/-- Three bytes in one block of four, and no second block. -/
theorem failed_unchanged_iff_append :
    Unchanged ⟨[1, 2, 3, 0], 3, 1⟩ ⟨[1, 2, 3, 0], 3, 1⟩ ↔
      ¬ (append [8, 9]).ReplacesInside 3 :=
  failed_unchanged_iff ⟨4, 1, by decide⟩ none ⟨[1, 2, 3, 0], 3, 1⟩ ⟨[1, 2, 3, 0], 3, 1⟩
    (append [8, 9]) rfl

/-- Four bytes do not fit behind the first of three; the other two are lost. -/
theorem data_lost_by_replace :
    ∃ buffer next, run (step ⟨4, 1, by decide⟩) .init [(append [1, 2, 3], some fun _ => 0)] =
        some buffer ∧
      (replace 1 [6, 7, 8, 9]).exec ⟨4, 1, by decide⟩ none buffer = (false, next) ∧
      ¬ Unchanged buffer next := by
  refine ⟨_, _, rfl, rfl, ?_⟩
  intro hsame
  exact absurd hsame.size (by decide)

/-! ## What `reserve` promises -/

/-- A call takes its effect whether or not it reports success. -/
def call (params : BlockParams) (buffer : BlockBuffer) (op : BlockOp × Malloc) :
    Option BlockBuffer :=
  if op.1.InRange buffer.mSize then some (op.1.exec params op.2 buffer).2 else none

theorem exec_false {op : BlockOp} (hbuffer : buffer.WellFormed params)
    (hexec : op.exec params malloc buffer = (false, next)) : next.WellFormed params := by
  cases op with
  | append app => exact BlockBuffer.append_false hexec ▸ hbuffer
  | resize n c => exact resize_false hexec ▸ hbuffer
  | erase pos n hold => cases hexec
  | replace pos rep =>
      rw [replace_false hexec]
      split
      next hinside => exact hbuffer.shrink (Nat.le_of_lt hinside)
      next => exact hbuffer
  | reserve n => exact reserve_false hexec ▸ hbuffer

theorem call_wellFormed {op : BlockOp × Malloc} (hbuffer : buffer.WellFormed params)
    (hcall : call params buffer op = some next) : next.WellFormed params := by
  unfold call at hcall
  split at hcall
  next hrange =>
    cases hcall
    cases hexec : op.1.exec params op.2 buffer with
    | mk success result =>
        cases success with
        | false => exact exec_false hbuffer hexec
        | true => exact (exec_true hbuffer hrange hexec).1
  next => cases hcall

theorem run_call_wellFormed {calls : List (BlockOp × Malloc)}
    (hrun : run (call params) .init calls = some buffer) : buffer.WellFormed params :=
  run_invariant (fun _ _ _ => call_wellFormed) BlockBuffer.init_wellFormed hrun

/-- The appends with the answers of their allocations, as calls. -/
def appends (apps : List (List UInt8 × Malloc)) : List (BlockOp × Malloc) :=
  apps.map fun app => (append app.1, app.2)

/-- The bytes the appends bring. -/
def appended (apps : List (List UInt8 × Malloc)) : Nat := (apps.map fun app => app.1.length).sum

/-- `next`, left by a `reserve(n)` on `buffer`, is as a reader of its name expects: room for
`n` bytes in all, so that appends up to there succeed whatever the allocator says. -/
structure Honoured (params : BlockParams) (n : Nat) (buffer next : BlockBuffer) : Prop where
  capacity : n ≤ next.capacity params
  unchanged : Unchanged buffer next
  appends : ∀ apps : List (List UInt8 × Malloc), next.mSize + appended apps ≤ n →
    ∃ final, run (step params) next (appends apps) = some final

/-- An append into the free space is a step that takes no new block. -/
theorem step_append_fits {app : List UInt8} (malloc : Malloc)
    (hroom : app.length ≤ buffer.freespace params) :
    ∃ next, step params buffer (append app, malloc) = some next ∧
      next.mSize = buffer.mSize + app.length ∧
      next.capacity params = buffer.capacity params := by
  obtain ⟨next, hnext, hspec⟩ := BlockBuffer.append_fits malloc hroom
  refine ⟨next, ?_, hspec⟩
  simp only [step, InRange, if_true, exec, hnext]

theorem run_appends_fits (apps : List (List UInt8 × Malloc))
    (hroom : buffer.mSize + appended apps ≤ buffer.capacity params) :
    ∃ final, run (step params) buffer (appends apps) = some final := by
  induction apps generalizing buffer with
  | nil => exact ⟨buffer, rfl⟩
  | cons app rest ih =>
      simp only [appended, List.map_cons, List.sum_cons] at hroom
      have hfirst : app.1.length ≤ buffer.freespace params := by
        simp only [BlockBuffer.freespace]
        omega
      obtain ⟨next, hnext, hsize, hcapacity⟩ := step_append_fits app.2 hfirst
      have hlater : next.mSize + appended rest ≤ next.capacity params := by
        rw [hsize, hcapacity, appended]
        omega
      obtain ⟨final, hfinal⟩ := ih hlater
      refine ⟨final, ?_⟩
      simp only [appends, List.map_cons, run_cons, hnext, Option.bind_some]
      exact hfinal

/-- The bytes asked beyond the capacity take as many blocks with the free space counted
towards them as without it. -/
def FreeSpaceHarmless (params : BlockParams) (buffer : BlockBuffer) (n : Nat) : Prop :=
  buffer.freespace params ≤ (n - buffer.capacity params - 1) % params.requestedSize

instance (buffer : BlockBuffer) (n : Nat) : Decidable (FreeSpaceHarmless params buffer n) := by
  unfold FreeSpaceHarmless
  infer_instance

/-- The blocks for what is missing beyond the free space reach as far as all that is asked
beyond the capacity, unless the free space covers its last block. -/
theorem newBlocks_reach_iff {n : Nat} (hmore : buffer.capacity params < n) :
    n ≤ buffer.newBlocks params (n - buffer.capacity params - buffer.freespace params) *
        params.requestedSize ↔
      FreeSpaceHarmless params buffer n := by
  have hlow := BlockBuffer.le_newBlocks_room params buffer
    (n - buffer.capacity params - buffer.freespace params)
  have hhigh := BlockBuffer.newBlocks_lt params buffer
    (n - buffer.capacity params - buffer.freespace params)
  have hdiv := Nat.div_add_mod (n - buffer.capacity params - 1) params.requestedSize
  have hmod := Nat.mod_lt (n - buffer.capacity params - 1) params.requestedSize_pos
  rw [Nat.mul_comm] at hdiv
  unfold FreeSpaceHarmless
  -- in whole blocks: those before the last byte asked, and those that are taken
  generalize hbefore : (n - buffer.capacity params - 1) / params.requestedSize = before at hdiv
  generalize htaken : buffer.newBlocks params
    (n - buffer.capacity params - buffer.freespace params) = taken at hlow hhigh ⊢
  have hblock : buffer.capacity params + before * params.requestedSize <
      taken * params.requestedSize →
      buffer.capacity params + before * params.requestedSize + params.requestedSize ≤
        taken * params.requestedSize := by
    intro hless
    rw [BlockBuffer.capacity, ← Nat.add_mul] at hless ⊢
    rw [← Nat.succ_mul]
    exact Nat.mul_le_mul_right _ (Nat.lt_of_mul_lt_mul_right hless)
  constructor
  · intro hreach
    have hnext := hblock (by omega)
    omega
  · intro hharmless
    have hnext := hblock (by omega)
    omega

/-- Room for `n` bytes is all it takes. -/
theorem honoured_iff_capacity {n : Nat} (hbuffer : buffer.WellFormed params)
    (hreserve : buffer.reserve params malloc n = (true, next)) :
    Honoured params n buffer next ↔ n ≤ next.capacity params := by
  refine ⟨Honoured.capacity, fun hcapacity => ⟨hcapacity, ?_, ?_⟩⟩
  · obtain ⟨hnext, hdata⟩ := BlockBuffer.reserve_true hbuffer hreserve
    exact ⟨hdata, by rw [← hnext.length_data, hdata, hbuffer.length_data]⟩
  · exact fun apps hfit => run_appends_fits apps (hfit.trans hcapacity)

/-- On any buffer that calls can make, failed ones among them, a `reserve(n)` that reports
success has made room for `n` bytes exactly when there was room before, or the free space is
harmless: `increase_capacity` is asked for what lies beyond the capacity, and takes the free
space off once more. -/
theorem reserve_honoured_iff (params : BlockParams) (calls : List (BlockOp × Malloc))
    (buffer next : BlockBuffer) (malloc : Malloc) (n : Nat)
    (hrun : run (call params) .init calls = some buffer)
    (hreserve : buffer.reserve params malloc n = (true, next)) :
    Honoured params n buffer next ↔
      n ≤ buffer.capacity params ∨ FreeSpaceHarmless params buffer n := by
  rw [honoured_iff_capacity (run_call_wellFormed hrun) hreserve]
  unfold BlockBuffer.reserve at hreserve
  split at hreserve
  next henough =>
    cases hreserve
    exact iff_of_true henough (Or.inl henough)
  next hmore =>
    rw [BlockBuffer.increaseCapacity_capacity hreserve,
      newBlocks_reach_iff (Nat.lt_of_not_le hmore), or_iff_right hmore]

/-- One byte in a block of four: eight bytes take a second block, and there is room. -/
theorem reserve_honoured_iff_eight :
    ∃ buffer next, run (call ⟨4, 2, by decide⟩) .init [(append [1], some fun _ => 0)] =
        some buffer ∧
      buffer.reserve ⟨4, 2, by decide⟩ (some fun _ => 7) 8 = (true, next) ∧
      Honoured ⟨4, 2, by decide⟩ 8 buffer next := by
  refine ⟨_, _, rfl, rfl, ?_⟩
  refine (reserve_honoured_iff ⟨4, 2, by decide⟩ [(append [1], some fun _ => 0)] _ _
    (some fun _ => 7) 8 rfl rfl).mpr ?_
  exact Or.inr (by decide)

/-- One byte in a block of four: `reserve(7)` reports success and takes no block. -/
theorem reserve_seven_of_four :
    ∃ buffer next, run (call ⟨4, 2, by decide⟩) .init [(append [1], some fun _ => 0)] =
        some buffer ∧
      buffer.reserve ⟨4, 2, by decide⟩ none 7 = (true, next) ∧
      ¬ Honoured ⟨4, 2, by decide⟩ 7 buffer next := by
  refine ⟨_, _, rfl, rfl, ?_⟩
  intro hhonoured
  exact absurd hhonoured.capacity (by decide)

end BlockOp

end ServiceFrame
