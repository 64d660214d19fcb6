import ServiceFrame.Foundation.Bytes

/-! # The block buffer

`BlockBuffer<BlockAllocator, MaxBlocks>` of `common/blockbuffer.h`: a byte
buffer whose storage is a whole number of blocks. Each allocation may fail, and
the storage it hands out has arbitrary contents. `size_t` arithmetic is natural
arithmetic: no sum is assumed to wrap.
-/

namespace ServiceFrame

open Foundation

/-- The template arguments: `BlockAllocator::requested_size` and `MaxBlocks`. -/
structure BlockParams where
  requestedSize : Nat
  maxBlocks : Nat
  requestedSize_pos : 0 < requestedSize

/-- The answer of one `ordered_malloc`: null, or storage with some contents. -/
abbrev Malloc := Option (Nat → UInt8)

structure BlockBuffer where
  mData : List UInt8
  mSize : Nat
  mBlock : Nat

namespace BlockBuffer

variable (params : BlockParams)

/-- A constructed buffer owns no block. -/
def init : BlockBuffer := { mData := [], mSize := 0, mBlock := 0 }

def isEmpty (buffer : BlockBuffer) : Bool := buffer.mSize == 0

def capacity (buffer : BlockBuffer) : Nat := buffer.mBlock * params.requestedSize

def maxsize : Nat := params.maxBlocks * params.requestedSize

def freespace (buffer : BlockBuffer) : Nat := buffer.capacity params - buffer.mSize

/-- The `m_size` bytes from `data()` on. -/
def data (buffer : BlockBuffer) : List UInt8 := buffer.mData.take buffer.mSize

/-- `free()`: give the blocks back; the size is left alone. -/
def free (buffer : BlockBuffer) : BlockBuffer :=
  if buffer.mBlock > 0 then { buffer with mData := [], mBlock := 0 } else buffer

/-- The number of blocks that make room for `need` more bytes. -/
def newBlocks (buffer : BlockBuffer) (need : Nat) : Nat :=
  buffer.mBlock + need / params.requestedSize +
    (if need % params.requestedSize > 0 then 1 else 0)

/-- `increase_capacity(increase_size)`. -/
def increaseCapacity (malloc : Malloc) (buffer : BlockBuffer) (increaseSize : Nat) :
    Bool × BlockBuffer :=
  if increaseSize = 0 then (true, buffer)
  else
    let free := buffer.freespace params
    if free ≥ increaseSize then (true, buffer)
    else
      let newblock := buffer.newBlocks params (increaseSize - free)
      if newblock > params.maxBlocks then (false, buffer)
      else
        match malloc with
        | none => (false, buffer)
        | some junk =>
            let newdata := (List.range (newblock * params.requestedSize)).map junk
            -- copy old data and free old block
            let newdata := if buffer.mBlock > 0
              then overwrite newdata 0 (buffer.mData.take buffer.mSize) else newdata
            (true, { buffer with mData := newdata, mBlock := newblock })

/-- Write at `tail()`, once there is room, and count the new bytes. -/
def writeTail (buffer : BlockBuffer) (bytes : List UInt8) : BlockBuffer :=
  { buffer with
    mData := overwrite buffer.mData buffer.mSize bytes
    mSize := buffer.mSize + bytes.length }

/-- `append(app, len)`. -/
def append (malloc : Malloc) (buffer : BlockBuffer) (app : List UInt8) : Bool × BlockBuffer :=
  if app.length = 0 then (true, buffer)
  else
    match buffer.increaseCapacity params malloc app.length with
    | (true, grown) => (true, grown.writeTail app)
    | (false, same) => (false, same)

/-- `reserve(n)`. -/
def reserve (malloc : Malloc) (buffer : BlockBuffer) (n : Nat) : Bool × BlockBuffer :=
  if n ≤ buffer.capacity params then (true, buffer)
  else buffer.increaseCapacity params malloc (n - buffer.capacity params)

/-- `resize(n, c)`. -/
def resize (malloc : Malloc) (buffer : BlockBuffer) (n : Nat) (c : UInt8) : Bool × BlockBuffer :=
  if n > buffer.mSize then
    let len := n - buffer.mSize
    match buffer.increaseCapacity params malloc len with
    | (false, same) => (false, same)
    | (true, grown) =>
        (true, { grown with
          mData := overwrite grown.mData grown.mSize (List.replicate len c), mSize := n })
  else (true, { buffer with mSize := n })

/-- `replace(pos, rep, n)`. -/
def replace (malloc : Malloc) (buffer : BlockBuffer) (pos : Nat) (rep : List UInt8) :
    Bool × BlockBuffer :=
  if pos ≥ buffer.mSize then buffer.append params malloc rep
  else if pos + rep.length ≥ buffer.mSize then
    -- replace all beginning with position pos
    append params malloc { buffer with mSize := pos } rep
  else if rep.length > 0 then
    (true, { buffer with mData := overwrite buffer.mData pos rep })
  else (true, buffer)

/-- `erase(pos, n, hold)`, for `pos` within the data. -/
def erase (buffer : BlockBuffer) (pos n : Nat) (hold : Bool) : BlockBuffer :=
  let m := buffer.mSize - pos
  let erased : BlockBuffer :=
    if n ≥ m then { buffer with mSize := pos }
    else
      { buffer with
        mSize := buffer.mSize - n
        mData := overwrite buffer.mData pos ((buffer.mData.drop (pos + n)).take (m - n)) }
  if erased.isEmpty && !hold then erased.free else erased

/-! ## The representation -/

/-- The storage is `m_block` whole blocks, at most the configured number of
them, and the data lie inside it. -/
structure WellFormed (buffer : BlockBuffer) : Prop where
  storage : buffer.mData.length = buffer.capacity params
  size_le : buffer.mSize ≤ buffer.capacity params
  block_le : buffer.mBlock ≤ params.maxBlocks

variable {params}

theorem init_wellFormed : init.WellFormed params where
  storage := by simp [init, capacity]
  size_le := by simp [init]
  block_le := by simp [init]

@[simp] theorem init_data : init.data = [] := rfl

theorem data_shrink {buffer : BlockBuffer} {n : Nat} (hn : n ≤ buffer.mSize) :
    data { buffer with mSize := n } = buffer.data.take n := by
  simp only [data, List.take_take, Nat.min_eq_left hn]

namespace WellFormed

variable {buffer : BlockBuffer} (hbuffer : buffer.WellFormed params)
include hbuffer

theorem size_le_storage : buffer.mSize ≤ buffer.mData.length := by
  rw [hbuffer.storage]
  exact hbuffer.size_le

theorem length_data : buffer.data.length = buffer.mSize := by
  rw [data, List.length_take, Nat.min_eq_left hbuffer.size_le_storage]

theorem capacity_le_maxsize : buffer.capacity params ≤ maxsize params :=
  Nat.mul_le_mul_right _ hbuffer.block_le

theorem size_add_freespace : buffer.mSize + buffer.freespace params = buffer.capacity params := by
  have hsize := hbuffer.size_le
  simp only [freespace]
  omega

/-- Cutting the data short keeps the representation. -/
theorem shrink {n : Nat} (hn : n ≤ buffer.mSize) :
    WellFormed params { buffer with mSize := n } where
  storage := hbuffer.storage
  size_le := hn.trans hbuffer.size_le
  block_le := hbuffer.block_le

theorem free : buffer.free.WellFormed params ∨ buffer.mSize ≠ 0 := by
  by_cases hsize : buffer.mSize = 0
  · left
    unfold BlockBuffer.free
    split
    · exact ⟨by simp [capacity], by simp [hsize], by simp⟩
    · exact hbuffer
  · exact Or.inr hsize

end WellFormed

/-! ## Growing -/

theorem le_newBlocks_room (params : BlockParams) (buffer : BlockBuffer) (need : Nat) :
    buffer.capacity params + need ≤ buffer.newBlocks params need * params.requestedSize := by
  have hdiv := Nat.div_add_mod need params.requestedSize
  have hmod := Nat.mod_lt need params.requestedSize_pos
  rw [Nat.mul_comm] at hdiv
  simp only [newBlocks, capacity, Nat.add_mul]
  split
  · omega
  · omega

/-- No block is counted that the bytes do not reach into. -/
theorem newBlocks_lt (params : BlockParams) (buffer : BlockBuffer) (need : Nat) :
    buffer.newBlocks params need * params.requestedSize <
      buffer.capacity params + need + params.requestedSize := by
  have hdiv := Nat.div_add_mod need params.requestedSize
  have hpos := params.requestedSize_pos
  rw [Nat.mul_comm] at hdiv
  simp only [newBlocks, capacity, Nat.add_mul]
  split
  · omega
  · omega

/-- What `increase_capacity` grows to: it counts the free space towards the request. -/
theorem increaseCapacity_capacity {malloc : Malloc} {buffer grown : BlockBuffer} {n : Nat}
    (hgrow : buffer.increaseCapacity params malloc n = (true, grown)) :
    grown.capacity params =
      buffer.newBlocks params (n - buffer.freespace params) * params.requestedSize := by
  unfold increaseCapacity at hgrow
  split at hgrow
  next hzero =>
    cases hgrow
    simp [hzero, newBlocks, capacity]
  next hzero =>
    dsimp only at hgrow
    split at hgrow
    next hfree =>
      cases hgrow
      simp [Nat.sub_eq_zero_of_le hfree, newBlocks, capacity]
    next hfree =>
      split at hgrow
      · cases hgrow
      next hmax =>
        cases malloc with
        | none => cases hgrow
        | some junk =>
            cases hgrow
            rfl

/-- What a successful `increase_capacity` leaves: the same data, in storage
with room for `n` more bytes. -/
theorem increaseCapacity_true {malloc : Malloc} {buffer grown : BlockBuffer} {n : Nat}
    (hbuffer : buffer.WellFormed params)
    (hgrow : buffer.increaseCapacity params malloc n = (true, grown)) :
    grown.WellFormed params ∧ grown.mSize = buffer.mSize ∧ grown.data = buffer.data ∧
      n ≤ grown.freespace params := by
  unfold increaseCapacity at hgrow
  split at hgrow
  next hzero =>
    cases hgrow
    exact ⟨hbuffer, rfl, rfl, by omega⟩
  next hzero =>
    dsimp only at hgrow
    split at hgrow
    next hfree =>
      cases hgrow
      exact ⟨hbuffer, rfl, rfl, hfree⟩
    next hfree =>
      split at hgrow
      · cases hgrow
      next hmax =>
        cases malloc with
        | none => cases hgrow
        | some junk =>
            cases hgrow
            have hroom := le_newBlocks_room params buffer
              (n - buffer.freespace params)
            have hadd := hbuffer.size_add_freespace
            have hsize := hbuffer.length_data
            have hcopied : (buffer.mData.take buffer.mSize).length = buffer.mSize := hsize
            refine ⟨⟨?_, ?_, Nat.le_of_not_gt hmax⟩, rfl, ?_, ?_⟩
            · simp only [capacity]
              split
              · rw [length_overwrite]
                · simp
                · simp only [hcopied, List.length_map, List.length_range]
                  omega
              · simp
            · simp only [capacity]
              omega
            · simp only [data]
              split
              next hblock =>
                -- the bytes are copied to the front of the new storage
                have htake := take_overwrite_end (buffer.mData.take buffer.mSize)
                  (show 0 ≤ ((List.range (buffer.newBlocks params
                    (n - buffer.freespace params) * params.requestedSize)).map junk).length
                    by simp)
                rw [hcopied, Nat.zero_add] at htake
                simpa using htake
              next hblock =>
                -- a buffer without a block has no bytes to copy
                have hzero : buffer.mSize = 0 := by
                  have hle := hbuffer.size_le
                  have hblock : buffer.mBlock = 0 := by omega
                  simp only [capacity, hblock, Nat.zero_mul] at hle
                  omega
                simp [hzero]
            · simp only [freespace, capacity] at hroom hadd ⊢
              omega

/-- One more block is there for the asking. -/
theorem increaseCapacity_block (junk : Nat → UInt8) {buffer : BlockBuffer}
    (hfree : buffer.freespace params < params.requestedSize)
    (hblock : buffer.mBlock < params.maxBlocks) :
    ∃ grown, buffer.increaseCapacity params (some junk) params.requestedSize =
      (true, grown) := by
  have hpos := params.requestedSize_pos
  have hnew : buffer.newBlocks params (params.requestedSize - buffer.freespace params) =
      buffer.mBlock + 1 := by
    rcases Nat.eq_zero_or_pos (buffer.freespace params) with hzero | hsome
    · simp [newBlocks, hzero, Nat.div_self hpos]
    · have hless : params.requestedSize - buffer.freespace params < params.requestedSize := by
        omega
      rw [newBlocks, Nat.div_eq_of_lt hless, Nat.mod_eq_of_lt hless, if_pos (by omega)]
  unfold increaseCapacity
  rw [if_neg (by omega)]
  dsimp only
  rw [if_neg (by omega), if_neg (by omega)]
  exact ⟨_, rfl⟩

theorem increaseCapacity_false {malloc : Malloc} {buffer same : BlockBuffer} {n : Nat}
    (hgrow : buffer.increaseCapacity params malloc n = (false, same)) : same = buffer := by
  unfold increaseCapacity at hgrow
  split at hgrow
  · cases hgrow
  · dsimp only at hgrow
    split at hgrow
    · cases hgrow
    · split at hgrow
      · cases hgrow
        rfl
      · cases malloc with
        | none => cases hgrow; rfl
        | some junk => cases hgrow

/-- Writing at the tail, where there is room, extends the data. -/
theorem writeTail_spec {buffer : BlockBuffer} {bytes : List UInt8}
    (hbuffer : buffer.WellFormed params) (hroom : bytes.length ≤ buffer.freespace params) :
    (buffer.writeTail bytes).WellFormed params ∧
      (buffer.writeTail bytes).data = buffer.data ++ bytes := by
  have hadd := hbuffer.size_add_freespace
  have hstorage := hbuffer.storage
  refine ⟨⟨?_, ?_, hbuffer.block_le⟩, ?_⟩
  · exact (length_overwrite (by omega)).trans hstorage
  · change buffer.mSize + bytes.length ≤ buffer.capacity params
    omega
  · exact take_overwrite_end bytes hbuffer.size_le_storage

theorem append_true {malloc : Malloc} {buffer next : BlockBuffer} {app : List UInt8}
    (hbuffer : buffer.WellFormed params)
    (happ : buffer.append params malloc app = (true, next)) :
    next.WellFormed params ∧ next.data = buffer.data ++ app := by
  unfold append at happ
  split at happ
  next hnil =>
    cases happ
    simp [List.length_eq_zero_iff.mp hnil, hbuffer]
  next hnil =>
    split at happ
    next grown hgrow =>
      cases happ
      obtain ⟨hgrown, _, hdata, hroom⟩ := increaseCapacity_true hbuffer hgrow
      rw [← hdata]
      exact writeTail_spec hgrown hroom
    next => cases happ

theorem append_false {malloc : Malloc} {buffer next : BlockBuffer} {app : List UInt8}
    (happ : buffer.append params malloc app = (false, next)) : next = buffer := by
  unfold append at happ
  split at happ
  · cases happ
  · split at happ
    · cases happ
    next same hgrow =>
      cases happ
      exact increaseCapacity_false hgrow

theorem reserve_true {malloc : Malloc} {buffer next : BlockBuffer} {n : Nat}
    (hbuffer : buffer.WellFormed params)
    (hreserve : buffer.reserve params malloc n = (true, next)) :
    next.WellFormed params ∧ next.data = buffer.data := by
  unfold reserve at hreserve
  split at hreserve
  · cases hreserve
    exact ⟨hbuffer, rfl⟩
  · obtain ⟨hnext, _, hdata, _⟩ := increaseCapacity_true hbuffer hreserve
    exact ⟨hnext, hdata⟩

theorem resize_true {malloc : Malloc} {buffer next : BlockBuffer} {n : Nat} {c : UInt8}
    (hbuffer : buffer.WellFormed params)
    (hresize : buffer.resize params malloc n c = (true, next)) :
    next.WellFormed params ∧
      next.data = buffer.data.take n ++ List.replicate (n - buffer.mSize) c := by
  unfold resize at hresize
  split at hresize
  next hmore =>
    dsimp only at hresize
    split at hresize
    · cases hresize
    next grown hgrow =>
      cases hresize
      obtain ⟨hgrown, hsize, hdata, hroom⟩ := increaseCapacity_true hbuffer hgrow
      have hspec := writeTail_spec hgrown
        (show (List.replicate (n - buffer.mSize) c).length ≤ grown.freespace params by
          simpa using hroom)
      have hn : grown.mSize + (List.replicate (n - buffer.mSize) c).length = n := by
        simp only [List.length_replicate]
        omega
      rw [writeTail, hn] at hspec
      rw [List.take_of_length_le (by rw [hbuffer.length_data]; omega), ← hdata]
      exact hspec
  next hless =>
    cases hresize
    refine ⟨hbuffer.shrink (by omega), ?_⟩
    rw [data_shrink (by omega)]
    simp [Nat.sub_eq_zero_of_le (Nat.le_of_not_gt hless)]

theorem replace_true {malloc : Malloc} {buffer next : BlockBuffer} {pos : Nat}
    {rep : List UInt8} (hbuffer : buffer.WellFormed params)
    (hreplace : buffer.replace params malloc pos rep = (true, next)) :
    next.WellFormed params ∧ next.data = overwrite buffer.data pos rep := by
  have hlength := hbuffer.length_data
  unfold replace at hreplace
  split at hreplace
  next hend =>
    obtain ⟨hnext, hdata⟩ := append_true hbuffer hreplace
    refine ⟨hnext, ?_⟩
    rw [hdata, overwrite, List.take_of_length_le (by omega), List.drop_of_length_le (by omega),
      List.append_nil]
  next hinside =>
    have hpos : pos ≤ buffer.mSize := Nat.le_of_not_ge hinside
    split at hreplace
    next hpast =>
      obtain ⟨hnext, hdata⟩ := append_true (hbuffer.shrink hpos) hreplace
      refine ⟨hnext, ?_⟩
      rw [hdata, data_shrink hpos, overwrite, List.drop_of_length_le (by omega),
        List.append_nil]
    next hpast =>
      split at hreplace
      next hsome =>
        cases hreplace
        have hstorage := hbuffer.size_le_storage
        refine ⟨⟨?_, hbuffer.size_le, hbuffer.block_le⟩, ?_⟩
        · exact (length_overwrite (by omega)).trans hbuffer.storage
        · exact take_overwrite_past (Nat.le_of_lt (Nat.lt_of_not_ge hpast)) hstorage
      next hnone =>
        -- within the data the source copies nothing when there is nothing to copy
        cases hreplace
        have hnil : rep = [] := List.length_eq_zero_iff.mp (by omega)
        simp [hnil, overwrite, hbuffer]

/-- There is room for what is no more than the free space. -/
theorem append_fits (malloc : Malloc) {buffer : BlockBuffer} {app : List UInt8}
    (hroom : app.length ≤ buffer.freespace params) :
    ∃ next, buffer.append params malloc app = (true, next) ∧
      next.mSize = buffer.mSize + app.length ∧ next.capacity params = buffer.capacity params := by
  unfold append
  split
  next hnil => exact ⟨buffer, rfl, by omega, rfl⟩
  next hsome =>
    have hgrow : buffer.increaseCapacity params malloc app.length = (true, buffer) := by
      rw [increaseCapacity, if_neg hsome]
      exact if_pos hroom
    rw [hgrow]
    exact ⟨buffer.writeTail app, rfl, rfl, rfl⟩

/-- A replacement that ends within the data needs no new block. -/
theorem replace_fits (malloc : Malloc) {buffer : BlockBuffer} {pos : Nat} {rep : List UInt8}
    (hbuffer : buffer.WellFormed params) (hfit : pos + rep.length ≤ buffer.mSize) :
    ∃ next, buffer.replace params malloc pos rep = (true, next) := by
  have hadd := hbuffer.size_add_freespace
  unfold replace
  split
  · have hfits : rep.length ≤ buffer.freespace params := by omega
    obtain ⟨next, hnext, _⟩ := append_fits malloc hfits
    exact ⟨next, hnext⟩
  · split
    · have hroom : rep.length ≤ freespace params { buffer with mSize := pos } := by
        simp only [freespace, capacity] at hadd ⊢
        omega
      obtain ⟨next, hnext, _⟩ := append_fits malloc hroom
      exact ⟨next, hnext⟩
    · split
      · exact ⟨_, rfl⟩
      · exact ⟨_, rfl⟩

theorem data_of_empty {buffer : BlockBuffer} (hempty : buffer.mSize = 0) : buffer.data = [] := by
  simp [data, hempty]

/-- Giving the blocks of an empty buffer back, or keeping them, changes nothing
that can be seen. -/
theorem release_spec {buffer : BlockBuffer} (hold : Bool) (hbuffer : buffer.WellFormed params) :
    (if buffer.isEmpty && !hold then buffer.free else buffer).WellFormed params ∧
      (if buffer.isEmpty && !hold then buffer.free else buffer).data = buffer.data := by
  split
  next hrelease =>
    have hempty : buffer.mSize = 0 := by
      simp only [isEmpty, Bool.and_eq_true, beq_iff_eq] at hrelease
      exact hrelease.1
    refine ⟨hbuffer.free.resolve_right (fun hne => hne hempty), ?_⟩
    rw [data_of_empty hempty]
    unfold free
    split <;> simp [data, hempty]
  next => exact ⟨hbuffer, rfl⟩

theorem erase_spec (n : Nat) (hold : Bool) {buffer : BlockBuffer} {pos : Nat}
    (hbuffer : buffer.WellFormed params) (hpos : pos ≤ buffer.mSize) :
    (buffer.erase pos n hold).WellFormed params ∧
      (buffer.erase pos n hold).data = buffer.data.take pos ++ buffer.data.drop (pos + n) := by
  have hlength := hbuffer.length_data
  have hstorage := hbuffer.size_le_storage
  unfold erase
  dsimp only
  by_cases hall : n ≥ buffer.mSize - pos
  · rw [if_pos hall]
    have hspec := release_spec hold (hbuffer.shrink hpos)
    refine ⟨hspec.1, hspec.2.trans ?_⟩
    rw [data_shrink hpos, List.drop_of_length_le (l := buffer.data) (by omega),
      List.append_nil]
  · -- what is behind the erased part moves down, and the size follows
    rw [if_neg hall]
    have htail : ((buffer.mData.drop (pos + n)).take (buffer.mSize - pos - n)).length =
        buffer.mSize - pos - n := by
      simp only [List.length_take, List.length_drop]
      omega
    have hmoved : WellFormed params { buffer with
        mSize := buffer.mSize - n
        mData := overwrite buffer.mData pos
          ((buffer.mData.drop (pos + n)).take (buffer.mSize - pos - n)) } := by
      refine ⟨(length_overwrite (by omega)).trans hbuffer.storage, ?_, hbuffer.block_le⟩
      have hsize := hbuffer.size_le
      simp only [capacity] at hsize ⊢
      omega
    have hspec := release_spec hold hmoved
    refine ⟨hspec.1, hspec.2.trans ?_⟩
    have hend := take_overwrite_end
      ((buffer.mData.drop (pos + n)).take (buffer.mSize - pos - n)) (hpos.trans hstorage)
    rw [htail, show pos + (buffer.mSize - pos - n) = buffer.mSize - n by omega] at hend
    simp only [data, hend, List.take_take, Nat.min_eq_left hpos, List.drop_take]
    congr 2
    omega

end BlockBuffer

end ServiceFrame
