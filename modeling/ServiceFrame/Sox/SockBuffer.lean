import ServiceFrame.Foundation.StreamCipher
import ServiceFrame.Common.BlockBuffer

/-! # Socket buffers

`SockBuffer<BlockBufferClass, RC4Filter>` of `core/sox/sockbuffer.h`: a block
buffer between a connection and its socket, whose filter crypts what passes.
What the kernel does in a `send` or a `recv`, and in an allocation, is given to
each call as an answer. A call that throws has no result.
-/

namespace ServiceFrame

open Foundation

/-! ## The socket -/

/-- The outcome of one `::send`: it takes at most so many bytes, or it fails,
with an errno that `isIgnoreError` accepts or with another. -/
inductive SendAnswer where
  | sent (limit : Nat)
  | ignored
  | failed
deriving DecidableEq

/-- `Sockethelper::send`: the number of bytes that went out. -/
def Sockethelper.send (answer : SendAnswer) (buf : List UInt8) : Option Nat :=
  match answer with
  | .sent limit => some (min limit buf.length)
  | .ignored => some 0
  | .failed => none

/-- The outcome of one `::recv`: bytes (none of them once the peer closed), or
a failure, with `EAGAIN` or `EINTR` or with another errno. -/
inductive RecvAnswer where
  | received (chunk : List UInt8)
  | again
  | failed

/-- A call that returned, or threw a `socket_error` with one of these errnos. -/
inductive RecvResult where
  | returned (ret : Int)
  | again
  | failed

/-! ## The filter -/

/-- `RC4Filter`: the cipher's state once a key is set (`encrypted`). -/
abbrev RC4Filter (cipher : StreamCipher) := Option cipher.State

namespace RC4Filter

variable {cipher : StreamCipher}

def isEncrypto (filter : RC4Filter cipher) : Bool := filter.isSome

def setRC4Key (key : List UInt8) : RC4Filter cipher := some (cipher.setKey key)

/-- `filterWrite`, and `filterRead` in place: the text crypted, when there is a
key, and the filter afterwards. -/
def filter (filter : RC4Filter cipher) (text : List UInt8) : List UInt8 × RC4Filter cipher :=
  match filter with
  | none => (text, none)
  | some state => ((cipher.crypt state text).1, some (cipher.crypt state text).2)

@[simp] theorem filter_nil (flt : RC4Filter cipher) : flt.filter [] = ([], flt) := by
  cases flt <;> rfl

theorem filter_append (flt : RC4Filter cipher) (first second : List UInt8) :
    flt.filter (first ++ second) =
      ((flt.filter first).1 ++ ((flt.filter first).2.filter second).1,
        ((flt.filter first).2.filter second).2) := by
  cases flt with
  | none => rfl
  | some state => simp only [filter, cipher.crypt_append]

theorem length_filter (flt : RC4Filter cipher) (text : List UInt8) :
    (flt.filter text).1.length = text.length := by
  cases flt with
  | none => rfl
  | some state => exact cipher.length_crypt state text

/-- The filter of the peer, from the same state, gives the text back. -/
theorem filter_filter (flt : RC4Filter cipher) (text : List UInt8) :
    flt.filter (flt.filter text).1 = (text, (flt.filter text).2) := by
  cases flt with
  | none => rfl
  | some state => simp only [filter, cipher.crypt_crypt]

theorem filter_isEncrypto (flt : RC4Filter cipher) (text : List UInt8) :
    (flt.filter text).2.isEncrypto = flt.isEncrypto := by
  cases flt <;> rfl

end RC4Filter

/-! ## The buffer -/

structure SockBuffer (cipher : StreamCipher) where
  buffer : BlockBuffer
  filter : RC4Filter cipher

namespace SockBuffer

variable (params : BlockParams) {cipher : StreamCipher}

def init : SockBuffer cipher := { buffer := .init, filter := none }

def setRC4Key (sock : SockBuffer cipher) (key : List UInt8) : SockBuffer cipher :=
  { sock with filter := RC4Filter.setRC4Key key }

/-- Append into the buffer; a failure is thrown as `buffer_overflow`. -/
def appendOrThrow (malloc : Malloc) (sock : SockBuffer cipher) (bytes : List UInt8) :
    Option (SockBuffer cipher) :=
  match sock.buffer.append params malloc bytes with
  | (true, buffer) => some { sock with buffer := buffer }
  | (false, _) => none

/-- `write(msg, size)`: append into the buffer only. -/
def write (malloc : Malloc) (sock : SockBuffer cipher) (msg : List UInt8) :
    Option (SockBuffer cipher) :=
  if msg.length = 0 then some sock
  else
    let (enc, filter) := sock.filter.filter msg
    appendOrThrow params malloc { sock with filter := filter } enc

/-- The direct send of `write`, made when nothing waits in the buffer. -/
def sendNow (answer : SendAnswer) (sock : SockBuffer cipher) (enc : List UInt8) : Option Nat :=
  if sock.buffer.isEmpty then Sockethelper.send answer enc else some 0

/-- `write(so, msg, size)`: send now what the socket takes, when nothing waits
in the buffer, and buffer the rest. The second result is what went out. -/
def writeSocket (malloc : Malloc) (answer : SendAnswer) (sock : SockBuffer cipher)
    (msg : List UInt8) : Option (SockBuffer cipher × List UInt8) :=
  if msg.length = 0 then some (sock, [])
  else do
    let (enc, filter) := sock.filter.filter msg
    let nsent ← sock.sendNow answer enc
    let kept ← appendOrThrow params malloc { sock with filter := filter } (enc.drop nsent)
    some (kept, enc.take nsent)

/-- `flush(so)`: the second result is what went out. -/
def flush (answer : SendAnswer) (sock : SockBuffer cipher) :
    Option (SockBuffer cipher × List UInt8) := do
  let ret ← Sockethelper.send answer sock.buffer.data
  some ({ sock with buffer := sock.buffer.erase 0 ret false }, sock.buffer.data.take ret)

/-- `pump(so)`: what the buffer offers the socket. -/
def offer (malloc : Malloc) (sock : SockBuffer cipher) : BlockBuffer :=
  if sock.buffer.freespace params < params.requestedSize / 2 ∧
      sock.buffer.mBlock < params.maxBlocks then
    -- the result of increase_capacity is ignored
    (sock.buffer.increaseCapacity params malloc params.requestedSize).2
  else sock.buffer

/-- `pump(so)`: receive into the free space of the buffer, and decrypt there. -/
def pump (malloc : Malloc) (answer : RecvAnswer) (sock : SockBuffer cipher) :
    RecvResult × SockBuffer cipher :=
  let grown := { sock with buffer := sock.offer params malloc }
  if grown.buffer.freespace params = 0 then (.returned (-1), grown)
  else
    match answer with
    | .again => (.again, grown)
    | .failed => (.failed, grown)
    | .received chunk =>
        if chunk.length > 0 then
          let (text, filter) := sock.filter.filter chunk
          (.returned chunk.length, { buffer := grown.buffer.writeTail text, filter := filter })
        else (.returned 0, grown)

/-! ## What goes out and what stays -/

variable {params}

theorem appendOrThrow_some {malloc : Malloc} {sock next : SockBuffer cipher}
    {bytes : List UInt8} (happ : sock.appendOrThrow params malloc bytes = some next)
    (hsock : sock.buffer.WellFormed params) :
    next.buffer.WellFormed params ∧ next.buffer.data = sock.buffer.data ++ bytes ∧
      next.filter = sock.filter := by
  unfold appendOrThrow at happ
  split at happ
  next buffer hbuffer =>
    cases happ
    obtain ⟨hwell, hdata⟩ := BlockBuffer.append_true hsock hbuffer
    exact ⟨hwell, hdata, rfl⟩
  next => cases happ

/-- A buffered message goes behind what waits, through the filter. -/
theorem write_some {malloc : Malloc} {sock next : SockBuffer cipher} {msg : List UInt8}
    (hsock : sock.buffer.WellFormed params) (hwrite : sock.write params malloc msg = some next) :
    next.buffer.WellFormed params ∧
      next.buffer.data = sock.buffer.data ++ (sock.filter.filter msg).1 ∧
      next.filter = (sock.filter.filter msg).2 := by
  unfold write at hwrite
  split at hwrite
  next hnil =>
    cases hwrite
    simp [List.length_eq_zero_iff.mp hnil, hsock]
  next hnil =>
    obtain ⟨hwell, hdata, hfilter⟩ := appendOrThrow_some hwrite hsock
    exact ⟨hwell, hdata, hfilter⟩

/-- What went out and what stays, together, are what waited and then the
filtered message. -/
theorem writeSocket_some {malloc : Malloc} {answer : SendAnswer}
    {sock next : SockBuffer cipher} {msg sent : List UInt8}
    (hsock : sock.buffer.WellFormed params)
    (hwrite : sock.writeSocket params malloc answer msg = some (next, sent)) :
    next.buffer.WellFormed params ∧
      sent ++ next.buffer.data = sock.buffer.data ++ (sock.filter.filter msg).1 ∧
      next.filter = (sock.filter.filter msg).2 := by
  unfold writeSocket at hwrite
  split at hwrite
  next hnil =>
    cases hwrite
    simp [List.length_eq_zero_iff.mp hnil, hsock]
  next hnil =>
    simp only [Option.bind_eq_bind, Option.bind_eq_some_iff, Option.some.injEq,
      Prod.mk.injEq] at hwrite
    obtain ⟨nsent, hsend, kept, hkept, rfl, rfl⟩ := hwrite
    obtain ⟨hwell, hdata, hfilter⟩ := appendOrThrow_some hkept hsock
    refine ⟨hwell, ?_, hfilter⟩
    unfold sendNow at hsend
    split at hsend
    next hempty =>
      -- the direct branch: nothing waited, so the order is kept
      have hnone : sock.buffer.data = [] :=
        BlockBuffer.data_of_empty (by simpa [BlockBuffer.isEmpty] using hempty)
      rw [hdata, hnone, List.nil_append, List.nil_append, List.take_append_drop]
    next hempty =>
      cases hsend
      simp [hdata]

theorem flush_some {answer : SendAnswer} {sock next : SockBuffer cipher} {sent : List UInt8}
    (hsock : sock.buffer.WellFormed params) (hflush : sock.flush answer = some (next, sent)) :
    next.buffer.WellFormed params ∧ sent ++ next.buffer.data = sock.buffer.data ∧
      next.filter = sock.filter := by
  simp only [flush, Option.bind_eq_bind, Option.bind_eq_some_iff, Option.some.injEq,
    Prod.mk.injEq] at hflush
  obtain ⟨ret, -, rfl, rfl⟩ := hflush
  obtain ⟨hwell, hdata⟩ := BlockBuffer.erase_spec ret false hsock (Nat.zero_le _)
  refine ⟨hwell, ?_, rfl⟩
  rw [hdata, List.take_zero, List.nil_append, Nat.zero_add, List.take_append_drop]

/-! ## What comes in -/

theorem offer_spec (malloc : Malloc) {sock : SockBuffer cipher}
    (hsock : sock.buffer.WellFormed params) :
    (sock.offer params malloc).WellFormed params ∧
      (sock.offer params malloc).data = sock.buffer.data ∧
      (sock.offer params malloc).mSize = sock.buffer.mSize := by
  unfold offer
  split
  · cases hgrow : sock.buffer.increaseCapacity params malloc params.requestedSize with
    | mk ok grown =>
        cases ok with
        | true =>
            obtain ⟨hwell, hsize, hdata, -⟩ := BlockBuffer.increaseCapacity_true hsock hgrow
            exact ⟨hwell, hdata, hsize⟩
        | false =>
            rw [BlockBuffer.increaseCapacity_false hgrow]
            exact ⟨hsock, rfl, rfl⟩
  · exact ⟨hsock, rfl, rfl⟩

/-- A full-sized allocation leaves room in every buffer that is not full. -/
theorem offer_room (junk : Nat → UInt8) {sock : SockBuffer cipher}
    (hsock : sock.buffer.WellFormed params) (hblock : 1 < params.requestedSize)
    (hsize : sock.buffer.mSize < BlockBuffer.maxsize params) :
    0 < (sock.offer params (some junk)).freespace params := by
  unfold offer
  split
  next hgrow =>
    obtain ⟨grown, hgrown⟩ := BlockBuffer.increaseCapacity_block junk
      (show sock.buffer.freespace params < params.requestedSize by omega) hgrow.2
    obtain ⟨-, -, -, hroom⟩ := BlockBuffer.increaseCapacity_true hsock hgrown
    rw [hgrown]
    exact params.requestedSize_pos.trans_le hroom
  next hkeep =>
    by_cases hhalf : sock.buffer.freespace params < params.requestedSize / 2
    · -- every block is in use already
      have hall : sock.buffer.mBlock = params.maxBlocks :=
        Nat.le_antisymm hsock.block_le (Nat.le_of_not_gt fun hless => hkeep ⟨hhalf, hless⟩)
      have hadd := hsock.size_add_freespace
      have hcapacity : sock.buffer.capacity params = BlockBuffer.maxsize params := by
        rw [BlockBuffer.capacity, hall, BlockBuffer.maxsize]
      omega
    · omega

/-- A chunk the buffer had room for is behind what waited, through the filter. -/
theorem pump_received {malloc : Malloc} {sock : SockBuffer cipher} {chunk : List UInt8}
    (hsock : sock.buffer.WellFormed params) (hchunk : chunk ≠ [])
    (hroom : chunk.length ≤ (sock.offer params malloc).freespace params) :
    ∃ next, sock.pump params malloc (.received chunk) = (.returned chunk.length, next) ∧
      next.buffer.WellFormed params ∧
      next.buffer.data = sock.buffer.data ++ (sock.filter.filter chunk).1 ∧
      next.filter = (sock.filter.filter chunk).2 := by
  have hpos : 0 < chunk.length := List.length_pos_iff.mpr hchunk
  obtain ⟨hwell, hdata, -⟩ := offer_spec malloc hsock
  have hfits : (sock.filter.filter chunk).1.length ≤
      (sock.offer params malloc).freespace params := by
    rw [RC4Filter.length_filter]
    exact hroom
  have htail := BlockBuffer.writeTail_spec hwell hfits
  rw [hdata] at htail
  unfold pump
  rw [if_neg (by dsimp only; omega)]
  dsimp only
  rw [if_pos hpos]
  exact ⟨_, rfl, htail.1, htail.2, rfl⟩

/-! ## Writes that throw -/

end SockBuffer

/-- How a write ends: it returns, or it throws `buffer_overflow`, `buffer_overflow_all`, or the
`socket_error` of `Sockethelper::send`. -/
inductive WriteEnd where
  | returned
  | bufferOverflow
  | bufferOverflowAll
  | socketError
deriving DecidableEq

/-- The write threw because the bytes did not fit. -/
def WriteEnd.Overflow (ending : WriteEnd) : Prop :=
  ending = .bufferOverflow ∨ ending = .bufferOverflowAll

/-- What a write leaves behind, whether it returned or threw, and what the socket took. -/
structure WriteOutcome (State : Type) where
  ending : WriteEnd
  after : State
  sent : List UInt8

namespace SockBuffer

variable (params : BlockParams) {cipher : StreamCipher}

/-- The end of both writes: buffer what `nsent` bytes sent leave of `enc`. -/
def appendRest (malloc : Malloc) (sock : SockBuffer cipher) (enc : List UInt8) (nsent : Nat) :
    WriteOutcome (SockBuffer cipher) :=
  match sock.buffer.append params malloc (enc.drop nsent) with
  | (true, buffer) => ⟨.returned, { sock with buffer := buffer }, enc.take nsent⟩
  | (false, buffer) =>
      -- all or part append error
      ⟨if nsent > 0 then .bufferOverflow else .bufferOverflowAll,
        { sock with buffer := buffer }, enc.take nsent⟩

/-- `write(msg, size)`, with what it leaves when it throws. -/
def writeOutcome (malloc : Malloc) (sock : SockBuffer cipher) (msg : List UInt8) :
    WriteOutcome (SockBuffer cipher) :=
  if msg.length = 0 then ⟨.returned, sock, []⟩
  else
    let (enc, filter) := sock.filter.filter msg
    appendRest params malloc { sock with filter := filter } enc 0

/-- `write(so, msg, size)`, with what it leaves when it throws. -/
def writeSocketOutcome (malloc : Malloc) (answer : SendAnswer) (sock : SockBuffer cipher)
    (msg : List UInt8) : WriteOutcome (SockBuffer cipher) :=
  if msg.length = 0 then ⟨.returned, sock, []⟩
  else
    let (enc, filter) := sock.filter.filter msg
    match sock.sendNow answer enc with
    | none => ⟨.socketError, { sock with filter := filter }, []⟩
    | some nsent => appendRest params malloc { sock with filter := filter } enc nsent

variable {params}

theorem appendRest_returned {malloc : Malloc} {sock : SockBuffer cipher} {enc : List UInt8}
    {nsent : Nat} (hreturned : (sock.appendRest params malloc enc nsent).ending = .returned) :
    sock.appendOrThrow params malloc (enc.drop nsent) =
        some (sock.appendRest params malloc enc nsent).after ∧
      (sock.appendRest params malloc enc nsent).sent = enc.take nsent := by
  unfold appendRest appendOrThrow at *
  cases happ : sock.buffer.append params malloc (enc.drop nsent) with
  | mk success buffer =>
      cases success with
      | true => exact ⟨rfl, rfl⟩
      | false =>
          rw [happ] at hreturned
          dsimp only at hreturned
          split at hreturned <;> cases hreturned

/-- The buffering write gives the socket nothing. -/
theorem writeOutcome_sent (malloc : Malloc) (sock : SockBuffer cipher) (msg : List UInt8) :
    (sock.writeOutcome params malloc msg).sent = [] := by
  unfold writeOutcome appendRest
  split
  · rfl
  · dsimp only
    split <;> rfl

/-- A write that returns leaves what `write` does. -/
theorem write_of_returned {malloc : Malloc} {sock : SockBuffer cipher} {msg : List UInt8}
    (hreturned : (sock.writeOutcome params malloc msg).ending = .returned) :
    sock.write params malloc msg = some (sock.writeOutcome params malloc msg).after := by
  unfold writeOutcome at hreturned ⊢
  unfold write
  split at hreturned
  next hnil => rw [if_pos hnil, if_pos hnil]
  next hnil =>
    rw [if_neg hnil, if_neg hnil]
    exact (appendRest_returned hreturned).1

theorem writeSocket_of_returned {malloc : Malloc} {answer : SendAnswer}
    {sock : SockBuffer cipher} {msg : List UInt8}
    (hreturned : (sock.writeSocketOutcome params malloc answer msg).ending = .returned) :
    sock.writeSocket params malloc answer msg =
      some ((sock.writeSocketOutcome params malloc answer msg).after,
        (sock.writeSocketOutcome params malloc answer msg).sent) := by
  unfold writeSocketOutcome at hreturned ⊢
  unfold writeSocket
  split at hreturned
  next hnil => rw [if_pos hnil, if_pos hnil]
  next hnil =>
    rw [if_neg hnil, if_neg hnil]
    dsimp only at hreturned ⊢
    cases hsend : sock.sendNow answer (sock.filter.filter msg).1 with
    | none =>
        rw [hsend] at hreturned
        cases hreturned
    | some nsent =>
        rw [hsend] at hreturned
        obtain ⟨happend, hsent⟩ := appendRest_returned hreturned
        simp only [Option.bind_eq_bind, Option.bind_some, happend, hsent]

/-- What a write that overflowed promises with the exception it chose: the buffered bytes are
what they were; `buffer_overflow_all` says that the socket took nothing, `buffer_overflow` that
nothing waited and the socket took a part of the crypted message. -/
structure Reported (sock : SockBuffer cipher) (msg : List UInt8)
    (outcome : WriteOutcome (SockBuffer cipher)) : Prop where
  buffered : outcome.after.buffer = sock.buffer
  all : outcome.ending = .bufferOverflowAll → outcome.sent = []
  part : outcome.ending = .bufferOverflow →
    sock.buffer.mSize = 0 ∧ 0 < outcome.sent.length ∧ outcome.sent.length < msg.length
  sent : outcome.sent = (sock.filter.filter msg).1.take outcome.sent.length
  keyless : sock.filter = none → outcome.after.filter = none

/-- An append that fails has brought bytes, and changes nothing. -/
theorem appendRest_overflow {malloc : Malloc} {sock : SockBuffer cipher} {enc : List UInt8}
    {nsent : Nat} (hover : (sock.appendRest params malloc enc nsent).ending.Overflow) :
    nsent < enc.length ∧ sock.appendRest params malloc enc nsent =
      ⟨if nsent > 0 then .bufferOverflow else .bufferOverflowAll, sock, enc.take nsent⟩ := by
  unfold appendRest at *
  cases happ : sock.buffer.append params malloc (enc.drop nsent) with
  | mk success buffer =>
      rw [happ] at hover
      cases success with
      | true => rcases hover with hover | hover <;> cases hover
      | false =>
          refine ⟨Nat.lt_of_not_le fun hall => ?_, ?_⟩
          · rw [List.drop_of_length_le hall] at happ
            cases happ
          · rw [BlockBuffer.append_false happ]

/-- The report of an append that failed with `nsent` bytes gone, of the crypted `msg`. -/
theorem appendRest_reported {malloc : Malloc} {sock : SockBuffer cipher} {msg : List UInt8}
    {nsent : Nat} (hdirect : 0 < nsent → sock.buffer.mSize = 0)
    (hover : (appendRest params malloc { sock with filter := (sock.filter.filter msg).2 }
      (sock.filter.filter msg).1 nsent).ending.Overflow) :
    sock.Reported msg (appendRest params malloc
      { sock with filter := (sock.filter.filter msg).2 } (sock.filter.filter msg).1 nsent) := by
  obtain ⟨hless, hshape⟩ := appendRest_overflow hover
  have hlength : ((sock.filter.filter msg).1.take nsent).length = nsent := by
    rw [List.length_take, Nat.min_eq_left (Nat.le_of_lt hless)]
  rw [RC4Filter.length_filter] at hless
  rw [hshape]
  constructor
  · rfl
  · intro hending
    have hnone : nsent = 0 := by
      by_contra hsome
      rw [if_pos (Nat.pos_of_ne_zero hsome)] at hending
      cases hending
    rw [hnone]
    rfl
  · intro hending
    have hsome : 0 < nsent := by
      by_contra hnone
      rw [if_neg hnone] at hending
      cases hending
    exact ⟨hdirect hsome, by rw [hlength]; exact hsome, by rw [hlength]; exact hless⟩
  · exact congrArg (List.take · _) hlength.symm
  · intro hkeyless
    rw [hkeyless]
    rfl

theorem writeOutcome_reported {malloc : Malloc} {sock : SockBuffer cipher} {msg : List UInt8}
    (hover : (sock.writeOutcome params malloc msg).ending.Overflow) :
    sock.Reported msg (sock.writeOutcome params malloc msg) := by
  unfold writeOutcome at hover ⊢
  split at hover
  next hnil => rcases hover with hover | hover <;> cases hover
  next hnil =>
    rw [if_neg hnil]
    exact appendRest_reported (fun hpos => absurd hpos (Nat.lt_irrefl 0)) hover

theorem writeSocketOutcome_reported {malloc : Malloc} {answer : SendAnswer}
    {sock : SockBuffer cipher} {msg : List UInt8}
    (hover : (sock.writeSocketOutcome params malloc answer msg).ending.Overflow) :
    sock.Reported msg (sock.writeSocketOutcome params malloc answer msg) := by
  unfold writeSocketOutcome at hover ⊢
  split at hover
  next hnil => rcases hover with hover | hover <;> cases hover
  next hnil =>
    rw [if_neg hnil]
    dsimp only at hover ⊢
    cases hsend : sock.sendNow answer (sock.filter.filter msg).1 with
    | none =>
        rw [hsend] at hover
        rcases hover with hover | hover <;> cases hover
    | some nsent =>
        rw [hsend] at hover
        refine appendRest_reported (fun hpos => ?_) hover
        -- bytes are sent directly only when nothing waits
        unfold sendNow at hsend
        split at hsend
        next hempty => simpa [BlockBuffer.isEmpty] using hempty
        next hwaits =>
          cases hsend
          exact absurd hpos (Nat.lt_irrefl 0)

end SockBuffer

end ServiceFrame
