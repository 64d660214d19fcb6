import ServiceFrame.Common.BlockBuffer

/-! # Packing and unpacking

`PackBuffer`, `Pack` and `Unpack` of `common/packet.h`, on the little-endian
platform: there `XHTONS`, `XHTONL` and `XHTONLL` are the identity, and a number
goes out as its own memory image.
-/

namespace ServiceFrame

open Foundation

/-- `PackError`, with its text. -/
structure PackError where
  what : String
deriving DecidableEq, Repr

/-- `UnpackError`, with its text. -/
structure UnpackError where
  what : String
deriving DecidableEq, Repr

/-- `BlockBuffer<def_block_alloc_16k, 65536>`. -/
def packParams : BlockParams where
  requestedSize := 16 * 1024
  maxBlocks := 65536
  requestedSize_pos := by decide

/-- A `PackBuffer`, with the answers its coming allocations will get. -/
structure PackBuffer where
  bb : BlockBuffer
  mallocs : Nat → Malloc
  wellFormed : bb.WellFormed packParams

namespace PackBuffer

/-- A buffer that has packed nothing yet. -/
def init (mallocs : Nat → Malloc) : PackBuffer :=
  ⟨.init, mallocs, BlockBuffer.init_wellFormed⟩

def data (buffer : PackBuffer) : List UInt8 := buffer.bb.data

def size (buffer : PackBuffer) : Nat := buffer.bb.mSize

/-- `append(data, size)`: throws when the block buffer cannot take the bytes. -/
def append (buffer : PackBuffer) (bytes : List UInt8) : Except PackError PackBuffer :=
  match happ : buffer.bb.append packParams (buffer.mallocs 0) bytes with
  | (true, bb) => .ok
      ⟨bb, fun n => buffer.mallocs (n + 1), (BlockBuffer.append_true buffer.wellFormed happ).1⟩
  | (false, _) => .error ⟨"append buffer overflow"⟩

/-- `resize(n)`. -/
def resize (buffer : PackBuffer) (n : Nat) : Except PackError PackBuffer :=
  match hresize : buffer.bb.resize packParams (buffer.mallocs 0) n 0 with
  | (true, bb) => .ok
      ⟨bb, fun n => buffer.mallocs (n + 1), (BlockBuffer.resize_true buffer.wellFormed hresize).1⟩
  | (false, _) => .error ⟨"resize buffer overflow"⟩

/-- `replace(pos, rep, n)`. -/
def replace (buffer : PackBuffer) (pos : Nat) (rep : List UInt8) : Except PackError PackBuffer :=
  match hreplace : buffer.bb.replace packParams (buffer.mallocs 0) pos rep with
  | (true, bb) => .ok
      ⟨bb, fun n => buffer.mallocs (n + 1),
        (BlockBuffer.replace_true buffer.wellFormed hreplace).1⟩
  | (false, _) => .error ⟨"replace buffer overflow"⟩

theorem length_data (buffer : PackBuffer) : buffer.data.length = buffer.size :=
  buffer.wellFormed.length_data

theorem size_le (buffer : PackBuffer) : buffer.size ≤ 2 ^ 30 := by
  have hsize := buffer.wellFormed.size_le
  have hmax : buffer.bb.capacity packParams ≤ 65536 * (16 * 1024) :=
    buffer.wellFormed.capacity_le_maxsize
  simp only [size]
  omega

theorem append_ok {buffer next : PackBuffer} {bytes : List UInt8}
    (happ : buffer.append bytes = .ok next) : next.data = buffer.data ++ bytes := by
  unfold append at happ
  split at happ
  next bb hbb =>
    cases happ
    exact (BlockBuffer.append_true buffer.wellFormed hbb).2
  next => cases happ

theorem resize_ok {buffer next : PackBuffer} {n : Nat} (hresize : buffer.resize n = .ok next) :
    next.data = buffer.data.take n ++ List.replicate (n - buffer.size) 0 := by
  unfold resize at hresize
  split at hresize
  next bb hbb =>
    cases hresize
    exact (BlockBuffer.resize_true buffer.wellFormed hbb).2
  next => cases hresize

theorem size_resize {buffer next : PackBuffer} {n : Nat} (hresize : buffer.resize n = .ok next) :
    next.size = n := by
  have hlength := congrArg List.length (resize_ok hresize)
  simp only [length_data, List.length_append, List.length_take, List.length_replicate] at hlength
  omega

theorem replace_ok {buffer next : PackBuffer} {pos : Nat} {rep : List UInt8}
    (hreplace : buffer.replace pos rep = .ok next) : next.data = overwrite buffer.data pos rep := by
  unfold replace at hreplace
  split at hreplace
  next bb hbb =>
    cases hreplace
    exact (BlockBuffer.replace_true buffer.wellFormed hbb).2
  next => cases hreplace

theorem replace_fits (buffer : PackBuffer) (pos : Nat) (rep : List UInt8)
    (hfit : pos + rep.length ≤ buffer.size) : ∃ next, buffer.replace pos rep = .ok next := by
  obtain ⟨bb, hbb⟩ := BlockBuffer.replace_fits (buffer.mallocs 0) buffer.wellFormed hfit
  unfold replace
  split
  next => exact ⟨_, rfl⟩
  next hfalse =>
    rw [hbb] at hfalse
    cases hfalse

end PackBuffer

/-- A `Pack` writes behind its offset in the buffer. -/
structure Pack where
  mBuffer : PackBuffer
  mOffset : Nat
  offset_le : mOffset ≤ mBuffer.size

namespace Pack

/-- `Pack(pb, off)`: reserve `off` bytes and start behind them. -/
def new (pb : PackBuffer) (off : Nat) : Except PackError Pack :=
  match hresize : pb.resize (pb.size + off) with
  | .ok buffer => .ok ⟨buffer, pb.size + off, (PackBuffer.size_resize hresize).ge⟩
  | .error err => .error err

/-- The bytes of this packet. -/
def data (p : Pack) : List UInt8 := p.mBuffer.data.drop p.mOffset

def size (p : Pack) : Nat := p.mBuffer.size - p.mOffset

/-- `push(s, n)`. -/
def push (p : Pack) (bytes : List UInt8) : Except PackError Pack :=
  match happ : p.mBuffer.append bytes with
  | .ok buffer => .ok ⟨buffer, p.mOffset, by
      have hlength := congrArg List.length (PackBuffer.append_ok happ)
      have hoffset := p.offset_le
      simp only [PackBuffer.length_data, List.length_append] at hlength
      omega⟩
  | .error err => .error err

/-- What is replaced behind the offset leaves the offset inside. -/
theorem offset_le_replace (p : Pack) {pos : Nat} {bytes : List UInt8} {buffer : PackBuffer}
    (hreplace : p.mBuffer.replace (pos + p.mOffset) bytes = .ok buffer) :
    p.mOffset ≤ buffer.size := by
  have hlength := congrArg List.length (PackBuffer.replace_ok hreplace)
  have hoffset := p.offset_le
  simp only [overwrite, PackBuffer.length_data, List.length_append, List.length_take,
    List.length_drop] at hlength
  omega

/-- `replace_offset(pos, data, rplen)`: the position counts from the offset. -/
def replaceOffset (p : Pack) (pos : Nat) (bytes : List UInt8) : Except PackError Pack :=
  match hreplace : p.mBuffer.replace (pos + p.mOffset) bytes with
  | .ok buffer => .ok ⟨buffer, p.mOffset, p.offset_le_replace hreplace⟩
  | .error err => .error err

/-- `xhtons`, `xhtonl` and `xhtonll` on a little-endian machine. -/
def xhton {Num : Type} (number : Num) : Num := number

def pushUint8 (p : Pack) (u8 : UInt8) : Except PackError Pack := p.push [u8]

def pushUint16 (p : Pack) (u16 : UInt16) : Except PackError Pack :=
  p.push (leBytes 2 (xhton u16).toNat)

def pushUint32 (p : Pack) (u32 : UInt32) : Except PackError Pack :=
  p.push (leBytes 4 (xhton u32).toNat)

def pushUint64 (p : Pack) (u64 : UInt64) : Except PackError Pack :=
  p.push (leBytes 8 (xhton u64).toNat)

def replaceOffsetUint32 (p : Pack) (pos : Nat) (u32 : UInt32) : Except PackError Pack :=
  p.replaceOffset pos (leBytes 4 (xhton u32).toNat)

/-- `push_varstr(s, len)`. -/
def pushVarstr (p : Pack) (s : List UInt8) : Except PackError Pack :=
  if s.length > 0xFFFF then .error ⟨"push_varstr: varstr too big"⟩
  else (p.pushUint16 (UInt16.ofNat s.length)).bind fun q => q.push s

/-- `push_varstr32(s, len)`. -/
def pushVarstr32 (p : Pack) (s : List UInt8) : Except PackError Pack :=
  if s.length > 0xFFFFFFFF then .error ⟨"push_varstr32: varstr too big"⟩
  else (p.pushUint32 (UInt32.ofNat s.length)).bind fun q => q.push s

theorem length_data (p : Pack) : p.data.length = p.size := by
  rw [data, List.length_drop, PackBuffer.length_data, size]

theorem size_le (p : Pack) : p.size ≤ 2 ^ 30 :=
  (Nat.sub_le _ _).trans p.mBuffer.size_le

/-- `Wrote p q bytes`: going from `p` to `q` wrote `bytes` at the end. -/
def Wrote (p q : Pack) (bytes : List UInt8) : Prop :=
  q.mOffset = p.mOffset ∧ q.data = p.data ++ bytes

theorem Wrote.refl (p : Pack) : Wrote p p [] := ⟨rfl, by simp⟩

theorem Wrote.trans {p q r : Pack} {first second : List UInt8} (hfirst : Wrote p q first)
    (hsecond : Wrote q r second) : Wrote p r (first ++ second) :=
  ⟨hsecond.1.trans hfirst.1, by rw [hsecond.2, hfirst.2, List.append_assoc]⟩

/-- A pack that is new begins at the end of its buffer. -/
theorem new_ok {pb : PackBuffer} {off : Nat} {p : Pack} (hnew : new pb off = .ok p) :
    p.mBuffer.size = pb.size + off ∧ p.mOffset = pb.size + off := by
  unfold new at hnew
  split at hnew
  next buffer hresize =>
    cases hnew
    exact ⟨PackBuffer.size_resize hresize, rfl⟩
  next => cases hnew

/-- What was written is found behind the old end of the packet. -/
theorem Wrote.drop {p q : Pack} {bytes : List UInt8} (hwrote : Wrote p q bytes) :
    q.data.drop p.size = bytes := by
  rw [hwrote.2, ← length_data, List.drop_left]

theorem Wrote.length_le {p q : Pack} {bytes : List UInt8} (hwrote : Wrote p q bytes) :
    bytes.length ≤ 2 ^ 30 := by
  have hlength := congrArg List.length hwrote.2
  have hsize := q.size_le
  rw [length_data, List.length_append] at hlength
  omega

theorem push_ok {p q : Pack} {bytes : List UInt8} (hpush : p.push bytes = .ok q) :
    Wrote p q bytes := by
  unfold push at hpush
  split at hpush
  next buffer happ =>
    cases hpush
    refine ⟨rfl, ?_⟩
    simp only [data, PackBuffer.append_ok happ]
    exact List.drop_append_of_le_length (by rw [PackBuffer.length_data]; exact p.offset_le)
  next => cases hpush

theorem replaceOffset_ok {p q : Pack} {pos : Nat} {bytes : List UInt8}
    (hreplace : p.replaceOffset pos bytes = .ok q) :
    q.mOffset = p.mOffset ∧ q.data = overwrite p.data pos bytes := by
  unfold replaceOffset at hreplace
  split at hreplace
  next buffer hbuffer =>
    cases hreplace
    refine ⟨rfl, ?_⟩
    simp only [data, PackBuffer.replace_ok hbuffer]
    rw [Nat.add_comm pos p.mOffset]
    exact drop_overwrite (by rw [PackBuffer.length_data]; exact p.offset_le)
  next => cases hreplace

theorem bind_ok {ε α β : Type} {first : Except ε α} {next : α → Except ε β} {result : β}
    (hbind : first.bind next = .ok result) :
    ∃ middle, first = .ok middle ∧ next middle = .ok result := by
  cases first with
  | error err => cases hbind
  | ok middle => exact ⟨middle, rfl, hbind⟩

theorem pushVarstr_ok {p q : Pack} {s : List UInt8} (hpush : p.pushVarstr s = .ok q) :
    s.length < 2 ^ 16 ∧ Wrote p q (leBytes 2 s.length ++ s) := by
  unfold pushVarstr at hpush
  split at hpush
  · cases hpush
  next hlength =>
    obtain ⟨middle, hcount, hbody⟩ := bind_ok hpush
    have hsmall : s.length < 2 ^ 16 := by omega
    have hfirst := push_ok hcount
    rw [xhton, UInt16.toNat_ofNat_of_lt' hsmall] at hfirst
    exact ⟨hsmall, hfirst.trans (push_ok hbody)⟩

theorem pushVarstr32_ok {p q : Pack} {s : List UInt8} (hpush : p.pushVarstr32 s = .ok q) :
    s.length < 2 ^ 32 ∧ Wrote p q (leBytes 4 s.length ++ s) := by
  unfold pushVarstr32 at hpush
  split at hpush
  · cases hpush
  next hlength =>
    obtain ⟨middle, hcount, hbody⟩ := bind_ok hpush
    have hsmall : s.length < 2 ^ 32 := by omega
    have hfirst := push_ok hcount
    rw [xhton, UInt32.toNat_ofNat_of_lt' hsmall] at hfirst
    exact ⟨hsmall, hfirst.trans (push_ok hbody)⟩

end Pack

/-- The bytes an `Unpack` has not consumed yet. -/
abbrev Unpack := List UInt8

namespace Unpack

/-- `xntohs`, `xntohl` and `xntohll` on a little-endian machine. -/
def xntoh {Num : Type} (number : Num) : Num := number

def popUint8 : Unpack → Except UnpackError (UInt8 × Unpack)
  | [] => .error ⟨"pop_uint8: not enough data"⟩
  | i8 :: rest => .ok (i8, rest)

def popUint16 (up : Unpack) : Except UnpackError (UInt16 × Unpack) :=
  if up.length < 2 then .error ⟨"pop_uint16: not enough data"⟩
  else .ok (xntoh (UInt16.ofNat (leNat (up.take 2))), up.drop 2)

def popUint32 (up : Unpack) : Except UnpackError (UInt32 × Unpack) :=
  if up.length < 4 then .error ⟨"pop_uint32: not enough data"⟩
  else .ok (xntoh (UInt32.ofNat (leNat (up.take 4))), up.drop 4)

def popUint64 (up : Unpack) : Except UnpackError (UInt64 × Unpack) :=
  if up.length < 8 then .error ⟨"pop_uint64: not enough data"⟩
  else .ok (xntoh (UInt64.ofNat (leNat (up.take 8))), up.drop 8)

/-- `pop_fetch_ptr(k)`, together with the `k` bytes it points to. -/
def popFetchPtr (up : Unpack) (k : Nat) : Except UnpackError (List UInt8 × Unpack) :=
  if up.length < k then .error ⟨"pop_fetch_ptr: not enough data"⟩
  else .ok (up.take k, up.drop k)

def popVarstr (up : Unpack) : Except UnpackError (List UInt8 × Unpack) :=
  (popUint16 up).bind fun (size, rest) => rest.popFetchPtr size.toNat

def popVarstr32 (up : Unpack) : Except UnpackError (List UInt8 × Unpack) :=
  (popUint32 up).bind fun (size, rest) => rest.popFetchPtr size.toNat

section Consumed

variable {up rest : Unpack} {s : List UInt8}

theorem length_popUint8 {i8 : UInt8} (hpop : popUint8 up = .ok (i8, rest)) :
    rest.length + 1 = up.length := by
  cases up with
  | nil => cases hpop
  | cons byte behind =>
      cases hpop
      rfl

theorem length_popUint16 {i16 : UInt16} (hpop : popUint16 up = .ok (i16, rest)) :
    rest.length + 2 = up.length := by
  unfold popUint16 at hpop
  split at hpop
  · cases hpop
  next henough =>
    cases hpop
    rw [List.length_drop]
    omega

theorem length_popUint32 {i32 : UInt32} (hpop : popUint32 up = .ok (i32, rest)) :
    rest.length + 4 = up.length := by
  unfold popUint32 at hpop
  split at hpop
  · cases hpop
  next henough =>
    cases hpop
    rw [List.length_drop]
    omega

theorem length_popFetchPtr {k : Nat} (hpop : popFetchPtr up k = .ok (s, rest)) :
    s.length + rest.length = up.length := by
  unfold popFetchPtr at hpop
  split at hpop
  · cases hpop
  · cases hpop
    rw [← List.length_append, List.take_append_drop]

theorem length_popVarstr (hpop : popVarstr up = .ok (s, rest)) :
    s.length + rest.length + 2 = up.length := by
  obtain ⟨⟨size, behind⟩, hsize, hfetch⟩ := Pack.bind_ok hpop
  rw [length_popFetchPtr hfetch, length_popUint16 hsize]

theorem length_popVarstr32 (hpop : popVarstr32 up = .ok (s, rest)) :
    s.length + rest.length + 4 = up.length := by
  obtain ⟨⟨size, behind⟩, hsize, hfetch⟩ := Pack.bind_ok hpop
  rw [length_popFetchPtr hfetch, length_popUint32 hsize]

end Consumed

theorem popUint16_ok {up : Unpack} (hup : 2 ≤ up.length) :
    popUint16 up = .ok (xntoh (UInt16.ofNat (leNat (up.take 2))), up.drop 2) :=
  if_neg (by omega)

theorem popUint32_ok {up : Unpack} (hup : 4 ≤ up.length) :
    popUint32 up = .ok (xntoh (UInt32.ofNat (leNat (up.take 4))), up.drop 4) :=
  if_neg (by omega)

theorem popUint16_leBytes {n : Nat} (hn : n < 2 ^ 16) (rest : Unpack) :
    popUint16 (leBytes 2 n ++ rest) = .ok (UInt16.ofNat n, rest) := by
  have henough : ¬ (leBytes 2 n ++ rest).length < 2 := by
    rw [List.length_append, length_leBytes]
    omega
  rw [popUint16, if_neg henough, List.take_left' (length_leBytes 2 n),
    List.drop_left' (length_leBytes 2 n), leNat_leBytes (by omega)]
  rfl

theorem popUint32_leBytes {n : Nat} (hn : n < 2 ^ 32) (rest : Unpack) :
    popUint32 (leBytes 4 n ++ rest) = .ok (UInt32.ofNat n, rest) := by
  have henough : ¬ (leBytes 4 n ++ rest).length < 4 := by
    rw [List.length_append, length_leBytes]
    omega
  rw [popUint32, if_neg henough, List.take_left' (length_leBytes 4 n),
    List.drop_left' (length_leBytes 4 n), leNat_leBytes (by omega)]
  rfl

theorem popUint64_leBytes {n : Nat} (hn : n < 2 ^ 64) (rest : Unpack) :
    popUint64 (leBytes 8 n ++ rest) = .ok (UInt64.ofNat n, rest) := by
  have henough : ¬ (leBytes 8 n ++ rest).length < 8 := by
    rw [List.length_append, length_leBytes]
    omega
  rw [popUint64, if_neg henough, List.take_left' (length_leBytes 8 n),
    List.drop_left' (length_leBytes 8 n), leNat_leBytes (by omega)]
  rfl

theorem popFetchPtr_append (s rest : List UInt8) :
    popFetchPtr (s ++ rest) s.length = .ok (s, rest) := by
  rw [popFetchPtr, if_neg (by simp), List.take_left, List.drop_left]

theorem popVarstr_append {s : List UInt8} (hs : s.length < 2 ^ 16) (rest : Unpack) :
    popVarstr (leBytes 2 s.length ++ s ++ rest) = .ok (s, rest) := by
  rw [popVarstr, List.append_assoc, popUint16_leBytes hs]
  simp only [Except.bind]
  rw [UInt16.toNat_ofNat_of_lt' hs, popFetchPtr_append]

theorem popVarstr32_append {s : List UInt8} (hs : s.length < 2 ^ 32) (rest : Unpack) :
    popVarstr32 (leBytes 4 s.length ++ s ++ rest) = .ok (s, rest) := by
  rw [popVarstr32, List.append_assoc, popUint32_leBytes hs]
  simp only [Except.bind]
  rw [UInt32.toNat_ofNat_of_lt' hs, popFetchPtr_append]

end Unpack

/-! ## Wide strings

The characters of a `std::wstring` have four bytes, and the two functions count two.
-/

/-- The bytes of the characters, as they lie in memory. -/
def wcharBytes (ws : List UInt32) : List UInt8 := ws.flatMap fun char => leBytes 4 char.toNat

/-- `push_varwstring32(ws)`. -/
def Pack.pushVarwstring32 (p : Pack) (ws : List UInt32) : Except PackError Pack :=
  let len := ws.length * 2
  (p.pushUint32 (UInt32.ofNat len)).bind fun q => q.push ((wcharBytes ws).take len)

/-- The memory from the cursor on: what is not consumed, and then whatever lies behind. -/
def Unpack.memoryFrom (up : Unpack) (behind : Nat → UInt8) (address : Nat) : UInt8 :=
  (up[address]?).getD (behind (address - up.length))

/-- `count` characters, read where `memory` begins. -/
def wcharsAt (memory : Nat → UInt8) (count : Nat) : List UInt32 :=
  (List.range count).map fun k =>
    UInt32.ofNat
      (leNat [memory (4 * k), memory (4 * k + 1), memory (4 * k + 2), memory (4 * k + 3)])

/-- `pop_varwstring32()`: the string is constructed from a pointer and a number of characters. -/
def Unpack.popVarwstring32 (up : Unpack) (behind : Nat → UInt8) :
    Except UnpackError (List UInt32 × Unpack) :=
  up.popUint32.bind fun (size, rest) =>
    (rest.popFetchPtr size.toNat).bind fun (_, left) =>
      .ok (wcharsAt (rest.memoryFrom behind) (size.toNat / 2), left)

theorem length_wcharBytes (ws : List UInt32) : (wcharBytes ws).length = 4 * ws.length := by
  induction ws with
  | nil => rfl
  | cons char ws ih =>
      rw [wcharBytes, List.flatMap_cons, List.length_append, length_leBytes, ← wcharBytes, ih,
        List.length_cons]
      omega

theorem wcharBytes_injective : Function.Injective wcharBytes := by
  intro first second hbytes
  induction first generalizing second with
  | nil =>
      have hlength := congrArg List.length hbytes
      rw [length_wcharBytes, length_wcharBytes, List.length_nil] at hlength
      exact (List.length_eq_zero_iff.mp (by omega)).symm
  | cons char first ih =>
      cases second with
      | nil => simp [wcharBytes, leBytes] at hbytes
      | cons other second =>
          rw [wcharBytes, wcharBytes, List.flatMap_cons, List.flatMap_cons] at hbytes
          obtain ⟨hchar, hrest⟩ := List.append_inj hbytes (by simp)
          have hnumber := congrArg leNat hchar
          rw [leNat_leBytes char.toNat_lt, leNat_leBytes other.toNat_lt] at hnumber
          rw [UInt32.toNat_inj.mp hnumber, ih hrest]

/-- The characters that were read are those whose bytes are there. -/
theorem wcharBytes_wcharsAt (memory : Nat → UInt8) (count : Nat) :
    wcharBytes (wcharsAt memory count) = (List.range (4 * count)).map memory := by
  induction count with
  | zero => rfl
  | succ count ih =>
      have hchars : wcharsAt memory (count + 1) = wcharsAt memory count ++
          [UInt32.ofNat (leNat [memory (4 * count), memory (4 * count + 1), memory (4 * count + 2),
            memory (4 * count + 3)])] := by
        simp only [wcharsAt, List.range_succ, List.map_append, List.map_cons, List.map_nil]
      have hrange : List.range (4 * (count + 1)) =
          List.range (4 * count) ++
            [4 * count, 4 * count + 1, 4 * count + 2, 4 * count + 3] := by
        rw [show 4 * (count + 1) = 4 * count + 1 + 1 + 1 + 1 by omega]
        simp only [List.range_succ, List.append_assoc, List.cons_append, List.nil_append]
      have hchar : leBytes 4 (UInt32.ofNat (leNat [memory (4 * count), memory (4 * count + 1),
          memory (4 * count + 2), memory (4 * count + 3)])).toNat =
          [memory (4 * count), memory (4 * count + 1), memory (4 * count + 2),
            memory (4 * count + 3)] := by
        have hnumber := leNat_lt [memory (4 * count), memory (4 * count + 1),
          memory (4 * count + 2), memory (4 * count + 3)]
        rw [UInt32.toNat_ofNat_of_lt' (hnumber.trans_eq (by simp))]
        exact leBytes_leNat [memory (4 * count), memory (4 * count + 1),
          memory (4 * count + 2), memory (4 * count + 3)]
      rw [hchars, wcharBytes, List.flatMap_append, ← wcharBytes, ih, hrange, List.map_append,
        List.flatMap_singleton, hchar]
      rfl

/-- Bytes in front of the rest are read first. -/
theorem Unpack.map_memoryFrom_append (bytes rest : List UInt8) (behind : Nat → UInt8)
    (count : Nat) :
    (List.range (bytes.length + count)).map (memoryFrom (bytes ++ rest) behind) =
      bytes ++ (List.range count).map (memoryFrom rest behind) := by
  have hbytes : (List.range bytes.length).map (memoryFrom (bytes ++ rest) behind) = bytes := by
    refine List.ext_getElem (by simp) fun i hi hi' => ?_
    simp [memoryFrom, List.getElem?_append_left hi', List.getElem?_eq_getElem hi']
  rw [List.range_add, List.map_append, List.map_map, hbytes]
  congr 2
  funext i
  have hbehind : bytes.length + i - (bytes ++ rest).length = i - rest.length := by
    rw [List.length_append, Nat.add_sub_add_left]
  simp only [Function.comp_apply, memoryFrom, hbehind]
  rw [List.getElem?_append_right (Nat.le_add_right _ _), Nat.add_sub_cancel_left]

theorem Pack.pushVarwstring32_ok {p q : Pack} {ws : List UInt32}
    (hpush : p.pushVarwstring32 ws = .ok q) :
    ws.length * 2 < 2 ^ 32 ∧
      Wrote p q (leBytes 4 (ws.length * 2) ++ (wcharBytes ws).take (ws.length * 2)) := by
  obtain ⟨middle, hcount, hbody⟩ := Pack.bind_ok hpush
  have hfirst := Pack.push_ok hcount
  have hsecond := Pack.push_ok hbody
  have hsmall : ws.length * 2 < 2 ^ 32 := by
    have hlength := hsecond.length_le
    rw [List.length_take, length_wcharBytes] at hlength
    omega
  rw [Pack.xhton, UInt32.toNat_ofNat_of_lt' hsmall] at hfirst
  exact ⟨hsmall, hfirst.trans hsecond⟩

/-- The bytes of the characters that were not written. -/
def unwritten (ws : List UInt32) : List UInt8 := (wcharBytes ws).drop (ws.length * 2)

/-- A wide string comes back exactly when what follows the bytes that were written are the
bytes that were not. -/
theorem popVarwstring32_iff (p q : Pack) (ws : List UInt32) (rest : List UInt8)
    (behind : Nat → UInt8) (hpush : p.pushVarwstring32 ws = .ok q) :
    Unpack.popVarwstring32 (q.data.drop p.size ++ rest) behind = .ok (ws, rest) ↔
      (List.range (ws.length * 2)).map (Unpack.memoryFrom rest behind) = unwritten ws := by
  obtain ⟨hsmall, hwrote⟩ := Pack.pushVarwstring32_ok hpush
  have hwritten : ((wcharBytes ws).take (ws.length * 2)).length = ws.length * 2 := by
    rw [List.length_take, length_wcharBytes]
    omega
  have hpop : Unpack.popVarwstring32 (q.data.drop p.size ++ rest) behind =
      .ok (wcharsAt (Unpack.memoryFrom ((wcharBytes ws).take (ws.length * 2) ++ rest) behind)
        ws.length, rest) := by
    have hfetch := Unpack.popFetchPtr_append ((wcharBytes ws).take (ws.length * 2)) rest
    rw [hwritten] at hfetch
    rw [hwrote.drop, Unpack.popVarwstring32, List.append_assoc, Unpack.popUint32_leBytes hsmall]
    simp only [Except.bind]
    rw [UInt32.toNat_ofNat_of_lt' hsmall, hfetch, Nat.mul_div_cancel _ Nat.two_pos]
  -- four bytes are read for each character, of which two were written
  have hmemory : (List.range (4 * ws.length)).map
      (Unpack.memoryFrom ((wcharBytes ws).take (ws.length * 2) ++ rest) behind) =
      (wcharBytes ws).take (ws.length * 2) ++
        (List.range (ws.length * 2)).map (Unpack.memoryFrom rest behind) := by
    rw [← Unpack.map_memoryFrom_append, hwritten]
    congr 2
    omega
  rw [hpop]
  simp only [Except.ok.injEq, Prod.mk.injEq, and_true]
  rw [← wcharBytes_injective.eq_iff, wcharBytes_wcharsAt, hmemory, unwritten]
  constructor
  · intro hall
    have hdrop := congrArg (List.drop (ws.length * 2)) hall
    rwa [List.drop_left' hwritten] at hdrop
  · intro hrest
    rw [hrest, List.take_append_drop]

/-- The empty string, in front of a byte. -/
theorem popVarwstring32_iff_empty :
    ∃ p q, Pack.new (.init fun _ => some fun _ => 0) 0 = .ok p ∧ p.pushVarwstring32 [] = .ok q ∧
      Unpack.popVarwstring32 (q.data.drop p.size ++ [5]) (fun _ => 0) = .ok ([], [5]) := by
  obtain ⟨p, q, hnew, hpush⟩ : ∃ p q, Pack.new (.init fun _ => some fun _ => 0) 0 = .ok p ∧
      p.pushVarwstring32 [] = .ok q := ⟨_, _, rfl, rfl⟩
  exact ⟨p, q, hnew, hpush, (popVarwstring32_iff p q [] [5] (fun _ => 0) hpush).mpr rfl⟩

/-- Of the letter `A`, the two low bytes are written. -/
theorem letter_not_restored :
    ∃ p q, Pack.new (.init fun _ => some fun _ => 0) 0 = .ok p ∧ p.pushVarwstring32 [65] = .ok q ∧
      Unpack.popVarwstring32 (q.data.drop p.size ++ [7, 7]) (fun _ => 0) ≠ .ok ([65], [7, 7]) := by
  obtain ⟨p, q, hnew, hpush⟩ : ∃ p q, Pack.new (.init fun _ => some fun _ => 0) 0 = .ok p ∧
      p.pushVarwstring32 [65] = .ok q := ⟨_, _, rfl, rfl⟩
  refine ⟨p, q, hnew, hpush, ?_⟩
  have hread : Unpack.popVarwstring32 (q.data.drop p.size ++ [7, 7]) (fun _ => 0) =
      .ok ([0x07070041], [7, 7]) := by
    rw [(Pack.pushVarwstring32_ok hpush).2.drop]
    rfl
  rw [hread]
  intro hsame
  have hchar := congrArg Prod.fst (Except.ok.inj hsame)
  exact absurd hchar (by decide)

end ServiceFrame
