import ServiceFrame.Foundation.Blocks
import ServiceFrame.Foundation.Bytes
import Mathlib.Algebra.Group.Nat.Defs
import Mathlib.Data.List.Induction

/-! # The MD5 hash

The class `md5` of `server_common/common/md5.cpp`. It takes its text in pieces, in blocks of 64
bytes, counts the bits of it in two words, and ends it with a padding.
-/

namespace ServiceFrame

open Foundation

/-- The text that is taken in: `buf`, `bits` and `in`. -/
structure Md5 where
  buf : UInt32 × UInt32 × UInt32 × UInt32
  bits : UInt32 × UInt32
  input : List UInt8

namespace Md5

/-! ## The words of a block -/

/-- A word of `reverse`. -/
def word (b0 b1 b2 b3 : UInt8) : UInt32 :=
  (b3.toUInt32 <<< 8 ||| b2.toUInt32) <<< 16 ||| (b1.toUInt32 <<< 8 ||| b0.toUInt32)

/-- What is in the memory after `reverse`, as words. -/
def reverse : List UInt8 → List UInt32
  | b0 :: b1 :: b2 :: b3 :: str => word b0 b1 b2 b3 :: reverse str
  | _ => []

def F1 (x y z : UInt32) : UInt32 := z ^^^ (x &&& (y ^^^ z))
def F2 (x y z : UInt32) : UInt32 := F1 z x y
def F3 (x y z : UInt32) : UInt32 := x ^^^ y ^^^ z
def F4 (x y z : UInt32) : UInt32 := y ^^^ (x ||| ~~~z)

/-- `MD5STEP`. The words change their places, as they do from each line of `transform` to the
next. -/
def MD5STEP (f : UInt32 → UInt32 → UInt32 → UInt32) :
    UInt32 × UInt32 × UInt32 × UInt32 → UInt32 → UInt32 → UInt32 × UInt32 × UInt32 × UInt32
  | (w, x, y, z), d, s =>
      let w := w + (f x y z + d)
      let w := w <<< s ||| w >>> (32 - s)
      (z, w + x, x, y)

/-- The lines of `transform`: the word of the block, the number added to it, and the shift. -/
def roundF1 : List (Nat × UInt32 × UInt32) :=
  [(0, 0xd76aa478, 7), (1, 0xe8c7b756, 12), (2, 0x242070db, 17), (3, 0xc1bdceee, 22),
    (4, 0xf57c0faf, 7), (5, 0x4787c62a, 12), (6, 0xa8304613, 17), (7, 0xfd469501, 22),
    (8, 0x698098d8, 7), (9, 0x8b44f7af, 12), (10, 0xffff5bb1, 17), (11, 0x895cd7be, 22),
    (12, 0x6b901122, 7), (13, 0xfd987193, 12), (14, 0xa679438e, 17), (15, 0x49b40821, 22)]

def roundF2 : List (Nat × UInt32 × UInt32) :=
  [(1, 0xf61e2562, 5), (6, 0xc040b340, 9), (11, 0x265e5a51, 14), (0, 0xe9b6c7aa, 20),
    (5, 0xd62f105d, 5), (10, 0x02441453, 9), (15, 0xd8a1e681, 14), (4, 0xe7d3fbc8, 20),
    (9, 0x21e1cde6, 5), (14, 0xc33707d6, 9), (3, 0xf4d50d87, 14), (8, 0x455a14ed, 20),
    (13, 0xa9e3e905, 5), (2, 0xfcefa3f8, 9), (7, 0x676f02d9, 14), (12, 0x8d2a4c8a, 20)]

def roundF3 : List (Nat × UInt32 × UInt32) :=
  [(5, 0xfffa3942, 4), (8, 0x8771f681, 11), (11, 0x6d9d6122, 16), (14, 0xfde5380c, 23),
    (1, 0xa4beea44, 4), (4, 0x4bdecfa9, 11), (7, 0xf6bb4b60, 16), (10, 0xbebfbc70, 23),
    (13, 0x289b7ec6, 4), (0, 0xeaa127fa, 11), (3, 0xd4ef3085, 16), (6, 0x04881d05, 23),
    (9, 0xd9d4d039, 4), (12, 0xe6db99e5, 11), (15, 0x1fa27cf8, 16), (2, 0xc4ac5665, 23)]

def roundF4 : List (Nat × UInt32 × UInt32) :=
  [(0, 0xf4292244, 6), (7, 0x432aff97, 10), (14, 0xab9423a7, 15), (5, 0xfc93a039, 21),
    (12, 0x655b59c3, 6), (3, 0x8f0ccc92, 10), (10, 0xffeff47d, 15), (1, 0x85845dd1, 21),
    (8, 0x6fa87e4f, 6), (15, 0xfe2ce6e0, 10), (6, 0xa3014314, 15), (13, 0x4e0811a1, 21),
    (4, 0xf7537e82, 6), (11, 0xbd3af235, 10), (2, 0x2ad7d2bb, 15), (9, 0xeb86d391, 21)]

def lines (f : UInt32 → UInt32 → UInt32 → UInt32) (sin : List UInt32)
    (round : List (Nat × UInt32 × UInt32)) (words : UInt32 × UInt32 × UInt32 × UInt32) :
    UInt32 × UInt32 × UInt32 × UInt32 :=
  round.foldl (fun words line => MD5STEP f words (sin.getD line.1 0 + line.2.1) line.2.2) words

def transform (str : UInt32 × UInt32 × UInt32 × UInt32) (sin : List UInt32) :
    UInt32 × UInt32 × UInt32 × UInt32 :=
  let (a, b, c, d) := lines F4 sin roundF4 (lines F3 sin roundF3 (lines F2 sin roundF2
    (lines F1 sin roundF1 str)))
  (str.1 + a, str.2.1 + b, str.2.2.1 + c, str.2.2.2 + d)

/-! ## The pieces of a text -/

/-- `init`, which leaves `in` as it is. -/
def init (m : Md5) : Md5 :=
  { m with buf := (0x67452301, 0xefcdab89, 0x98badcfe, 0x10325476), bits := (0, 0) }

/-- A block that is moved to `in` and transformed. -/
def take (m : Md5) (block : List UInt8) : Md5 :=
  let input := overwrite m.input 0 block
  { m with input, buf := transform m.buf (reverse input) }

/-- The loop over the blocks of a text, and the last `memmove`. -/
def takeBlocks (m : Md5) (str : List UInt8) : Md5 :=
  let (m, str) := absorb take 64 m str
  { m with input := overwrite m.input 0 str }

/-- `update` with a `string`, whose size becomes an `unsigned int`. -/
def update (m : Md5) (str : List UInt8) : Md5 :=
  let len := UInt32.ofNat str.length
  let str := str.take len.toNat
  let t := m.bits.1
  let low := t + len <<< 3
  let high := if low < t then m.bits.2 + 1 else m.bits.2
  let m := { m with bits := (low, high + len >>> 29) }
  let t := ((t >>> 3) &&& 0x3f).toNat
  if t ≠ 0 then
    if len.toNat < 64 - t then { m with input := overwrite m.input t str }
    else
      let input := overwrite m.input t (str.take (64 - t))
      takeBlocks { m with input, buf := transform m.buf (reverse input) } (str.drop (64 - t))
  else takeBlocks m str

def final (m : Md5) : Md5 :=
  let count := ((m.bits.1 >>> 3) &&& 0x3f).toNat
  let input := overwrite m.input count [0x80]
  let p := count + 1
  let count := 64 - 1 - count
  let m :=
    if count < 8 then
      let input := overwrite input p (List.replicate count 0)
      { m with
        buf := transform m.buf (reverse input)
        input := overwrite input 0 (List.replicate 56 0) }
    else { m with input := overwrite input p (List.replicate (count - 8) 0) }
  -- the last two words of `in` are the bits
  let words := reverse (m.input.take 56) ++ [m.bits.1, m.bits.2]
  let input := overwrite m.input 56 (leBytes 4 m.bits.1.toNat ++ leBytes 4 m.bits.2.toNat)
  { m with input, buf := transform m.buf words }

/-- The bytes of `buf`, after the last `reverse` of `final`. -/
def bytes : UInt32 × UInt32 × UInt32 × UInt32 → List UInt8
  | (a, b, c, d) => leBytes 4 a.toNat ++ leBytes 4 b.toNat ++ leBytes 4 c.toNat ++ leBytes 4 d.toNat

def outBinary (m : Md5) : List UInt8 := bytes m.final.buf

def xChar (c : UInt8) : UInt8 := if c < 0x0a then '0'.toUInt8 + c else 'a'.toUInt8 - 10 + c

/-- The two digits of a byte. -/
def hex (c : UInt8) : List UInt8 := [xChar ((c &&& 0xf0) >>> 4), xChar (c &&& 0x0f)]

def out (m : Md5) : List UInt8 := m.outBinary.flatMap hex

def hash (m : Md5) (str : List UInt8) : List UInt8 := (m.init.update str).out

def hashBinary (m : Md5) (str : List UInt8) : List UInt8 := (m.init.update str).outBinary

/-- `d_value`; the `-1` is not reached, by the digits of a hash. -/
def dValue (c : UInt8) : UInt64 :=
  if c ≤ '9'.toUInt8 ∧ '0'.toUInt8 ≤ c then (c - '0'.toUInt8).toUInt64
  else if 'a'.toUInt8 ≤ c ∧ c ≤ 'f'.toUInt8 then (c - 'a'.toUInt8 + 10).toUInt64
  else if 'A'.toUInt8 ≤ c ∧ c ≤ 'F'.toUInt8 then (c - 'A'.toUInt8 + 10).toUInt64
  else -1

/-- The loop of `hash64` and `hash32`. -/
def digits (h : List UInt8) : UInt64 := h.foldl (fun r c => r <<< 4 + dValue c) 0

def hash64 (m : Md5) (str : List UInt8) : UInt64 := digits (((m.hash str).drop 8).take 16)

/-- Eight digits fit into the `uint32_t` of its loop. -/
def hash32 (m : Md5) (str : List UInt8) : UInt32 := (digits (((m.hash str).drop 8).take 8)).toUInt32

-- the hash of "abc"
example : (Md5.mk (0, 0, 0, 0) (0, 0) (List.replicate 64 0)).hash32 [0x61, 0x62, 0x63] =
    0x3cd24fb0 := by
  decide +kernel

/-! ## The hash of a text -/

def start : UInt32 × UInt32 × UInt32 × UInt32 := (0x67452301, 0xefcdab89, 0x98badcfe, 0x10325476)

def compress (words : UInt32 × UInt32 × UInt32 × UInt32) (block : List UInt8) :
    UInt32 × UInt32 × UInt32 × UInt32 :=
  transform words (reverse block)

/-- The end of a text of this size: a bit, zeros and the number of its bits, up to the end of a
block. -/
def padding (size : Nat) : List UInt8 :=
  0x80 :: List.replicate ((119 - size % 64) % 64) 0 ++ leBytes 8 (8 * size)

def digest (message : List UInt8) : List UInt8 :=
  bytes (absorb compress 64 start (message ++ padding message.length)).1

/-- The words are made from the whole blocks, and what waits is in `in`. -/
structure Holds (m : Md5) (taken : (UInt32 × UInt32 × UInt32 × UInt32) × List UInt8) : Prop where
  input : m.input.length = 64
  buf : m.buf = taken.1
  rest : m.input.take taken.2.length = taken.2

/-- The object has taken in this text. -/
structure Took (m : Md5) (message : List UInt8) : Prop where
  holds : m.Holds (absorb compress 64 start message)
  bits : m.bits.1.toNat + 2 ^ 32 * m.bits.2.toNat = 8 * message.length % 2 ^ 64

variable {m : Md5} {message piece : List UInt8}

/-! ## What the steps take in -/

theorem reverse_append {front : List UInt8} (rest : List UInt8) (hfront : 4 ∣ front.length) :
    reverse (front ++ rest) = reverse front ++ reverse rest := by
  induction front using reverse.induct with
  | case1 b0 b1 b2 b3 front ih =>
      simp only [List.cons_append, reverse]
      rw [ih (by simp only [List.length_cons] at hfront; omega)]
  | case2 front hshort =>
      match front, hshort with
      | [], _ => rfl
      | [_], _ => simp at hfront
      | [_, _], _ => simp at hfront
      | [_, _, _], _ => simp at hfront
      | b0 :: b1 :: b2 :: b3 :: str, hshort => exact (hshort b0 b1 b2 b3 str rfl).elim

/-- Bits that are put behind others. -/
theorem toNat_shiftLeft_or (high low shift : UInt32) (hshift : shift.toNat < 32)
    (hfit : high.toNat * 2 ^ shift.toNat < 2 ^ 32) (hlow : low.toNat < 2 ^ shift.toNat) :
    (high <<< shift ||| low).toNat = high.toNat * 2 ^ shift.toNat + low.toNat := by
  rw [UInt32.toNat_or, UInt32.toNat_shiftLeft, Nat.mod_eq_of_lt hshift, Nat.shiftLeft_eq,
    Nat.mod_eq_of_lt hfit, ← Nat.shiftLeft_eq, ← Nat.shiftLeft_add_eq_or_of_lt hlow]

theorem toNat_word (b0 b1 b2 b3 : UInt8) : (word b0 b1 b2 b3).toNat = leNat [b0, b1, b2, b3] := by
  have h0 := b0.toNat_lt
  have h1 := b1.toNat_lt
  have h2 := b2.toNat_lt
  have h3 := b3.toNat_lt
  have hhigh : (b3.toUInt32 <<< 8 ||| b2.toUInt32).toNat = b3.toNat * 2 ^ 8 + b2.toNat :=
    toNat_shiftLeft_or _ _ 8 (by decide) (show b3.toNat * 2 ^ 8 < 2 ^ 32 by omega) h2
  have hlow : (b1.toUInt32 <<< 8 ||| b0.toUInt32).toNat = b1.toNat * 2 ^ 8 + b0.toNat :=
    toNat_shiftLeft_or _ _ 8 (by decide) (show b1.toNat * 2 ^ 8 < 2 ^ 32 by omega) h0
  have hboth := toNat_shiftLeft_or (b3.toUInt32 <<< 8 ||| b2.toUInt32)
    (b1.toUInt32 <<< 8 ||| b0.toUInt32) 16 (by decide)
    (by rw [hhigh]; change _ * 2 ^ 16 < _; omega) (by rw [hlow]; change _ < 2 ^ 16; omega)
  rw [word, hboth, hhigh, hlow]
  change (b3.toNat * 2 ^ 8 + b2.toNat) * 2 ^ 16 + (b1.toNat * 2 ^ 8 + b0.toNat) = _
  simp only [leNat]
  omega

/-- The bytes of a word are the word again. -/
theorem reverse_leBytes (value : UInt32) : reverse (leBytes 4 value.toNat) = [value] := by
  have hvalue : leNat (leBytes 4 value.toNat) = value.toNat :=
    leNat_leBytes (value.toNat_lt.trans_eq (by decide))
  simp only [leBytes] at hvalue ⊢
  rw [reverse, reverse, List.cons.injEq]
  · exact ⟨UInt32.toNat_inj.mp ((toNat_word _ _ _ _).trans hvalue), rfl⟩
  · rintro _ _ _ _ _ ⟨⟩

/-! ## What the steps take in -/

theorem take_spec (hinput : m.input.length = 64) {block : List UInt8} (hblock : block.length = 64) :
    (m.take block).input.length = 64 ∧ (m.take block).bits = m.bits ∧
      (m.take block).buf = compress m.buf block := by
  have hall : overwrite m.input 0 block = block := by
    rw [overwrite_zero, hblock, ← hinput, List.drop_length, List.append_nil]
  rw [take]
  dsimp only
  rw [hall]
  exact ⟨hblock, rfl, rfl⟩

theorem takeBlocks_spec (hinput : m.input.length = 64) (str : List UInt8) :
    (m.takeBlocks str).Holds (absorb compress 64 m.buf str) ∧ (m.takeBlocks str).bits = m.bits := by
  let good (inner : Md5) : Prop := inner.input.length = 64 ∧ inner.bits = m.bits
  have htake : ∀ (inner : Md5) (block : List UInt8), block.length = 64 → good inner →
      good (inner.take block) ∧ (inner.take block).buf = compress inner.buf block := by
    rintro inner block hblock ⟨hinput, hbits⟩
    obtain ⟨hlength, hkept, hbuf⟩ := take_spec hinput hblock
    exact ⟨⟨hlength, hkept.trans hbits⟩, hbuf⟩
  obtain ⟨⟨hinput, hbits⟩, hbuf, hrest⟩ := absorb_inside good Md5.buf (by decide) htake
    ⟨hinput, rfl⟩ str
  have hlength : (absorb compress 64 m.buf str).2.length = str.length % 64 :=
    length_absorb (by decide) m.buf str
  rw [takeBlocks]
  dsimp only
  refine ⟨⟨?_, hbuf, ?_⟩, hbits⟩
  · rw [length_overwrite, hinput]
    rw [hrest, hinput]
    omega
  · rw [hrest, overwrite_zero, List.take_left]

/-- The number of bits, in two words. -/
theorem bits_add (low high len : UInt32) :
    (low + len <<< 3).toNat + 2 ^ 32 *
        ((if low + len <<< 3 < low then high + 1 else high) + len >>> 29).toNat =
      (low.toNat + 2 ^ 32 * high.toNat + 8 * len.toNat) % 2 ^ 64 := by
  have hlow := low.toNat_lt
  have hlen := len.toNat_lt
  have hsum : (low + len <<< 3).toNat = (low.toNat + 8 * len.toNat) % 2 ^ 32 := by
    rw [UInt32.toNat_add, UInt32.toNat_shiftLeft, Nat.shiftLeft_eq]
    change (low.toNat + len.toNat * 2 ^ 3 % 2 ^ 32) % 2 ^ 32 = _
    omega
  have htop : (len >>> 29).toNat = len.toNat / 2 ^ 29 := by
    rw [UInt32.toNat_shiftRight, Nat.shiftRight_eq_div_pow]
    rfl
  rw [UInt32.toNat_add _ (len >>> 29), htop]
  split
  next hless =>
    rw [UInt32.lt_iff_toNat_lt, hsum] at hless
    rw [hsum, UInt32.toNat_add]
    change _ + 2 ^ 32 * (((high.toNat + 1) % 2 ^ 32 + _) % 2 ^ 32) = _
    omega
  next hmore =>
    rw [UInt32.lt_iff_toNat_lt, hsum] at hmore
    rw [hsum]
    omega

/-- How much of a block is in `in`. -/
theorem waiting (hbits : m.bits.1.toNat + 2 ^ 32 * m.bits.2.toNat = 8 * message.length % 2 ^ 64) :
    ((m.bits.1 >>> 3) &&& 0x3f).toNat = message.length % 64 := by
  rw [UInt32.toNat_and, UInt32.toNat_shiftRight, Nat.shiftRight_eq_div_pow]
  change (m.bits.1.toNat / 2 ^ 3) &&& (2 ^ 6 - 1) = _
  rw [Nat.and_two_pow_sub_one_eq_mod]
  omega

theorem took_init (hinput : m.input.length = 64) : m.init.Took [] := by
  have hnothing : absorb compress 64 start [] = (start, []) := absorb_short start (by decide)
  refine ⟨?_, rfl⟩
  rw [hnothing]
  exact ⟨hinput, rfl, rfl⟩

/-- A piece is taken in behind what waits. -/
theorem update_spec {rest : List UInt8} (hinput : m.input.length = 64)
    (hrest : m.input.take rest.length = rest) (hshort : rest.length < 64)
    (hwaits : ((m.bits.1 >>> 3) &&& 0x3f).toNat = rest.length) (hpiece : piece.length < 2 ^ 32) :
    (m.update piece).Holds (absorb compress 64 m.buf (rest ++ piece)) ∧
      (m.update piece).bits.1.toNat + 2 ^ 32 * (m.update piece).bits.2.toNat =
        (m.bits.1.toNat + 2 ^ 32 * m.bits.2.toNat + 8 * piece.length) % 2 ^ 64 := by
  have hlen : (UInt32.ofNat piece.length).toNat = piece.length := by
    rw [UInt32.toNat_ofNat', Nat.mod_eq_of_lt hpiece]
  have hadded := bits_add m.bits.1 m.bits.2 (UInt32.ofNat piece.length)
  rw [hlen] at hadded
  rw [update]
  dsimp only
  rw [hlen, List.take_of_length_le (Nat.le_refl piece.length), hwaits]
  split
  next hsome =>
    split
    next hless =>
      refine ⟨⟨?_, ?_, ?_⟩, hadded⟩
      · rw [length_overwrite, hinput]
        rw [hinput]
        omega
      · rw [absorb_short]
        rw [List.length_append]
        omega
      · rw [absorb_short, List.length_append, take_overwrite_end piece, hrest]
        · rw [hinput]
          omega
        · rw [List.length_append]
          omega
    next hmore =>
      have hfill : (rest ++ piece.take (64 - rest.length)).length = 64 := by
        rw [List.length_append, List.length_take]
        omega
      have hblock : overwrite m.input rest.length (piece.take (64 - rest.length)) =
          rest ++ piece.take (64 - rest.length) := by
        rw [overwrite, hrest, List.drop_of_length_le, List.append_nil]
        rw [← List.length_append, hfill, hinput]
      have hwhole : absorb compress 64 m.buf (rest ++ piece) =
          absorb compress 64 (compress m.buf (rest ++ piece.take (64 - rest.length)))
            (piece.drop (64 - rest.length)) := by
        rw [← absorb_block (by decide) m.buf hfill, List.append_assoc, List.take_append_drop]
      rw [hblock, hwhole]
      refine And.imp id (fun hkept => ?_) (takeBlocks_spec hfill _)
      rw [hkept]
      exact hadded
  next hnone =>
    rw [not_not, List.length_eq_zero_iff] at hnone
    subst hnone
    refine And.imp id (fun hkept => ?_) (takeBlocks_spec ?_ _)
    · rw [hkept]
      exact hadded
    · exact hinput

/-- What waits is less than a block, and its size is in the low word of the bits. -/
theorem Took.waits (htook : m.Took message) :
    ((m.bits.1 >>> 3) &&& 0x3f).toNat = (absorb compress 64 start message).2.length ∧
      (absorb compress 64 start message).2.length < 64 := by
  have hlength : (absorb compress 64 start message).2.length = message.length % 64 :=
    length_absorb (by decide) start message
  exact ⟨(waiting htook.bits).trans hlength.symm, hlength.trans_lt (Nat.mod_lt _ (by decide))⟩

theorem Took.update (htook : m.Took message) (hpiece : piece.length < 2 ^ 32) :
    (m.update piece).Took (message ++ piece) := by
  obtain ⟨hwaits, hshort⟩ := htook.waits
  obtain ⟨⟨hinput, hbuf, hrest⟩, hbits⟩ := htook
  obtain ⟨hholds, hadded⟩ := update_spec hinput hrest hshort hwaits hpiece
  rw [hbuf, ← absorb_append (by decide)] at hholds
  refine ⟨hholds, ?_⟩
  rw [hadded, hbits, List.length_append]
  omega

/-- The words of the last block. -/
theorem reverse_words {front : List UInt8} (hfront : front.length = 56) (low high : UInt32) :
    reverse front ++ [low, high] =
      reverse (front ++ (leBytes 4 low.toNat ++ leBytes 4 high.toNat)) := by
  have hdvd : 4 ∣ front.length := ⟨14, hfront⟩
  have hword : 4 ∣ (leBytes 4 low.toNat).length := by rw [length_leBytes]
  rw [reverse_append _ hdvd, reverse_append _ hword, reverse_leBytes, reverse_leBytes]
  rfl

/-- The bit and the zeros, behind what waits. -/
theorem overwrite_padding {input rest : List UInt8} (hrest : input.take rest.length = rest)
    (size : Nat) :
    overwrite (overwrite input rest.length [0x80]) (rest.length + 1) (List.replicate size 0) =
      rest ++ [0x80] ++ List.replicate size 0 ++ input.drop (rest.length + 1 + size) := by
  have hsplit : input = rest ++ input.drop rest.length := by
    conv_lhs => rw [← List.take_append_drop rest.length input, hrest]
  have hbit : overwrite input rest.length [0x80] =
      rest ++ [0x80] ++ input.drop (rest.length + 1) := by
    conv_lhs => rw [hsplit]
    rw [overwrite_append [0x80] rfl, List.drop_drop]
    rfl
  rw [hbit, overwrite_append _ (by simp), List.drop_drop, List.length_replicate]

/-- The padding goes into the block that waits, or into that and another one. -/
theorem final_spec {rest : List UInt8} (hinput : m.input.length = 64)
    (hrest : m.input.take rest.length = rest) (hshort : rest.length < 64)
    (hwaits : ((m.bits.1 >>> 3) &&& 0x3f).toNat = rest.length) :
    m.final.buf = (absorb compress 64 m.buf (rest ++ (0x80 ::
      List.replicate ((119 - rest.length) % 64) 0 ++
        (leBytes 4 m.bits.1.toNat ++ leBytes 4 m.bits.2.toNat)))).1 := by
  rw [final]
  dsimp only
  rw [hwaits]
  split
  next hfull =>
    have hzeros : (119 - rest.length) % 64 = 64 - 1 - rest.length + 56 := by omega
    have hfront : (rest ++ [0x80] ++ List.replicate (64 - 1 - rest.length) 0).length = 64 := by
      simp only [List.length_append, List.length_replicate, List.length_singleton]
      omega
    have hlast : (List.replicate 56 (0 : UInt8) ++
        (leBytes 4 m.bits.1.toNat ++ leBytes 4 m.bits.2.toNat)).length = 64 := by
      simp only [List.length_append, List.length_replicate, length_leBytes]
    have hblocks : rest ++ (0x80 :: List.replicate ((119 - rest.length) % 64) 0 ++
          (leBytes 4 m.bits.1.toNat ++ leBytes 4 m.bits.2.toNat)) =
        (rest ++ [0x80] ++ List.replicate (64 - 1 - rest.length) 0) ++ (List.replicate 56 0 ++
          (leBytes 4 m.bits.1.toNat ++ leBytes 4 m.bits.2.toNat)) := by
      rw [hzeros, List.replicate_add]
      simp only [List.append_assoc, List.cons_append, List.nil_append]
    rw [overwrite_padding hrest, List.drop_of_length_le (by omega), List.append_nil, overwrite_zero,
      List.take_left' List.length_replicate, reverse_words List.length_replicate, hblocks,
      absorb_block (by decide) _ hfront, absorb_whole (by decide) _ hlast, compress, compress]
  next hfits =>
    have hzeros : (119 - rest.length) % 64 = 64 - 1 - rest.length - 8 := by omega
    have hfront : (rest ++ [0x80] ++ List.replicate (64 - 1 - rest.length - 8) 0).length =
        56 := by
      simp only [List.length_append, List.length_replicate, List.length_singleton]
      omega
    have hblock : (rest ++ [0x80] ++ List.replicate (64 - 1 - rest.length - 8) 0 ++
        (leBytes 4 m.bits.1.toNat ++ leBytes 4 m.bits.2.toNat)).length = 64 := by
      rw [List.length_append, hfront, List.length_append, length_leBytes, length_leBytes]
    have hblocks : rest ++ (0x80 :: List.replicate ((119 - rest.length) % 64) 0 ++
          (leBytes 4 m.bits.1.toNat ++ leBytes 4 m.bits.2.toNat)) =
        rest ++ [0x80] ++ List.replicate (64 - 1 - rest.length - 8) 0 ++
          (leBytes 4 m.bits.1.toNat ++ leBytes 4 m.bits.2.toNat) := by
      rw [hzeros]
      simp only [List.append_assoc, List.cons_append, List.nil_append]
    rw [overwrite_padding hrest, List.take_left' hfront, reverse_words hfront, hblocks,
      absorb_whole (by decide) _ hblock, compress]

theorem Took.outBinary (htook : m.Took message) : m.outBinary = digest message := by
  obtain ⟨hwaits, hshort⟩ := htook.waits
  obtain ⟨⟨hinput, hbuf, hrest⟩, hbits⟩ := htook
  have hlength : (absorb compress 64 start message).2.length = message.length % 64 :=
    length_absorb (by decide) start message
  have hsize : leBytes 8 (8 * message.length) =
      leBytes 4 m.bits.1.toNat ++ leBytes 4 m.bits.2.toNat := by
    have hlow := m.bits.1.toNat_lt
    have hhigh := m.bits.2.toNat_lt
    have hmod : 8 * message.length % 256 ^ 4 = m.bits.1.toNat := by omega
    have hdiv : 8 * message.length / 256 ^ 4 % 256 ^ 4 = m.bits.2.toNat := by omega
    rw [leBytes_add 4 4, ← leBytes_mod 4 (8 * message.length), hmod,
      ← leBytes_mod 4 (8 * message.length / 256 ^ 4), hdiv]
  rw [Md5.outBinary, final_spec hinput hrest hshort hwaits, digest,
    absorb_append (by decide) start message, ← hbuf, padding, hlength, hsize]

theorem Took.updates (htook : m.Took message) {pieces : List (List UInt8)}
    (hpieces : ∀ piece ∈ pieces, piece.length < 2 ^ 32) :
    (pieces.foldl Md5.update m).Took (message ++ pieces.flatten) := by
  induction pieces generalizing m message with
  | nil =>
      rw [List.flatten_nil, List.append_nil]
      exact htook
  | cons first rest ih =>
      obtain ⟨hfirst, hrest⟩ := List.forall_mem_cons.mp hpieces
      rw [List.foldl_cons, List.flatten_cons, ← List.append_assoc]
      exact ih (htook.update hfirst) hrest

/-- However a text is cut, and whatever the object did before, its hash is that of the whole text
with the padding. -/
theorem outBinary_updates (m : Md5) (hinput : m.input.length = 64) (pieces : List (List UInt8))
    (hpieces : ∀ piece ∈ pieces, piece.length < 2 ^ 32) :
    (pieces.foldl update m.init).outBinary = digest pieces.flatten := by
  have htook := (took_init hinput).updates hpieces
  rw [List.nil_append] at htook
  exact htook.outBinary

theorem outBinary_updates_abc :
    ([[0x61], [], [0x62, 0x63]].foldl update
        (init ⟨(0, 0, 0, 0), (0, 0), List.replicate 64 0⟩)).outBinary =
      digest [0x61, 0x62, 0x63] :=
  outBinary_updates ⟨(0, 0, 0, 0), (0, 0), List.replicate 64 0⟩ rfl [[0x61], [], [0x62, 0x63]]
    (by decide)

/-! ## The numbers of a hash -/

/-- The number that the bytes are, the highest first. -/
def number (bytes : List UInt8) : Nat :=
  bytes.foldl (fun value byte => 256 * value + byte.toNat) 0

theorem digits_hex (c : UInt8) :
    (dValue (xChar ((c &&& 0xf0) >>> 4))).toNat = c.toNat / 16 ∧
      (dValue (xChar (c &&& 0x0f))).toNat = c.toNat % 16 := by
  have hall : ∀ value < 256, (dValue (xChar ((UInt8.ofNat value &&& 0xf0) >>> 4))).toNat =
      value / 16 ∧ (dValue (xChar (UInt8.ofNat value &&& 0x0f))).toNat = value % 16 := by
    decide +kernel
  have hc := hall c.toNat c.toNat_lt
  rwa [UInt8.ofNat_toNat] at hc

theorem drop_hex (count : Nat) (bytes : List UInt8) :
    (bytes.flatMap hex).drop (2 * count) = (bytes.drop count).flatMap hex := by
  induction count generalizing bytes with
  | zero => rfl
  | succ count ih =>
      cases bytes with
      | nil => simp
      | cons first rest => exact ih rest

theorem take_hex (count : Nat) (bytes : List UInt8) :
    (bytes.flatMap hex).take (2 * count) = (bytes.take count).flatMap hex := by
  induction count generalizing bytes with
  | zero => rfl
  | succ count ih =>
      cases bytes with
      | nil => simp
      | cons first rest =>
          exact congrArg (fun tail => _ :: _ :: tail) (ih rest)

/-- A digit more is put behind a number. -/
theorem digit_step {r d : UInt64} {value digit : Nat} (hr : r.toNat = value % 2 ^ 64)
    (hd : d.toNat = digit) : (r <<< 4 + d).toNat = (16 * value + digit) % 2 ^ 64 := by
  rw [UInt64.toNat_add, UInt64.toNat_shiftLeft, Nat.shiftLeft_eq, hr, hd]
  change (value % 2 ^ 64 * 2 ^ 4 % 2 ^ 64 + digit) % 2 ^ 64 = _
  omega

theorem toNat_digits (bytes : List UInt8) :
    (digits (bytes.flatMap hex)).toNat = number bytes % 2 ^ 64 := by
  suffices hfold : ∀ (bytes : List UInt8) (r : UInt64) (value : Nat), r.toNat = value % 2 ^ 64 →
      ((bytes.flatMap hex).foldl (fun (r : UInt64) c => r <<< 4 + dValue c) r).toNat =
        bytes.foldl (fun value byte => 256 * value + byte.toNat) value % 2 ^ 64 from
    hfold bytes 0 0 rfl
  intro bytes
  induction bytes with
  | nil => exact fun r value hr => hr
  | cons first rest ih =>
      intro r value hr
      obtain ⟨hhigh, hlow⟩ := digits_hex first
      have hfirst := digit_step (digit_step hr hhigh) hlow
      refine ih _ (256 * value + first.toNat) (hfirst.trans ?_)
      congr 1
      omega

theorem number_lt (bytes : List UInt8) : number bytes < 256 ^ bytes.length := by
  induction bytes using List.reverseRecOn with
  | nil => exact Nat.one_pos
  | append_singleton rest last ih =>
      have hlast := last.toNat_lt
      rw [number, List.foldl_append, List.length_append, Nat.pow_add]
      change 256 * number rest + last.toNat < 256 ^ rest.length * 256
      omega

/-- The numbers of a hash are the bytes of it behind the first four, the highest first. -/
theorem hash_numbers (m : Md5) (hinput : m.input.length = 64) (str : List UInt8)
    (hstr : str.length < 2 ^ 31) :
    (m.hash64 str).toNat = number (((digest str).drop 4).take 8) ∧
      (m.hash32 str).toNat = number (((digest str).drop 4).take 4) := by
  have hout : m.hash str = (digest str).flatMap hex := by
    have htook := (took_init hinput).update (show str.length < 2 ^ 32 by omega)
    rw [List.nil_append] at htook
    rw [hash, out, htook.outBinary]
  have hbound : ∀ (count : Nat) (bytes : List UInt8), number (bytes.take count) < 256 ^ count := by
    intro count bytes
    exact (number_lt _).trans_le (Nat.pow_le_pow_right (by decide) (List.length_take_le _ _))
  constructor
  · have height := hbound 8 ((digest str).drop 4)
    rw [hash64, hout, drop_hex 4, take_hex 8, toNat_digits, Nat.mod_eq_of_lt
      (height.trans_eq (by decide))]
  · have hfour := hbound 4 ((digest str).drop 4)
    rw [hash32, hout, drop_hex 4, take_hex 4, UInt64.toNat_toUInt32, toNat_digits]
    omega

theorem hash_numbers_abc :
    (hash64 ⟨(0, 0, 0, 0), (0, 0), List.replicate 64 0⟩ [0x61, 0x62, 0x63]).toNat =
        number (((digest [0x61, 0x62, 0x63]).drop 4).take 8) ∧
      (hash32 ⟨(0, 0, 0, 0), (0, 0), List.replicate 64 0⟩ [0x61, 0x62, 0x63]).toNat =
        number (((digest [0x61, 0x62, 0x63]).drop 4).take 4) :=
  hash_numbers ⟨(0, 0, 0, 0), (0, 0), List.replicate 64 0⟩ rfl [0x61, 0x62, 0x63] (by decide)

end Md5

end ServiceFrame
