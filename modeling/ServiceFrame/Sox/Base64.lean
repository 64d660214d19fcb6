import Mathlib.Data.List.DropRight
import Mathlib.Tactic.IntervalCases

/-! # Base64

The encoder and the decoder of `core/sox/helperb64.cpp`. The decoder takes texts with and without
the `=` at their end, and looks every byte up in a table of 128 entries.
-/

namespace ServiceFrame

namespace Base64

def enBase64 : List UInt8 :=
  "ABCDEFGHIJKLMNOPQRSTUVWXYZabcdefghijklmnopqrstuvwxyz0123456789+/".toList.map Char.toUInt8

def deBase64 : List UInt8 :=
  [0xFF, 0xFF, 0xFF, 0xFF, 0xFF, 0xFF, 0xFF, 0xFF, 0xFF, 0xFF, 0xFF, 0xFF, 0xFF, 0xFF, 0xFF, 0xFF,
   0xFF, 0xFF, 0xFF, 0xFF, 0xFF, 0xFF, 0xFF, 0xFF, 0xFF, 0xFF, 0xFF, 0xFF, 0xFF, 0xFF, 0xFF, 0xFF,
   0xFF, 0xFF, 0xFF, 0xFF, 0xFF, 0xFF, 0xFF, 0xFF, 0xFF, 0xFF, 0xFF, 0x3E, 0xFF, 0xFF, 0xFF, 0x3F,
   0x34, 0x35, 0x36, 0x37, 0x38, 0x39, 0x3A, 0x3B, 0x3C, 0x3D, 0xFF, 0xFF, 0xFF, 0xFF, 0xFF, 0xFF,
   0xFF, 0x00, 0x01, 0x02, 0x03, 0x04, 0x05, 0x06, 0x07, 0x08, 0x09, 0x0A, 0x0B, 0x0C, 0x0D, 0x0E,
   0x0F, 0x10, 0x11, 0x12, 0x13, 0x14, 0x15, 0x16, 0x17, 0x18, 0x19, 0xFF, 0xFF, 0xFF, 0xFF, 0xFF,
   0xFF, 0x1A, 0x1B, 0x1C, 0x1D, 0x1E, 0x1F, 0x20, 0x21, 0x22, 0x23, 0x24, 0x25, 0x26, 0x27, 0x28,
   0x29, 0x2A, 0x2B, 0x2C, 0x2D, 0x2E, 0x2F, 0x30, 0x31, 0x32, 0x33, 0xFF, 0xFF, 0xFF, 0xFF, 0xFF]

/-- `EnBase64[index]`. -/
def en (index : UInt64) : UInt8 := enBase64.getD index.toNat 0

/-- `DeBase64[index]`, where `behind` is the memory that the table ends at. -/
def de (behind : UInt8 → UInt8) (index : UInt8) : UInt64 :=
  (deBase64.getD index.toNat (behind index)).toUInt64

/-! ## The encoder -/

def encodeGroup (l m n : UInt64) : List UInt8 :=
  [en (l >>> 2), en (((l <<< 4) ||| (m >>> 4)) &&& 63), en (((m <<< 2) ||| (n >>> 6)) &&& 63),
    en (n &&& 63)]

/-- What `Base64Encode` writes. It returns how much that is. -/
def base64Encode : List UInt8 → List UInt8
  | [] => []
  | [l] => [en (l.toUInt64 >>> 2), en ((l.toUInt64 <<< 4) &&& 63), 61, 61]
  | [l, m] =>
      [en (l.toUInt64 >>> 2), en (((l.toUInt64 <<< 4) ||| (m.toUInt64 >>> 4)) &&& 63),
        en ((m.toUInt64 <<< 2) &&& 63), 61]
  | l :: m :: n :: rest => encodeGroup l.toUInt64 m.toUInt64 n.toUInt64 ++ base64Encode rest

/-! ## The decoder -/

/-- How far `Base64Decode` is: the text that is left, the bytes that it wrote, the indexes that it
looked up in the table, and its `dstlen`. -/
structure Decoding where
  src : List UInt8
  dst : List UInt8
  indexes : List UInt8
  dstlen : Nat

def firstByte (l m : UInt64) : UInt8 := ((l <<< 2) ||| (m >>> 4)).toUInt8

def secondByte (m n : UInt64) : UInt8 := ((m <<< 4) ||| (n >>> 2)).toUInt8

def thirdByte (n o : UInt64) : UInt8 := ((n <<< 6) ||| o).toUInt8

section Decoder

variable (behind : UInt8 → UInt8)

/-- A round of the loop over whole groups, which counts the groups in `dstlen`. -/
def decodeGroup (d : Decoding) : Decoding :=
  match d.src with
  | l :: m :: n :: o :: src =>
      { src := src
        dst := d.dst ++ [firstByte (de behind l) (de behind m),
          secondByte (de behind m) (de behind n), thirdByte (de behind n) (de behind o)]
        indexes := d.indexes ++ [l, m, n, o]
        dstlen := d.dstlen + 1 }
  | _ => d

def decodeGroups : Nat → Decoding → Decoding
  | 0, d => d
  | j + 1, d => decodeGroups j (decodeGroup behind d)

/-- The fourth byte of the last group. The `n` before it is not looked up when it is a `=`. -/
def decodeFourth (n : UInt64) (d : Decoding) : Decoding :=
  match d.src with
  | o :: src =>
      if o = 61 then { d with src := src }
      else
        { src := src, dst := d.dst ++ [thirdByte n (de behind o)], indexes := d.indexes ++ [o]
          dstlen := d.dstlen + 1 }
  | [] => d

def decodeThird (x : Nat) (m : UInt64) (d : Decoding) : Decoding :=
  match d.src with
  | n :: src =>
      let read : Decoding :=
        if n = 61 then { d with src := src }
        else
          { src := src, dst := d.dst ++ [secondByte m (de behind n)], indexes := d.indexes ++ [n]
            dstlen := d.dstlen + 1 }
      if x - 1 = 0 then read
      else decodeFourth behind (if n = 61 then n.toUInt64 else de behind n) read
  | [] => d

/-- The last group, of which `x` bytes are there behind the first two. -/
def decodeTail (x : Nat) (d : Decoding) : Decoding :=
  match d.src with
  | l :: m :: src =>
      let read : Decoding :=
        { src := src, dst := d.dst ++ [firstByte (de behind l) (de behind m)]
          indexes := d.indexes ++ [l, m], dstlen := d.dstlen + 1 }
      if x = 0 then read else decodeThird behind x (de behind m) read
  | _ => d

/-- How many groups the loop decodes. -/
def wholeGroups (len : Nat) : Nat := if len > 4 then len / 4 - 1 else 0

/-- `Base64Decode`: the `int` that it returns, and what it did. -/
def base64Decode (text : List UInt8) : Int32 × Decoding :=
  let start : Decoding := { src := text, dst := [], indexes := [], dstlen := 0 }
  let x := text.length % 4
  if text.length = 0 ∨ x = 1 then (0, start)
  else
    let groups := decodeGroups behind (wholeGroups text.length) start
    let last := decodeTail behind (if x = 0 then 2 else x - 2)
      { groups with dstlen := groups.dstlen * 3 }
    (Int32.ofNat last.dstlen, last)

end Decoder

/-! ## What is written is read -/

section Group

variable (behind : UInt8 → UInt8)

theorem en_mem {sextet : UInt64} (hsextet : sextet < 64) : en sextet ∈ enBase64 := by
  have htable : ∀ index < 64, enBase64.getD index 0 ∈ enBase64 := by
    decide +kernel
  exact htable _ (UInt64.lt_iff_toNat_lt.mp hsextet)

theorem pad_notMem_enBase64 : 61 ∉ enBase64 := by decide

theorem en_ne_pad {sextet : UInt64} (hsextet : sextet < 64) : en sextet ≠ 61 :=
  fun heq => pad_notMem_enBase64 (heq ▸ en_mem hsextet)

/-- The table of the decoder inverts that of the encoder. -/
theorem de_en {sextet : UInt64} (hsextet : sextet < 64) : de behind (en sextet) = sextet := by
  have htable : ∀ index < 64, (enBase64.getD index 0).toNat < deBase64.length ∧
      (deBase64.getD (enBase64.getD index 0).toNat 0).toNat = index := by
    decide +kernel
  obtain ⟨hinside, hinverse⟩ := htable _ (UInt64.lt_iff_toNat_lt.mp hsextet)
  have hentry : deBase64.getD (en sextet).toNat (behind (en sextet)) =
      deBase64.getD (en sextet).toNat 0 := by
    rw [List.getD_eq_getElem?_getD, List.getD_eq_getElem?_getD, en,
      List.getElem?_eq_getElem hinside]
    rfl
  apply UInt64.toNat_inj.mp
  rw [de, hentry, UInt8.toNat_toUInt64]
  exact hinverse

theorem shiftRight_lt (l : UInt8) : l.toUInt64 >>> 2 < 64 := by
  have hbyte := l.toNat_lt
  apply UInt64.lt_iff_toNat_lt.mpr
  simp [Nat.shiftRight_eq_div_pow]
  omega

theorem and_lt (bits : UInt64) : bits &&& 63 < 64 := by
  have hmask : bits.toNat &&& 63 ≤ 63 := Nat.and_le_right
  apply UInt64.lt_iff_toNat_lt.mpr
  simp
  omega

theorem eq_of_bits {byte other : UInt8}
    (hbits : ∀ bit < 8, byte.toBitVec.getLsbD bit = other.toBitVec.getLsbD bit) : byte = other :=
  UInt8.toBitVec_inj.mp (BitVec.eq_of_getLsbD_eq hbits)

theorem firstByte_sextets (l m : UInt8) :
    firstByte (l.toUInt64 >>> 2) (((l.toUInt64 <<< 4) ||| (m.toUInt64 >>> 4)) &&& 63) = l := by
  apply eq_of_bits
  intro bit hbit
  unfold firstByte
  interval_cases bit <;> simp

theorem firstByte_alone (l : UInt8) :
    firstByte (l.toUInt64 >>> 2) ((l.toUInt64 <<< 4) &&& 63) = l := by
  simpa using firstByte_sextets l 0

theorem secondByte_sextets (l m n : UInt8) :
    secondByte (((l.toUInt64 <<< 4) ||| (m.toUInt64 >>> 4)) &&& 63)
      (((m.toUInt64 <<< 2) ||| (n.toUInt64 >>> 6)) &&& 63) = m := by
  apply eq_of_bits
  intro bit hbit
  unfold secondByte
  interval_cases bit <;> simp

theorem secondByte_last (l m : UInt8) :
    secondByte (((l.toUInt64 <<< 4) ||| (m.toUInt64 >>> 4)) &&& 63)
      ((m.toUInt64 <<< 2) &&& 63) = m := by
  simpa using secondByte_sextets l m 0

theorem thirdByte_sextets (m n : UInt8) :
    thirdByte (((m.toUInt64 <<< 2) ||| (n.toUInt64 >>> 6)) &&& 63) (n.toUInt64 &&& 63) = n := by
  apply eq_of_bits
  intro bit hbit
  unfold thirdByte
  interval_cases bit <;> simp

theorem length_encodeGroup (l m n : UInt64) : (encodeGroup l m n).length = 4 := rfl

theorem decodeGroup_encodeGroup {d : Decoding} {l m n : UInt8} {rest : List UInt8}
    (hsrc : d.src = encodeGroup l.toUInt64 m.toUInt64 n.toUInt64 ++ rest) :
    decodeGroup behind d =
      { src := rest, dst := d.dst ++ [l, m, n]
        indexes := d.indexes ++ encodeGroup l.toUInt64 m.toUInt64 n.toUInt64
        dstlen := d.dstlen + 1 } := by
  have hl := de_en behind (shiftRight_lt l)
  have hm := de_en behind (and_lt ((l.toUInt64 <<< 4) ||| (m.toUInt64 >>> 4)))
  have hn := de_en behind (and_lt ((m.toUInt64 <<< 2) ||| (n.toUInt64 >>> 6)))
  have ho := de_en behind (and_lt n.toUInt64)
  rw [decodeGroup, hsrc]
  simp only [encodeGroup, List.cons_append, List.nil_append, hl, hm, hn, ho, firstByte_sextets,
    secondByte_sextets, thirdByte_sextets]

end Group

section RoundTrip

variable (behind : UInt8 → UInt8)

theorem length_base64Encode (x : List UInt8) :
    (base64Encode x).length = 4 * ((x.length + 2) / 3) := by
  induction x using base64Encode.induct with
  | case1 => simp [base64Encode]
  | case2 l => simp [base64Encode]
  | case3 l m => simp [base64Encode]
  | case4 l m n rest ih =>
      rw [base64Encode, List.length_append, ih, length_encodeGroup]
      simp only [List.length_cons]
      omega

/-- Whole groups are written on their own. -/
theorem base64Encode_append {whole : List UInt8} (hwhole : 3 ∣ whole.length) (last : List UInt8) :
    base64Encode (whole ++ last) = base64Encode whole ++ base64Encode last := by
  induction whole using base64Encode.induct with
  | case1 => rfl
  | case2 l => simp at hwhole
  | case3 l m => simp at hwhole
  | case4 l m n rest ih =>
      have hrest : 3 ∣ rest.length := by simpa using hwhole
      simp only [List.cons_append, base64Encode, ih hrest, List.append_assoc]

theorem base64Encode_alphabet (x : List UInt8) : ∃ body pads,
    base64Encode x = body ++ List.replicate pads 61 ∧ ∀ c ∈ body, c ∈ enBase64 := by
  induction x using base64Encode.induct with
  | case1 => exact ⟨[], 0, rfl, by simp⟩
  | case2 l =>
      refine ⟨[_, _], 2, rfl, ?_⟩
      simp only [List.forall_mem_cons]
      exact ⟨en_mem (shiftRight_lt l), en_mem (and_lt _), by simp⟩
  | case3 l m =>
      refine ⟨[_, _, _], 1, rfl, ?_⟩
      simp only [List.forall_mem_cons]
      exact ⟨en_mem (shiftRight_lt l), en_mem (and_lt _), en_mem (and_lt _), by simp⟩
  | case4 l m n rest ih =>
      obtain ⟨body, pads, hrest, hbody⟩ := ih
      refine ⟨encodeGroup l.toUInt64 m.toUInt64 n.toUInt64 ++ body, pads, ?_, ?_⟩
      · rw [base64Encode, hrest, List.append_assoc]
      · simp only [encodeGroup, List.cons_append, List.nil_append, List.forall_mem_cons]
        exact ⟨en_mem (shiftRight_lt l), en_mem (and_lt _), en_mem (and_lt _), en_mem (and_lt _),
          hbody⟩

/-- The loop gives whole groups back. -/
theorem decodeGroups_base64Encode {j : Nat} {d : Decoding} {whole rest : List UInt8}
    (hwhole : whole.length = 3 * j) (hsrc : d.src = base64Encode whole ++ rest) :
    decodeGroups behind j d =
      { src := rest, dst := d.dst ++ whole, indexes := d.indexes ++ base64Encode whole
        dstlen := d.dstlen + j } := by
  induction j generalizing d whole with
  | zero =>
      obtain rfl := List.eq_nil_of_length_eq_zero hwhole
      obtain ⟨src, dst, indexes, dstlen⟩ := d
      obtain rfl : src = rest := hsrc
      simp [decodeGroups, base64Encode]
  | succ j ih =>
      match whole with
      | [] => simp at hwhole
      | [_] => simp at hwhole; omega
      | [_, _] => simp at hwhole; omega
      | l :: m :: n :: whole =>
          have hlength : whole.length = 3 * j := by
            simp only [List.length_cons] at hwhole
            omega
          rw [base64Encode, List.append_assoc] at hsrc
          rw [decodeGroups, decodeGroup_encodeGroup behind hsrc, ih hlength rfl, base64Encode]
          simp [Nat.add_assoc, Nat.add_comm 1 j]

/-- The text without the `=` at its end. -/
def unpadded (text : List UInt8) : List UInt8 := text.rdropWhile (· = 61)

theorem unpadded_append_pads (body : List UInt8) (pads : Nat) {c : UInt8} (hc : c ≠ 61) :
    unpadded (body ++ [c] ++ List.replicate pads 61) = body ++ [c] := by
  induction pads with
  | zero =>
      rw [List.replicate_zero, List.append_nil]
      exact List.rdropWhile_concat_neg _ _ _ (by simpa using hc)
  | succ pads ih =>
      rw [List.replicate_succ', ← List.append_assoc, unpadded,
        List.rdropWhile_concat_pos _ _ _ (by simp)]
      exact ih

/-- The characters of a last group. -/
def lastGroup : List UInt8 → List UInt8
  | [l] => [en (l.toUInt64 >>> 2), en ((l.toUInt64 <<< 4) &&& 63)]
  | [l, m] =>
      [en (l.toUInt64 >>> 2), en (((l.toUInt64 <<< 4) ||| (m.toUInt64 >>> 4)) &&& 63),
        en ((m.toUInt64 <<< 2) &&& 63)]
  | [l, m, n] => encodeGroup l.toUInt64 m.toUInt64 n.toUInt64
  | _ => []

/-- A group that is not empty, and not more than whole. -/
structure IsGroup (last : List UInt8) : Prop where
  pos : 0 < last.length
  le : last.length ≤ 3

variable {last : List UInt8}

theorem length_lastGroup (hlast : IsGroup last) : (lastGroup last).length = last.length + 1 := by
  match last with
  | [] => exact absurd hlast.pos (lt_irrefl 0)
  | [_] => rfl
  | [_, _] => rfl
  | [_, _, _] => rfl
  | _ :: _ :: _ :: _ :: _ => exact absurd hlast.le (by simp)

theorem base64Encode_last (hlast : IsGroup last) :
    base64Encode last = lastGroup last ++ List.replicate (3 - last.length) 61 := by
  match last with
  | [] => exact absurd hlast.pos (lt_irrefl 0)
  | [_] => simp [base64Encode, lastGroup, List.replicate]
  | [_, _] => simp [base64Encode, lastGroup]
  | [_, _, _] => simp [base64Encode, lastGroup]
  | _ :: _ :: _ :: _ :: _ => exact absurd hlast.le (by simp)

theorem unpadded_base64Encode (hlast : IsGroup last) (before : List UInt8) :
    unpadded (before ++ base64Encode last) = before ++ lastGroup last := by
  rw [base64Encode_last hlast, ← List.append_assoc]
  match last with
  | [] => exact absurd hlast.pos (lt_irrefl 0)
  | [l] =>
      rw [lastGroup, List.append_cons]
      exact unpadded_append_pads _ _ (en_ne_pad (and_lt _))
  | [l, m] =>
      rw [lastGroup, List.append_cons, List.append_cons]
      exact unpadded_append_pads _ _ (en_ne_pad (and_lt _))
  | [l, m, n] =>
      rw [lastGroup, encodeGroup, List.append_cons, List.append_cons, List.append_cons]
      exact unpadded_append_pads _ _ (en_ne_pad (and_lt _))
  | _ :: _ :: _ :: _ :: _ => exact absurd hlast.le (by simp)

/-- The last group is decoded alike with and without its padding. -/
theorem decodeTail_lastGroup (hlast : IsGroup last) {d : Decoding} {x : Nat}
    (hsrc : d.src = lastGroup last ∧ x = last.length - 1 ∨ d.src = base64Encode last ∧ x = 2) :
    (decodeTail behind x d).dst = d.dst ++ last ∧
      (decodeTail behind x d).dstlen = d.dstlen + last.length := by
  match last with
  | [] => exact absurd hlast.pos (lt_irrefl 0)
  | [l] =>
      have hl := de_en behind (shiftRight_lt l)
      have hm := de_en behind (and_lt (l.toUInt64 <<< 4))
      rcases hsrc with ⟨hsrc, rfl⟩ | ⟨hsrc, rfl⟩
      · simp [decodeTail, hsrc, lastGroup, hl, hm, firstByte_alone]
      · simp [decodeTail, decodeThird, decodeFourth, hsrc, base64Encode, hl, hm, firstByte_alone]
  | [l, m] =>
      have hl := de_en behind (shiftRight_lt l)
      have hm := de_en behind (and_lt ((l.toUInt64 <<< 4) ||| (m.toUInt64 >>> 4)))
      have hn := de_en behind (and_lt (m.toUInt64 <<< 2))
      have hpad := en_ne_pad (and_lt (m.toUInt64 <<< 2))
      rcases hsrc with ⟨hsrc, rfl⟩ | ⟨hsrc, rfl⟩
      · simp [decodeTail, decodeThird, hsrc, lastGroup, hl, hm, hn, hpad, firstByte_sextets,
          secondByte_last]
      · simp [decodeTail, decodeThird, decodeFourth, hsrc, base64Encode, hl, hm, hn, hpad,
          firstByte_sextets, secondByte_last]
  | [l, m, n] =>
      have hl := de_en behind (shiftRight_lt l)
      have hm := de_en behind (and_lt ((l.toUInt64 <<< 4) ||| (m.toUInt64 >>> 4)))
      have hn := de_en behind (and_lt ((m.toUInt64 <<< 2) ||| (n.toUInt64 >>> 6)))
      have ho := de_en behind (and_lt n.toUInt64)
      have hpad := en_ne_pad (and_lt ((m.toUInt64 <<< 2) ||| (n.toUInt64 >>> 6)))
      have hpad' := en_ne_pad (and_lt n.toUInt64)
      have hgroup : d.src = encodeGroup l.toUInt64 m.toUInt64 n.toUInt64 ∧ x = 2 := by
        simpa [lastGroup, base64Encode] using hsrc
      obtain ⟨htext, rfl⟩ := hgroup
      simp [decodeTail, decodeThird, decodeFourth, htext, encodeGroup, hl, hm, hn, ho, hpad, hpad',
        firstByte_sextets, secondByte_sextets, thirdByte_sextets]
  | _ :: _ :: _ :: _ :: _ => exact absurd hlast.le (by simp)

/-- A text that is not empty ends in a group, with whole ones before it. -/
theorem exists_lastGroup {x : List UInt8} (hx : x ≠ []) : ∃ j whole last,
    x = whole ++ last ∧ whole.length = 3 * j ∧ IsGroup last := by
  have hpos : 0 < x.length := List.length_pos_iff.mpr hx
  refine ⟨(x.length - 1) / 3, x.take (3 * ((x.length - 1) / 3)), x.drop (3 * ((x.length - 1) / 3)),
    (List.take_append_drop _ _).symm, ?_, ?_, ?_⟩
  · rw [List.length_take]
    omega
  · rw [List.length_drop]
    omega
  · rw [List.length_drop]
    omega

end RoundTrip

/-! ## Any text

What the decoder does to a text that nobody encoded.
-/

section AnyText

variable (behind : UInt8 → UInt8)

/-- From `d` to `d'`, `size` bytes of the text are looked at and at most `most` are written. The
bytes that were looked at and not looked up are `=`. -/
structure Consumes (size most : Nat) (d d' : Decoding) : Prop where
  src : d'.src = d.src.drop size
  indexes : ∀ byte, 128 ≤ byte →
    (byte ∈ d'.indexes ↔ byte ∈ d.indexes ∨ byte ∈ d.src.take size)
  dst : d'.dst.length ≤ d.dst.length + most

theorem Consumes.trans {size most size' most' : Nat} {d d' d'' : Decoding}
    (hfirst : Consumes size most d d') (hsecond : Consumes size' most' d' d'') :
    Consumes (size + size') (most + most') d d'' where
  src := by rw [hsecond.src, hfirst.src, List.drop_drop]
  indexes byte hbyte := by
    rw [hsecond.indexes byte hbyte, hfirst.indexes byte hbyte, hfirst.src, List.take_add,
      List.mem_append, or_assoc]
  dst := by
    have hfirst := hfirst.dst
    have hsecond := hsecond.dst
    omega

theorem Consumes.refl (d : Decoding) : Consumes 0 0 d d :=
  ⟨rfl, by simp, le_rfl⟩

theorem decodeGroup_consumes {d : Decoding} (hsrc : 4 ≤ d.src.length) :
    Consumes 4 3 d (decodeGroup behind d) := by
  match hd : d.src with
  | [] => simp [hd] at hsrc
  | [_] => simp [hd] at hsrc
  | [_, _] => simp [hd] at hsrc
  | [_, _, _] => simp [hd] at hsrc
  | l :: m :: n :: o :: src =>
      constructor
      · simp [decodeGroup, hd]
      · simp [decodeGroup, hd]
      · simp [decodeGroup, hd]

theorem decodeGroups_consumes {j : Nat} {d : Decoding} (hsrc : 4 * j ≤ d.src.length) :
    Consumes (4 * j) (3 * j) d (decodeGroups behind j d) := by
  induction j generalizing d with
  | zero => exact Consumes.refl d
  | succ j ih =>
      have hgroup : Consumes 4 3 d (decodeGroup behind d) := decodeGroup_consumes behind (by omega)
      have hrest : 4 * j ≤ (decodeGroup behind d).src.length := by
        rw [hgroup.src, List.length_drop]
        omega
      rw [Nat.mul_succ, Nat.mul_succ, Nat.add_comm (4 * j), Nat.add_comm (3 * j)]
      exact hgroup.trans (ih hrest)

/-- A `=` is below the bytes that the table does not hold. -/
theorem ne_pad_of_le {byte : UInt8} (hbyte : 128 ≤ byte) : byte ≠ 61 := by
  rintro rfl
  exact absurd hbyte (by decide)

theorem decodeFourth_consumes (n : UInt64) {d : Decoding} (hsrc : 1 ≤ d.src.length) :
    Consumes 1 1 d (decodeFourth behind n d) := by
  obtain ⟨o, src, hd⟩ := List.exists_cons_of_length_pos hsrc
  rw [decodeFourth, hd]
  dsimp only
  split
  next hpad =>
    refine ⟨by simp [hd], fun byte hbyte => ?_, by simp⟩
    have hne := ne_pad_of_le hbyte
    simp [hd, hpad, hne]
  next => exact ⟨by simp [hd], by simp [hd], by simp⟩

theorem decodeThird_consumes {x : Nat} (hpos : 0 < x) (hx : x ≤ 2) (m : UInt64) {d : Decoding}
    (hsrc : x ≤ d.src.length) : Consumes x x d (decodeThird behind x m d) := by
  obtain ⟨n, src, hd⟩ := List.exists_cons_of_length_pos (hpos.trans_le hsrc)
  have hread : Consumes 1 1 d (if n = 61 then { d with src := src } else
      { src := src, dst := d.dst ++ [secondByte m (de behind n)], indexes := d.indexes ++ [n]
        dstlen := d.dstlen + 1 }) := by
    split
    next hpad =>
      refine ⟨by simp [hd], fun byte hbyte => ?_, by simp⟩
      have hne := ne_pad_of_le hbyte
      simp [hd, hpad, hne]
    next => exact ⟨by simp [hd], by simp [hd], by simp⟩
  rw [decodeThird, hd]
  dsimp only
  split
  next hone =>
    obtain rfl : x = 1 := by omega
    exact hread
  next hmore =>
    obtain rfl : x = 2 := by omega
    refine hread.trans (decodeFourth_consumes behind _ ?_)
    rw [hread.src, List.length_drop]
    omega

theorem decodeTail_consumes {x : Nat} (hx : x ≤ 2) {d : Decoding} (hsrc : 2 + x ≤ d.src.length) :
    Consumes (2 + x) (1 + x) d (decodeTail behind x d) := by
  match hd : d.src with
  | [] => simp [hd] at hsrc
  | [_] => simp [hd] at hsrc; omega
  | l :: m :: src =>
      have hread : Consumes 2 1 d
          { src := src, dst := d.dst ++ [firstByte (de behind l) (de behind m)]
            indexes := d.indexes ++ [l, m], dstlen := d.dstlen + 1 } :=
        ⟨by simp [hd], by simp [hd], by simp⟩
      rw [decodeTail, hd]
      dsimp only
      split
      next hnone =>
        rw [hnone]
        exact hread
      next hsome =>
        refine hread.trans (decodeThird_consumes behind (by omega) hx _ ?_)
        rw [hd, List.length_cons, List.length_cons] at hsrc
        dsimp only
        omega

/-- How much of a text is looked at. A text without padding loses a group. -/
def lookedAt (len : Nat) : Nat :=
  if len = 0 ∨ len % 4 = 1 then 0
  else if len < 4 ∨ len % 4 = 0 then len
  else len - 4

/-- The decoder writes at most three bytes for four. -/
theorem base64Decode_consumes (text : List UInt8) :
    Consumes (lookedAt text.length) (lookedAt text.length * 3 / 4)
      { src := text, dst := [], indexes := [], dstlen := 0 } (base64Decode behind text).2 := by
  unfold base64Decode
  dsimp only
  split
  next hnone =>
    rw [lookedAt, if_pos hnone]
    exact Consumes.refl _
  next hsome =>
    have hgroups : Consumes (4 * wholeGroups text.length) (3 * wholeGroups text.length)
        { src := text, dst := [], indexes := [], dstlen := 0 } _ :=
      decodeGroups_consumes behind (by
        unfold wholeGroups
        dsimp only
        split
        · omega
        · omega)
    generalize decodeGroups behind (wholeGroups text.length) _ = groups at hgroups ⊢
    generalize hx : (if text.length % 4 = 0 then 2 else text.length % 4 - 2) = x
    have hlooked : 4 * wholeGroups text.length + (2 + x) = lookedAt text.length ∧
        3 * wholeGroups text.length + (1 + x) = lookedAt text.length * 3 / 4 ∧ x ≤ 2 := by
      rw [lookedAt, if_neg hsome, wholeGroups, ← hx]
      split_ifs <;> omega
    obtain ⟨hsize, hmost, hle⟩ := hlooked
    have htail := decodeTail_consumes behind hle
      (d := { groups with dstlen := groups.dstlen * 3 }) (by
        have hlength : lookedAt text.length ≤ text.length := by
          unfold lookedAt
          split_ifs <;> omega
        dsimp only
        rw [hgroups.src, List.length_drop]
        dsimp only
        omega)
    rw [← hmost, ← hsize]
    exact hgroups.trans ⟨htail.src, htail.indexes, htail.dst⟩

/-- The table holds what is looked up, and the text has room for what is written, as `base64decode`
takes it to have. -/
def Safe (text : List UInt8) : Prop :=
  (∀ index ∈ (base64Decode behind text).2.indexes, index.toNat < deBase64.length) ∧
    (base64Decode behind text).2.dst.length ≤ text.length

theorem lookedAt_le (len : Nat) : lookedAt len ≤ len := by
  unfold lookedAt
  split_ifs <;> omega

/-- What is written has room always. The table is kept to as long as no byte that is looked at has
its highest bit set. -/
theorem safe_iff (text : List UInt8) :
    Safe behind text ↔ ∀ byte ∈ text.take (lookedAt text.length), byte < 128 := by
  have hconsumes := base64Decode_consumes behind text
  have hinside : ∀ index : UInt8, index.toNat < deBase64.length ↔ ¬ 128 ≤ index := by
    intro index
    rw [UInt8.not_le, UInt8.lt_iff_toNat_lt]
    rfl
  constructor
  · intro hsafe byte hbyte
    rw [← UInt8.not_le]
    intro hhigh
    have hindex : byte ∈ (base64Decode behind text).2.indexes :=
      (hconsumes.indexes byte hhigh).mpr (Or.inr hbyte)
    exact (hinside byte).mp (hsafe.1 byte hindex) hhigh
  · intro hlow
    constructor
    · intro index hindex
      rw [hinside]
      intro hhigh
      rcases (hconsumes.indexes index hhigh).mp hindex with hbefore | hlooked
      · cases hbefore
      · exact UInt8.not_le.mpr (hlow index hlooked) hhigh
    · have hdst := hconsumes.dst
      have hlooked := lookedAt_le text.length
      rw [List.length_nil] at hdst
      omega

/-- The bytes of a byte order mark are no indexes into the table. -/
theorem not_safe_of_high : ¬ ∀ behind text, Safe behind text := by
  intro hsafe
  have hindexes := (hsafe (fun _ => 0) [0xEF, 0xBB]).1
  revert hindexes
  decide +kernel

end AnyText

/-! ## Round trips -/

section RoundTrips

variable (behind : UInt8 → UInt8)

/-- What a round trip through the text of `x` has to give. -/
structure RoundTrips (x : List UInt8) : Prop where
  length : (base64Encode x).length = 4 * ((x.length + 2) / 3)
  alphabet : ∃ body pads,
    base64Encode x = body ++ List.replicate pads 61 ∧ ∀ c ∈ body, c ∈ enBase64
  padded : (base64Decode behind (base64Encode x)).1.toInt = x.length ∧
    (base64Decode behind (base64Encode x)).2.dst = x
  unpadded : (base64Decode behind (unpadded (base64Encode x))).1.toInt = x.length ∧
    (base64Decode behind (unpadded (base64Encode x))).2.dst = x

variable {j : Nat} {whole last : List UInt8}

/-- A text whose groups are counted right is decoded. -/
theorem base64Decode_groups (hwhole : whole.length = 3 * j) (hlast : IsGroup last)
    {text group : List UInt8} (htext : text = base64Encode whole ++ group)
    (hgroup : group = lastGroup last ∧ (j = 0 ∨ last.length = 3) ∨ group = base64Encode last) :
    (base64Decode behind text).1 = Int32.ofNat (whole ++ last).length ∧
      (base64Decode behind text).2.dst = whole ++ last := by
  have hpos := hlast.pos
  have hle := hlast.le
  have hbefore : (base64Encode whole).length = 4 * j := by
    rw [length_base64Encode, hwhole]
    omega
  have hlength : text.length = 4 * j + group.length := by
    rw [htext, List.length_append, hbefore]
  have hcounted : ¬ (text.length = 0 ∨ text.length % 4 = 1) ∧ wholeGroups text.length = j ∧
      (group = lastGroup last ∧
          (if text.length % 4 = 0 then 2 else text.length % 4 - 2) = last.length - 1 ∨
        group = base64Encode last ∧
          (if text.length % 4 = 0 then 2 else text.length % 4 - 2) = 2) := by
    unfold wholeGroups
    rcases hgroup with ⟨rfl, hfew⟩ | rfl
    · rw [length_lastGroup hlast] at hlength
      refine ⟨by omega, by split_ifs <;> omega, Or.inl ⟨rfl, by split_ifs <;> omega⟩⟩
    · rw [length_base64Encode] at hlength
      refine ⟨by omega, by split_ifs <;> omega, Or.inr ⟨rfl, by split_ifs <;> omega⟩⟩
  obtain ⟨hsome, hgroups, htail⟩ := hcounted
  rw [base64Decode]
  dsimp only
  rw [if_neg hsome, hgroups, decodeGroups_base64Encode behind hwhole htext]
  obtain ⟨hdst, hdstlen⟩ := decodeTail_lastGroup behind hlast
    (d := { src := group, dst := [] ++ whole, indexes := [] ++ base64Encode whole
            dstlen := (0 + j) * 3 }) htail
  refine ⟨?_, hdst⟩
  rw [hdstlen, List.length_append, hwhole]
  dsimp only
  congr 1
  omega

/-- With more than one group, a text without padding is one short. -/
theorem length_dst_of_unpadded (hwhole : whole.length = 3 * j) (hlast : IsGroup last)
    (hj : 0 < j) (hfew : last.length < 3) :
    (base64Decode behind (base64Encode whole ++ lastGroup last)).2.dst.length <
      (whole ++ last).length := by
  have hpos := hlast.pos
  have hdst := (base64Decode_consumes behind (base64Encode whole ++ lastGroup last)).dst
  have hlength : (base64Encode whole ++ lastGroup last).length = 4 * j + (last.length + 1) := by
    rw [List.length_append, length_base64Encode, length_lastGroup hlast, hwhole]
    omega
  rw [hlength, lookedAt, if_neg (by omega), if_neg (by omega), List.length_nil] at hdst
  rw [List.length_append, hwhole]
  omega

theorem toInt_ofNat_eq_iff (n : Nat) : (Int32.ofNat n).toInt = n ↔ n < 2 ^ 31 := by
  constructor
  · intro heq
    have hlt := (Int32.ofNat n).toInt_lt
    omega
  · intro hlt
    exact Int32.toInt_ofNat_of_lt hlt

/-- A round trip succeeds if the text has no padding or is that of one group, and if its length is
an `int`. -/
theorem roundTrips_iff (x : List UInt8) :
    RoundTrips behind x ↔ x.length < 2 ^ 31 ∧ (x.length < 3 ∨ 3 ∣ x.length) := by
  by_cases hx : x = []
  · subst hx
    refine iff_of_true ⟨by simp [base64Encode], base64Encode_alphabet [], ?_, ?_⟩ (by simp)
    · exact ⟨rfl, rfl⟩
    · exact ⟨rfl, rfl⟩
  obtain ⟨j, whole, last, rfl, hwhole, hlast⟩ := exists_lastGroup hx
  have hpos := hlast.pos
  have hle := hlast.le
  have htext : base64Encode (whole ++ last) = base64Encode whole ++ base64Encode last :=
    base64Encode_append (Dvd.intro j hwhole.symm) last
  have hstripped : unpadded (base64Encode (whole ++ last)) =
      base64Encode whole ++ lastGroup last := by
    rw [htext, unpadded_base64Encode hlast]
  have hpadded := base64Decode_groups behind hwhole hlast htext (Or.inr rfl)
  have hlength : (whole ++ last).length = 3 * j + last.length := by
    rw [List.length_append, hwhole]
  constructor
  · rintro ⟨-, -, ⟨hreturned, -⟩, -, hdst⟩
    rw [hpadded.1, toInt_ofNat_eq_iff] at hreturned
    refine ⟨hreturned, ?_⟩
    by_contra hmore
    have hshort := length_dst_of_unpadded behind hwhole hlast (by omega) (by omega)
    rw [hstripped] at hdst
    rw [hdst] at hshort
    exact lt_irrefl _ hshort
  · rintro ⟨hint, hgroups⟩
    have hunpadded := base64Decode_groups behind hwhole hlast hstripped
      (Or.inl ⟨rfl, by omega⟩)
    exact ⟨length_base64Encode _, base64Encode_alphabet _,
      ⟨by rw [hpadded.1, toInt_ofNat_eq_iff]; exact hint, hpadded.2⟩,
      by rw [hunpadded.1, toInt_ofNat_eq_iff]; exact hint, hunpadded.2⟩

/-- Of the text of `abcd` without its padding, only the first byte is read. -/
theorem not_roundTrips_abcd : ¬ ∀ behind x, RoundTrips behind x := by
  intro hround
  have hdst := (hround (fun _ => 0) [97, 98, 99, 100]).unpadded.2
  revert hdst
  decide +kernel

end RoundTrips

end Base64

end ServiceFrame
