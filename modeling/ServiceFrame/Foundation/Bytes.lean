import Mathlib.Data.List.Basic
import Mathlib.Algebra.Order.Group.Nat
import Mathlib.Tactic.Ring

/-! # Byte memory and little-endian numbers

A block of memory is a list of cells. Writing into it replaces a range; the
cells outside the range and the length of the block are unchanged.
-/

namespace ServiceFrame.Foundation

universe uCell

section Memory

variable {Cell : Type uCell}

/-- The memory after `cells` has been written from address `pos` on. -/
def overwrite (memory : List Cell) (pos : Nat) (cells : List Cell) : List Cell :=
  memory.take pos ++ cells ++ memory.drop (pos + cells.length)

theorem length_overwrite {memory : List Cell} {pos : Nat} {cells : List Cell}
    (hfit : pos + cells.length ≤ memory.length) :
    (overwrite memory pos cells).length = memory.length := by
  simp only [overwrite, List.length_append, List.length_take, List.length_drop]
  omega

/-- What lies below the written range, together with the range itself. -/
theorem take_overwrite_end {memory : List Cell} {pos : Nat} (cells : List Cell)
    (hpos : pos ≤ memory.length) :
    (overwrite memory pos cells).take (pos + cells.length) = memory.take pos ++ cells := by
  have hlength : pos + cells.length = (memory.take pos ++ cells).length := by
    simp [Nat.min_eq_left hpos]
  rw [overwrite, hlength, List.take_left]

/-- A prefix that reaches past the written range. -/
theorem take_overwrite_past {memory : List Cell} {pos size : Nat} {cells : List Cell}
    (hpast : pos + cells.length ≤ size) (hsize : size ≤ memory.length) :
    (overwrite memory pos cells).take size = overwrite (memory.take size) pos cells := by
  have hpos : pos ≤ size := by omega
  rw [overwrite, overwrite, List.take_append, List.take_of_length_le
    (by simp only [List.length_append, List.length_take]; omega), List.take_take,
    Nat.min_eq_left hpos, List.drop_take]
  congr 2
  simp only [List.length_append, List.length_take]
  omega

/-- A range that begins behind a known part of the memory. -/
theorem overwrite_append {front rest : List Cell} {pos : Nat} (cells : List Cell)
    (hpos : pos = front.length) :
    overwrite (front ++ rest) pos cells = front ++ cells ++ rest.drop cells.length := by
  subst hpos
  rw [overwrite, List.take_left, List.drop_length_add_append]

theorem overwrite_zero (memory cells : List Cell) :
    overwrite memory 0 cells = cells ++ memory.drop cells.length := by
  rw [overwrite, List.take_zero, List.nil_append, Nat.zero_add]

/-- A write that is only made inside the block. -/
def overwriteInside (memory : List Cell) (pos : Nat) (cells : List Cell) : Option (List Cell) :=
  if pos + cells.length ≤ memory.length then some (overwrite memory pos cells) else none

/-- One cell, behind a known part of the block. -/
theorem overwriteInside_cell {front : List Cell} {pos : Nat} (hpos : pos = front.length)
    (old new : Cell) (rest : List Cell) :
    overwriteInside (front ++ old :: rest) pos [new] = some (front ++ new :: rest) := by
  have hfit : pos + [new].length ≤ (front ++ old :: rest).length := by
    rw [hpos, List.length_append]
    exact Nat.add_le_add_left (Nat.succ_le_succ (Nat.zero_le _)) _
  rw [overwriteInside, if_pos hfit, overwrite_append [new] hpos, List.append_assoc]
  rfl

/-- Addresses that count from a base inside the memory. -/
theorem drop_overwrite {memory : List Cell} {base pos : Nat} {cells : List Cell}
    (hbase : base ≤ memory.length) :
    (overwrite memory (base + pos) cells).drop base = overwrite (memory.drop base) pos cells := by
  rw [overwrite, overwrite, List.append_assoc, List.append_assoc, List.drop_append,
    List.drop_take, List.drop_drop, Nat.add_sub_cancel_left]
  have hstart : base - (memory.take (base + pos)).length = 0 := by
    rw [List.length_take]
    omega
  rw [hstart, List.drop_zero, Nat.add_assoc]

end Memory

section LittleEndian

/-- The `width` low bytes of a number, the lowest first. -/
def leBytes : Nat → Nat → List UInt8
  | 0, _ => []
  | width + 1, value => UInt8.ofNat value :: leBytes width (value / 256)

/-- The number whose bytes, the lowest first, are these. -/
def leNat : List UInt8 → Nat
  | [] => 0
  | byte :: rest => byte.toNat + 256 * leNat rest

@[simp] theorem length_leBytes (width value : Nat) : (leBytes width value).length = width := by
  induction width generalizing value with
  | zero => rfl
  | succ width ih => simp [leBytes, ih]

theorem leNat_leBytes {width value : Nat} (hvalue : value < 256 ^ width) :
    leNat (leBytes width value) = value := by
  induction width generalizing value with
  | zero =>
      have hzero : value = 0 := by simpa using hvalue
      simp [hzero, leBytes, leNat]
  | succ width ih =>
      have hquotient : value / 256 < 256 ^ width := by
        apply Nat.div_lt_of_lt_mul
        rwa [Nat.pow_succ, Nat.mul_comm] at hvalue
      simp only [leBytes, leNat, ih hquotient, UInt8.toNat_ofNat']
      omega

theorem leNat_lt (bytes : List UInt8) : leNat bytes < 256 ^ bytes.length := by
  induction bytes with
  | nil => exact Nat.one_pos
  | cons byte rest ih =>
      have hbyte := byte.toNat_lt
      simp only [leNat, List.length_cons, Nat.pow_succ]
      omega

/-- Bytes are the number they make, written out again. -/
theorem leBytes_leNat (bytes : List UInt8) : leBytes bytes.length (leNat bytes) = bytes := by
  induction bytes with
  | nil => rfl
  | cons byte rest ih =>
      have hbyte := byte.toNat_lt
      have hlow : UInt8.ofNat (byte.toNat + 256 * leNat rest) = byte := by
        apply UInt8.toNat_inj.mp
        rw [UInt8.toNat_ofNat']
        omega
      have hhigh : (byte.toNat + 256 * leNat rest) / 256 = leNat rest := by omega
      simp only [List.length_cons, leBytes, leNat, hlow, hhigh, ih]

/-- The bytes of a number that is cut in two. -/
theorem leBytes_add (front rest value : Nat) :
    leBytes (front + rest) value = leBytes front value ++ leBytes rest (value / 256 ^ front) := by
  induction front generalizing value with
  | zero => rw [Nat.zero_add, Nat.pow_zero, Nat.div_one, leBytes, List.nil_append]
  | succ front ih =>
      rw [Nat.succ_add, leBytes, leBytes, ih, List.cons_append, Nat.div_div_eq_div_mul,
        Nat.pow_succ']

/-- What lies above the width is not written. -/
theorem leBytes_mod (width value : Nat) : leBytes width (value % 256 ^ width) =
    leBytes width value := by
  induction width generalizing value with
  | zero => rfl
  | succ width ih =>
      have hlow : UInt8.ofNat (value % 256 ^ (width + 1)) = UInt8.ofNat value := by
        apply UInt8.toNat_inj.mp
        rw [UInt8.toNat_ofNat', UInt8.toNat_ofNat', Nat.pow_succ, Nat.mod_mul_left_mod]
      rw [leBytes, leBytes, hlow, Nat.pow_succ', Nat.mod_mul_right_div_self, ih]

end LittleEndian

end ServiceFrame.Foundation
