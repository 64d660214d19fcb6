import Mathlib.Algebra.Group.Nat.Defs
import Mathlib.Data.List.Basic

/-! # `djb_hash`

The hash that multiplies by 33, unrolled eight times.
-/

namespace ServiceFrame

/-- `hash = ((hash << 5) + hash) + (uint8_t)*key++`. -/
def djbStep (hash : UInt32) (key : UInt8) : UInt32 := ((hash <<< 5) + hash) + key.toUInt32

/-- The `switch` from `case len` on: each case falls through to the next one. -/
def djbRemainder : Nat → UInt32 → List UInt8 → UInt32
  | len + 1, hash, c :: key => djbRemainder len (djbStep hash c) key
  | _, hash, _ => hash

/-- The body of the loop: the eight bytes from `key` on. -/
def djbBlock (hash : UInt32) (key : List UInt8) : UInt32 :=
  let hash := djbStep hash (key.getD 0 0)
  let hash := djbStep hash (key.getD 1 0)
  let hash := djbStep hash (key.getD 2 0)
  let hash := djbStep hash (key.getD 3 0)
  let hash := djbStep hash (key.getD 4 0)
  let hash := djbStep hash (key.getD 5 0)
  let hash := djbStep hash (key.getD 6 0)
  djbStep hash (key.getD 7 0)

/-- The loop over blocks of eight, and the `switch` behind it. -/
def djbUnrolled (hash : UInt32) (key : List UInt8) : UInt32 :=
  if 8 ≤ key.length then djbUnrolled (djbBlock hash key) (key.drop 8)
  else djbRemainder key.length hash key
termination_by key.length
decreasing_by
  rw [List.length_drop]
  omega

def djbHash (key : List UInt8) : UInt32 := djbUnrolled 5381 key

theorem djbStep_toNat (hash : UInt32) (key : UInt8) :
    (djbStep hash key).toNat = (hash.toNat * 33 + key.toNat) % 2 ^ 32 := by
  have hshift : (hash <<< 5).toNat = hash.toNat * 32 % 2 ^ 32 := by
    rw [UInt32.toNat_shiftLeft, Nat.shiftLeft_eq]
    rfl
  rw [djbStep, UInt32.toNat_add, UInt32.toNat_add, hshift, UInt8.toNat_toUInt32]
  omega

theorem djbRemainder_eq (hash : UInt32) (key : List UInt8) :
    djbRemainder key.length hash key = key.foldl djbStep hash := by
  induction key generalizing hash with
  | nil => rfl
  | cons c rest ih => exact ih (djbStep hash c)

theorem djbBlock_eq (hash : UInt32) {key : List UInt8} (hkey : 8 ≤ key.length) :
    djbBlock hash key = (key.take 8).foldl djbStep hash := by
  have htake : key.take 8 = (List.range 8).map fun i => key.getD i 0 := by
    refine List.ext_getElem (by simp [hkey]) fun i hi _ => ?_
    rw [List.length_take, Nat.lt_min] at hi
    simp [hi.2]
  rw [htake]
  rfl

/-- Unrolling drops no byte and takes none twice. -/
theorem djbUnrolled_eq (hash : UInt32) (key : List UInt8) :
    djbUnrolled hash key = key.foldl djbStep hash := by
  fun_induction djbUnrolled hash key with
  | case1 hash key hkey ih =>
      rw [ih, djbBlock_eq hash hkey, ← List.foldl_append, List.take_append_drop]
  | case2 hash key hshort => exact djbRemainder_eq hash key

theorem foldl_djbStep_toNat (hash : UInt32) (key : List UInt8) :
    (key.foldl djbStep hash).toNat =
      key.foldl (fun h c => (h * 33 + c.toNat) % 2 ^ 32) hash.toNat := by
  induction key generalizing hash with
  | nil => rfl
  | cons c rest ih => rw [List.foldl_cons, List.foldl_cons, ih, djbStep_toNat]

/-- The unrolled hash is the plain one. -/
theorem djbHash_toNat (key : List UInt8) :
    (djbHash key).toNat = key.foldl (fun h c => (h * 33 + c.toNat) % 2 ^ 32) 5381 := by
  rw [djbHash, djbUnrolled_eq, foldl_djbStep_toNat]
  rfl

end ServiceFrame
