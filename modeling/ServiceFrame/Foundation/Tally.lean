import Mathlib.Algebra.BigOperators.Group.List.Basic
import ServiceFrame.Foundation.OrderedMap

/-! # Sums over a map

A map that is written through `map[key]`, which makes an entry when there is none, and the sum
of what its values weigh. A change of one value changes the sum by as much. The same for what
numbers below a bound pass a test.
-/

namespace ServiceFrame.Foundation

namespace OrderedMap

universe uKey uValue

variable {Key : Type uKey} {Value : Type uValue} [LinearOrder Key]

/-- `map[key]` is changed; it is `fresh` before when there was none. -/
def adjust (map : OrderedMap Key Value) (fresh : Value) (key : Key) (change : Value → Value) :
    OrderedMap Key Value :=
  map.set key (change ((map.find key).getD fresh))

theorem find_adjust (map : OrderedMap Key Value) (fresh : Value) (key other : Key)
    (change : Value → Value) : (map.adjust fresh key change).find other =
      if other = key then some (change ((map.find key).getD fresh)) else map.find other := by
  rw [adjust, find_set, Function.update_apply]

/-- What a reader finds who takes `fresh` for a value that is not there. -/
theorem getD_find_adjust (map : OrderedMap Key Value) (fresh : Value) (key other : Key)
    (change : Value → Value) : ((map.adjust fresh key change).find other).getD fresh =
      if other = key then change ((map.find other).getD fresh)
      else (map.find other).getD fresh := by
  rw [find_adjust]
  split
  next hsame => rw [hsame, Option.getD_some]
  next => rfl

section Total

variable {Weight : Type*} [AddCommMonoid Weight]

/-- What the values of the map weigh together. -/
def total (map : OrderedMap Key Value) (weigh : Value → Weight) : Weight :=
  (map.entries.map fun entry => weigh entry.2).sum

theorem total_set (map : OrderedMap Key Value) (weigh : Value → Weight) (key : Key)
    (value : Value) :
    (map.set key value).total weigh = weigh value + (map.erase key).total weigh := by
  have hsum := ((map.entries_set_perm key value).map fun entry => weigh entry.2).sum_eq
  rw [total, hsum, List.map_cons, List.sum_cons, total]

/-- The weight of one value and of the others. -/
theorem total_erase (map : OrderedMap Key Value) (weigh : Value → Weight) (key : Key) :
    map.total weigh = ((map.find key).elim 0 weigh) + (map.erase key).total weigh := by
  cases hfind : map.find key with
  | none => rw [erase_of_find_none hfind, Option.elim_none, zero_add]
  | some value =>
      have hsum := ((map.entries_erase_perm hfind).map fun entry => weigh entry.2).sum_eq
      rw [total, hsum, List.map_cons, List.sum_cons, Option.elim_some, total]

/-- A change that adds to each weight adds as much to the sum, when a fresh value weighs
nothing. -/
theorem total_adjust (map : OrderedMap Key Value) {weigh : Value → Weight} {fresh : Value}
    (hfresh : weigh fresh = 0) (key : Key) {change : Value → Value} {more : Weight}
    (hchange : ∀ value, weigh (change value) = weigh value + more) :
    (map.adjust fresh key change).total weigh = map.total weigh + more := by
  rw [adjust, total_set, hchange, map.total_erase weigh key]
  cases map.find key with
  | none => rw [Option.getD_none, Option.elim_none, hfresh, zero_add, zero_add, add_comm]
  | some value => rw [Option.getD_some, Option.elim_some, add_right_comm]

end Total

end OrderedMap

/-! ## Counts over numbers -/

/-- Where two tests differ for one number only, their counts differ by it. -/
theorem countP_range_of_ne (test other : Nat → Bool) {index bound : Nat} (hindex : index < bound)
    (hsame : ∀ number, number ≠ index → test number = other number) :
    (List.range bound).countP test + (if other index then 1 else 0) =
      (List.range bound).countP other + if test index then 1 else 0 := by
  have hperm := List.perm_cons_erase (List.mem_range.mpr hindex)
  have hrest : ((List.range bound).erase index).countP test =
      ((List.range bound).erase index).countP other := by
    apply List.countP_congr
    intro number hnumber
    rw [hsame number (List.nodup_range.mem_erase_iff.mp hnumber).1]
  rw [hperm.countP_eq test, hperm.countP_eq other, List.countP_cons, List.countP_cons, hrest]
  omega

end ServiceFrame.Foundation
