import Mathlib.Algebra.BigOperators.Intervals
import Mathlib.Algebra.Order.Group.Nat
import ServiceFrame.DaoProxy.XTimer

/-! # Where the timers are

A timer of the first level is in the list of the tick at which it is due. A timer
of a higher level is in the list that is cascaded at a tick before that. Between
the calls of the container every timer the id map holds is in one of the lists.
-/

namespace ServiceFrame

open Foundation

namespace TimerContainer

/-! ## Placement -/

theorem and_tvrMask (x : Nat) : x &&& tvrMask = x % 256 :=
  Nat.and_two_pow_sub_one_eq_mod x 8

theorem and_tvnMask (x : Nat) : x &&& tvnMask = x % 64 :=
  Nat.and_two_pow_sub_one_eq_mod x 6

/-- The ticks from one cascade of a level above the first to its next. -/
def span (level : Nat) : Nat := 2 ^ (tvrBits + level * tvnBits)

theorem span_pos (level : Nat) : 0 < span level := Nat.two_pow_pos _

theorem span_succ (level : Nat) : span (level + 1) = 64 * span level := by
  rw [span, span, Nat.add_mul, Nat.one_mul, ← Nat.add_assoc, Nat.pow_add, Nat.mul_comm]
  rfl

/-- The list `head` is one for a timer: due at a tick of the first level, or
cascaded, not before `bound`, at a tick that is not behind it. -/
inductive Placed (jiffies : Nat) (bound : Nat → Nat) (expires : Int) (head : Nat) : Prop
  | near (due : Nat) (hdue : (due : Int) = max expires jiffies) (hless : due < jiffies + 256)
      (hhead : head = due % 256)
  | far (level turn : Nat) (hlevel : level < 4) (hbound : bound level ≤ turn * span level)
      (hless : turn * span level < jiffies + 64 * span level)
      (hle : ((turn * span level : Nat) : Int) ≤ expires)
      (hhead : head = 256 + 64 * level + turn % 64)

/-- No cascade of the tick is to come for the levels below `n`. -/
def doneTo (n jiffies : Nat) (level : Nat) : Nat := if level < n then jiffies + 1 else jiffies

variable {jiffies head : Nat} {expires : Int} {bound : Nat → Nat}

theorem Placed.mono {weaker : Nat → Nat} (hplaced : Placed jiffies bound expires head)
    (hweaker : ∀ level, level < 4 → weaker level ≤ bound level) :
    Placed jiffies weaker expires head := by
  cases hplaced with
  | near due hdue hless hhead => exact .near due hdue hless hhead
  | far level turn hlevel hbound hless hle hhead =>
      exact .far level turn hlevel ((hweaker level hlevel).trans hbound) hless hle hhead

/-- In the list of the tick only what is due is. -/
theorem Placed.due (hplaced : Placed jiffies bound expires (jiffies % 256)) :
    expires ≤ jiffies := by
  cases hplaced with
  | near due hdue hless hhead => omega
  | far level turn hlevel hbound hless hle hhead => omega

/-- What is in another list is not due, and rightly placed for the next tick. -/
theorem Placed.wait (hplaced : Placed jiffies (doneTo 4 jiffies) expires head)
    (hother : head ≠ jiffies % 256) :
    (jiffies : Int) < expires ∧ Placed (jiffies + 1) (doneTo 0 (jiffies + 1)) expires head := by
  cases hplaced with
  | near due hdue hless hhead =>
      have hlate : due ≠ jiffies := by
        rintro rfl
        exact hother hhead
      refine ⟨by omega, .near due ?_ (by omega) hhead⟩
      push_cast
      omega
  | far level turn hlevel hbound hless hle hhead =>
      rw [doneTo, if_pos hlevel] at hbound
      refine ⟨by omega, .far level turn hlevel ?_ (by omega) hle hhead⟩
      rw [doneTo, if_neg (Nat.not_lt_zero level)]
      exact hbound

/-- The list that a level cascades at the tick. -/
def cascadeHead (level jiffies : Nat) : Nat := 256 + 64 * level + jiffies / span level % 64

/-- A list is cascaded at the tick for which its timers are placed there. -/
theorem Placed.turn_eq {level turn : Nat} (haligned : jiffies % span level = 0)
    (hbound : jiffies ≤ turn * span level) (hless : turn * span level < jiffies + 64 * span level)
    (hsame : turn % 64 = jiffies / span level % 64) : turn * span level = jiffies := by
  have hpos := span_pos level
  obtain ⟨now, rfl⟩ : ∃ now, jiffies = now * span level :=
    ⟨_, (Nat.div_mul_cancel (Nat.dvd_of_mod_eq_zero haligned)).symm⟩
  rw [Nat.mul_div_cancel _ hpos] at hsame
  have hlower : now ≤ turn := Nat.le_of_mul_le_mul_right hbound hpos
  rw [← Nat.add_mul] at hless
  have hupper : turn < now + 64 := Nat.lt_of_mul_lt_mul_right hless
  have hturn : turn = now := by omega
  rw [hturn]

/-- What is cascaded at the tick is not behind it. -/
theorem Placed.cascaded {level : Nat} (hlevel : level < 4)
    (hplaced : Placed jiffies (doneTo level jiffies) expires (cascadeHead level jiffies))
    (haligned : jiffies % span level = 0) : (jiffies : Int) ≤ expires := by
  generalize hhead : cascadeHead level jiffies = head at hplaced
  unfold cascadeHead at hhead
  cases hplaced with
  | near due hdue hless hnear => omega
  | far other turn hother hbound hless hle hfar =>
      have hsame : other = level := by omega
      subst hsame
      rw [doneTo, if_neg (Nat.lt_irrefl _)] at hbound
      have hturn := Placed.turn_eq haligned hbound hless (by omega)
      rw [hturn] at hle
      exact hle

/-- Once its list is cascaded, nothing of a level is to be cascaded at the tick. -/
theorem Placed.uncascaded {level : Nat}
    (hplaced : Placed jiffies (doneTo level jiffies) expires head)
    (haligned : jiffies % span level = 0) (hother : head ≠ cascadeHead level jiffies) :
    Placed jiffies (doneTo (level + 1) jiffies) expires head := by
  unfold cascadeHead at hother
  cases hplaced with
  | near due hdue hless hhead => exact .near due hdue hless hhead
  | far other turn hlevel hbound hless hle hhead =>
      refine .far other turn hlevel ?_ hless hle hhead
      unfold doneTo at hbound ⊢
      by_cases hsame : other = level
      · subst hsame
        rw [if_neg (Nat.lt_irrefl _)] at hbound
        rw [if_pos (Nat.lt_succ_self _)]
        apply Nat.lt_of_le_of_ne hbound
        intro hnow
        rw [hnow, Nat.mul_div_cancel _ (span_pos other)] at hother
        exact hother hhead
      · by_cases hlow : other < level
        · rw [if_pos hlow] at hbound
          rw [if_pos (Nat.lt_succ_of_lt hlow)]
          exact hbound
        · rw [if_neg hlow] at hbound
          rw [if_neg (by omega)]
          exact hbound

/-- At a tick that is none of theirs the levels need no cascade. -/
theorem Placed.skip {n : Nat} (hplaced : Placed jiffies (doneTo n jiffies) expires head)
    (hskip : ∀ level, n ≤ level → jiffies % span level ≠ 0) :
    Placed jiffies (doneTo 4 jiffies) expires head := by
  cases hplaced with
  | near due hdue hless hhead => exact .near due hdue hless hhead
  | far level turn hlevel hbound hless hle hhead =>
      refine .far level turn hlevel ?_ hless hle hhead
      unfold doneTo at hbound ⊢
      rw [if_pos hlevel]
      by_cases hlow : level < n
      · rw [if_pos hlow] at hbound
        exact hbound
      · rw [if_neg hlow] at hbound
        apply Nat.lt_of_le_of_ne hbound
        intro hnow
        apply hskip level (Nat.le_of_not_lt hlow)
        rw [hnow]
        exact Nat.mul_mod_left turn (span level)

/-- `slotOf`, without the words of the machine. -/
theorem slotOf_eq (hjiffies : jiffies < 2 ^ 63) (hexpires : expires < 2 ^ 63)
    (hpast : -2 ^ 63 ≤ expires - jiffies) :
    slotOf jiffies expires =
      if expires < jiffies then jiffies % 256
      else if expires < jiffies + 2 ^ 8 then expires.toNat % 256
      else if expires < jiffies + 2 ^ 14 then 256 + expires.toNat / 2 ^ 8 % 64
      else if expires < jiffies + 2 ^ 20 then 320 + expires.toNat / 2 ^ 14 % 64
      else if expires < jiffies + 2 ^ 26 then 384 + expires.toNat / 2 ^ 20 % 64
      else 448 + min expires.toNat (jiffies + (2 ^ 32 - 1)) / 2 ^ 26 % 64 := by
  simp only [slotOf, and_tvrMask, and_tvnMask, tvrSize, tvnSize, tvrBits, tvnBits,
    Nat.shiftRight_eq_div_pow, Nat.shiftLeft_eq, Nat.one_mul, Nat.reduceAdd, Nat.reduceMul]
  by_cases hlate : expires < jiffies
  · -- a late timer's distance wraps, which the source sees by the sign
    have hidx : 2 ^ 63 ≤ ((expires % 2 ^ 64).toNat + (2 ^ 64 - jiffies)) % 2 ^ 64 := by omega
    rw [if_pos hlate, if_neg (by omega), if_neg (by omega), if_neg (by omega), if_neg (by omega),
      if_pos hidx]
  · obtain ⟨due, rfl⟩ : ∃ due : Nat, expires = due := ⟨expires.toNat, by omega⟩
    have hdue : ((due : Int) % 2 ^ 64).toNat = due := by omega
    have hidx : (due + (2 ^ 64 - jiffies)) % 2 ^ 64 = due - jiffies := by omega
    rw [hdue, hidx, if_neg hlate, Int.toNat_natCast]
    split_ifs <;> omega

theorem slotOf_lt (hjiffies : jiffies < 2 ^ 63) (hexpires : expires < 2 ^ 63)
    (hpast : -2 ^ 63 ≤ expires - jiffies) : slotOf jiffies expires < headSize := by
  rw [slotOf_eq hjiffies hexpires hpast, show headSize = 512 from rfl]
  split_ifs <;> omega

/-- `schedule_i` places a timer, behind every cascade of the tick. -/
theorem slotOf_placed (hjiffies : jiffies < 2 ^ 63) (hexpires : expires < 2 ^ 63)
    (hpast : -2 ^ 63 ≤ expires - jiffies) :
    Placed jiffies (fun _ => jiffies + 1) expires (slotOf jiffies expires) := by
  rw [slotOf_eq hjiffies hexpires hpast]
  have hspan : span 0 = 2 ^ 8 ∧ span 1 = 2 ^ 14 ∧ span 2 = 2 ^ 20 ∧ span 3 = 2 ^ 26 :=
    ⟨rfl, rfl, rfl, rfl⟩
  obtain ⟨hzero, hone, htwo, hthree⟩ := hspan
  split_ifs with hlate hnear hsecond hthird hfourth
  · exact .near jiffies (by omega) (by omega) rfl
  · exact .near expires.toNat (by omega) (by omega) rfl
  · refine .far 0 (expires.toNat / 2 ^ 8) (by decide) ?_ ?_ ?_ rfl
    all_goals rw [hzero]; omega
  · refine .far 1 (expires.toNat / 2 ^ 14) (by decide) ?_ ?_ ?_ rfl
    all_goals rw [hone]; omega
  · refine .far 2 (expires.toNat / 2 ^ 20) (by decide) ?_ ?_ ?_ rfl
    all_goals rw [htwo]; omega
  · refine .far 3 (min expires.toNat (jiffies + (2 ^ 32 - 1)) / 2 ^ 26) (by decide) ?_ ?_ ?_ rfl
    all_goals rw [hthree]; omega

/-! ## The wheel -/

variable {ids : IdMap}

/-- The id that the id map holds at an offset. -/
def holder (c : TimerContainer ids) (offset : Nat) : Option Nat := ids.holder c.datas offset

def IsHead (node : Nat) : Prop := node < headSize

/-- The timers that are held are in the lists or in `work`, which is what an
operation has in its hands; those in the lists are placed. -/
structure Wheel (c : TimerContainer ids) (slots : Nat → List Nat) (work : List Nat)
    (bound : Nat → Nat) : Prop where
  rings : c.links.Rings IsHead slots
  working : ∀ node ∈ work, ¬ IsHead node ∧ ∀ head, IsHead head → node ∉ slots head
  work_nodup : work.Nodup
  held : ∀ offset, (c.holder offset).isSome = true ↔
    headSize + offset ∈ work ∨ ∃ head, IsHead head ∧ headSize + offset ∈ slots head
  placed : ∀ head, IsHead head → ∀ node ∈ slots head,
    Placed c.timerJiffies bound (c.getTimer node).expires head
  expires_lt : ∀ offset, (c.holder offset).isSome = true → (c.timers offset).expires < 2 ^ 63
  count : c.timerCount = ∑ head ∈ Finset.range headSize, (slots head).length + work.length
  jiffies_lt : c.timerJiffies < 2 ^ 63

theorem sum_update (slots : Nat → List Nat) {head : Nat} (hhead : IsHead head)
    (nodes : List Nat) :
    ∑ other ∈ Finset.range headSize, (Function.update slots head nodes other).length +
        (slots head).length =
      ∑ other ∈ Finset.range headSize, (slots other).length + nodes.length := by
  have hlengths : (fun other => (Function.update slots head nodes other).length) =
      Function.update (fun other => (slots other).length) head nodes.length := by
    funext other
    by_cases hother : other = head
    · subst hother
      simp
    · simp [hother]
  have hmem : head ∈ Finset.range headSize := Finset.mem_range.mpr hhead
  have hsplit := Finset.sum_erase_add (Finset.range headSize) (fun other => (slots other).length)
    hmem
  rw [hlengths, Finset.sum_update_of_mem hmem, ← hsplit, Finset.sdiff_singleton_eq_erase]
  omega

namespace Wheel

variable {c : TimerContainer ids} {slots : Nat → List Nat} {work : List Nat} {node : Nat}

theorem mono {weaker : Nat → Nat} (hwheel : c.Wheel slots work bound)
    (hweaker : ∀ level, level < 4 → weaker level ≤ bound level) : c.Wheel slots work weaker :=
  { hwheel with
    placed := fun head hhead node hnode => (hwheel.placed head hhead node hnode).mono hweaker }

/-- A node of the wheel is the entry of the offset behind the heads. -/
theorem offset_eq (hnode : ¬ IsHead node) : headSize + (node - headSize) = node := by
  unfold IsHead at hnode
  omega

theorem work_held (hwheel : c.Wheel slots work bound) (hnode : node ∈ work) :
    (c.holder (node - headSize)).isSome = true := by
  rw [hwheel.held, offset_eq (hwheel.working node hnode).1]
  exact Or.inl hnode

theorem slot_held (hwheel : c.Wheel slots work bound) (hhead : IsHead head)
    (hnode : node ∈ slots head) : (c.holder (node - headSize)).isSome = true := by
  rw [hwheel.held, offset_eq (hwheel.rings.node head hhead node hnode)]
  exact Or.inr ⟨head, hhead, hnode⟩

/-- Timers go between a list and the hands. -/
theorem move (hwheel : c.Wheel slots work bound) (hhead : IsHead head) {links : Links Nat}
    {nodes rest : List Nat} (hrings : links.Rings IsHead (Function.update slots head nodes))
    (hperm : (nodes ++ rest).Perm (slots head ++ work))
    (hplaced : ∀ x ∈ nodes, Placed c.timerJiffies bound (c.getTimer x).expires head) :
    (c.withLinks links).Wheel (Function.update slots head nodes) rest bound := by
  have hnodup : (slots head ++ work).Nodup := by
    apply (List.nodup_cons.mp (hwheel.rings.ring head hhead).nodup).2.append hwheel.work_nodup
    intro x hslot hwork
    exact (hwheel.working x hwork).2 head hhead hslot
  obtain ⟨-, hrestNodup, hapart⟩ := List.nodup_append.mp (hperm.nodup_iff.mpr hnodup)
  -- the list and the hands have the same timers between them as before
  have hmem : ∀ x, x ∈ nodes ∨ x ∈ rest ↔ x ∈ slots head ∨ x ∈ work := by
    intro x
    rw [← List.mem_append, hperm.mem_iff, List.mem_append]
  refine ⟨hrings, ?_, hrestNodup, ?_, ?_, hwheel.expires_lt, ?_, hwheel.jiffies_lt⟩
  · intro x hx
    have hold := (hmem x).mp (Or.inr hx)
    refine ⟨?_, ?_⟩
    · rcases hold with hslot | hwork
      · exact hwheel.rings.node head hhead x hslot
      · exact (hwheel.working x hwork).1
    · intro other hother hin
      by_cases hsame : other = head
      · subst hsame
        rw [Function.update_self] at hin
        exact hapart x hin x hx rfl
      · rw [Function.update_of_ne hsame] at hin
        rcases hold with hslot | hwork
        · exact hsame (hwheel.rings.apart other hother head hhead x hin hslot)
        · exact (hwheel.working x hwork).2 other hother hin
  · intro offset
    apply (hwheel.held offset).trans
    constructor
    · rintro (hwork | ⟨other, hother, hin⟩)
      · rcases (hmem _).mpr (Or.inr hwork) with hnode | hrest
        · exact Or.inr ⟨head, hhead, by rwa [Function.update_self]⟩
        · exact Or.inl hrest
      · by_cases hsame : other = head
        · subst hsame
          rcases (hmem _).mpr (Or.inl hin) with hnode | hrest
          · exact Or.inr ⟨other, hother, by rwa [Function.update_self]⟩
          · exact Or.inl hrest
        · exact Or.inr ⟨other, hother, by rwa [Function.update_of_ne hsame]⟩
    · rintro (hrest | ⟨other, hother, hin⟩)
      · rcases (hmem _).mp (Or.inr hrest) with hslot | hwork
        · exact Or.inr ⟨head, hhead, hslot⟩
        · exact Or.inl hwork
      · by_cases hsame : other = head
        · subst hsame
          rw [Function.update_self] at hin
          rcases (hmem _).mp (Or.inl hin) with hslot | hwork
          · exact Or.inr ⟨other, hother, hslot⟩
          · exact Or.inl hwork
        · rw [Function.update_of_ne hsame] at hin
          exact Or.inr ⟨other, hother, hin⟩
  · intro other hother x hx
    by_cases hsame : other = head
    · subst hsame
      rw [Function.update_self] at hx
      exact hplaced x hx
    · rw [Function.update_of_ne hsame] at hx
      exact hwheel.placed other hother x hx
  · have hsum := sum_update slots hhead nodes
    have hlength := hperm.length_eq
    have hcount := hwheel.count
    rw [List.length_append, List.length_append] at hlength
    change c.timerCount = _
    omega

/-- `schedule_i` takes a timer from the hands to a list. -/
theorem scheduleI (hwheel : c.Wheel slots (node :: work) bound)
    (hpast : -2 ^ 63 ≤ (c.getTimer node).expires - c.timerJiffies)
    (hbound : ∀ level, level < 4 → bound level ≤ c.timerJiffies + 1) :
    ∃ head, IsHead head ∧ (c.scheduleI node).links = c.links.insertBefore node head ∧
      (c.scheduleI node).Wheel (Function.update slots head (slots head ++ [node])) work bound := by
  obtain ⟨hnotHead, hfree⟩ := hwheel.working node List.mem_cons_self
  have hexpires : (c.getTimer node).expires < 2 ^ 63 :=
    hwheel.expires_lt _ (hwheel.work_held List.mem_cons_self)
  have hhead : IsHead (slotOf c.timerJiffies (c.getTimer node).expires) :=
    slotOf_lt hwheel.jiffies_lt hexpires hpast
  have hplaced := (slotOf_placed hwheel.jiffies_lt hexpires hpast).mono hbound
  refine ⟨_, hhead, rfl, ?_⟩
  refine hwheel.move hhead (hwheel.rings.insertBefore hhead hnotHead hfree) ?_ ?_
  · rw [List.append_assoc, List.singleton_append]
  · intro x hx
    rcases List.mem_append.mp hx with hold | hnew
    · exact hwheel.placed _ hhead x hold
    · rw [List.mem_singleton] at hnew
      subst hnew
      exact hplaced

/-- A timer is taken from its list. -/
theorem unlink (hwheel : c.Wheel slots work bound) (hhead : IsHead head) {front back : List Nat}
    (hslot : slots head = front ++ node :: back) :
    (c.withLinks (c.links.unlink node)).Wheel (Function.update slots head (front ++ back))
      (node :: work) bound := by
  refine hwheel.move hhead (hwheel.rings.unlink hhead hslot) ?_ ?_
  · rw [hslot]
    exact List.perm_middle.trans (List.perm_middle.symm.append_right work)
  · intro x hx
    have hsub : (front ++ back).Sublist (slots head) := by
      rw [hslot]
      exact (List.Sublist.refl front).append (List.sublist_cons_self node back)
    exact hwheel.placed head hhead x (hsub.mem hx)

/-- A timer in the hands is deleted from the id map. -/
theorem delete (hwheel : c.Wheel slots (node :: work) bound) {datas : ids.State}
    (hdatas : ids.holder datas =
      Function.update (ids.holder c.datas) (node - headSize) none) :
    Wheel { c with datas := datas, timerCount := c.timerCount - 1 } slots work bound := by
  obtain ⟨hnotHead, hfree⟩ := hwheel.working node List.mem_cons_self
  obtain ⟨hnew, hnodup⟩ := List.nodup_cons.mp hwheel.work_nodup
  have hheld : ∀ offset, (ids.holder datas offset).isSome = true ↔
      headSize + offset ≠ node ∧ (c.holder offset).isSome = true := by
    intro offset
    rw [hdatas]
    by_cases hoffset : offset = node - headSize
    · simp [hoffset, offset_eq hnotHead]
    · have hne : headSize + offset ≠ node := by omega
      simp [hoffset, hne, holder]
  refine ⟨hwheel.rings, fun other hother => hwheel.working other (List.mem_cons_of_mem node hother),
    hnodup, ?_, hwheel.placed, ?_, ?_, hwheel.jiffies_lt⟩
  · intro offset
    apply (hheld offset).trans
    rw [hwheel.held]
    constructor
    · rintro ⟨hne, hwork | hslot⟩
      · exact Or.inl ((List.mem_cons.mp hwork).resolve_left hne)
      · exact Or.inr hslot
    · rintro (hwork | ⟨head, hhead, hslot⟩)
      · refine ⟨?_, Or.inl (List.mem_cons_of_mem node hwork)⟩
        rintro rfl
        exact hnew hwork
      · refine ⟨?_, Or.inr ⟨head, hhead, hslot⟩⟩
        rintro rfl
        exact hfree head hhead hslot
  · intro offset hoffset
    exact hwheel.expires_lt offset ((hheld offset).mp hoffset).2
  · have hcount := hwheel.count
    rw [List.length_cons] at hcount
    change c.timerCount - 1 = _
    omega

/-- A timer in the hands is set. -/
theorem retime (hwheel : c.Wheel slots (node :: work) bound) {timer : Timer}
    (hexpires : timer.expires < 2 ^ 63) :
    Wheel { c with timers := Function.update c.timers (node - headSize) timer } slots
      (node :: work) bound := by
  obtain ⟨hnotHead, hfree⟩ := hwheel.working node List.mem_cons_self
  refine ⟨hwheel.rings, hwheel.working, hwheel.work_nodup, hwheel.held, ?_, ?_, hwheel.count,
    hwheel.jiffies_lt⟩
  · intro head hhead x hx
    -- a node in a list is not the one in the hands, so its timer is another
    have hother : x - headSize ≠ node - headSize := by
      have hx' := offset_eq (hwheel.rings.node head hhead x hx)
      have hnode := offset_eq hnotHead
      intro hsame
      rw [hsame, hnode] at hx'
      exact hfree head hhead (hx' ▸ hx)
    dsimp only [getTimer]
    rw [Function.update_of_ne hother]
    exact hwheel.placed head hhead x hx
  · intro offset hoffset
    dsimp only
    by_cases hsame : offset = node - headSize
    · rw [hsame, Function.update_self]
      exact hexpires
    · rw [Function.update_of_ne hsame]
      exact hwheel.expires_lt offset hoffset

/-- A timer enters the id map, and the hands. -/
theorem enter (hwheel : c.Wheel slots [] bound) {offset id : Nat} {datas : ids.State}
    (hfree : c.holder offset = none)
    (hdatas : ids.holder datas = Function.update (ids.holder c.datas) offset (some id))
    {timer : Timer} (hexpires : timer.expires < 2 ^ 63) (serials : Nat) :
    Wheel { c with
      datas := datas
      timers := Function.update c.timers offset timer
      serials := serials
      timerCount := c.timerCount + 1 } slots [headSize + offset] bound := by
  -- a free offset is in no list
  have hout : ∀ head, IsHead head → headSize + offset ∉ slots head := by
    intro head hhead hin
    have hheld := (hwheel.held offset).mpr (Or.inr ⟨head, hhead, hin⟩)
    rw [hfree] at hheld
    cases hheld
  have hheld : ∀ other, (ids.holder datas other).isSome = true ↔
      other = offset ∨ (c.holder other).isSome = true := by
    intro other
    rw [hdatas]
    by_cases hother : other = offset
    · subst hother
      simp
    · simp [hother, holder]
  refine ⟨hwheel.rings, ?_, List.nodup_singleton _, ?_, ?_, ?_, ?_, hwheel.jiffies_lt⟩
  · intro node hnode
    rw [List.mem_singleton] at hnode
    subst hnode
    exact ⟨Nat.not_lt.mpr (Nat.le_add_right headSize offset), hout⟩
  · intro other
    apply (hheld other).trans
    rw [hwheel.held, List.mem_singleton, Nat.add_left_cancel_iff]
    simp
  · intro head hhead node hnode
    have hother : node - headSize ≠ offset := by
      rintro rfl
      rw [offset_eq (hwheel.rings.node head hhead node hnode)] at hout
      exact hout head hhead hnode
    dsimp only [getTimer]
    rw [Function.update_of_ne hother]
    exact hwheel.placed head hhead node hnode
  · intro other hother
    dsimp only
    by_cases hsame : other = offset
    · subst hsame
      rw [Function.update_self]
      exact hexpires
    · rw [Function.update_of_ne hsame]
      exact hwheel.expires_lt other (((hheld other).mp hother).resolve_left hsame)
  · have hcount := hwheel.count
    rw [List.length_nil] at hcount
    rw [List.length_singleton]
    change c.timerCount + 1 = _
    omega

/-- All of a list is taken, and its head linked with itself. -/
theorem reset (hwheel : c.Wheel slots [] bound) (hhead : IsHead head) :
    (c.withLinks (c.links.reset head)).Wheel (Function.update slots head []) (slots head)
      bound := by
  refine hwheel.move hhead (hwheel.rings.reset hhead) ?_ ?_
  · rw [List.nil_append, List.append_nil]
  · intro x hx
    cases hx

end Wheel

/-! ## Cascades -/

section Cascades

variable {c : TimerContainer ids} {slots : Nat → List Nat} {work : List Nat}

theorem withLinks_self (c : TimerContainer ids) : c.withLinks c.links = c := rfl

/-- The loop of `cascade` schedules all of its list, and ends: each node still
leads to the next one when its turn comes. -/
theorem cascadeLoop_spec {thisNodId fuel : Nat} (hthis : IsHead thisNodId)
    (hwheel : c.Wheel slots work bound)
    (hbound : ∀ level, level < 4 → bound level ≤ c.timerJiffies + 1)
    (hleads : c.links.Leads thisNodId work)
    (hdue : ∀ node ∈ work, (c.timerJiffies : Int) ≤ (c.getTimer node).expires)
    (hfuel : work.length < fuel) :
    ∃ links after, cascadeLoop thisNodId fuel (work.headD thisNodId) c =
        some (c.withLinks links) ∧ (c.withLinks links).Wheel after [] bound := by
  induction work generalizing c slots fuel with
  | nil =>
      obtain ⟨left, rfl⟩ : ∃ left, fuel = left + 1 :=
        Nat.exists_eq_succ_of_ne_zero (Nat.ne_of_gt hfuel)
      refine ⟨c.links, slots, ?_, hwheel⟩
      rw [cascadeLoop, List.headD_nil, if_pos rfl, withLinks_self]
  | cons node rest ih =>
      obtain ⟨left, rfl⟩ : ∃ left, fuel = left + 1 := ⟨fuel - 1, by omega⟩
      obtain ⟨hnotHead, hfree⟩ := hwheel.working node List.mem_cons_self
      obtain ⟨hnew, -⟩ := List.nodup_cons.mp hwheel.work_nodup
      have hnow := hdue node List.mem_cons_self
      obtain ⟨head, hhead, hlinks, hnext⟩ := hwheel.scheduleI (by omega) hbound
      -- placing `node` writes its own `next` and that of the last node of a list; the
      -- nodes still to be scheduled are neither
      have hrest : (c.scheduleI node).links.Leads thisNodId rest := by
        apply hleads.2.congr
        intro other hother
        rw [hlinks]
        obtain ⟨hotherNode, hotherFree⟩ := hwheel.working other (List.mem_cons_of_mem node hother)
        apply Links.insertBefore_next_ne
        · rintro rfl
          exact hnew hother
        · rintro rfl
          rcases List.mem_cons.mp (hwheel.rings.ring head hhead).path.prev_mem with hsame | hin
          · rw [hsame] at hotherNode
            exact hotherNode hhead
          · exact hotherFree head hhead hin
      obtain ⟨links, after, hloop, hafter⟩ := ih hnext hbound hrest
        (fun other hother => hdue other (List.mem_cons_of_mem node hother))
        (Nat.lt_of_succ_lt_succ hfuel)
      refine ⟨links, after, ?_, hafter⟩
      have hne : node ≠ thisNodId := by
        rintro rfl
        exact hnotHead hthis
      rw [cascadeLoop, List.headD_cons, if_neg hne, hleads.1, hloop]
      rfl

theorem index_eq (c : TimerContainer ids) (level : Nat) :
    c.index level = c.timerJiffies / span level % 64 := by
  rw [index, and_tvnMask, Nat.shiftRight_eq_div_pow, span]

theorem index_zero {level : Nat} (haligned : c.timerJiffies % span level = 0) :
    c.index level = 0 ↔ c.timerJiffies % span (level + 1) = 0 := by
  obtain ⟨now, hnow⟩ : ∃ now, c.timerJiffies = now * span level :=
    ⟨_, (Nat.div_mul_cancel (Nat.dvd_of_mod_eq_zero haligned)).symm⟩
  have hpos := span_pos level
  rw [index_eq, hnow, Nat.mul_div_cancel _ hpos, span_succ, Nat.mul_mod_mul_right,
    Nat.mul_eq_zero]
  exact ⟨Or.inl, fun hzero => hzero.resolve_right (Nat.ne_of_gt hpos)⟩

theorem not_aligned {level above : Nat} (hno : jiffies % span level ≠ 0) (hle : level ≤ above) :
    jiffies % span above ≠ 0 := by
  intro haligned
  apply hno
  have hdvd : span level ∣ span above :=
    Nat.pow_dvd_pow 2 (Nat.add_le_add_left (Nat.mul_le_mul_right tvnBits hle) tvrBits)
  exact Nat.mod_eq_zero_of_dvd (hdvd.trans (Nat.dvd_of_mod_eq_zero haligned))

theorem doneTo_le (n jiffies level : Nat) : doneTo n jiffies level ≤ jiffies + 1 := by
  unfold doneTo
  split <;> omega

/-- A cascade empties the list of its level, and comes to an end. -/
theorem cascade_spec {level : Nat} (hlevel : level < 4)
    (hwheel : c.Wheel slots [] (doneTo level c.timerJiffies))
    (haligned : c.timerJiffies % span level = 0) :
    ∃ links after, c.cascade (tv level) (c.index level) = some (c.withLinks links) ∧
      (c.withLinks links).Wheel after [] (doneTo (level + 1) c.timerJiffies) := by
  have hhead : IsHead (cascadeHead level c.timerJiffies) := by
    have hless := Nat.mod_lt (c.timerJiffies / span level) (show 0 < 64 by decide)
    unfold IsHead cascadeHead
    rw [show headSize = 512 from rfl]
    omega
  have hthis : tv level + c.index level = cascadeHead level c.timerJiffies := by
    rw [index_eq, cascadeHead, tv, Nat.mul_comm level]
    rfl
  have hplaced := hwheel.placed _ hhead
  generalize hnode : cascadeHead level c.timerJiffies = head at hhead hthis hplaced
  have hring := hwheel.rings.ring head hhead
  have hout := (List.nodup_cons.mp hring.nodup).1
  have hreset := hwheel.reset hhead
  -- the only list of the level that had to be cascaded at this tick is empty now
  have hdone : (c.withLinks (c.links.reset head)).Wheel (Function.update slots head [])
      (slots head) (doneTo (level + 1) c.timerJiffies) := by
    refine { hreset with placed := ?_ }
    intro other hother node hmem
    have hne : other ≠ head := by
      rintro rfl
      simp at hmem
    exact (hreset.placed other hother node hmem).uncascaded haligned (hnode ▸ hne)
  have hleads : (c.links.reset head).Leads head (slots head) := by
    apply hring.path.leads.congr
    intro node hmem
    rw [Links.reset, Links.setPrev_next, Links.setNext_next_ne]
    rintro rfl
    exact hout hmem
  have hcount := hreset.count
  obtain ⟨links, after, hloop, hafter⟩ := cascadeLoop_spec hhead hdone
    (fun level _ => doneTo_le _ _ level) hleads
    (fun node hmem => Placed.cascaded hlevel (hnode ▸ hplaced node hmem) haligned)
    (show (slots head).length < c.timerCount + 1 by
      change c.timerCount = _ at hcount
      omega)
  refine ⟨links, after, ?_, hafter⟩
  rw [cascade, hthis, hring.path.next_eq]
  exact hloop

/-- The cascades of the levels that the tick is aligned to leave nothing to be
cascaded at it. -/
theorem cascadeFrom_spec (levels n : Nat) (hlevels : n + levels = 4)
    (hwheel : c.Wheel slots [] (doneTo n c.timerJiffies))
    (haligned : c.timerJiffies % span n = 0) :
    ∃ links after, c.cascadeFrom n levels = some (c.withLinks links) ∧
      (c.withLinks links).Wheel after [] (doneTo 4 c.timerJiffies) := by
  induction levels generalizing c slots n with
  | zero =>
      have hn : n = 4 := hlevels
      subst hn
      exact ⟨c.links, slots, rfl, hwheel⟩
  | succ levels ih =>
      obtain ⟨links, middle, hcascade, hmiddle⟩ := cascade_spec (by omega) hwheel haligned
      rw [cascadeFrom, hcascade, Option.bind_some]
      by_cases hzero : c.index n = 0
      · rw [if_pos hzero]
        exact ih (n + 1) (by omega) hmiddle ((index_zero haligned).mp hzero)
      · -- the source stops here: the higher levels are not aligned, and wait
        rw [if_neg hzero]
        refine ⟨links, middle, rfl, { hmiddle with placed := ?_ }⟩
        intro head hhead node hnode
        apply (hmiddle.placed head hhead node hnode).skip
        intro level hle
        exact not_aligned (fun hnext => hzero ((index_zero haligned).mpr hnext)) hle

theorem cascadeTimers_spec (hwheel : c.Wheel slots [] (doneTo 0 c.timerJiffies)) :
    ∃ links after, c.cascadeTimers = some (c.withLinks links) ∧
      (c.withLinks links).Wheel after [] (doneTo 4 c.timerJiffies) := by
  unfold cascadeTimers
  rw [and_tvrMask]
  by_cases hzero : c.timerJiffies % 256 = 0
  · rw [if_pos hzero]
    exact cascadeFrom_spec 4 0 rfl hwheel hzero
  · rw [if_neg hzero]
    refine ⟨c.links, slots, rfl, { hwheel with placed := ?_ }⟩
    intro head hhead node hnode
    apply (hwheel.placed head hhead node hnode).skip
    intro level _
    exact not_aligned (show c.timerJiffies % span 0 ≠ 0 from hzero) (Nat.zero_le level)

end Cascades

end TimerContainer

end ServiceFrame
