import Mathlib.Algebra.Group.Nat.Defs
import Mathlib.Logic.Function.Basic
import Mathlib.Data.List.Nodup
import Mathlib.Data.List.Count

/-! # The timeouts of the handlers

`sox::Countdown` keeps the timeout of each handler in one of nine slot lists, by
how far away it is; a click moves what came closer down to nearer slots. The
elements of a `std::list` keep their address when they are spliced, so the lists
hold addresses here and `m_iter_timo` of a handler is such an address.

Times are unbounded: `int` holds them as long as no sum overflows.
-/

namespace ServiceFrame

/-- `Countdown::Timeout`, an element of a slot list. -/
structure Timeout where
  fallidx : Nat
  handler : Nat
  count : Int
deriving DecidableEq

/-- `Countdown::Fall`. -/
structure Fall where
  elasped : Int
  fall : Int
  list : List Nat

namespace Fall

def erase (slot : Fall) (i : Nat) : Fall := { slot with list := slot.list.erase i }

/-- `insert(x)`, and the end of `splice(from, i)`. -/
def insert (slot : Fall) (i : Nat) : Fall := { slot with list := slot.list ++ [i] }

def addElasped (slot : Fall) (elasped : Int) : Fall :=
  { slot with elasped := slot.elasped + elasped }

def restart (slot : Fall) : Fall := { slot with elasped := 0 }

end Fall

structure Countdown where
  falls : Nat → Fall
  /-- What stands at an address, for the elements that were inserted. -/
  timeouts : Nat → Timeout
  /-- `m_iter_timo` of each handler; none is `null_iter()`. -/
  iterTimo : Nat → Option Nat
  /-- The address of the next element to be inserted. -/
  nextNode : Nat

namespace Countdown

/-- `TIME_CLICK`, in milliseconds. -/
def timeClick : Int := 500

/-- The falls that the constructor pushes back. -/
def thresholds : List Int :=
  [0, timeClick * 2, timeClick * 5, timeClick * 11, timeClick * 23, timeClick * 47,
    timeClick * 97, timeClick * 197, timeClick * 397]

/-- `m_falls_last_idx`. -/
def fallsLastIdx : Nat := thresholds.length - 1

def threshold (idx : Nat) : Int := thresholds.getD idx 0

/-- `Countdown()`, and no handler registered. -/
def init : Countdown where
  falls idx := { elasped := 0, fall := threshold idx, list := [] }
  timeouts _ := ⟨0, 0, 0⟩
  iterTimo _ := none
  nextNode := 0

def modifyFall (cd : Countdown) (idx : Nat) (edit : Fall → Fall) : Countdown :=
  { cd with falls := Function.update cd.falls idx (edit (cd.falls idx)) }

def setTimeout (cd : Countdown) (i : Nat) (timeout : Timeout) : Countdown :=
  { cd with timeouts := Function.update cd.timeouts i timeout }

def setIter (cd : Countdown) (handler : Nat) (pos : Option Nat) : Countdown :=
  { cd with iterTimo := Function.update cd.iterTimo handler pos }

/-- `m_falls[newidx].splice(m_falls[idx].m_list, i)`. -/
def splice (cd : Countdown) (newidx idx i : Nat) : Countdown :=
  (cd.modifyFall idx (Fall.erase · i)).modifyFall newidx (Fall.insert · i)

/-- The loop of `find_fall_idx`, from `i` down. -/
def findFallFrom (cd : Countdown) (timeout : Int) : Nat → Nat
  | 0 => 0
  | i + 1 => if timeout ≥ (cd.falls (i + 1)).fall then i + 1 else findFallFrom cd timeout i

def findFallIdx (cd : Countdown) (timeout : Int) (rbegin : Nat) : Nat :=
  findFallFrom cd timeout (if fallsLastIdx < rbegin then fallsLastIdx else rbegin)

/-- `size_t(-1)`. -/
def npos : Nat := 2 ^ 64 - 1

/-- `select_timeout(s, timeout)`. -/
def selectTimeout (cd : Countdown) (s : Nat) (timeout : Int) : Countdown :=
  if timeout < 0 then
    match cd.iterTimo s with
    | none => cd
    | some pos =>
        (cd.modifyFall (cd.timeouts pos).fallidx (Fall.erase · pos)).setIter s none
  else
    let newidx := cd.findFallIdx timeout npos
    let timeout := timeout + (cd.falls newidx).elasped
    match cd.iterTimo s with
    | none => -- not register, first time
        let pos := cd.nextNode
        (({ cd with nextNode := pos + 1 }.setTimeout pos ⟨newidx, s, timeout⟩).modifyFall newidx
          (Fall.insert · pos)).setIter s (some pos)
    | some pos =>
        if (cd.timeouts pos).fallidx ≠ newidx then
          (cd.splice newidx (cd.timeouts pos).fallidx pos).setTimeout pos
            { cd.timeouts pos with fallidx := newidx, count := timeout }
        else cd.setTimeout pos { cd.timeouts pos with count := timeout }

/-- The bottom of `click_elapse`: all of list 0 times out. Of `timeout_result`
only the handlers are recorded, which is what its elements are asked for. -/
def clickBottom (cd : Countdown) : Countdown × List Nat :=
  let handlers := (cd.falls 0).list.map fun i => (cd.timeouts i).handler
  ((handlers.foldl (fun cd handler => cd.setIter handler none) cd).modifyFall 0
    (fun slot => { slot with list := [] }), handlers)

/-- The body of the inner loop of `click_elapse`, at element `i` of list `idx`. -/
def visit (idx : Nat) (turn : Countdown × List Nat) (i : Nat) : Countdown × List Nat :=
  let (cd, result) := turn
  let timeout := cd.timeouts i
  let count := timeout.count - (cd.falls idx).elasped
  let cd := cd.setTimeout i { timeout with count := count }
  if count ≤ 0 then -- timeout
    ((cd.setIter timeout.handler none).modifyFall idx (Fall.erase · i),
      result ++ [timeout.handler])
  else
    let newidx := cd.findFallIdx count idx
    if newidx = idx then (cd, result) -- fall no change
    else
      ((cd.setTimeout i
          { timeout with fallidx := newidx, count := count + (cd.falls newidx).elasped }).splice
        newidx idx i, result)

/-- The body of the outer loop. The inner loop runs over the list as it is at
first: what it splices elsewhere goes to lower lists. -/
def clickFall (elasped : Int) (turn : Countdown × List Nat) (idx : Nat) : Countdown × List Nat :=
  let cd := turn.1.modifyFall idx (Fall.addElasped · elasped)
  if (cd.falls idx).elasped < (cd.falls idx).fall then (cd, turn.2)
  else
    let (cd, result) := (cd.falls idx).list.foldl (visit idx) (cd, turn.2)
    (cd.modifyFall idx Fall.restart, result)

/-- `click_elapse(result, elasped)`. -/
def clickElapse (cd : Countdown) (elasped : Int) : Countdown × List Nat :=
  (List.range' 1 fallsLastIdx).foldl (clickFall elasped) cd.clickBottom

/-! ## What a handler waits for -/

/-- The timeout that a handler is registered with. -/
def entry (cd : Countdown) (handler : Nat) : Option Timeout :=
  (cd.iterTimo handler).map cd.timeouts

/-- The lists, and the iterators of the handlers, belong together. -/
structure Linked (cd : Countdown) : Prop where
  listed : ∀ idx i, i ∈ (cd.falls idx).list ↔
    cd.iterTimo (cd.timeouts i).handler = some i ∧ (cd.timeouts i).fallidx = idx
  handler_eq : ∀ handler i, cd.iterTimo handler = some i → (cd.timeouts i).handler = handler
  fresh : ∀ handler i, cd.iterTimo handler = some i → i < cd.nextNode
  nodup : ∀ idx, (cd.falls idx).list.Nodup
  fall_eq : ∀ idx, (cd.falls idx).fall = threshold idx

variable {cd : Countdown}

theorem init_linked : init.Linked where
  listed := by simp [init]
  handler_eq := by simp [init]
  fresh := by simp [init]
  nodup := by simp [init]
  fall_eq := fun _ => rfl

/-- Each handler is in one list at most, and once. -/
def OnceListed (cd : Countdown) : Prop :=
  (∀ idx, (cd.falls idx).list.Nodup) ∧
    ∀ idx other i j, i ∈ (cd.falls idx).list → j ∈ (cd.falls other).list →
      (cd.timeouts i).handler = (cd.timeouts j).handler → idx = other ∧ i = j

theorem Linked.onceListed (hlinked : cd.Linked) : cd.OnceListed := by
  refine ⟨hlinked.nodup, ?_⟩
  intro idx other i j hi hj hsame
  obtain ⟨hiter, rfl⟩ := (hlinked.listed idx i).mp hi
  obtain ⟨hother, rfl⟩ := (hlinked.listed other j).mp hj
  rw [hsame, hother] at hiter
  cases hiter
  exact ⟨rfl, rfl⟩

/-- What stands at the address that a handler is registered with. -/
theorem Linked.item (hlinked : cd.Linked) {handler i : Nat}
    (hiter : cd.iterTimo handler = some i) :
    cd.timeouts i = ⟨(cd.timeouts i).fallidx, handler, (cd.timeouts i).count⟩ := by
  rw [← hlinked.handler_eq handler i hiter]

/-! ## Edits of one element -/

section Edits

variable {handler i idx : Nat} {count : Int} (hlinked : cd.Linked)
  (hiter : cd.iterTimo handler = some i) (hitem : cd.timeouts i = ⟨idx, handler, count⟩)

include hlinked hitem

theorem Linked.setCount (newCount : Int) : (cd.setTimeout i ⟨idx, handler, newCount⟩).Linked := by
  have hsame : ∀ j, ((cd.setTimeout i ⟨idx, handler, newCount⟩).timeouts j).handler =
        (cd.timeouts j).handler ∧
      ((cd.setTimeout i ⟨idx, handler, newCount⟩).timeouts j).fallidx =
        (cd.timeouts j).fallidx := by
    intro j
    by_cases hj : j = i
    · subst hj
      simp [setTimeout, hitem]
    · simp [setTimeout, hj]
  refine ⟨?_, ?_, hlinked.fresh, hlinked.nodup, hlinked.fall_eq⟩
  · intro other j
    rw [(hsame j).1, (hsame j).2]
    exact hlinked.listed other j
  · intro other j hj
    rw [(hsame j).1]
    exact hlinked.handler_eq other j hj

/-- The element is in its own list only. -/
theorem Linked.not_mem {other : Nat} (hother : other ≠ idx) : i ∉ (cd.falls other).list := by
  intro hmem
  have hwhere := ((hlinked.listed other i).mp hmem).2
  rw [hitem] at hwhere
  exact hother hwhere.symm

include hiter

/-- An element leaves its list, and its handler the registration. -/
theorem Linked.remove :
    ((cd.setIter handler none).modifyFall idx (Fall.erase · i)).Linked := by
  have hlist : ∀ other, (((cd.setIter handler none).modifyFall idx
      (Fall.erase · i)).falls other).list = (cd.falls other).list.erase i := by
    intro other
    by_cases hother : other = idx
    · subst hother
      simp [setIter, modifyFall, Fall.erase]
    · simp [setIter, modifyFall, hother, List.erase_of_not_mem (hlinked.not_mem hitem hother)]
  have hkept : ∀ other j, Function.update cd.iterTimo handler none other = some j →
      other ≠ handler ∧ cd.iterTimo other = some j := by
    intro other j hj
    by_cases hother : other = handler
    · subst hother
      simp at hj
    · exact ⟨hother, by simpa [hother] using hj⟩
  refine ⟨?_, ?_, ?_, ?_, ?_⟩
  · -- A list has an element just when the element's handler is registered with it.
    intro other j
    rw [hlist, (hlinked.nodup other).mem_erase_iff, hlinked.listed]
    constructor
    · rintro ⟨hne, hj, hwhere⟩
      refine ⟨?_, hwhere⟩
      have hother : (cd.timeouts j).handler ≠ handler := by
        intro hsame
        rw [hsame, hiter] at hj
        exact hne (Option.some.inj hj).symm
      simpa [setIter, modifyFall, hother] using hj
    · rintro ⟨hj, hwhere⟩
      obtain ⟨hother, hj⟩ := hkept _ j hj
      refine ⟨?_, hj, hwhere⟩
      rintro rfl
      exact hother (hlinked.handler_eq handler j hiter)
  · intro other j hj
    exact hlinked.handler_eq other j (hkept other j hj).2
  · intro other j hj
    exact hlinked.fresh other j (hkept other j hj).2
  · intro other
    rw [hlist]
    exact (hlinked.nodup other).erase i
  · intro other
    rw [← hlinked.fall_eq other]
    by_cases hother : other = idx
    · subst hother
      simp [setIter, modifyFall, Fall.erase]
    · simp [setIter, modifyFall, hother]

/-- An element moves to another list. -/
theorem Linked.splice {newidx : Nat} (hnew : newidx ≠ idx) (newCount : Int) :
    ((cd.splice newidx idx i).setTimeout i ⟨newidx, handler, newCount⟩).Linked := by
  -- the element leaves one list, and is in no other, before it comes to the end of the new one
  have hlist : ∀ other, ((cd.splice newidx idx i).falls other).list =
      (cd.falls other).list.erase i ++ if other = newidx then [i] else [] := by
    intro other
    by_cases htarget : other = newidx
    · subst htarget
      simp [Countdown.splice, modifyFall, Fall.insert, hnew,
        List.erase_of_not_mem (hlinked.not_mem hitem hnew)]
    · by_cases hother : other = idx
      · subst hother
        simp [Countdown.splice, modifyFall, Fall.erase, htarget]
      · simp [Countdown.splice, modifyFall, htarget, hother,
          List.erase_of_not_mem (hlinked.not_mem hitem hother)]
  refine ⟨?_, ?_, hlinked.fresh, ?_, ?_⟩
  · intro other j
    change j ∈ ((cd.splice newidx idx i).falls other).list ↔ _
    rw [hlist, List.mem_append, (hlinked.nodup other).mem_erase_iff, hlinked.listed]
    by_cases hj : j = i
    · subst hj
      by_cases hother : other = newidx
      · simp [setTimeout, Countdown.splice, modifyFall, hother, hiter]
      · simp [setTimeout, hother, Ne.symm hother]
    · have hone : j ∉ (if other = newidx then [i] else []) := by
        split
        · simpa using hj
        · simp
      simp [setTimeout, Countdown.splice, modifyFall, hj, hone]
  · intro other j hj
    by_cases hsame : j = i
    · subst hsame
      simpa [setTimeout, hitem] using hlinked.handler_eq other j hj
    · simpa [setTimeout, Countdown.splice, modifyFall, hsame] using hlinked.handler_eq other j hj
  · intro other
    change ((cd.splice newidx idx i).falls other).list.Nodup
    rw [hlist]
    by_cases hother : other = newidx
    · rw [if_pos hother]
      apply ((hlinked.nodup other).erase i).append (List.nodup_singleton i)
      rw [List.disjoint_singleton]
      exact fun hmem => ((hlinked.nodup other).mem_erase_iff.mp hmem).1 rfl
    · rw [if_neg hother, List.append_nil]
      exact (hlinked.nodup other).erase i
  · intro other
    rw [← hlinked.fall_eq other]
    by_cases htarget : other = newidx
    · subst htarget
      simp [setTimeout, Countdown.splice, modifyFall, Fall.insert, hnew]
    · by_cases hother : other = idx
      · subst hother
        simp [setTimeout, Countdown.splice, modifyFall, Fall.erase, htarget]
      · simp [setTimeout, Countdown.splice, modifyFall, htarget, hother]

omit hitem in
theorem Linked.entry_setTimeout (timeout : Timeout) :
    (cd.setTimeout i timeout).entry = Function.update cd.entry handler (some timeout) := by
  funext other
  by_cases hother : other = handler
  · subst hother
    simp [entry, setTimeout, hiter]
  · rw [Function.update_of_ne hother]
    cases hj : cd.iterTimo other with
    | none => simp [entry, setTimeout, hj]
    | some j =>
        have hne : j ≠ i := by
          rintro rfl
          exact hother ((hlinked.handler_eq other j hj).symm.trans
            (hlinked.handler_eq handler j hiter))
        simp [entry, setTimeout, hj, hne]

end Edits

theorem entry_setIter (cd : Countdown) (handler : Nat) :
    (cd.setIter handler none).entry = Function.update cd.entry handler none := by
  funext other
  by_cases hother : other = handler
  · subst hother
    simp [entry, setIter]
  · simp [entry, setIter, hother]

/-- A handler registers for the first time, with a new element. -/
theorem Linked.register (hlinked : cd.Linked) {s : Nat} (hnone : cd.iterTimo s = none)
    (newidx : Nat) (count : Int) :
    let next := (({ cd with nextNode := cd.nextNode + 1 }.setTimeout cd.nextNode
      ⟨newidx, s, count⟩).modifyFall newidx (Fall.insert · cd.nextNode)).setIter s
        (some cd.nextNode)
    next.Linked ∧ next.entry = Function.update cd.entry s (some ⟨newidx, s, count⟩) := by
  -- The element is new, so that no handler is registered with it and no list has it.
  have hold : ∀ other j, cd.iterTimo other = some j → other ≠ s ∧ j ≠ cd.nextNode := by
    intro other j hj
    refine ⟨?_, Nat.ne_of_lt (hlinked.fresh other j hj)⟩
    rintro rfl
    rw [hnone] at hj
    cases hj
  have habsent : ∀ idx, cd.nextNode ∉ (cd.falls idx).list := by
    intro idx hmem
    exact (hold _ _ ((hlinked.listed idx _).mp hmem).1).2 rfl
  refine ⟨⟨?_, ?_, ?_, ?_, ?_⟩, ?_⟩
  · intro idx j
    by_cases hj : j = cd.nextNode
    · subst hj
      by_cases hidx : idx = newidx
      · subst hidx
        simp [setIter, modifyFall, setTimeout, Fall.insert]
      · simp [setIter, modifyFall, setTimeout, hidx, habsent, Ne.symm hidx]
    · have hlist : j ∈ ((((({ cd with nextNode := cd.nextNode + 1 }.setTimeout cd.nextNode
          ⟨newidx, s, count⟩).modifyFall newidx (Fall.insert · cd.nextNode)).setIter s
            (some cd.nextNode)).falls idx).list) ↔ j ∈ (cd.falls idx).list := by
        by_cases hidx : idx = newidx
        · subst hidx
          simp [setIter, modifyFall, setTimeout, Fall.insert, hj]
        · simp [setIter, modifyFall, setTimeout, hidx]
      rw [hlist, hlinked.listed]
      by_cases hsame : (cd.timeouts j).handler = s
      · simp [setIter, modifyFall, setTimeout, hj, hsame, hnone, Ne.symm hj]
      · simp [setIter, modifyFall, setTimeout, hj, hsame]
  · intro other j hj
    by_cases hother : other = s
    · subst hother
      have hnew : cd.nextNode = j := by simpa [setIter] using hj
      subst hnew
      simp [setIter, modifyFall, setTimeout]
    · have hj : cd.iterTimo other = some j := by
        simpa [setIter, modifyFall, setTimeout, hother] using hj
      simpa [setIter, modifyFall, setTimeout, (hold other j hj).2] using
        hlinked.handler_eq other j hj
  · intro other j hj
    by_cases hother : other = s
    · subst hother
      have hnew : cd.nextNode = j := by simpa [setIter] using hj
      subst hnew
      exact Nat.lt_succ_self _
    · have hj : cd.iterTimo other = some j := by
        simpa [setIter, modifyFall, setTimeout, hother] using hj
      exact Nat.lt_succ_of_lt (hlinked.fresh other j hj)
  · intro idx
    by_cases hidx : idx = newidx
    · subst hidx
      simpa [setIter, modifyFall, setTimeout, Fall.insert] using
        (hlinked.nodup idx).append (List.nodup_singleton _)
          (List.disjoint_singleton.mpr (habsent idx))
    · simpa [setIter, modifyFall, setTimeout, hidx] using hlinked.nodup idx
  · intro idx
    rw [← hlinked.fall_eq idx]
    by_cases hidx : idx = newidx
    · subst hidx
      simp [setIter, modifyFall, setTimeout, Fall.insert]
    · simp [setIter, modifyFall, setTimeout, hidx]
  · funext other
    by_cases hother : other = s
    · subst hother
      simp [entry, setIter, modifyFall, setTimeout]
    · rw [Function.update_of_ne hother]
      cases hj : cd.iterTimo other with
      | none => simp [entry, setIter, modifyFall, setTimeout, hother, hj]
      | some j =>
          simp [entry, setIter, modifyFall, setTimeout, hother, hj, (hold other j hj).2]

/-! ## The operations, handler by handler -/

/-- The slot for a timeout, no higher than `i`. -/
def slotFor (timeout : Int) : Nat → Nat
  | 0 => 0
  | i + 1 => if threshold (i + 1) ≤ timeout then i + 1 else slotFor timeout i

theorem slotFor_le (timeout : Int) (i : Nat) : slotFor timeout i ≤ i := by
  induction i with
  | zero => exact Nat.le_refl _
  | succ i ih =>
      unfold slotFor
      split
      · exact Nat.le_refl _
      · exact Nat.le_succ_of_le ih

/-- A timeout reaches the fall of its slot, or is short of the first. -/
theorem slotFor_fall (timeout : Int) {i : Nat} (hi : 0 < i) :
    (0 < slotFor timeout i ∧ threshold (slotFor timeout i) ≤ timeout) ∨
      (slotFor timeout i = 0 ∧ timeout < threshold 1) := by
  induction i with
  | zero => cases hi
  | succ i ih =>
      unfold slotFor
      split
      next hreached => exact Or.inl ⟨Nat.succ_pos i, hreached⟩
      next hshort =>
        rcases Nat.eq_zero_or_pos i with rfl | hpos
        · exact Or.inr ⟨rfl, Int.not_le.mp hshort⟩
        · exact ih hpos

theorem Linked.findFallIdx_eq (hlinked : cd.Linked) (timeout : Int) (rbegin : Nat) :
    cd.findFallIdx timeout rbegin =
      slotFor timeout (if fallsLastIdx < rbegin then fallsLastIdx else rbegin) := by
  have hloop : ∀ i, cd.findFallFrom timeout i = slotFor timeout i := by
    intro i
    induction i with
    | zero => rfl
    | succ i ih => rw [findFallFrom, slotFor, hlinked.fall_eq, ih]
  exact hloop _

/-- What `m_elasped` of the slots is. -/
def clock (cd : Countdown) (idx : Nat) : Int := (cd.falls idx).elasped

@[simp] theorem clock_splice (cd : Countdown) (newidx idx i : Nat) :
    (cd.splice newidx idx i).clock = cd.clock := by
  funext other
  by_cases htarget : other = newidx
  · subst htarget
    by_cases hidx : other = idx
    · subst hidx
      simp [clock, splice, modifyFall, Fall.insert, Fall.erase]
    · simp [clock, splice, modifyFall, Fall.insert, hidx]
  · by_cases hidx : other = idx
    · subst hidx
      simp [clock, splice, modifyFall, Fall.erase, htarget]
    · simp [clock, splice, modifyFall, htarget, hidx]

@[simp] theorem clock_erase (cd : Countdown) (idx i : Nat) :
    (cd.modifyFall idx (Fall.erase · i)).clock = cd.clock := by
  funext other
  by_cases hidx : other = idx
  · subst hidx
    simp [clock, modifyFall, Fall.erase]
  · simp [clock, modifyFall, hidx]

/-- `select_timeout` sets the timeout of its handler, and touches no other. -/
theorem selectTimeout_spec (hlinked : cd.Linked) (s : Nat) (timeout : Int) :
    (cd.selectTimeout s timeout).Linked ∧
      (cd.selectTimeout s timeout).clock = cd.clock ∧
      (cd.selectTimeout s timeout).entry = Function.update cd.entry s
        (if timeout < 0 then none
          else some ⟨slotFor timeout fallsLastIdx, s,
            timeout + cd.clock (slotFor timeout fallsLastIdx)⟩) := by
  have hslot : cd.findFallIdx timeout npos = slotFor timeout fallsLastIdx := by
    rw [hlinked.findFallIdx_eq, if_pos (by decide)]
  unfold selectTimeout
  by_cases hremove : timeout < 0
  · rw [if_pos hremove, if_pos hremove]
    cases hiter : cd.iterTimo s with
    | none =>
        refine ⟨hlinked, rfl, ?_⟩
        rw [Function.update_eq_self_iff.mpr]
        simp [entry, hiter]
    | some i =>
        refine ⟨hlinked.remove hiter (hlinked.item hiter), clock_erase cd _ i, ?_⟩
        exact entry_setIter cd s
  · -- a handler without a timeout gets a new element, and one with keeps the element it has
    rw [if_neg hremove, if_neg hremove, hslot]
    cases hiter : cd.iterTimo s with
    | none =>
        obtain ⟨hnext, hentry⟩ := hlinked.register hiter (slotFor timeout fallsLastIdx)
          (timeout + cd.clock (slotFor timeout fallsLastIdx))
        refine ⟨hnext, ?_, hentry⟩
        funext idx
        by_cases hidx : idx = slotFor timeout fallsLastIdx
        · subst hidx
          simp [clock, setIter, modifyFall, setTimeout, Fall.insert]
        · simp [clock, setIter, modifyFall, setTimeout, hidx]
    | some i =>
        obtain ⟨idx, count, hitem⟩ : ∃ idx count, cd.timeouts i = ⟨idx, s, count⟩ :=
          ⟨_, _, hlinked.item hiter⟩
        dsimp only
        rw [hitem]
        split
        next hmoves =>
          exact ⟨hlinked.splice hiter hitem (Ne.symm hmoves) _, clock_splice cd _ _ i,
            hlinked.entry_setTimeout hiter _⟩
        next hstays =>
          have hidx : idx = slotFor timeout fallsLastIdx := not_not.mp hstays
          subst hidx
          exact ⟨hlinked.setCount hitem _, rfl, hlinked.entry_setTimeout hiter _⟩

/-- How many registrations a handler has. -/
def waiting (cd : Countdown) (handler : Nat) : Nat := (cd.entry handler).toList.length

/-- What a timeout becomes when its slot `idx` is over at the time `clock idx`. -/
def fallDown (clock : Nat → Int) (idx : Nat) (timeout : Timeout) : Option Timeout :=
  let count := timeout.count - clock idx
  if count ≤ 0 then none
  else if slotFor count idx = idx then some { timeout with count := count }
  else
    some { timeout with
      fallidx := slotFor count idx
      count := count + clock (slotFor count idx) }

theorem visit_spec (hlinked : cd.Linked) {idx i handler : Nat} (hlast : idx ≤ fallsLastIdx)
    (hiter : cd.iterTimo handler = some i) (hidx : (cd.timeouts i).fallidx = idx)
    (result : List Nat) :
    let next := visit idx (cd, result) i
    let fallen := fallDown cd.clock idx (cd.timeouts i)
    next.1.Linked ∧ next.1.clock = cd.clock ∧
      next.1.entry = Function.update cd.entry handler fallen ∧
      next.2 = result ++ (if fallen.isNone then [handler] else []) ∧
      (∀ j, j ≠ i → next.1.timeouts j = cd.timeouts j) ∧
      ∀ other, other ≠ handler → next.1.iterTimo other = cd.iterTimo other := by
  obtain ⟨count, hitem⟩ : ∃ count, cd.timeouts i = ⟨idx, handler, count⟩ :=
    ⟨(cd.timeouts i).count, by rw [← hidx]; exact hlinked.item hiter⟩
  have hcount := hlinked.setCount hitem (count - cd.clock idx)
  have hslot : (cd.setTimeout i ⟨idx, handler, count - cd.clock idx⟩).findFallIdx
      (count - cd.clock idx) idx = slotFor (count - cd.clock idx) idx := by
    rw [hcount.findFallIdx_eq, if_neg (Nat.not_lt.mpr hlast)]
  have hother : ∀ j, j ≠ i → ∀ timeout, (cd.setTimeout i timeout).timeouts j = cd.timeouts j := by
    intro j hj timeout
    simp [setTimeout, hj]
  unfold visit fallDown
  dsimp only
  rw [hitem, show (cd.falls idx).elasped = cd.clock idx from rfl]
  by_cases hdue : count - cd.clock idx ≤ 0
  · rw [if_pos hdue, if_pos hdue]
    have hremoved := hcount.remove hiter
      (show _ = (⟨idx, handler, count - cd.clock idx⟩ : Timeout) by simp [setTimeout])
    refine ⟨hremoved, clock_erase _ idx i, ?_, rfl, fun j hj => hother j hj _, ?_⟩
    · apply (entry_setIter _ handler).trans
      rw [hlinked.entry_setTimeout hiter, Function.update_idem]
    · intro other hne
      simp [modifyFall, setIter, setTimeout, hne]
  · rw [if_neg hdue, if_neg hdue, hslot]
    by_cases hstays : slotFor (count - cd.clock idx) idx = idx
    · rw [if_pos hstays, if_pos hstays]
      exact ⟨hcount, rfl, hlinked.entry_setTimeout hiter _, (List.append_nil result).symm,
        fun j hj => hother j hj _, fun _ _ => rfl⟩
    · -- the source stores the count before and after it moves the element
      rw [if_neg hstays, if_neg hstays]
      have htwice : ∀ first second : Timeout,
          (cd.setTimeout i first).setTimeout i second = cd.setTimeout i second := by
        intro first second
        simp [setTimeout]
      rw [htwice]
      exact ⟨hlinked.splice hiter hitem hstays _, clock_splice _ _ idx i,
        hlinked.entry_setTimeout hiter _, (List.append_nil result).symm,
        fun j hj => hother j hj _, fun _ _ => rfl⟩

/-- The inner loop takes each timeout of the list down, and what it delivers it
unregisters. -/
theorem visits_spec {idx : Nat} (hlast : idx ≤ fallsLastIdx) (nodes : List Nat)
    (hnodup : nodes.Nodup) (hlinked : cd.Linked)
    (hnodes : ∀ i ∈ nodes, i ∈ (cd.falls idx).list) (result : List Nat) :
    let next := nodes.foldl (visit idx) (cd, result)
    next.1.Linked ∧ next.1.clock = cd.clock ∧
      (∀ handler, (∀ i ∈ nodes, cd.iterTimo handler ≠ some i) →
        next.1.entry handler = cd.entry handler) ∧
      (∀ handler, ∀ i ∈ nodes, cd.iterTimo handler = some i →
        next.1.entry handler = fallDown cd.clock idx (cd.timeouts i)) ∧
      ∀ handler, next.2.count handler + next.1.waiting handler =
        result.count handler + cd.waiting handler := by
  induction nodes generalizing cd result with
  | nil => exact ⟨hlinked, rfl, fun _ _ => rfl, by simp, fun _ => rfl⟩
  | cons i rest ih =>
      obtain ⟨hnew, hrest⟩ := List.nodup_cons.mp hnodup
      obtain ⟨hiter, hidx⟩ := (hlinked.listed idx i).mp (hnodes i List.mem_cons_self)
      obtain ⟨hlinked', hclock, hentry, hresult, htimeouts, hiters⟩ :=
        visit_spec hlinked hlast hiter hidx result
      -- The elements behind are as they were: each is of another handler.
      have hbehind : ∀ j ∈ rest, j ≠ i ∧ cd.iterTimo (cd.timeouts j).handler = some j ∧
          (cd.timeouts j).fallidx = idx ∧
          (cd.timeouts j).handler ≠ (cd.timeouts i).handler := by
        intro j hj
        obtain ⟨hjter, hjdx⟩ := (hlinked.listed idx j).mp (hnodes j (List.mem_cons_of_mem i hj))
        have hne : j ≠ i := by
          rintro rfl
          exact hnew hj
        refine ⟨hne, hjter, hjdx, ?_⟩
        intro hsame
        rw [hsame, hiter] at hjter
        exact hne (Option.some.inj hjter).symm
      have hnodes' : ∀ j ∈ rest, j ∈ ((visit idx (cd, result) i).1.falls idx).list := by
        intro j hj
        obtain ⟨hne, hjter, hjdx, hother⟩ := hbehind j hj
        rw [hlinked'.listed, htimeouts j hne, hiters _ hother]
        exact ⟨hjter, hjdx⟩
      have hrun := ih hrest hlinked' hnodes' (visit idx (cd, result) i).2
      dsimp only at hrun ⊢
      rw [List.foldl_cons]
      obtain ⟨hfinal, hfinalClock, hothers, hvisited, hcounts⟩ := hrun
      refine ⟨hfinal, hfinalClock.trans hclock, ?_, ?_, ?_⟩
      · intro handler habsent
        have hne : handler ≠ (cd.timeouts i).handler := by
          rintro rfl
          exact habsent i List.mem_cons_self hiter
        rw [hothers handler, hentry, Function.update_of_ne hne]
        intro j hj
        rw [hiters handler hne]
        exact habsent j (List.mem_cons_of_mem i hj)
      · intro handler j hj hjter
        rcases List.mem_cons.mp hj with rfl | hj
        · have hhandler := hlinked.handler_eq handler j hjter
          subst hhandler
          rw [hothers, hentry, Function.update_self]
          intro k hk hsame
          obtain ⟨hne, -, -, hother⟩ := hbehind k hk
          have hback := hlinked'.handler_eq _ k hsame
          rw [htimeouts k hne] at hback
          exact hother hback
        · obtain ⟨hne, -, -, hother⟩ := hbehind j hj
          have hhandler := hlinked.handler_eq handler j hjter
          rw [hhandler] at hother
          rw [hvisited handler j hj (by rw [hiters handler hother]; exact hjter), hclock,
            htimeouts j hne]
      · intro handler
        rw [hcounts, hresult, List.count_append, waiting, waiting, hentry]
        by_cases hsame : handler = (cd.timeouts i).handler
        · subst hsame
          have hbefore : cd.entry (cd.timeouts i).handler = some (cd.timeouts i) := by
            rw [entry, hiter]
            rfl
          rw [Function.update_self, hbefore]
          cases fallDown cd.clock idx (cd.timeouts i) <;> simp
        · rw [Function.update_of_ne hsame]
          split <;> simp [Ne.symm hsame]

theorem Linked.modify (hlinked : cd.Linked) (idx : Nat) (edit : Fall → Fall)
    (hlist : ∀ slot, (edit slot).list = slot.list)
    (hfall : ∀ slot, (edit slot).fall = slot.fall) : (cd.modifyFall idx edit).Linked := by
  have hfalls : ∀ other, ((cd.modifyFall idx edit).falls other).list = (cd.falls other).list ∧
      ((cd.modifyFall idx edit).falls other).fall = (cd.falls other).fall := by
    intro other
    by_cases hother : other = idx
    · subst hother
      simp [modifyFall, hlist, hfall]
    · simp [modifyFall, hother]
  refine ⟨?_, hlinked.handler_eq, hlinked.fresh, ?_, ?_⟩
  · intro other i
    rw [(hfalls other).1]
    exact hlinked.listed other i
  · intro other
    rw [(hfalls other).1]
    exact hlinked.nodup other
  · intro other
    rw [(hfalls other).2]
    exact hlinked.fall_eq other

/-- A slot is not over yet, or it is: then its timeouts fall, and its time starts
anew. -/
theorem clickFall_spec (hlinked : cd.Linked) {idx : Nat} (hlast : idx ≤ fallsLastIdx)
    (elasped : Int) (result : List Nat) :
    let next := clickFall elasped (cd, result) idx
    let reached := cd.clock idx + elasped
    next.1.Linked ∧
      (∀ handler, next.2.count handler + next.1.waiting handler =
        result.count handler + cd.waiting handler) ∧
      (reached < threshold idx ∧ next.1.clock = Function.update cd.clock idx reached ∧
          next.1.entry = cd.entry ∨
        threshold idx ≤ reached ∧ next.1.clock = Function.update cd.clock idx 0 ∧
          ∀ handler, next.1.entry handler = (cd.entry handler).bind fun timeout =>
            if timeout.fallidx = idx
              then fallDown (Function.update cd.clock idx reached) idx timeout
              else some timeout) := by
  -- The time is added first; whether the slot is over is asked after that.
  have hadded : (cd.modifyFall idx (Fall.addElasped · elasped)).Linked :=
    hlinked.modify idx (Fall.addElasped · elasped) (fun _ => rfl) (fun _ => rfl)
  have hclock : (cd.modifyFall idx (Fall.addElasped · elasped)).clock =
      Function.update cd.clock idx (cd.clock idx + elasped) := by
    funext other
    by_cases hother : other = idx
    · subst hother
      simp [clock, modifyFall, Fall.addElasped]
    · simp [clock, modifyFall, hother]
  have hreached : ((cd.modifyFall idx (Fall.addElasped · elasped)).falls idx).elasped =
      cd.clock idx + elasped := by
    simp [clock, modifyFall, Fall.addElasped]
  unfold clickFall
  dsimp only
  rw [hreached, hadded.fall_eq]
  split
  next hshort => exact ⟨hadded, fun _ => rfl, Or.inl ⟨hshort, hclock, rfl⟩⟩
  next hover =>
    obtain ⟨hfinal, hfinalClock, hothers, hvisited, hcounts⟩ :=
      visits_spec hlast _ (hadded.nodup idx) hadded (fun _ hi => hi) result
    refine ⟨hfinal.modify idx Fall.restart (fun _ => rfl) (fun _ => rfl), hcounts,
      Or.inr ⟨Int.not_lt.mp hover, ?_, ?_⟩⟩
    · funext other
      by_cases hother : other = idx
      · subst hother
        simp [clock, modifyFall, Fall.restart]
      · have hsame := congrFun hfinalClock other
        rw [hclock, Function.update_of_ne hother] at hsame
        rw [Function.update_of_ne hother, ← hsame]
        simp [clock, modifyFall, hother]
    · intro handler
      rw [← hclock]
      cases hiter : cd.iterTimo handler with
      | none =>
          have hnone : cd.entry handler = none := by rw [entry, hiter, Option.map_none]
          refine (hothers handler ?_).trans ?_
          · intro i _ hi
            rw [show cd.iterTimo handler = some i from hi] at hiter
            cases hiter
          · exact hnone.trans (by rw [hnone, Option.bind_none])
      | some i =>
          have hsome : cd.entry handler = some (cd.timeouts i) := by
            rw [entry, hiter, Option.map_some]
          rw [hsome, Option.bind_some]
          have hmem := hadded.listed idx i
          rw [show (cd.modifyFall idx (Fall.addElasped · elasped)).timeouts = cd.timeouts from rfl,
            show (cd.modifyFall idx (Fall.addElasped · elasped)).iterTimo = cd.iterTimo from rfl,
            hlinked.handler_eq handler i hiter] at hmem
          -- The loop visits a timeout just when it is in the slot's list.
          by_cases hidx : (cd.timeouts i).fallidx = idx
          · rw [if_pos hidx]
            exact hvisited handler i (hmem.mpr ⟨hiter, hidx⟩) hiter
          · rw [if_neg hidx]
            refine (hothers handler ?_).trans hsome
            intro j hj hjter
            rw [show cd.iterTimo handler = some j from hjter] at hiter
            cases hiter
            exact hidx (hmem.mp hj).2

theorem foldl_setIter (handlers : List Nat) (cd : Countdown) :
    handlers.foldl (fun cd handler => cd.setIter handler none) cd =
      { cd with iterTimo := fun handler =>
          if handler ∈ handlers then none else cd.iterTimo handler } := by
  induction handlers generalizing cd with
  | nil => simp
  | cons first rest ih =>
      rw [List.foldl_cons, ih]
      congr 1
      funext handler
      by_cases hfirst : handler = first
      · subst hfirst
        simp [setIter]
      · simp [setIter, hfirst]

/-- The handlers of list 0 are those registered with slot 0. -/
theorem Linked.mem_bottom (hlinked : cd.Linked) (handler : Nat) :
    handler ∈ (cd.falls 0).list.map (fun i => (cd.timeouts i).handler) ↔
      ∃ i, cd.iterTimo handler = some i ∧ (cd.timeouts i).fallidx = 0 := by
  rw [List.mem_map]
  constructor
  · rintro ⟨i, hi, rfl⟩
    exact ⟨i, (hlinked.listed 0 i).mp hi⟩
  · rintro ⟨i, hiter, hidx⟩
    have hhandler := hlinked.handler_eq handler i hiter
    exact ⟨i, (hlinked.listed 0 i).mpr ⟨by rw [hhandler]; exact hiter, hidx⟩, hhandler⟩

theorem Linked.entry_clickBottom (hlinked : cd.Linked) (handler : Nat) :
    cd.clickBottom.1.entry handler =
      (cd.entry handler).bind fun timeout =>
        if timeout.fallidx = 0 then none else some timeout := by
  unfold clickBottom
  dsimp only
  rw [foldl_setIter]
  cases hiter : cd.iterTimo handler with
  | none => simp [entry, modifyFall, hiter]
  | some i =>
      by_cases hidx : (cd.timeouts i).fallidx = 0
      · have hin := (hlinked.mem_bottom handler).mpr ⟨i, hiter, hidx⟩
        simp only [entry, modifyFall, if_pos hin, hiter, Option.map_none, Option.map_some,
          Option.bind_some, if_pos hidx]
      · have hout : handler ∉ (cd.falls 0).list.map (fun i => (cd.timeouts i).handler) := by
          rw [hlinked.mem_bottom, hiter]
          rintro ⟨j, hj, hjdx⟩
          cases hj
          exact hidx hjdx
        simp only [entry, modifyFall, if_neg hout, hiter, Option.map_some, Option.bind_some,
          if_neg hidx]

/-- An empty list 0 is linked with what is registered elsewhere. -/
theorem Linked.clickBottom (hlinked : cd.Linked) : cd.clickBottom.1.Linked := by
  unfold Countdown.clickBottom
  dsimp only
  rw [foldl_setIter]
  refine ⟨?_, ?_, ?_, ?_, ?_⟩
  · intro idx i
    by_cases hidx : idx = 0
    · subst hidx
      simp only [modifyFall, Function.update_self, List.not_mem_nil, false_iff]
      rintro ⟨hi, hwhere⟩
      split at hi
      · cases hi
      next hout => exact hout ((hlinked.mem_bottom _).mpr ⟨i, hi, hwhere⟩)
    · simp only [modifyFall, Function.update_of_ne hidx, hlinked.listed]
      refine and_congr_left fun hwhere => ?_
      split
      next hin =>
        -- A handler has one registration, and that of this one is with slot 0.
        obtain ⟨j, hj, hjdx⟩ := (hlinked.mem_bottom _).mp hin
        constructor
        · intro hi
          rw [hj] at hi
          cases hi
          exact absurd (hwhere.symm.trans hjdx) hidx
        · intro hi
          cases hi
      · exact Iff.rfl
  · intro handler i hi
    simp only [modifyFall] at hi
    split at hi
    · cases hi
    · exact hlinked.handler_eq handler i hi
  · intro handler i hi
    simp only [modifyFall] at hi
    split at hi
    · cases hi
    · exact hlinked.fresh handler i hi
  · intro idx
    by_cases hidx : idx = 0
    · subst hidx
      simp [modifyFall]
    · simpa [modifyFall, hidx] using hlinked.nodup idx
  · intro idx
    rw [← hlinked.fall_eq idx]
    by_cases hidx : idx = 0
    · subst hidx
      simp [modifyFall]
    · simp [modifyFall, hidx]

/-- A handler of list 0 is delivered once, and is registered no more. -/
theorem Linked.count_clickBottom (hlinked : cd.Linked) (handler : Nat) :
    cd.clickBottom.2.count handler + cd.clickBottom.1.waiting handler = cd.waiting handler := by
  have hnodup : ((cd.falls 0).list.map fun i => (cd.timeouts i).handler).Nodup := by
    apply (hlinked.nodup 0).map_on
    intro i hi j hj hsame
    exact (hlinked.onceListed.2 0 0 i j hi hj hsame).2
  have hcount : cd.clickBottom.2.count handler =
      if handler ∈ (cd.falls 0).list.map (fun i => (cd.timeouts i).handler) then 1 else 0 :=
    hnodup.count
  rw [hcount, waiting, waiting, hlinked.entry_clickBottom]
  simp only [hlinked.mem_bottom]
  cases hiter : cd.iterTimo handler with
  | none => simp [entry, hiter]
  | some i =>
      by_cases hidx : (cd.timeouts i).fallidx = 0
      · simp [entry, hiter, hidx]
      · simp [entry, hiter, hidx]

/-- A click unregisters and delivers all of list 0. -/
theorem clickBottom_spec (hlinked : cd.Linked) :
    let next := cd.clickBottom
    next.1.Linked ∧ next.1.clock = cd.clock ∧
      (∀ handler, next.2.count handler + next.1.waiting handler = cd.waiting handler) ∧
      ∀ handler, next.1.entry handler = (cd.entry handler).bind fun timeout =>
        if timeout.fallidx = 0 then none else some timeout := by
  refine ⟨hlinked.clickBottom, ?_, hlinked.count_clickBottom, hlinked.entry_clickBottom⟩
  unfold Countdown.clickBottom
  dsimp only
  rw [foldl_setIter]
  funext idx
  by_cases hidx : idx = 0
  · subst hidx
    simp [clock, modifyFall]
  · simp [clock, modifyFall, hidx]

/-! ## The operations together -/

/-- A handler keeps the element it has, or gets the next one. -/
theorem iterTimo_selectTimeout (cd : Countdown) (s : Nat) (timeout : Int) :
    (cd.selectTimeout s timeout).iterTimo =
      Function.update cd.iterTimo s
        (if timeout < 0 then none else some ((cd.iterTimo s).getD cd.nextNode)) := by
  unfold selectTimeout
  split
  next hremove =>
    cases hiter : cd.iterTimo s with
    | none => exact (Function.update_eq_self_iff.mpr hiter.symm).symm
    | some i => rfl
  next hkeep =>
    cases hiter : cd.iterTimo s with
    | none => rfl
    | some i =>
        have hsame : Function.update cd.iterTimo s (some i) = cd.iterTimo :=
          Function.update_eq_self_iff.mpr hiter.symm
        dsimp only [Option.getD_some]
        rw [hsame]
        split <;> rfl

/-- No turn of a click registers a handler. -/
theorem iterTimo_visit {idx i handler j : Nat} {turn : Countdown × List Nat}
    (hiter : (visit idx turn i).1.iterTimo handler = some j) :
    turn.1.iterTimo handler = some j := by
  unfold visit at hiter
  dsimp only at hiter
  split at hiter
  · simp only [setIter, modifyFall, setTimeout] at hiter
    by_cases hsame : handler = (turn.1.timeouts i).handler
    · rw [hsame, Function.update_self] at hiter
      cases hiter
    · rwa [Function.update_of_ne hsame] at hiter
  · split at hiter
    · exact hiter
    · exact hiter

theorem iterTimo_clickFall {elasped : Int} {idx handler j : Nat} {turn : Countdown × List Nat}
    (hiter : (clickFall elasped turn idx).1.iterTimo handler = some j) :
    turn.1.iterTimo handler = some j := by
  have hvisits : ∀ (nodes : List Nat) (turn : Countdown × List Nat),
      (nodes.foldl (visit idx) turn).1.iterTimo handler = some j →
        turn.1.iterTimo handler = some j := by
    intro nodes
    induction nodes with
    | nil => exact fun _ hsame => hsame
    | cons i rest ih => exact fun turn hrest => iterTimo_visit (ih (visit idx turn i) hrest)
  unfold clickFall at hiter
  dsimp only at hiter
  split at hiter
  · exact hiter
  · exact hvisits _ (turn.1.modifyFall idx (Fall.addElasped · elasped), turn.2) hiter

/-- A click delivers each handler it unregisters, once, and registers none. -/
theorem clickElapse_spec (hlinked : cd.Linked) (elasped : Int) :
    (cd.clickElapse elasped).1.Linked ∧
      (∀ handler, (cd.clickElapse elasped).2.count handler +
        (cd.clickElapse elasped).1.waiting handler = cd.waiting handler) ∧
      ∀ handler i, (cd.clickElapse elasped).1.iterTimo handler = some i →
        cd.iterTimo handler = some i := by
  have hturns : ∀ n, n ≤ fallsLastIdx →
      let next := (List.range' 1 n).foldl (clickFall elasped) cd.clickBottom
      next.1.Linked ∧
        (∀ handler, next.2.count handler + next.1.waiting handler = cd.waiting handler) ∧
        ∀ handler i, next.1.iterTimo handler = some i → cd.iterTimo handler = some i := by
    intro n hn
    induction n with
    | zero =>
        obtain ⟨hbottom, -, hcounts, -⟩ := clickBottom_spec hlinked
        refine ⟨hbottom, hcounts, ?_⟩
        intro handler i hiter
        change cd.clickBottom.1.iterTimo handler = some i at hiter
        unfold Countdown.clickBottom at hiter
        dsimp only at hiter
        rw [foldl_setIter] at hiter
        simp only [modifyFall] at hiter
        split at hiter
        · cases hiter
        · exact hiter
    | succ n ih =>
        obtain ⟨hmiddle, hcounts, hiters⟩ := ih (by omega)
        rw [List.range'_concat, List.foldl_append, List.foldl_cons, List.foldl_nil,
          Nat.one_mul, Nat.add_comm 1 n]
        obtain ⟨hnext, hturn, -⟩ := clickFall_spec hmiddle hn elasped
          ((List.range' 1 n).foldl (clickFall elasped) cd.clickBottom).2
        refine ⟨hnext, ?_, ?_⟩
        · intro handler
          exact (hturn handler).trans (hcounts handler)
        · intro handler i hiter
          exact hiters handler i (iterTimo_clickFall hiter)
  exact hturns fallsLastIdx (Nat.le_refl _)

/-- What a click delivers was registered, is not any more, and comes once. -/
theorem clickElapse_delivers (hlinked : cd.Linked) (elasped : Int) :
    (cd.clickElapse elasped).2.Nodup ∧
      ∀ handler ∈ (cd.clickElapse elasped).2, (∃ i, cd.iterTimo handler = some i) ∧
        (cd.clickElapse elasped).1.iterTimo handler = none := by
  obtain ⟨-, hcounts, -⟩ := clickElapse_spec hlinked elasped
  have hwaiting : ∀ (cd : Countdown) handler, cd.waiting handler =
      if cd.iterTimo handler = none then 0 else 1 := by
    intro cd handler
    unfold waiting entry
    cases cd.iterTimo handler <;> rfl
  refine ⟨?_, ?_⟩
  · rw [List.nodup_iff_count_le_one]
    intro handler
    have hcount := hcounts handler
    rw [hwaiting cd] at hcount
    split at hcount <;> omega
  · intro handler hmem
    have hsome := List.count_pos_iff.mpr hmem
    have hcount := hcounts handler
    rw [hwaiting, hwaiting cd] at hcount
    refine ⟨Option.ne_none_iff_exists'.mp fun hnone => ?_, ?_⟩
    · rw [if_pos hnone] at hcount
      omega
    · by_contra hregistered
      rw [if_neg hregistered] at hcount
      split at hcount <;> omega

end Countdown

end ServiceFrame
