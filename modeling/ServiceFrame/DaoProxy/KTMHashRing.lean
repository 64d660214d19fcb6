import Mathlib.Data.List.Induction
import Mathlib.Data.Finset.Basic
import ServiceFrame.Foundation.Bytes
import ServiceFrame.Foundation.OrderedMap

/-! # The hash ring of the dao proxy

`KTMHashRing` of `dao_proxy`: the points of groups on a circle of 64-bit hashes, more
of them for a group with more weight. `init` closes the circle with a point at its
end, and drops each point whose next point is of the same group.
-/

namespace ServiceFrame

open Foundation

structure KTMHashRing where
  hashGroupid : OrderedMap Nat Int
  groupids : Finset Int

namespace KTMHashRing

def new : KTMHashRing := ⟨.empty, ∅⟩

/-- `<< hex` of an `int`. -/
def hex (value : Int) : String := String.ofList (Nat.toDigits 16 (value % 2 ^ 32).toNat)

/-- The text a point is the hash of. -/
def pointName (group : Int) (i : Nat) : List UInt8 :=
  ("G" ++ hex group ++ "_" ++ hex i).toUTF8.toList

/-- How many points a group of this weight gets. -/
def pointCount (weight : Int) : Nat :=
  let wei := if weight ≤ 0 then 1 else if weight > 1000 then 1000 else weight
  (wei * 10).toNat

/-- `uint64_t(-1)`. -/
def lastHash : Nat := 2 ^ 64 - 1

variable (hash64 : List UInt8 → UInt64)

/-- The points of a group. -/
def addGroup (ring : OrderedMap Nat Int) (group weight : Int) : OrderedMap Nat Int :=
  (List.range (pointCount weight)).foldl
    (fun ring i => ring.set (hash64 (pointName group i)).toNat group) ring

/-- The points of all groups; a later group takes over a point with the same hash. -/
def points (groupidWeight : OrderedMap Int Int) : OrderedMap Nat Int :=
  groupidWeight.entries.foldl (fun ring v => addGroup hash64 ring v.1 v.2) .empty

/-- The point at the end, of the group that the first point is of. -/
def close (ring : OrderedMap Nat Int) : Option (OrderedMap Nat Int) :=
  match ring.find lastHash with
  | some _ => some ring
  | none => do
      let (_, grp) ← ring.first
      some (ring.set lastHash grp)

/-- `can_erase_hash`. -/
def canErase : List (Nat × Int) → List Nat
  | p :: np :: rest => if p.2 = np.2 then p.1 :: canErase (np :: rest) else canErase (np :: rest)
  | _ => []

/-- The new ring, and the result; there is none when an iterator is used at the end of
its container. -/
def init (ring : KTMHashRing) (groupidWeight : OrderedMap Int Int) : Option (KTMHashRing × Int) :=
  if groupidWeight.isEmpty then some (ring, -1)
  else do
    let closed ← close (points hash64 groupidWeight)
    some (⟨(canErase closed.entries).foldl OrderedMap.erase closed,
      (groupidWeight.entries.map Prod.fst).toFinset⟩, 0)

/-- The loop of `get_groupid`, from the iterator `nn` on and back to `i`. -/
def walk (entries : List (Nat × Int)) (mask : Finset Int) (i : Nat) :
    Nat → Nat → Option (Option Int)
  | 0, _ => none
  | fuel + 1, nn => do
      let (_, group) ← entries[nn]?
      if group ∈ mask then some (some group)
      else
        let nn := if nn + 1 = entries.length then 0 else nn + 1
        if nn = i then some none else walk entries mask i fuel nn

/-- The result, with `out_groupid` when it is set and the mask afterwards. -/
def getGroupid (ring : KTMHashRing) (hash : UInt64) (mask : Option (Finset Int)) :
    Option (Int × Option Int × Option (Finset Int)) :=
  let entries := ring.hashGroupid.entries
  let i := ring.hashGroupid.lowerIndex hash.toNat
  match entries[i]? with
  | none => some (-1, none, mask)
  | some point =>
      match mask with
      | some mask =>
          let mask := mask.filter (· ∈ ring.groupids)
          if mask = ∅ then some (1, none, some mask)
          else do
            match ← walk entries mask i entries.length i with
            | some group => some (0, some group, some mask)
            | none => some (1, none, some mask)
      | none => some (0, some point.2, none)

/-- The overload for keys. -/
def getGroupidOf (ring : KTMHashRing) (hashStr : List UInt8) (mask : Option (Finset Int)) :
    Option (Int × Option Int × Option (Finset Int)) :=
  ring.getGroupid (hash64 hashStr) mask

/-! ## The walk -/

/-- The places from `nn` on, and round to the one before `i`. -/
def visits (entries : List (Nat × Int)) (i nn : Nat) : List (Nat × Int) :=
  if i ≤ nn then entries.drop nn ++ entries.take i else (entries.take i).drop nn

theorem visits_cons {entries : List (Nat × Int)} {i nn : Nat} (hi : i < entries.length)
    (hnn : nn < entries.length) :
    visits entries i nn = entries[nn] ::
      let nn := if nn + 1 = entries.length then 0 else nn + 1
      if nn = i then [] else visits entries i nn := by
  unfold visits
  dsimp only
  by_cases hbehind : i ≤ nn
  · rw [if_pos hbehind, List.drop_eq_getElem_cons hnn, List.cons_append]
    congr 1
    by_cases hlast : nn + 1 = entries.length
    · rw [if_pos hlast, hlast, List.drop_length, List.nil_append]
      by_cases hfirst : 0 = i
      · rw [if_pos hfirst, ← hfirst, List.take_zero]
      · rw [if_neg hfirst, if_neg (by omega), List.drop_zero]
    · rw [if_neg hlast, if_neg (by omega), if_pos (by omega)]
  · have hbefore : nn < (entries.take i).length := by
      rw [List.length_take]
      omega
    rw [if_neg hbehind, List.drop_eq_getElem_cons hbefore, List.getElem_take,
      if_neg (by omega : ¬ nn + 1 = entries.length)]
    congr 1
    by_cases hround : nn + 1 = i
    · rw [if_pos hround, List.drop_eq_nil_of_le]
      rw [List.length_take]
      omega
    · rw [if_neg hround, if_neg (by omega)]

/-- The loop ends, with the first group of the mask. -/
theorem walk_eq {entries : List (Nat × Int)} (mask : Finset Int) {i nn fuel : Nat}
    (hi : i < entries.length) (hnn : nn < entries.length)
    (hfuel : (visits entries i nn).length ≤ fuel) :
    walk entries mask i fuel nn =
      some (((visits entries i nn).map Prod.snd).find? (· ∈ mask)) := by
  induction fuel generalizing nn with
  | zero =>
      rw [visits_cons hi hnn] at hfuel
      simp at hfuel
  | succ fuel ih =>
      rw [visits_cons hi hnn] at hfuel ⊢
      rw [walk, List.getElem?_eq_getElem hnn, Option.bind_eq_bind, Option.bind_some]
      dsimp only at hfuel ⊢
      rw [List.map_cons, List.find?_cons]
      by_cases hmask : entries[nn].2 ∈ mask
      · simp [hmask]
      · rw [if_neg hmask, decide_eq_false hmask]
        generalize hnext : (if nn + 1 = entries.length then 0 else nn + 1) = next at hfuel ⊢
        have hlt : next < entries.length := by
          rw [← hnext]
          split <;> omega
        split
        next => rfl
        next hround =>
          rw [if_neg hround, List.length_cons] at hfuel
          exact ih hlt (by omega)

theorem walk_circle {ring : OrderedMap Nat Int} (mask : Finset Int) {start : Nat}
    (hi : ring.lowerIndex start < ring.entries.length) :
    walk ring.entries mask (ring.lowerIndex start) ring.entries.length (ring.lowerIndex start) =
      some (((ring.circle start).map Prod.snd).find? (· ∈ mask)) := by
  have hvisits : visits ring.entries (ring.lowerIndex start) (ring.lowerIndex start) =
      ring.circle start := by
    rw [visits, if_pos (le_refl _), OrderedMap.circle_eq]
  rw [walk_eq mask hi hi, hvisits]
  rw [hvisits, OrderedMap.circle_eq, List.length_append, List.length_drop, List.length_take]
  omega

/-- On any ring the loop ends, and a group is set when the result is 0. -/
theorem getGroupid_total (ring : KTMHashRing) (hash : UInt64) (mask : Option (Finset Int)) :
    ∃ rt group rest, ring.getGroupid hash mask = some (rt, group, rest) ∧
      (rt = 0 → group.isSome) := by
  unfold getGroupid
  dsimp only
  split
  next => exact ⟨_, _, _, rfl, by decide⟩
  next point hpoint =>
    obtain ⟨hi, -⟩ := List.getElem?_eq_some_iff.mp hpoint
    split
    next mask =>
      split
      next => exact ⟨_, _, _, rfl, by decide⟩
      next =>
        rw [walk_circle _ hi, Option.bind_eq_bind, Option.bind_some]
        split
        next => exact ⟨_, _, _, rfl, fun _ => rfl⟩
        next => exact ⟨_, _, _, rfl, by decide⟩
    next => exact ⟨_, _, _, rfl, fun _ => rfl⟩

/-! ## The points that go -/

/-- The entries that `can_erase_hash` leaves. -/
def prune : List (Nat × Int) → List (Nat × Int)
  | p :: np :: rest => if p.2 = np.2 then prune (np :: rest) else p :: prune (np :: rest)
  | rest => rest

theorem canErase_sublist (entries : List (Nat × Int)) :
    (canErase entries).Sublist (entries.map Prod.fst) := by
  fun_induction canErase entries with
  | case1 p np rest _ ih => exact ih.cons_cons p.1
  | case2 p np rest _ ih => exact ih.cons p.1
  | case3 => exact List.nil_sublist _

theorem prune_eq {entries : List (Nat × Int)} (hsorted : entries.Pairwise fun a b => a.1 < b.1) :
    entries.filter (fun entry => entry.1 ∉ canErase entries) = prune entries := by
  fun_induction prune entries with
  | case1 p np rest hsame ih =>
      obtain ⟨hhead, hrest⟩ := List.pairwise_cons.mp hsorted
      rw [canErase, if_pos hsame, ← ih hrest, List.filter_cons_of_neg (by simp)]
      apply List.filter_congr
      intro entry hentry
      have hdiff : entry.1 ≠ p.1 := (hhead entry hentry).ne'
      simp [hdiff]
  | case2 p np rest hdiff ih =>
      obtain ⟨hhead, hrest⟩ := List.pairwise_cons.mp hsorted
      have hkept : p.1 ∉ canErase (np :: rest) := by
        intro herased
        obtain ⟨entry, hentry, hsame⟩ := List.mem_map.mp ((canErase_sublist _).mem herased)
        exact absurd hsame (hhead entry hentry).ne'
      rw [canErase, if_neg hdiff, ← ih hrest, List.filter_cons_of_pos (by simpa using hkept)]
  | case3 rest hshort =>
      rw [List.filter_eq_self]
      intro entry _
      rw [canErase]
      · simp
      · exact hshort

theorem prune_sublist (entries : List (Nat × Int)) : (prune entries).Sublist entries := by
  fun_induction prune entries with
  | case1 p np rest _ ih => exact ih.cons p
  | case2 p np rest _ ih => exact ih.cons_cons p
  | case3 rest => exact List.Sublist.refl rest

/-- The last point stays. -/
theorem prune_ne_nil {entries : List (Nat × Int)} (hsome : entries ≠ []) : prune entries ≠ [] := by
  fun_induction prune entries with
  | case1 p np rest _ ih => exact ih (List.cons_ne_nil _ _)
  | case2 p np rest _ ih => exact List.cons_ne_nil _ _
  | case3 rest => exact hsome

variable {allowed : Int → Bool}

/-- The first allowed group of the entries. -/
def firstGroup (allowed : Int → Bool) (entries : List (Nat × Int)) : Option Int :=
  (entries.map Prod.snd).find? allowed

theorem firstGroup_cons (entry : Nat × Int) (entries : List (Nat × Int)) :
    firstGroup allowed (entry :: entries) =
      if allowed entry.2 then some entry.2 else firstGroup allowed entries := by
  rw [firstGroup, List.map_cons, List.find?_cons]
  cases allowed entry.2 <;> rfl

theorem firstGroup_append (first second : List (Nat × Int)) :
    firstGroup allowed (first ++ second) =
      (firstGroup allowed first).or (firstGroup allowed second) := by
  rw [firstGroup, List.map_append, List.find?_append]
  rfl

theorem firstGroup_congr {other : Int → Bool} {entries : List (Nat × Int)}
    (hsame : ∀ entry ∈ entries, allowed entry.2 = other entry.2) :
    firstGroup allowed entries = firstGroup other entries := by
  induction entries with
  | nil => rfl
  | cons entry rest ih =>
      rw [firstGroup_cons, firstGroup_cons, hsame entry List.mem_cons_self,
        ih fun entry hentry => hsame entry (List.mem_cons_of_mem _ hentry)]

/-- A point before one of the same group makes no difference. -/
theorem firstGroup_same {p np : Nat × Int} (hsame : p.2 = np.2) (rest : List (Nat × Int)) :
    firstGroup allowed (p :: np :: rest) = firstGroup allowed (np :: rest) := by
  rw [firstGroup_cons, firstGroup_cons, hsame]
  split <;> rfl

theorem firstGroup_prune (entries : List (Nat × Int)) :
    firstGroup allowed (prune entries) = firstGroup allowed entries := by
  fun_induction prune entries with
  | case1 p np rest hsame ih => rw [ih, firstGroup_same hsame]
  | case2 p np rest _ ih => rw [firstGroup_cons, ih, ← firstGroup_cons]
  | case3 rest => rfl

/-- A part of the circle is pruned as it is alone, but for its last point, which is of
a group that comes next. -/
theorem prune_append (allowed : Int → Bool) (front : List (Nat × Int)) (np : Nat × Int)
    (back : List (Nat × Int)) :
    ∃ kept, prune (front ++ np :: back) = kept ++ prune (np :: back) ∧ kept.Sublist front ∧
      (allowed np.2 = false → firstGroup allowed kept = firstGroup allowed front) := by
  induction front with
  | nil => exact ⟨[], rfl, List.Sublist.refl _, fun _ => rfl⟩
  | cons p front ih =>
      obtain ⟨kept, hprune, hsublist, hgroup⟩ := ih
      cases front with
      | nil =>
          rw [List.singleton_append, prune]
          split
          next hsame =>
            refine ⟨[], rfl, List.nil_sublist _, fun hnot => ?_⟩
            rw [firstGroup_cons, hsame, hnot]
            rfl
          next => exact ⟨[p], rfl, List.Sublist.refl _, fun _ => rfl⟩
      | cons second front =>
          rw [List.cons_append, List.cons_append, prune, ← List.cons_append, hprune]
          split
          next hsame =>
            refine ⟨kept, rfl, hsublist.cons p, fun hnot => ?_⟩
            rw [hgroup hnot, firstGroup_same hsame]
          next =>
            refine ⟨p :: kept, rfl, hsublist.cons_cons p, fun hnot => ?_⟩
            rw [firstGroup_cons, hgroup hnot, ← firstGroup_cons]

/-- A circle with a point behind every start keeps its first groups when it is pruned. -/
theorem circle_prune (allowed : Int → Bool) {ring pruned : OrderedMap Nat Int}
    (hpruned : pruned.entries = prune ring.entries) {start : Nat}
    (hlast : ∃ entry ∈ ring.entries, start ≤ entry.1) :
    firstGroup allowed (pruned.circle start) = firstGroup allowed (ring.circle start) ∧
      pruned.lowerIndex start < pruned.entries.length := by
  cases hbehind : ring.entries.filter (start ≤ ·.1) with
  | nil =>
      obtain ⟨entry, hentry, hstart⟩ := hlast
      rw [List.filter_eq_nil_iff] at hbehind
      exact absurd (decide_eq_true hstart) (hbehind entry hentry)
  | cons np back =>
      -- `np` is the point the walk starts at; its group decides about the point before it
      obtain ⟨kept, hprune, hsublist, hgroup⟩ :=
        prune_append allowed (ring.entries.filter (·.1 < start)) np back
      rw [← hbehind, ← ring.entries_split start, hbehind, ← hpruned] at hprune
      have hbefore : ∀ entry ∈ kept, entry.1 < start := by
        intro entry hentry
        simpa using (List.mem_filter.mp (hsublist.mem hentry)).2
      have hafter : ∀ entry ∈ prune (np :: back), start ≤ entry.1 := by
        intro entry hentry
        have hmem := (prune_sublist _).mem hentry
        rw [← hbehind] at hmem
        simpa using (List.mem_filter.mp hmem).2
      have hfront : pruned.entries.filter (·.1 < start) = kept := by
        rw [hprune, List.filter_append, List.filter_eq_self.mpr, List.filter_eq_nil_iff.mpr,
          List.append_nil]
        · intro entry hentry
          simpa using hafter entry hentry
        · intro entry hentry
          simpa using hbefore entry hentry
      have hback : pruned.entries.filter (start ≤ ·.1) = prune (np :: back) := by
        rw [hprune, List.filter_append, List.filter_eq_nil_iff.mpr, List.filter_eq_self.mpr,
          List.nil_append]
        · intro entry hentry
          simpa using hafter entry hentry
        · intro entry hentry
          simpa using hbefore entry hentry
      constructor
      · rw [OrderedMap.circle, OrderedMap.circle, hfront, hback, hbehind, firstGroup_append,
          firstGroup_append, firstGroup_prune]
        -- an allowed `np` ends the walk before it comes to the points before the start
        cases hallowed : allowed np.2 with
        | false => rw [hgroup hallowed]
        | true =>
            rw [firstGroup_cons, hallowed]
            rfl
      · have hsplit := pruned.entries_split start
        rw [OrderedMap.lowerIndex, (OrderedMap.split_sorted pruned.sorted start).1, hfront]
        rw [hfront, hback] at hsplit
        rw [hsplit, List.length_append]
        have hpositive := List.length_pos_iff.mpr (prune_ne_nil (List.cons_ne_nil np back))
        omega

/-- The point at the end makes no difference either. -/
theorem circle_close {ring closed : OrderedMap Nat Int} (hclose : close ring = some closed)
    (hbound : ∀ entry ∈ ring.entries, entry.1 ≤ lastHash) {start : Nat}
    (hstart : start ≤ lastHash) :
    firstGroup allowed (closed.circle start) = firstGroup allowed (ring.circle start) := by
  unfold close at hclose
  split at hclose
  next =>
    cases hclose
    rfl
  next hnone =>
    obtain ⟨⟨key, grp⟩, hfirst, hset⟩ := Option.bind_eq_some_iff.mp hclose
    cases hset
    -- no point has the last hash yet, so the new one is behind all of them
    have hlast : ∀ entry ∈ ring.entries, entry.1 < lastHash := by
      intro entry hentry
      apply lt_of_le_of_ne (hbound entry hentry)
      intro hsame
      rw [← hsame, OrderedMap.mem_entries.mp (show (entry.1, entry.2) ∈ ring.entries from hentry)]
        at hnone
      cases hnone
    obtain ⟨rest, hentries⟩ := List.head?_eq_some_iff.mp hfirst
    have hends : firstGroup allowed [(lastHash, grp)] =
        if allowed grp then some grp else none := firstGroup_cons _ []
    have hstays : ring.entries.filter (start ≤ ·.1) ++ ring.entries.filter (·.1 < start) =
        ring.circle start := rfl
    rw [OrderedMap.circle, OrderedMap.entries_set_last hlast, List.filter_append,
      List.filter_append,
      List.filter_cons_of_pos (by simpa using hstart),
      List.filter_cons_of_neg (by simpa using hstart), List.filter_nil, List.filter_nil,
      List.append_nil,
      List.append_assoc, firstGroup_append, firstGroup_append, ← hstays, firstGroup_append, hends]
    cases hallowed : allowed grp with
    | false => simp
    | true =>
        -- the new point is of the first point's group, which the walk meets later, or has met
        by_cases hkey : key < start
        · have hbefore : firstGroup allowed (ring.entries.filter (·.1 < start)) = some grp := by
            rw [hentries, List.filter_cons_of_pos (by simpa using hkey), firstGroup_cons, hallowed]
            rfl
          rw [hbefore]
          simp
        · have hbehind : firstGroup allowed (ring.entries.filter (start ≤ ·.1)) = some grp := by
            rw [hentries, List.filter_cons_of_pos (by simpa using hkey), firstGroup_cons, hallowed]
            rfl
          rw [hbehind]
          simp

/-! ## The points of `init` -/

theorem addGroup_nonempty (ring : OrderedMap Nat Int) (group weight : Int) :
    (addGroup hash64 ring group weight).isEmpty = false := by
  have hcount : 0 < pointCount weight := by
    unfold pointCount
    dsimp only
    split
    · decide
    · split <;> omega
  obtain ⟨count, hcount⟩ := Nat.exists_eq_succ_of_ne_zero hcount.ne'
  rw [addGroup, hcount, List.range_succ, List.foldl_append, List.foldl_cons, List.foldl_nil]
  rw [← Bool.not_eq_true, OrderedMap.isEmpty_iff]
  intro hnone
  have hlast := hnone (hash64 (pointName group count)).toNat
  rw [OrderedMap.find_set, Function.update_self] at hlast
  cases hlast

theorem points_nonempty {groupidWeight : OrderedMap Int Int}
    (hweights : groupidWeight.isEmpty = false) : (points hash64 groupidWeight).isEmpty = false := by
  rw [points]
  rw [OrderedMap.isEmpty] at hweights
  rcases List.eq_nil_or_concat groupidWeight.entries with hnil | ⟨front, last, hlast⟩
  · rw [hnil] at hweights
    cases hweights
  · rw [hlast, List.concat_eq_append, List.foldl_append]
    exact addGroup_nonempty hash64 _ _ _

/-- A point has a hash for its key, and is of one of the groups. -/
theorem points_find {groupidWeight : OrderedMap Int Int} {key : Nat} {group : Int}
    (hfind : (points hash64 groupidWeight).find key = some group) :
    key ≤ lastHash ∧ group ∈ groupidWeight.entries.map Prod.fst := by
  unfold points at hfind
  generalize groupidWeight.entries = entries at hfind ⊢
  induction entries using List.reverseRecOn with
  | nil => cases hfind
  | append_singleton front v ih =>
      rw [List.foldl_append, List.foldl_cons, List.foldl_nil, addGroup] at hfind
      generalize List.range (pointCount v.2) = indices at hfind
      induction indices using List.reverseRecOn with
      | nil =>
          obtain ⟨hkey, hmem⟩ := ih hfind
          exact ⟨hkey, by rw [List.map_append]; exact List.mem_append_left _ hmem⟩
      | append_singleton before i ih' =>
          rw [List.foldl_append, List.foldl_cons, List.foldl_nil, OrderedMap.find_set,
            Function.update_apply] at hfind
          split at hfind
          next hkey =>
            cases hfind
            have hbound := (hash64 (pointName v.1 i)).toNat_lt
            refine ⟨?_, by simp⟩
            rw [hkey, lastHash]
            omega
          next => exact ih' hfind

theorem find_close {ring closed : OrderedMap Nat Int} (hclose : close ring = some closed) :
    ∃ entry ∈ closed.entries, lastHash ≤ entry.1 := by
  unfold close at hclose
  split at hclose
  next group hfind =>
    cases hclose
    exact ⟨(lastHash, group), OrderedMap.mem_entries.mpr hfind, le_refl _⟩
  next =>
    obtain ⟨⟨key, grp⟩, -, hset⟩ := Option.bind_eq_some_iff.mp hclose
    cases hset
    refine ⟨(lastHash, grp), OrderedMap.mem_entries.mpr ?_, le_refl _⟩
    rw [OrderedMap.find_set, Function.update_self]

/-- What `init` builds answers as the ring of all points does. -/
theorem init_circle (ring : KTMHashRing) {groupidWeight : OrderedMap Int Int}
    (hweights : groupidWeight.isEmpty = false) :
    ∃ built, init hash64 ring groupidWeight = some (built, 0) ∧
      built.groupids = (groupidWeight.entries.map Prod.fst).toFinset ∧
      ∀ start ≤ lastHash,
        built.hashGroupid.lowerIndex start < built.hashGroupid.entries.length ∧
        ∀ allowed, firstGroup allowed (built.hashGroupid.circle start) =
          firstGroup allowed ((points hash64 groupidWeight).circle start) := by
  have hclose : ∃ closed, close (points hash64 groupidWeight) = some closed := by
    unfold close
    split
    · exact ⟨_, rfl⟩
    · cases hfirst : (points hash64 groupidWeight).first with
      | some first => exact ⟨_, rfl⟩
      | none =>
          rw [OrderedMap.first_eq_none, points_nonempty hash64 hweights] at hfirst
          cases hfirst
  obtain ⟨closed, hclosed⟩ := hclose
  have hpruned : ((canErase closed.entries).foldl OrderedMap.erase closed).entries =
      prune closed.entries := by
    rw [OrderedMap.entries_erase_all]
    exact prune_eq closed.sorted
  have hbound : ∀ entry ∈ (points hash64 groupidWeight).entries, entry.1 ≤ lastHash :=
    fun entry hentry => (points_find hash64 (OrderedMap.mem_entries.mp hentry)).1
  refine ⟨_, by rw [init, hweights, hclosed]; rfl, rfl, ?_⟩
  intro start hstart
  have hlast : ∃ entry ∈ closed.entries, start ≤ entry.1 := by
    obtain ⟨entry, hentry, hkey⟩ := find_close hclosed
    exact ⟨entry, hentry, hstart.trans hkey⟩
  refine ⟨(circle_prune (fun _ => true) hpruned hlast).2, ?_⟩
  intro allowed
  rw [(circle_prune allowed hpruned hlast).1, circle_close hclosed hbound hstart]

/-- The groups that a mask allows; without a mask all are. -/
def allows (mask : Option (Finset Int)) (group : Int) : Bool :=
  match mask with
  | some mask => decide (group ∈ mask)
  | none => true

/-- A mask without the groups that have no points allows the same points. -/
theorem allows_filter {groupidWeight : OrderedMap Int Int} (mask : Finset Int) (start : Nat) :
    firstGroup (allows (some mask)) ((points hash64 groupidWeight).circle start) =
      firstGroup (· ∈ mask.filter (· ∈ (groupidWeight.entries.map Prod.fst).toFinset))
        ((points hash64 groupidWeight).circle start) := by
  apply firstGroup_congr
  rintro ⟨key, group⟩ hentry
  have hgroup := (points_find hash64 (OrderedMap.mem_circle.mp hentry)).2
  rw [allows, decide_eq_decide, Finset.mem_filter, List.mem_toFinset]
  exact (and_iff_left hgroup).symm

theorem getGroupid_eq {built : KTMHashRing} {groupidWeight : OrderedMap Int Int}
    (hgroupids : built.groupids = (groupidWeight.entries.map Prod.fst).toFinset) {hash : UInt64}
    (hindex : built.hashGroupid.lowerIndex hash.toNat < built.hashGroupid.entries.length)
    (hcircle : ∀ allowed, firstGroup allowed (built.hashGroupid.circle hash.toNat) =
      firstGroup allowed ((points hash64 groupidWeight).circle hash.toNat))
    (mask : Option (Finset Int)) :
    ∃ code mask', built.getGroupid hash mask = some (code,
        firstGroup (allows mask) ((points hash64 groupidWeight).circle hash.toNat), mask') ∧
      code = if (firstGroup (allows mask)
        ((points hash64 groupidWeight).circle hash.toNat)).isSome then 0 else 1 := by
  unfold getGroupid
  dsimp only
  rw [List.getElem?_eq_getElem hindex]
  dsimp only
  cases mask with
  | none =>
      have hfirst : firstGroup (allows none) (built.hashGroupid.circle hash.toNat) =
          some (built.hashGroupid.entries[built.hashGroupid.lowerIndex hash.toNat]).2 := by
        rw [OrderedMap.circle_eq, List.drop_eq_getElem_cons hindex, List.cons_append,
          firstGroup_cons]
        rfl
      rw [← hcircle, hfirst]
      exact ⟨0, none, rfl, rfl⟩
  | some mask =>
      -- the source first takes the unknown groups off the mask
      rw [allows_filter hash64 mask hash.toNat, ← hgroupids]
      dsimp only
      split
      next hempty =>
        have hnone : firstGroup (· ∈ mask.filter (· ∈ built.groupids))
            ((points hash64 groupidWeight).circle hash.toNat) = none := by
          rw [firstGroup, List.find?_eq_none, hempty]
          simp
        rw [hnone]
        exact ⟨1, _, rfl, rfl⟩
      next =>
        rw [walk_circle _ hindex, Option.bind_eq_bind, Option.bind_some]
        have hfound := hcircle (· ∈ mask.filter (· ∈ built.groupids))
        rw [firstGroup] at hfound
        rw [hfound]
        cases firstGroup (· ∈ mask.filter (· ∈ built.groupids))
            ((points hash64 groupidWeight).circle hash.toNat) with
        | some group => exact ⟨0, _, rfl, rfl⟩
        | none => exact ⟨1, _, rfl, rfl⟩

/-- `get_groupid` finds the first point of the plain ring, clockwise from the hash,
that is of an allowed group; and 1 says that there is none. -/
theorem getGroupid_walk (ring : KTMHashRing) (groupidWeight : OrderedMap Int Int)
    (hweights : groupidWeight.isEmpty = false) (hash : UInt64) (mask : Option (Finset Int)) :
    ∃ built, init hash64 ring groupidWeight = some (built, 0) ∧
      ∃ code out mask', built.getGroupid hash mask = some (code, out, mask') ∧
        out = (((points hash64 groupidWeight).circle hash.toNat).find?
          fun point => allows mask point.2).map Prod.snd ∧
        code = (if out.isSome then 0 else 1) ∧
        (code = 1 ↔ ∀ key group, (points hash64 groupidWeight).find key = some group →
          allows mask group = false) := by
  obtain ⟨built, hinit, hgroupids, hcircle⟩ := init_circle hash64 ring hweights
  have hstart : hash.toNat ≤ lastHash := Nat.le_sub_one_of_lt hash.toNat_lt
  obtain ⟨hindex, hsame⟩ := hcircle hash.toNat hstart
  obtain ⟨code, mask', hget, hcode⟩ := getGroupid_eq hash64 hgroupids hindex hsame mask
  refine ⟨built, hinit, code, _, mask', hget, List.find?_map, hcode, ?_⟩
  have hnone : firstGroup (allows mask) ((points hash64 groupidWeight).circle hash.toNat) = none ↔
      ∀ key group, (points hash64 groupidWeight).find key = some group →
        allows mask group = false := by
    rw [firstGroup, List.find?_eq_none, List.forall_mem_map]
    simp only [Prod.forall, OrderedMap.mem_circle, Bool.not_eq_true]
  rw [← hnone, hcode]
  cases firstGroup (allows mask) ((points hash64 groupidWeight).circle hash.toNat) with
  | some group => simp
  | none => simp

/-- One group, with a hash that sends everything to one point. -/
theorem getGroupid_walk_single :
    ∃ built, init (fun _ => 7) new (OrderedMap.set .empty 3 0) = some (built, 0) ∧
      ∃ code out mask', built.getGroupid 9 none = some (code, out, mask') ∧
        out = (((points (fun _ => 7) (OrderedMap.set .empty 3 0)).circle (9 : UInt64).toNat).find?
          fun point => allows none point.2).map Prod.snd ∧
        code = (if out.isSome then 0 else 1) ∧
        (code = 1 ↔ ∀ key group,
          (points (fun _ => 7) (OrderedMap.set .empty 3 0)).find key = some group →
            allows none group = false) :=
  getGroupid_walk (fun _ => 7) new (OrderedMap.set .empty 3 0) rfl 9 none

end KTMHashRing

end ServiceFrame
