import Mathlib.Order.Lattice
import Mathlib.Logic.Function.Basic
import Mathlib.Data.List.Basic
import Mathlib.Data.List.Induction
import Mathlib.Data.List.Pairwise
import Mathlib.Data.List.Nodup
import Mathlib.Data.List.Rotate
import Mathlib.Data.List.Lex
import Mathlib.Data.Prod.Lex

/-! # Ordered maps

`std::map` over a linear order: its entries in the order of their keys, each key
once. A map is what its `find` answers, and the iterators of the container are
given by the order of the entries.
-/

namespace ServiceFrame.Foundation

universe uKey uValue

section Entries

variable {Key : Type uKey} {Value : Type uValue} [LinearOrder Key]

/-- The assignment `map[key] = value`. -/
def setEntry (key : Key) (value : Value) : List (Key × Value) → List (Key × Value)
  | [] => [(key, value)]
  | (other, old) :: rest =>
      if key < other then (key, value) :: (other, old) :: rest
      else if key = other then (key, value) :: rest
      else (other, old) :: setEntry key value rest

def findEntry (key : Key) : List (Key × Value) → Option Value
  | [] => none
  | (other, value) :: rest => if key = other then some value else findEntry key rest

theorem mem_setEntry {key : Key} {value : Value} {entries : List (Key × Value)}
    {entry : Key × Value} (hmem : entry ∈ setEntry key value entries) :
    entry = (key, value) ∨ entry ∈ entries := by
  induction entries with
  | nil => simpa [setEntry] using hmem
  | cons head rest ih =>
      obtain ⟨other, old⟩ := head
      unfold setEntry at hmem
      split at hmem
      · exact List.mem_cons.mp hmem
      · split at hmem
        · exact (List.mem_cons.mp hmem).imp_right (List.mem_cons_of_mem _)
        · rcases List.mem_cons.mp hmem with rfl | hrest
          · exact Or.inr List.mem_cons_self
          · exact (ih hrest).imp_right (List.mem_cons_of_mem _)

theorem sorted_setEntry {key : Key} {value : Value} {entries : List (Key × Value)}
    (hsorted : entries.Pairwise fun a b => a.1 < b.1) :
    (setEntry key value entries).Pairwise fun a b => a.1 < b.1 := by
  induction entries with
  | nil => exact List.pairwise_singleton _ _
  | cons head rest ih =>
      obtain ⟨other, old⟩ := head
      obtain ⟨hhead, hrest⟩ := List.pairwise_cons.mp hsorted
      unfold setEntry
      split
      next hless =>
        refine List.pairwise_cons.mpr ⟨?_, hsorted⟩
        intro entry hentry
        rcases List.mem_cons.mp hentry with rfl | hmem
        · exact hless
        · exact lt_trans hless (hhead entry hmem)
      next hnot =>
        split
        next hsame =>
          subst hsame
          exact List.pairwise_cons.mpr ⟨hhead, hrest⟩
        next hne =>
          refine List.pairwise_cons.mpr ⟨?_, ih hrest⟩
          intro entry hentry
          rcases mem_setEntry hentry with rfl | hmem
          · exact lt_of_le_of_ne (not_lt.mp hnot) (Ne.symm hne)
          · exact hhead entry hmem

theorem length_setEntry_le (key : Key) (value : Value) (entries : List (Key × Value)) :
    (setEntry key value entries).length ≤ entries.length + 1 := by
  induction entries with
  | nil => exact Nat.le_refl 1
  | cons head rest ih =>
      unfold setEntry
      split
      · exact Nat.le_refl _
      · split
        · exact Nat.le_succ _
        · exact Nat.succ_le_succ ih

theorem findEntry_setEntry (key other : Key) (value : Value) (entries : List (Key × Value)) :
    findEntry other (setEntry key value entries) =
      if other = key then some value else findEntry other entries := by
  induction entries with
  | nil => simp [setEntry, findEntry]
  | cons head rest ih =>
      obtain ⟨first, old⟩ := head
      unfold setEntry
      split
      next => simp [findEntry]
      next =>
        split
        next hsame =>
          subst hsame
          by_cases hother : other = key
          · simp [findEntry, hother]
          · simp [findEntry, hother]
        next hne =>
          simp only [findEntry, ih]
          by_cases hfirst : other = first
          · subst hfirst
            simp [Ne.symm hne]
          · simp [hfirst]

theorem findEntry_erase (key other : Key) (entries : List (Key × Value)) :
    findEntry other (entries.filter fun entry => entry.1 ≠ key) =
      if other = key then none else findEntry other entries := by
  induction entries with
  | nil => simp [findEntry]
  | cons head rest ih =>
      obtain ⟨first, old⟩ := head
      by_cases hfirst : first = key
      · subst hfirst
        simp only [ne_eq, not_true_eq_false, decide_false, Bool.false_eq_true, not_false_eq_true,
          List.filter_cons_of_neg]
        rw [ih]
        by_cases hother : other = first
        · simp [hother]
        · simp [hother, findEntry]
      · rw [List.filter_cons_of_pos (by simpa using hfirst), findEntry, ih]
        by_cases hother : other = first
        · subst hother
          simp [findEntry, hfirst]
        · simp [hother, findEntry]

theorem findEntry_eq_some {entries : List (Key × Value)}
    (hsorted : entries.Pairwise fun a b => a.1 < b.1) {key : Key} {value : Value} :
    findEntry key entries = some value ↔ (key, value) ∈ entries := by
  induction entries with
  | nil => simp [findEntry]
  | cons head rest ih =>
      obtain ⟨first, old⟩ := head
      obtain ⟨hhead, hrest⟩ := List.pairwise_cons.mp hsorted
      by_cases hfirst : key = first
      · subst hfirst
        have hout : (key, value) ∉ rest := by
          intro hmem
          exact lt_irrefl _ (hhead (key, value) hmem)
        simp [findEntry, hout, eq_comm]
      · simp [findEntry, hfirst, ih hrest]

end Entries

structure OrderedMap (Key : Type uKey) (Value : Type uValue) [LinearOrder Key] where
  entries : List (Key × Value)
  sorted : entries.Pairwise fun a b => a.1 < b.1

namespace OrderedMap

variable {Key : Type uKey} {Value : Type uValue} [LinearOrder Key]

def empty : OrderedMap Key Value := ⟨[], List.Pairwise.nil⟩

def isEmpty (map : OrderedMap Key Value) : Bool := map.entries.isEmpty

def find (map : OrderedMap Key Value) (key : Key) : Option Value := findEntry key map.entries

/-- `map[key] = value`. -/
def set (map : OrderedMap Key Value) (key : Key) (value : Value) : OrderedMap Key Value :=
  ⟨setEntry key value map.entries, sorted_setEntry map.sorted⟩

def erase (map : OrderedMap Key Value) (key : Key) : OrderedMap Key Value :=
  ⟨map.entries.filter fun entry => entry.1 ≠ key, map.sorted.filter _⟩

/-- `map.insert`, which keeps the value of a key that is there. -/
def insert (map : OrderedMap Key Value) (key : Key) (value : Value) : OrderedMap Key Value :=
  if (map.find key).isSome then map else map.set key value

/-- Erase every key with a property. -/
def eraseIf (map : OrderedMap Key Value) (gone : Key → Bool) : OrderedMap Key Value :=
  ⟨map.entries.filter fun entry => !gone entry.1, map.sorted.filter _⟩

/-- The entry that `lower_bound(key)` points to; none is `end()`. -/
def lowerBound (map : OrderedMap Key Value) (key : Key) : Option (Key × Value) :=
  map.entries.find? fun entry => key ≤ entry.1

/-- The entry that `begin()` points to. -/
def first (map : OrderedMap Key Value) : Option (Key × Value) := map.entries.head?

variable {map other : OrderedMap Key Value} {key : Key} {value : Value}

theorem mem_entries : (key, value) ∈ map.entries ↔ map.find key = some value :=
  (findEntry_eq_some map.sorted).symm

@[simp] theorem find_empty (key : Key) : (empty : OrderedMap Key Value).find key = none := rfl

@[simp] theorem find_set (map : OrderedMap Key Value) (key : Key) (value : Value) :
    (map.set key value).find = Function.update map.find key (some value) := by
  funext other
  rw [Function.update_apply]
  exact findEntry_setEntry key other value map.entries

@[simp] theorem find_erase (map : OrderedMap Key Value) (key : Key) :
    (map.erase key).find = Function.update map.find key none := by
  funext other
  rw [Function.update_apply]
  exact findEntry_erase key other map.entries

theorem find_set_self (map : OrderedMap Key Value) (key : Key) (value : Value) :
    (map.set key value).find key = some value := by
  rw [find_set, Function.update_self]

theorem find_set_of_ne (map : OrderedMap Key Value) {key other : Key} (hne : other ≠ key)
    (value : Value) : (map.set key value).find other = map.find other := by
  rw [find_set, Function.update_of_ne hne]

theorem find_erase_self (map : OrderedMap Key Value) (key : Key) :
    (map.erase key).find key = none := by
  rw [find_erase, Function.update_self]

theorem find_erase_of_ne (map : OrderedMap Key Value) {key other : Key} (hne : other ≠ key) :
    (map.erase key).find other = map.find other := by
  rw [find_erase, Function.update_of_ne hne]

theorem find_insert (map : OrderedMap Key Value) (key : Key) (value : Value) :
    (map.insert key value).find = Function.update map.find key
      (some ((map.find key).getD value)) := by
  unfold insert
  split
  next hthere =>
    obtain ⟨old, hold⟩ := Option.isSome_iff_exists.mp hthere
    rw [hold, Option.getD_some, ← hold, Function.update_eq_self]
  next hgone =>
    rw [Option.not_isSome_iff_eq_none] at hgone
    rw [find_set, hgone, Option.getD_none]

/-- What a loop of insertions leaves was there, or is one of them. -/
theorem foldl_insert_find {entries : List (Key × Value)}
    (hfind : (entries.foldl (fun map entry => map.insert entry.1 entry.2) map).find key =
      some value) : map.find key = some value ∨ (key, value) ∈ entries := by
  induction entries generalizing map with
  | nil => exact Or.inl hfind
  | cons entry rest ih =>
      rw [List.foldl_cons] at hfind
      rcases ih hfind with hinsert | hrest
      · rw [find_insert, Function.update_apply] at hinsert
        split at hinsert
        next hkey =>
          subst hkey
          cases hold : map.find entry.1 with
          | none =>
              rw [hold] at hinsert
              cases hinsert
              exact Or.inr List.mem_cons_self
          | some old =>
              rw [hold] at hinsert
              exact Or.inl hinsert
        next => exact Or.inl hinsert
      · exact Or.inr (List.mem_cons_of_mem _ hrest)

/-- No key goes in a loop of insertions, and theirs are there after it. -/
theorem foldl_insert_isSome {entries : List (Key × Value)}
    (hsome : (map.find key).isSome ∨ key ∈ entries.map Prod.fst) :
    ((entries.foldl (fun map entry => map.insert entry.1 entry.2) map).find key).isSome := by
  induction entries generalizing map with
  | nil => exact hsome.resolve_right List.not_mem_nil
  | cons entry rest ih =>
      rw [List.foldl_cons]
      apply ih
      rw [find_insert, Function.update_apply]
      by_cases hkey : key = entry.1
      · rw [if_pos hkey]
        exact Or.inl rfl
      · rw [if_neg hkey]
        exact hsome.imp_right fun hmem => (List.mem_cons.mp hmem).resolve_left hkey

theorem find_eraseIf (map : OrderedMap Key Value) (gone : Key → Bool) (key : Key) :
    (map.eraseIf gone).find key = if gone key then none else map.find key := by
  split
  next hgone =>
    rw [Option.eq_none_iff_forall_ne_some]
    intro value hvalue
    rw [← mem_entries, eraseIf, List.mem_filter] at hvalue
    simp [hgone] at hvalue
  next hkept =>
    apply Option.ext
    intro value
    rw [← mem_entries, ← mem_entries, eraseIf, List.mem_filter]
    simp [hkept]

/-- A loop that writes one answer at each of its keys. -/
theorem foldl_find {write : OrderedMap Key Value → Key → OrderedMap Key Value}
    {answer : Option Value}
    (hwrite : ∀ map key, (write map key).find = Function.update map.find key answer)
    (keys : List Key) (map : OrderedMap Key Value) (key : Key) :
    (keys.foldl write map).find key = if key ∈ keys then answer else map.find key := by
  induction keys generalizing map with
  | nil => simp
  | cons head rest ih =>
      rw [List.foldl_cons, ih, hwrite]
      by_cases hrest : key ∈ rest
      · rw [if_pos hrest, if_pos (List.mem_cons_of_mem head hrest)]
      · rw [if_neg hrest]
        by_cases hhead : key = head
        · subst hhead
          rw [Function.update_self, if_pos List.mem_cons_self]
        · rw [Function.update_of_ne hhead, if_neg]
          intro hmem
          exact (List.mem_cons.mp hmem).elim hhead hrest

theorem length_set_le (map : OrderedMap Key Value) (key : Key) (value : Value) :
    (map.set key value).entries.length ≤ map.entries.length + 1 :=
  length_setEntry_le key value map.entries

/-- The entries of a key are what `find` answers. -/
theorem filterMap_entries (map : OrderedMap Key Value) (key : Key) :
    map.entries.filterMap (fun entry => if key = entry.1 then some entry.2 else none) =
      (map.find key).toList := by
  obtain ⟨entries, hsorted⟩ := map
  change entries.filterMap _ = (findEntry key entries).toList
  induction entries with
  | nil => rfl
  | cons entry rest ih =>
      obtain ⟨other, value⟩ := entry
      obtain ⟨hfirst, hrest⟩ := List.pairwise_cons.mp hsorted
      by_cases hsame : key = other
      · have hlater : ∀ later value, (later, value) ∈ rest → other ≠ later :=
          fun later value hmem => (hfirst (later, value) hmem).ne
        simpa [findEntry, hsame] using hlater
      · simpa [findEntry, hsame] using ih hrest

theorem nodup (map : OrderedMap Key Value) : map.entries.Nodup := by
  apply map.sorted.imp
  rintro a b hless rfl
  exact lt_irrefl _ hless

/-- A map is what it answers. -/
theorem ext_find (hfind : map.find = other.find) : map = other := by
  have hentries : map.entries = other.entries := by
    have hperm : map.entries.Perm other.entries := by
      rw [List.perm_ext_iff_of_nodup map.nodup other.nodup]
      rintro ⟨key, value⟩
      rw [mem_entries, mem_entries, hfind]
    exact hperm.eq_of_pairwise
      (fun a b _ _ hless hgreater => absurd (lt_trans hless hgreater) (lt_irrefl _))
      map.sorted other.sorted
  cases map
  cases other
  cases hentries
  rfl

theorem isEmpty_iff : map.isEmpty = true ↔ ∀ key, map.find key = none := by
  rw [isEmpty, List.isEmpty_iff]
  constructor
  · intro hnil key
    rw [find, hnil, findEntry]
  · intro hnone
    rw [List.eq_nil_iff_forall_not_mem]
    rintro ⟨key, value⟩ hmem
    rw [mem_entries, hnone key] at hmem
    cases hmem

theorem lowerBound_eq_some {start : Key} :
    map.lowerBound start = some (key, value) ↔
      map.find key = some value ∧ start ≤ key ∧
        ∀ before, start ≤ before → before < key → map.find before = none := by
  rw [lowerBound, List.find?_eq_some_iff_append]
  constructor
  · rintro ⟨hstart, front, back, hentries, hfront⟩
    have hmem : (key, value) ∈ map.entries := by simp [hentries]
    refine ⟨mem_entries.mp hmem, by simpa using hstart, ?_⟩
    intro before hbefore hless
    by_contra hsome
    obtain ⟨old, hold⟩ := Option.ne_none_iff_exists'.mp hsome
    have hin := mem_entries.mpr hold
    rw [hentries, List.mem_append] at hin
    -- in front of the key the search would have stopped, and behind it the keys are larger
    rcases hin with hin | hin
    · have hnot := hfront (before, old) hin
      simp [hbefore] at hnot
    · have hsorted := map.sorted
      rw [hentries, List.pairwise_append] at hsorted
      rcases List.mem_cons.mp hin with hsame | hback
      · cases hsame
        exact lt_irrefl _ hless
      · exact lt_irrefl _ (lt_trans hless ((List.pairwise_cons.mp hsorted.2.1).1 _ hback))
  · rintro ⟨hfind, hstart, hnone⟩
    obtain ⟨front, back, hentries⟩ := List.append_of_mem (mem_entries.mpr hfind)
    refine ⟨by simpa using hstart, front, back, hentries, ?_⟩
    rintro ⟨before, old⟩ hbefore
    have hsorted := map.sorted
    rw [hentries, List.pairwise_append] at hsorted
    have hless : before < key := hsorted.2.2 _ hbefore _ List.mem_cons_self
    have hin : map.find before = some old := mem_entries.mp (by simp [hentries, hbefore])
    by_contra hyes
    have hle : start ≤ before := by simpa using hyes
    rw [hnone before hle hless] at hin
    cases hin

theorem lowerBound_eq_none {start : Key} :
    map.lowerBound start = none ↔ ∀ key, start ≤ key → map.find key = none := by
  rw [lowerBound, List.find?_eq_none]
  constructor
  · intro hnone key hstart
    by_contra hsome
    obtain ⟨value, hvalue⟩ := Option.ne_none_iff_exists'.mp hsome
    have hnot := hnone (key, value) (mem_entries.mpr hvalue)
    simp [hstart] at hnot
  · rintro hnone ⟨key, value⟩ hmem
    rw [mem_entries] at hmem
    intro hyes
    rw [hnone key (by simpa using hyes)] at hmem
    cases hmem

theorem first_eq_some :
    map.first = some (key, value) ↔
      map.find key = some value ∧ ∀ before, before < key → map.find before = none := by
  rw [first, List.head?_eq_some_iff]
  constructor
  · rintro ⟨rest, hentries⟩
    refine ⟨mem_entries.mp (by simp [hentries]), ?_⟩
    intro before hless
    by_contra hsome
    obtain ⟨old, hold⟩ := Option.ne_none_iff_exists'.mp hsome
    have hin := mem_entries.mpr hold
    have hsorted := map.sorted
    rw [hentries] at hin hsorted
    rcases List.mem_cons.mp hin with hsame | hrest
    · cases hsame
      exact lt_irrefl _ hless
    · exact lt_irrefl _ (lt_trans hless ((List.pairwise_cons.mp hsorted).1 _ hrest))
  · rintro ⟨hfind, hnone⟩
    obtain ⟨front, back, hentries⟩ := List.append_of_mem (mem_entries.mpr hfind)
    cases front with
    | nil => exact ⟨back, hentries⟩
    | cons head rest =>
        obtain ⟨before, old⟩ := head
        have hsorted := map.sorted
        rw [hentries] at hsorted
        have hless : before < key :=
          (List.pairwise_cons.mp hsorted).1 (key, value) (by simp)
        have hin : map.find before = some old := mem_entries.mp (by simp [hentries])
        rw [hnone before hless] at hin
        cases hin

theorem first_eq_none : map.first = none ↔ map.isEmpty = true := by
  rw [first, List.head?_eq_none_iff, isEmpty, List.isEmpty_iff]

/-! ## The map as a circle -/

/-- The entry at `start` or next after it, from the last key on to the first. -/
def clockwise (map : OrderedMap Key Value) (start : Key) : Option (Key × Value) :=
  (map.lowerBound start).or map.first

theorem clockwise_find {start : Key} (hnext : map.clockwise start = some (key, value)) :
    map.find key = some value := by
  unfold clockwise at hnext
  rcases Option.or_eq_some_iff.mp hnext with hlower | ⟨-, hfirst⟩
  · exact (lowerBound_eq_some.mp hlower).1
  · exact (first_eq_some.mp hfirst).1

theorem clockwise_eq_none {start : Key} : map.clockwise start = none ↔ map.isEmpty = true := by
  rw [clockwise, Option.or_eq_none_iff, first_eq_none]
  constructor
  · exact And.right
  · intro hempty
    exact ⟨lowerBound_eq_none.mpr fun key _ => isEmpty_iff.mp hempty key, hempty⟩

theorem clockwise_eq_some {start : Key} :
    map.clockwise start = some (key, value) ↔
      map.find key = some value ∧
        ((start ≤ key ∧ ∀ before, start ≤ before → before < key → map.find before = none) ∨
          ((∀ behind, start ≤ behind → map.find behind = none) ∧
            ∀ before, before < key → map.find before = none)) := by
  rw [clockwise, Option.or_eq_some_iff, lowerBound_eq_some, lowerBound_eq_none, first_eq_some]
  tauto

/-- Setting a key changes the entry after `start` to that key's at most. -/
theorem clockwise_set (map : OrderedMap Key Value) (key : Key) (value : Value) (start : Key) :
    (map.set key value).clockwise start = some (key, value) ∨
      (map.set key value).clockwise start = map.clockwise start := by
  have hset : (map.set key value).find key = some value := by
    rw [find_set, Function.update_self]
  have hother : ∀ {before}, (map.set key value).find before = none → map.find before = none := by
    intro before hnone
    rw [find_set] at hnone
    rcases eq_or_ne before key with rfl | hne
    · rw [Function.update_self] at hnone
      cases hnone
    · rwa [Function.update_of_ne hne] at hnone
  cases hnext : (map.set key value).clockwise start with
  | none =>
      rw [clockwise_eq_none, isEmpty_iff] at hnext
      rw [hnext key] at hset
      cases hset
  | some entry =>
      obtain ⟨behind, old⟩ := entry
      obtain ⟨hfind, hwhere⟩ := clockwise_eq_some.mp hnext
      rcases eq_or_ne behind key with rfl | hne
      · rw [hset] at hfind
        exact Or.inl (by rw [Option.some.inj hfind])
      · refine Or.inr (clockwise_eq_some.mpr ⟨?_, ?_⟩).symm
        · rwa [find_set, Function.update_of_ne hne] at hfind
        · rcases hwhere with ⟨hstart, hnone⟩ | ⟨hnone, hfirst⟩
          · exact Or.inl ⟨hstart, fun before hle hless => hother (hnone before hle hless)⟩
          · exact Or.inr ⟨fun before hle => hother (hnone before hle),
              fun before hless => hother (hfirst before hless)⟩

/-- With other entries gone, the entry after `start` is still the one it was. -/
theorem clockwise_of_fewer {start : Key} (hnext : map.clockwise start = some (key, value))
    (hfewer : ∀ key, other.find key = none ∨ other.find key = map.find key)
    (hkept : other.find key = some value) : other.clockwise start = some (key, value) := by
  have hnone : ∀ {before}, map.find before = none → other.find before = none := by
    intro before hbefore
    rcases hfewer before with hgone | hsame
    · exact hgone
    · rw [hsame, hbefore]
  obtain ⟨-, hwhere⟩ := clockwise_eq_some.mp hnext
  refine clockwise_eq_some.mpr ⟨hkept, ?_⟩
  rcases hwhere with ⟨hstart, hbetween⟩ | ⟨hbehind, hfirst⟩
  · exact Or.inl ⟨hstart, fun before hle hless => hnone (hbetween before hle hless)⟩
  · exact Or.inr ⟨fun behind hle => hnone (hbehind behind hle),
      fun before hless => hnone (hfirst before hless)⟩

/-! ## Walks -/

theorem split_sorted {entries : List (Key × Value)}
    (hsorted : entries.Pairwise fun a b => a.1 < b.1) (start : Key) :
    entries.takeWhile (·.1 < start) = entries.filter (·.1 < start) ∧
      entries.dropWhile (·.1 < start) = entries.filter (start ≤ ·.1) := by
  induction entries with
  | nil => exact ⟨rfl, rfl⟩
  | cons head rest ih =>
      obtain ⟨hhead, hrest⟩ := List.pairwise_cons.mp hsorted
      obtain ⟨htake, hdrop⟩ := ih hrest
      by_cases hbefore : head.1 < start
      · simp [hbefore, htake, hdrop, not_le.mpr hbefore]
      · have hbehind : ∀ entry ∈ rest, start ≤ entry.1 := fun entry hentry =>
          (not_lt.mp hbefore).trans (hhead entry hentry).le
        have hnone : rest.filter (·.1 < start) = [] := by
          rw [List.filter_eq_nil_iff]
          intro entry hentry
          simpa using hbehind entry hentry
        have hall : rest.filter (start ≤ ·.1) = rest := by
          rw [List.filter_eq_self]
          intro entry hentry
          simpa using hbehind entry hentry
        rw [List.takeWhile_cons_of_neg (by simpa using hbefore),
          List.dropWhile_cons_of_neg (by simpa using hbefore),
          List.filter_cons_of_neg (by simpa using hbefore),
          List.filter_cons_of_pos (by simpa using hbefore), hnone, hall]
        exact ⟨rfl, rfl⟩

/-- The entries from `start` on, and round to the last one before it. -/
def circle (map : OrderedMap Key Value) (start : Key) : List (Key × Value) :=
  map.entries.filter (start ≤ ·.1) ++ map.entries.filter (·.1 < start)

/-- The place that `lower_bound(start)` points to; the length of the map is `end()`. -/
def lowerIndex (map : OrderedMap Key Value) (start : Key) : Nat :=
  (map.entries.takeWhile (·.1 < start)).length

theorem entries_split (map : OrderedMap Key Value) (start : Key) :
    map.entries = map.entries.filter (·.1 < start) ++ map.entries.filter (start ≤ ·.1) := by
  obtain ⟨htake, hdrop⟩ := split_sorted map.sorted start
  rw [← htake, ← hdrop, List.takeWhile_append_dropWhile]

theorem circle_eq (map : OrderedMap Key Value) (start : Key) :
    map.circle start =
      map.entries.drop (map.lowerIndex start) ++ map.entries.take (map.lowerIndex start) := by
  obtain ⟨htake, hdrop⟩ := split_sorted map.sorted start
  have hentries := List.takeWhile_append_dropWhile (p := (·.1 < start)) (l := map.entries)
  have hbefore : map.entries.take (map.lowerIndex start) =
      map.entries.takeWhile (·.1 < start) := by
    conv => lhs; rw [← hentries]
    exact List.take_left
  have hbehind : map.entries.drop (map.lowerIndex start) =
      map.entries.dropWhile (·.1 < start) := by
    conv => lhs; rw [← hentries]
    exact List.drop_left
  rw [hbefore, hbehind, htake, hdrop, circle]

/-- The circle begins with the entry that comes next. -/
theorem head_circle (map : OrderedMap Key Value) (start : Key) :
    (map.circle start).head? = map.clockwise start := by
  rw [circle, List.head?_append, clockwise, lowerBound, List.head?_filter, first]
  cases hfind : map.entries.find? (start ≤ ·.1) with
  | some entry => rfl
  | none =>
      have hall : map.entries.filter (·.1 < start) = map.entries := by
        rw [List.filter_eq_self]
        intro entry hmem
        simpa using List.find?_eq_none.mp hfind entry hmem
      rw [hall]

theorem lowerIndex_le (map : OrderedMap Key Value) (start : Key) :
    map.lowerIndex start ≤ map.entries.length :=
  (List.takeWhile_sublist _).length_le

theorem circle_eq_rotate (map : OrderedMap Key Value) (start : Key) :
    map.circle start = map.entries.rotate (map.lowerIndex start) := by
  rw [circle_eq, List.rotate_eq_drop_append_take (map.lowerIndex_le start)]

/-- The place is in the map when some key is not before it. -/
theorem lowerIndex_lt {start : Key} :
    map.lowerIndex start < map.entries.length ↔ ∃ entry ∈ map.entries, start ≤ entry.1 := by
  have hlength := congrArg List.length (map.entries_split start)
  rw [List.length_append] at hlength
  rw [lowerIndex, (split_sorted map.sorted start).1, hlength, Nat.lt_add_right_iff_pos,
    List.length_pos_iff_exists_mem]
  simp

theorem length_circle (map : OrderedMap Key Value) (start : Key) :
    (map.circle start).length = map.entries.length := by
  rw [circle, List.length_append, Nat.add_comm, ← List.length_append, ← entries_split]

theorem mem_circle {start : Key} : (key, value) ∈ map.circle start ↔ map.find key = some value := by
  rw [circle, List.mem_append, or_comm, ← List.mem_append, ← entries_split, mem_entries]

/-- A key above all others goes to the end. -/
theorem entries_set_last (hlast : ∀ entry ∈ map.entries, entry.1 < key) :
    (map.set key value).entries = map.entries ++ [(key, value)] := by
  change setEntry key value map.entries = _
  revert hlast
  generalize map.entries = entries
  intro hlast
  induction entries with
  | nil => rfl
  | cons head rest ih =>
      obtain ⟨other, old⟩ := head
      have hother : other < key := hlast (other, old) List.mem_cons_self
      rw [setEntry, if_neg (not_lt.mpr hother.le), if_neg hother.ne',
        ih fun entry hentry => hlast entry (List.mem_cons_of_mem _ hentry), List.cons_append]

theorem entries_erase_all (map : OrderedMap Key Value) (keys : List Key) :
    (keys.foldl erase map).entries = map.entries.filter fun entry => entry.1 ∉ keys := by
  induction keys generalizing map with
  | nil => simp
  | cons key rest ih =>
      rw [List.foldl_cons, ih, erase, List.filter_filter]
      apply List.filter_congr
      intro entry _
      simp [Bool.and_comm]

/-- A key that is written has its own entry, next to those of the others. -/
theorem entries_set_perm (map : OrderedMap Key Value) (key : Key) (value : Value) :
    (map.set key value).entries.Perm ((key, value) :: (map.erase key).entries) := by
  have hout : (key, value) ∉ (map.erase key).entries := by
    rw [mem_entries, find_erase, Function.update_self]
    exact Option.some_ne_none value |>.symm
  rw [List.perm_ext_iff_of_nodup (nodup _) (List.nodup_cons.mpr ⟨hout, nodup _⟩)]
  rintro ⟨other, old⟩
  rw [List.mem_cons, mem_entries, mem_entries, find_set, find_erase, Function.update_apply,
    Function.update_apply]
  by_cases hother : other = key
  · subst hother
    simp [eq_comm]
  · simp [hother]

/-- What a key had goes with its entry. -/
theorem entries_erase_perm (hfind : map.find key = some value) :
    map.entries.Perm ((key, value) :: (map.erase key).entries) := by
  have hsame : map.set key value = map := by
    apply ext_find
    rw [find_set, ← hfind, Function.update_eq_self]
  have hset := map.entries_set_perm key value
  rwa [hsame] at hset

/-- A loop that writes the entries of a map over an empty one gives the map. -/
theorem foldl_set_entries (map : OrderedMap Key Value) :
    map.entries.foldl (fun map entry => map.set entry.1 entry.2) empty = map := by
  have hloop : ∀ behind before : List (Key × Value), ∀ past : OrderedMap Key Value,
      past.entries = before → (before ++ behind).Pairwise (fun a b => a.1 < b.1) →
      (behind.foldl (fun map entry => map.set entry.1 entry.2) past).entries =
        before ++ behind := by
    intro behind
    induction behind with
    | nil =>
        intro before past hpast _
        rw [List.append_nil]
        exact hpast
    | cons entry rest ih =>
        intro before past hpast hsorted
        have hlast : ∀ other ∈ past.entries, other.1 < entry.1 := by
          intro other hother
          rw [hpast] at hother
          exact (List.pairwise_append.mp hsorted).2.2 other hother entry List.mem_cons_self
        rw [List.foldl_cons, ih (before ++ [entry]) _ (by rw [entries_set_last hlast, hpast])
          (by rwa [List.append_assoc, List.singleton_append]), List.append_assoc,
          List.singleton_append]
  have hentries := hloop map.entries [] empty rfl map.sorted
  cases map
  cases hfold : List.foldl _ _ _ with
  | mk entries sorted =>
      rw [hfold] at hentries
      cases hentries
      rfl

theorem erase_of_find_none (hnone : map.find key = none) : map.erase key = map := by
  apply ext_find
  rw [find_erase, ← hnone, Function.update_eq_self]

/-- Each value is replaced, at its key. -/
def mapValues (map : OrderedMap Key Value) (replace : Key → Value → Value) :
    OrderedMap Key Value :=
  ⟨map.entries.map fun entry => (entry.1, replace entry.1 entry.2),
    List.pairwise_map.mpr map.sorted⟩

theorem find_mapValues (map : OrderedMap Key Value) (replace : Key → Value → Value) (key : Key) :
    (map.mapValues replace).find key = (map.find key).map (replace key) := by
  change findEntry key (map.entries.map _) = (findEntry key map.entries).map _
  induction map.entries with
  | nil => rfl
  | cons entry rest ih =>
      rw [List.map_cons, findEntry, findEntry, ih]
      by_cases hkey : key = entry.1
      · rw [if_pos hkey, if_pos hkey, hkey]
        rfl
      · rw [if_neg hkey, if_neg hkey]

/-- `operator<` of `std::map` compares the entries in their order. -/
instance [LinearOrder Value] : LinearOrder (OrderedMap Key Value) :=
  LinearOrder.lift' (fun map => map.entries.map toLex) (by
    intro first second hsame
    have hentries := List.map_injective_iff.mpr toLex.injective hsame
    cases first
    cases second
    cases hentries
    rfl)

end OrderedMap

/-! ## Orders of keys -/

instance linearOrderUInt8 : LinearOrder UInt8 where
  le_refl := UInt8.le_refl
  le_trans _ _ _ := UInt8.le_trans
  le_antisymm _ _ := UInt8.le_antisymm
  le_total := UInt8.le_total
  lt_iff_le_not_ge first second := by
    rw [UInt8.not_le]
    exact ⟨fun hless => ⟨UInt8.le_of_lt hless, hless⟩, fun hboth => hboth.2⟩
  toDecidableLE := inferInstance

instance linearOrderInt32 : LinearOrder Int32 where
  le_refl := Int32.le_refl
  le_trans _ _ _ := Int32.le_trans
  le_antisymm _ _ := Int32.le_antisymm
  le_total := Int32.le_total
  lt_iff_le_not_ge first second := by
    rw [Int32.not_le]
    exact ⟨fun hless => ⟨Int32.le_of_lt hless, hless⟩, fun hboth => hboth.2⟩
  toDecidableLE := inferInstance

instance linearOrderUInt32 : LinearOrder UInt32 where
  le_refl := UInt32.le_refl
  le_trans _ _ _ := UInt32.le_trans
  le_antisymm _ _ := UInt32.le_antisymm
  le_total := UInt32.le_total
  lt_iff_le_not_ge first second := by
    rw [UInt32.not_le]
    exact ⟨fun hless => ⟨UInt32.le_of_lt hless, hless⟩, fun hboth => hboth.2⟩
  toDecidableLE := inferInstance
  toDecidableEq := inferInstance
  toDecidableLT := inferInstance

/-! ## Sets of ids -/

/-- A `std::set<uint32_t>`. -/
abbrev IdSet := OrderedMap UInt32 Unit

namespace IdSet

def elems (set : IdSet) : List UInt32 := set.entries.map Prod.fst

theorem mem_elems {set : IdSet} {id : UInt32} : id ∈ set.elems ↔ set.find id = some () := by
  rw [← OrderedMap.mem_entries, elems]
  constructor
  · intro hmem
    obtain ⟨entry, hentry, rfl⟩ := List.mem_map.mp hmem
    exact hentry
  · intro hentry
    exact List.mem_map.mpr ⟨_, hentry, rfl⟩

theorem elems_sorted (set : IdSet) : set.elems.Pairwise (· < ·) :=
  List.pairwise_map.mpr set.sorted

theorem elems_nodup (set : IdSet) : set.elems.Nodup :=
  (elems_sorted set).imp fun hless => ne_of_lt hless

@[simp] theorem mem_set (set : IdSet) (id other : UInt32) :
    other ∈ elems (set.set id ()) ↔ other = id ∨ other ∈ set.elems := by
  rw [mem_elems, mem_elems]
  by_cases hother : other = id
  · simp [hother, OrderedMap.find_set_self]
  · simp [hother, OrderedMap.find_set_of_ne]

@[simp] theorem mem_erase (set : IdSet) (id other : UInt32) :
    other ∈ elems (set.erase id) ↔ other ≠ id ∧ other ∈ set.elems := by
  rw [mem_elems, mem_elems]
  by_cases hother : other = id
  · simp [hother, OrderedMap.find_erase_self]
  · simp [hother, OrderedMap.find_erase_of_ne]

end IdSet

end ServiceFrame.Foundation
