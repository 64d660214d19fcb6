import Mathlib.Data.List.Basic
import Mathlib.Data.List.Pairwise

/-! # Ordered containers

`std::set` and `std::map` keep pairwise inequivalent elements in the order of a
comparator. The structures below carry that order as a field, and insertion is
the containers' own: an equivalent element already present is kept.
-/

namespace ServiceFrame.Foundation

universe uElem uValue

/-- A comparator, with the laws of a strict order that a container relies on. -/
structure Less (Elem : Type uElem) where
  lt : Elem → Elem → Bool
  asymm : ∀ {a b}, lt a b = true → lt b a = false
  trans : ∀ {a b c}, lt a b = true → lt b c = true → lt a c = true

namespace Less

variable {Elem : Type uElem} {Value : Type uValue} (less : Less Elem)

/-- Compare entries of a map by their keys. -/
def onKey : Less (Elem × Value) where
  lt a b := less.lt a.1 b.1
  asymm := less.asymm
  trans := less.trans

/-- Sorted, without equivalent elements. -/
def Sorted (elems : List Elem) : Prop := elems.Pairwise fun a b => less.lt a b = true

def insertElem (x : Elem) : List Elem → List Elem
  | [] => [x]
  | y :: rest =>
      if less.lt x y then x :: y :: rest
      else if less.lt y x then y :: insertElem x rest
      else y :: rest

variable {less}

theorem mem_insertElem {x z : Elem} {elems : List Elem} (hz : z ∈ less.insertElem x elems) :
    z = x ∨ z ∈ elems := by
  induction elems with
  | nil => simpa [insertElem] using hz
  | cons y rest ih =>
      unfold insertElem at hz
      split at hz
      · simpa using hz
      · split at hz
        · rcases List.mem_cons.mp hz with rfl | hrest
          · exact Or.inr List.mem_cons_self
          · exact (ih hrest).imp_right (List.mem_cons_of_mem _)
        · exact Or.inr hz

theorem Sorted.insertElem {x : Elem} {elems : List Elem} (hsorted : less.Sorted elems) :
    less.Sorted (less.insertElem x elems) := by
  induction elems with
  | nil => exact List.pairwise_singleton _ _
  | cons y rest ih =>
      obtain ⟨hhead, htail⟩ := List.pairwise_cons.mp hsorted
      unfold Less.insertElem
      split
      next hbefore =>
        refine List.pairwise_cons.mpr ⟨?_, hsorted⟩
        intro z hz
        rcases List.mem_cons.mp hz with rfl | hrest
        · exact hbefore
        · exact less.trans hbefore (hhead z hrest)
      next hnot =>
        split
        next hafter =>
          refine List.pairwise_cons.mpr ⟨?_, ih htail⟩
          intro z hz
          rcases mem_insertElem hz with rfl | hrest
          · exact hafter
          · exact hhead z hrest
        next => exact hsorted

/-- An element above all others goes to the end. -/
theorem insertElem_last {x : Elem} {elems : List Elem}
    (hlast : ∀ y ∈ elems, less.lt y x = true) : less.insertElem x elems = elems ++ [x] := by
  induction elems with
  | nil => rfl
  | cons y rest ih =>
      have hafter := hlast y List.mem_cons_self
      rw [insertElem, less.asymm hafter, if_neg Bool.false_ne_true, if_pos hafter,
        ih (fun z hz => hlast z (List.mem_cons_of_mem y hz)), List.cons_append]

end Less

/-- `std::less` on unsigned integers. -/
def natLess : Less Nat where
  lt a b := decide (a < b)
  asymm := by
    intro a b hlt
    rw [decide_eq_true_eq] at hlt
    exact decide_eq_false (Nat.lt_asymm hlt)
  trans := by
    intro a b c hab hbc
    rw [decide_eq_true_eq] at hab hbc
    exact decide_eq_true (Nat.lt_trans hab hbc)

theorem mem_insertElem_natLess {x z : Nat} {elems : List Nat} :
    z ∈ natLess.insertElem x elems ↔ z = x ∨ z ∈ elems := by
  refine ⟨Less.mem_insertElem, ?_⟩
  induction elems with
  | nil => simp [Less.insertElem]
  | cons y rest ih =>
      unfold Less.insertElem
      split
      · simp
      · split
        · simp only [List.mem_cons]
          rintro (hsame | hhead | hrest)
          · exact Or.inr (ih (Or.inl hsame))
          · exact Or.inl hhead
          · exact Or.inr (ih (Or.inr hrest))
        next hnot hnot' =>
          -- neither is below the other, so they are one number
          simp only [natLess, decide_eq_true_eq, Nat.not_lt] at hnot hnot'
          rw [Nat.le_antisymm hnot' hnot, List.mem_cons]
          exact fun hmem => hmem.elim Or.inl id

/-- The contents of a `std::set` with comparator `less`, in iteration order. -/
structure SortedSet {Elem : Type uElem} (less : Less Elem) where
  elems : List Elem
  sorted : less.Sorted elems

/-- The contents of a `std::map`: a set of entries compared by key. -/
abbrev SortedMap {Key : Type uElem} (less : Less Key) (Value : Type uValue) :=
  SortedSet (less.onKey : Less (Key × Value))

namespace SortedSet

variable {Elem : Type uElem} {less : Less Elem}

theorem ext {left right : SortedSet less} (heq : left.elems = right.elems) : left = right := by
  cases left
  cases right
  simp only [mk.injEq]
  exact heq

def empty : SortedSet less := ⟨[], List.Pairwise.nil⟩

def insert (set : SortedSet less) (x : Elem) : SortedSet less :=
  ⟨less.insertElem x set.elems, set.sorted.insertElem⟩

/-- Inserting sorted elements that all lie above the set appends them. -/
theorem foldl_insert {elems : List Elem} {set : SortedSet less}
    (hsorted : less.Sorted (set.elems ++ elems)) :
    (elems.foldl insert set).elems = set.elems ++ elems := by
  induction elems generalizing set with
  | nil => simp
  | cons x rest ih =>
      have hlast : (set.insert x).elems = set.elems ++ [x] := by
        apply Less.insertElem_last
        intro y hy
        exact (List.pairwise_append.mp hsorted).2.2 y hy x List.mem_cons_self
      have hrest := @ih (set.insert x)
        (by rw [hlast, List.append_assoc, List.singleton_append]; exact hsorted)
      rw [List.foldl_cons, hrest, hlast, List.append_assoc, List.singleton_append]

/-- A set is what inserting its elements, in order, into an empty set builds. -/
theorem foldl_insert_empty (set : SortedSet less) : set.elems.foldl insert empty = set :=
  ext (by rw [foldl_insert (by simpa [empty] using set.sorted)]; rfl)

end SortedSet

end ServiceFrame.Foundation
