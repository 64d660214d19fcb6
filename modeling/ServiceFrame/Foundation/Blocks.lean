import Mathlib.Data.List.Basic

/-! # Input that is taken block by block

A state takes its input in blocks of a size, and what does not fill a block waits. What the state
becomes, and what waits, does not depend on how the input is cut.
-/

namespace ServiceFrame.Foundation

universe uState uInner uCell

section Blocks

variable {State : Type uState} {Inner : Type uInner} {Cell : Type uCell}
  {take : State → List Cell → State} {size : Nat}

/-- The state after the whole blocks at the front, and the cells behind them. -/
def absorb (take : State → List Cell → State) (size : Nat) (state : State) (cells : List Cell) :
    State × List Cell :=
  if _h : 0 < size ∧ size ≤ cells.length then
    absorb take size (take state (cells.take size)) (cells.drop size)
  else (state, cells)
termination_by cells.length
decreasing_by
  rw [List.length_drop]
  omega

theorem absorb_short (state : State) {cells : List Cell} (hshort : cells.length < size) :
    absorb take size state cells = (state, cells) := by
  rw [absorb, dif_neg]
  omega

theorem absorb_block (hsize : 0 < size) (state : State) {block : List Cell}
    (hblock : block.length = size) (rest : List Cell) :
    absorb take size state (block ++ rest) = absorb take size (take state block) rest := by
  rw [absorb, dif_pos ⟨hsize, by rw [List.length_append]; omega⟩, ← hblock, List.take_left,
    List.drop_left]

theorem absorb_whole (hsize : 0 < size) (state : State) {block : List Cell}
    (hblock : block.length = size) :
    absorb take size state block = (take state block, []) := by
  rw [← List.append_nil block, absorb_block hsize state hblock, absorb_short, List.append_nil]
  exact hsize

/-- Cells are shorter than a block, or a block and what is behind it. -/
theorem blocks_induction (hsize : 0 < size) {motive : List Cell → Prop}
    (short : ∀ cells, cells.length < size → motive cells)
    (block : ∀ front rest, front.length = size → motive rest → motive (front ++ rest))
    (cells : List Cell) : motive cells := by
  induction hlength : cells.length using Nat.strongRecOn generalizing cells with
  | ind length ih =>
      subst hlength
      by_cases hshort : cells.length < size
      · exact short cells hshort
      · have hfront : (cells.take size).length = size := by
          rw [List.length_take]
          omega
        have hrest := ih (cells.drop size).length (by rw [List.length_drop]; omega)
          (cells.drop size) rfl
        exact List.take_append_drop size cells ▸ block _ _ hfront hrest

theorem length_absorb (hsize : 0 < size) (state : State) (cells : List Cell) :
    (absorb take size state cells).2.length = cells.length % size := by
  induction cells using blocks_induction hsize generalizing state with
  | short cells hshort => rw [absorb_short state hshort, Nat.mod_eq_of_lt hshort]
  | block front rest hfront ih =>
      rw [absorb_block hsize state hfront, ih, List.length_append, hfront, Nat.add_mod_left]

/-- What comes later is taken behind what waits. -/
theorem absorb_append (hsize : 0 < size) (state : State) (cells more : List Cell) :
    absorb take size state (cells ++ more) =
      absorb take size (absorb take size state cells).1
        ((absorb take size state cells).2 ++ more) := by
  induction cells using blocks_induction hsize generalizing state with
  | short cells hshort => rw [absorb_short state hshort]
  | block front rest hfront ih =>
      rw [List.append_assoc, absorb_block hsize state hfront, ih,
        absorb_block hsize state hfront]

/-- A component that takes each block as the state inside it does. -/
theorem absorb_inside (good : Inner → Prop) (inside : Inner → State)
    {takeInner : Inner → List Cell → Inner} (hsize : 0 < size)
    (htake : ∀ inner block, block.length = size → good inner →
      good (takeInner inner block) ∧ inside (takeInner inner block) = take (inside inner) block)
    {inner : Inner} (hgood : good inner) (cells : List Cell) :
    good (absorb takeInner size inner cells).1 ∧
      inside (absorb takeInner size inner cells).1 =
        (absorb take size (inside inner) cells).1 ∧
      (absorb takeInner size inner cells).2 = (absorb take size (inside inner) cells).2 := by
  induction cells using blocks_induction hsize generalizing inner with
  | short cells hshort =>
      rw [absorb_short _ hshort, absorb_short _ hshort]
      exact ⟨hgood, rfl, rfl⟩
  | block front rest hfront ih =>
      obtain ⟨hgood, hinside⟩ := htake inner front hfront hgood
      rw [absorb_block hsize _ hfront, absorb_block hsize _ hfront, ← hinside]
      exact ih hgood

end Blocks

end ServiceFrame.Foundation
