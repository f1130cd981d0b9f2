/-
Module: Dory.Foundation.CyclicScan
Purpose: A do-while scan of a vector that starts at some index, wraps
  around at the end and stops at the first item that passes a test, or when
  it is back where it started.  Such a scan finds the first passing item of
  the vector rotated to start at that index (`cyclicScan_eq_find?`).
Trusted boundary: none
Main exports: cyclicScan, cyclicScan_eq_find?_take, cyclicScan_eq_find?
-/
import Mathlib

namespace Dory.Foundation

variable {α : Type} (test : α → Bool) (items : List α)

/-- The scan from `index` with `remaining` items left to look at. -/
def cyclicScan (index : Nat) : Nat → Option α
  | 0 => none
  | remaining + 1 =>
      match items[index]? with
      | none => none
      | some item => if test item then some item else cyclicScan ((index + 1) % items.length) remaining

variable {test items}

/-- The vector rotated to start at an index: its item there, then the rest,
which the rotation one further starts with. -/
theorem rotate_eq_cons {index : Nat} (within : index < items.length) :
    ∃ rest, items.rotate index = items[index] :: rest ∧
      items.rotate ((index + 1) % items.length) = rest ++ [items[index]] := by
  have head := List.head?_rotate within
  rw [List.getElem?_eq_getElem within] at head
  obtain ⟨rest, rotated⟩ : ∃ rest, items.rotate index = items[index] :: rest := by
    cases rotation : items.rotate index with
    | nil => simp [rotation] at head
    | cons first rest =>
        rw [rotation, List.head?_cons, Option.some.injEq] at head
        exact ⟨rest, by rw [head]⟩
  refine ⟨rest, rotated, ?_⟩
  rw [List.rotate_mod, ← List.rotate_rotate, rotated, List.rotate_cons_succ, List.rotate_zero]

/-- Within one turn, the scan finds the first passing item among the next
`remaining` items of the rotation. -/
theorem cyclicScan_eq_find?_take (remaining : Nat) {index : Nat} (within : index < items.length)
    (bounded : remaining ≤ items.length) :
    cyclicScan test items index remaining = ((items.rotate index).take remaining).find? test := by
  induction remaining generalizing index with
  | zero => rfl
  | succ remaining ih =>
      obtain ⟨rest, rotated, next⟩ := rotate_eq_cons within
      have restLength : rest.length + 1 = items.length := by
        simpa [rotated] using List.length_rotate items index
      have nextWithin : (index + 1) % items.length < items.length := Nat.mod_lt _ (by omega)
      rw [cyclicScan, List.getElem?_eq_getElem within, rotated, List.take_succ_cons, List.find?_cons]
      dsimp only
      rw [ih nextWithin (by omega), next, List.take_append_of_le_length (by omega)]
      cases test items[index] <;> rfl

/-- A whole turn from any index finds the first passing item of the
rotation. -/
theorem cyclicScan_eq_find? (index : Nat) :
    cyclicScan test items (index % items.length) items.length = (items.rotate index).find? test := by
  cases items with
  | nil => rfl
  | cons first rest =>
      have within : index % (first :: rest).length < (first :: rest).length := Nat.mod_lt _ (by simp)
      rw [cyclicScan_eq_find?_take _ within le_rfl, List.rotate_mod,
        List.take_of_length_le (by simp)]

end Dory.Foundation
