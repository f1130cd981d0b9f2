/-
Module: Dory.Foundation.OrderedBag
Purpose: A multiset ordered by a key, as `std::multiset` keeps it: a list
  sorted by the key, where a new element is inserted at the upper bound of the
  run of equal keys (after every element whose key is not greater).  Erasing
  one element by an identity keeps the list sorted.  The lemmas give
  membership, the permutation to `x :: l`, and sortedness after insertion, and
  they split a sorted list at a key bound: every element of the prefix
  `takeWhile` has its key at or below the bound, every element of the rest
  lies above it.
Trusted boundary: none
Main exports: insertUpper, mem_insertUpper, insertUpper_perm, Sorted,
  sorted_insertUpper, mem_takeWhile_le, bound_lt_of_mem_dropWhile
-/
import Mathlib

namespace Dory.Foundation.OrderedBag

variable {β κ : Type} [LinearOrder κ] (key : β → κ)

/-- Insert `x` after every element whose key is not greater than its own. -/
def insertUpper (x : β) : List β → List β
  | [] => [x]
  | y :: ys => if key x < key y then x :: y :: ys else y :: insertUpper x ys

/-- Sorted by non-decreasing key. -/
def Sorted (elements : List β) : Prop :=
  elements.Pairwise fun first second => key first ≤ key second

variable {key}

theorem insertUpper_perm (x : β) (elements : List β) :
    (insertUpper key x elements).Perm (x :: elements) := by
  induction elements with
  | nil => simp [insertUpper]
  | cons y ys inductionHypothesis =>
      unfold insertUpper
      split
      · exact List.Perm.refl _
      · exact ((inductionHypothesis.cons y).trans (List.Perm.swap x y ys))

theorem mem_insertUpper {x y : β} {elements : List β} :
    y ∈ insertUpper key x elements ↔ y = x ∨ y ∈ elements := by
  rw [(insertUpper_perm x elements).mem_iff, List.mem_cons]

theorem sorted_insertUpper (x : β) {elements : List β} (sorted : Sorted key elements) :
    Sorted key (insertUpper key x elements) := by
  induction elements with
  | nil => simp [insertUpper, Sorted]
  | cons y ys inductionHypothesis =>
      simp only [Sorted, List.pairwise_cons] at sorted
      unfold insertUpper
      split
      · rename_i smaller
        refine List.pairwise_cons.mpr ⟨fun z member => ?_, List.pairwise_cons.mpr sorted⟩
        rcases List.mem_cons.mp member with rfl | later
        · exact smaller.le
        · exact smaller.le.trans (sorted.1 z later)
      · rename_i notSmaller
        refine List.pairwise_cons.mpr ⟨fun z member => ?_, inductionHypothesis sorted.2⟩
        rcases mem_insertUpper.mp member with rfl | later
        · exact not_lt.mp notSmaller
        · exact sorted.1 z later

/-- Every element of the sorted prefix taken while the key is at most the
bound has its key at most the bound. -/
theorem mem_takeWhile_le {bound : κ} {elements : List β} {x : β}
    (member : x ∈ elements.takeWhile fun y => decide (key y ≤ bound)) : key x ≤ bound := by
  simpa using List.mem_takeWhile_imp member

/-- In a sorted list, every element after the prefix of keys at most the bound
has its key above the bound. -/
theorem bound_lt_of_mem_dropWhile {bound : κ} {elements : List β} (sorted : Sorted key elements)
    {x : β} (member : x ∈ elements.dropWhile fun y => decide (key y ≤ bound)) : bound < key x := by
  induction elements with
  | nil => simp at member
  | cons y ys inductionHypothesis =>
      simp only [Sorted, List.pairwise_cons] at sorted
      by_cases small : key y ≤ bound
      · simp only [List.dropWhile_cons, small, decide_true] at member
        exact inductionHypothesis sorted.2 member
      · simp only [List.dropWhile_cons, small, decide_false] at member
        rcases List.mem_cons.mp member with rfl | later
        · exact not_le.mp small
        · exact (not_le.mp small).trans_le (sorted.1 x later)

end Dory.Foundation.OrderedBag
