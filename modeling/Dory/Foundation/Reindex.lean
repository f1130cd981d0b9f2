/-
Module: Dory.Foundation.Reindex
Purpose: Moving the items of a vector to new places.  `order` lists the old
  indexes in their new order, a permutation of the indexes; the new vector
  takes its item at place `j` from old index `order[j]`, and the item of old
  index `i` ends up at `order.idxOf i`.  With these lemmas what is indexed
  by old indexes can be renamed to new ones: the renaming is into the
  indexes, one to one and onto.  `filterMap_filter_range` names the stable
  partition of a vector by a predicate, whose passing items form a prefix.
Trusted boundary: none
Main exports: getElem?_filterMap_getElem?, length_filterMap_getElem?,
  getElem?_filterMap_idxOf, idxOf_lt_of_perm, idxOf_inj_of_perm,
  exists_idxOf_eq_of_perm, filterMap_filter_range, length_takeWhile_partition,
  test_getElem_partition_iff
-/
import Mathlib

namespace Dory.Foundation

variable {α : Type} {items : List α} {order : List Nat}

/-- Where every index of `order` is an index of `items`, the new vector has
at place `j` the item of old index `order[j]`. -/
theorem getElem?_filterMap_getElem? (valid : ∀ i ∈ order, i < items.length) (j : Nat) :
    (order.filterMap (items[·]?))[j]? = order[j]?.bind (items[·]?) := by
  induction order generalizing j with
  | nil => simp
  | cons first rest ih =>
      have within : first < items.length := valid first List.mem_cons_self
      have present : items[first]? = some items[first] := List.getElem?_eq_getElem within
      rw [List.filterMap_cons_some present]
      cases j with
      | zero => simp [present]
      | succ j =>
          simp only [List.getElem?_cons_succ]
          exact ih (fun i member => valid i (List.mem_cons_of_mem _ member)) j

section Permutation

variable (perm : order.Perm (List.range items.length))
include perm

theorem length_filterMap_getElem? : (order.filterMap (items[·]?)).length = items.length := by
  have valid : ∀ i ∈ order, i < items.length := fun i member => List.mem_range.mp (perm.subset member)
  rw [List.length_filterMap_eq_countP, List.countP_eq_length.mpr (fun i member => by simp [valid i member]),
    perm.length_eq, List.length_range]

theorem idxOf_lt_of_perm {i : Nat} (valid : i < items.length) : order.idxOf i < items.length := by
  have member : i ∈ order := perm.mem_iff.mpr (List.mem_range.mpr valid)
  have := List.idxOf_lt_length_iff.mpr member
  rwa [perm.length_eq, List.length_range] at this

/-- The item of old index `i` is at its new place. -/
theorem getElem?_filterMap_idxOf {i : Nat} (valid : i < items.length) :
    (order.filterMap (items[·]?))[order.idxOf i]? = items[i]? := by
  have member : i ∈ order := perm.mem_iff.mpr (List.mem_range.mpr valid)
  rw [getElem?_filterMap_getElem? (fun j member => List.mem_range.mp (perm.subset member)),
    List.getElem?_idxOf member, Option.bind_some]

/-- Two old indexes go to two new places. -/
theorem idxOf_inj_of_perm {i j : Nat} (hi : i < items.length) (hj : j < items.length) :
    order.idxOf i = order.idxOf j ↔ i = j := by
  constructor
  · intro same
    have memberI : i ∈ order := perm.mem_iff.mpr (List.mem_range.mpr hi)
    have memberJ : j ∈ order := perm.mem_iff.mpr (List.mem_range.mpr hj)
    have foundI := List.getElem?_idxOf memberI
    rw [same, List.getElem?_idxOf memberJ] at foundI
    exact (Option.some.inj foundI).symm
  · rintro rfl
    rfl

/-- Every new place holds some old index. -/
theorem exists_idxOf_eq_of_perm {j : Nat} (hj : j < items.length) :
    ∃ i < items.length, order.idxOf i = j := by
  have within : j < order.length := by rwa [perm.length_eq, List.length_range]
  have distinct : order.Nodup := perm.nodup_iff.mpr List.nodup_range
  exact ⟨order[j], List.mem_range.mp (perm.subset (List.getElem_mem within)),
    distinct.idxOf_getElem j within⟩

end Permutation

/-- The indexes of the items that pass a test, read back: the items that
pass it. -/
theorem filterMap_filter_range (test : α → Bool) (items : List α) :
    ((List.range items.length).filter fun i => items[i]?.any test).filterMap (items[·]?) =
      items.filter test := by
  induction items using List.reverseRecOn with
  | nil => simp
  | append_singleton init last ih =>
      have before : ∀ i ∈ List.range init.length, (init ++ [last])[i]? = init[i]? := fun i member =>
        List.getElem?_append_left (List.mem_range.mp member)
      rw [List.length_append, List.length_singleton, List.range_succ, List.filter_append,
        List.filter_congr (fun i member => by rw [before i member]), List.filterMap_append,
        List.filterMap_congr (fun i member => before i (List.mem_filter.mp member).1), ih,
        List.filter_append]
      by_cases passes : test last <;> simp [passes]

/-- In the stable partition of a list by a test, the items that pass form the
prefix that `takeWhile` keeps. -/
theorem length_takeWhile_partition (test : α → Bool) (items : List α) :
    ((items.filter test ++ items.filter fun x => !test x).takeWhile test).length =
      (items.filter test).length := by
  rw [List.takeWhile_append_of_pos (fun x member => (List.mem_filter.mp member).2)]
  cases others : items.filter (fun x => !test x) with
  | nil => simp
  | cons first rest =>
      have firstFails : test first = false := by
        simpa using (List.mem_filter.mp (others ▸ List.mem_cons_self : first ∈ items.filter fun x => !test x)).2
      simp [firstFails]

/-- An item of the stable partition passes the test exactly when it stands
in the prefix of those that pass. -/
theorem test_getElem_partition_iff (test : α → Bool) (items : List α) {j : Nat}
    (within : j < (items.filter test ++ items.filter fun x => !test x).length) :
    test (items.filter test ++ items.filter fun x => !test x)[j] = true ↔
      j < ((items.filter test ++ items.filter fun x => !test x).takeWhile test).length := by
  rw [length_takeWhile_partition, List.getElem_append]
  split
  · rename_i inFirst
    simp only [inFirst, iff_true]
    exact (List.mem_filter.mp (List.getElem_mem inFirst)).2
  · rename_i inSecond
    have bound : j - (items.filter test).length < (items.filter fun x => !test x).length := by
      simp only [List.length_append] at within
      omega
    have member := List.getElem_mem bound
    simpa [inSecond] using (List.mem_filter.mp member).2

end Dory.Foundation
