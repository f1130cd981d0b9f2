/-
Module: Dory.Foundation.Recency
Purpose: The recency order of the items seen so far: each distinct item once,
  the most recently seen first.  It is the reverse of `dedup`, which keeps
  the last occurrence of each item.  Seeing one more item moves it to the
  front (`recency_append_singleton`).  The first `bound` items of the order
  change the same way: an item among them moves to the front, and another
  item goes to the front and pushes the last one out
  (`take_recency_append_of_mem`, `take_recency_append_of_not_mem`).
Trusted boundary: none
Main exports: recency, mem_recency, recency_append_singleton,
  take_recency_append_of_mem, take_recency_append_of_not_mem
-/
import Mathlib

namespace Dory.Foundation

variable {α : Type} [DecidableEq α]

/-- The distinct items, the most recently seen first. -/
def recency (items : List α) : List α := items.dedup.reverse

@[simp] theorem recency_nil : recency ([] : List α) = [] := rfl

@[simp] theorem mem_recency {items : List α} {item : α} : item ∈ recency items ↔ item ∈ items := by
  simp [recency]

/-- `dedup` keeps the last occurrence: one more item goes to the end. -/
theorem dedup_append_singleton (items : List α) (item : α) :
    (items ++ [item]).dedup = items.dedup.erase item ++ [item] := by
  induction items with
  | nil => simp
  | cons first rest ih =>
      by_cases later : first ∈ rest
      · rw [List.cons_append, List.dedup_cons_of_mem (List.mem_append_left _ later), ih,
          List.dedup_cons_of_mem later]
      · rw [List.dedup_cons_of_notMem later]
        by_cases same : first = item
        · -- the item seen again: its earlier occurrence goes
          subst same
          have unseen : first ∉ rest.dedup := fun member => later (List.mem_dedup.mp member)
          rw [List.cons_append, List.dedup_cons_of_mem (by simp), ih, List.erase_cons_head,
            List.erase_of_not_mem unseen]
        · have fresh : first ∉ rest ++ [item] := by simp [later, same]
          rw [List.cons_append, List.dedup_cons_of_notMem fresh, ih, List.erase_cons_tail (by simpa using same),
            List.cons_append]

/-- Seeing an item moves it to the front of the order. -/
theorem recency_append_singleton (items : List α) (item : α) :
    recency (items ++ [item]) = item :: (recency items).erase item := by
  have distinct := List.nodup_dedup items
  rw [recency, dedup_append_singleton, List.reverse_append, List.reverse_singleton, List.singleton_append,
    recency, distinct.erase_eq_filter, (List.nodup_reverse.mpr distinct).erase_eq_filter, List.filter_reverse]

/-- Erasing an item among the first `bound` shortens them by it. -/
theorem take_erase_of_mem_take {bound : Nat} {order : List α} {item : α} (within : item ∈ order.take bound) :
    (order.take bound).erase item = (order.erase item).take (bound - 1) := by
  induction order generalizing bound with
  | nil => simp at within
  | cons first rest ih =>
      cases bound with
      | zero => simp at within
      | succ bound =>
          by_cases same : first = item
          · subst same
            simp
          · have later : item ∈ rest.take bound := by
              simpa [List.take_succ_cons, Ne.symm same] using within
            have positive : bound ≠ 0 := by
              rintro rfl
              simp at later
            obtain ⟨smaller, rfl⟩ := Nat.exists_eq_succ_of_ne_zero positive
            rw [List.take_succ_cons, List.erase_cons_tail (by simpa using same), ih later,
              List.erase_cons_tail (by simpa using same)]
            simp

/-- Erasing an item past the first `bound` leaves them. -/
theorem take_erase_of_not_mem_take {bound : Nat} {order : List α} {item : α} (outside : item ∉ order.take bound) :
    (order.erase item).take bound = order.take bound := by
  induction order generalizing bound with
  | nil => simp
  | cons first rest ih =>
      cases bound with
      | zero => simp
      | succ bound =>
          have different : first ≠ item := fun same => outside (by simp [same])
          have later : item ∉ rest.take bound := fun member => outside (by simp [member])
          rw [List.erase_cons_tail (by simpa using different), List.take_succ_cons, List.take_succ_cons, ih later]

/-- An item among the first `bound` of the order moves to their front. -/
theorem take_recency_append_of_mem {bound : Nat} {items : List α} {item : α}
    (within : item ∈ (recency items).take bound) :
    (recency (items ++ [item])).take bound = item :: ((recency items).take bound).erase item := by
  have positive : bound ≠ 0 := by
    rintro rfl
    simp at within
  obtain ⟨smaller, rfl⟩ := Nat.exists_eq_succ_of_ne_zero positive
  rw [recency_append_singleton, List.take_succ_cons, take_erase_of_mem_take within, Nat.succ_sub_one]

/-- Any other item goes to the front, and the last of the first `bound`
drops out. -/
theorem take_recency_append_of_not_mem {bound : Nat} {items : List α} {item : α}
    (outside : item ∉ (recency items).take bound) :
    (recency (items ++ [item])).take bound = (item :: (recency items).take bound).take bound := by
  rw [recency_append_singleton]
  cases bound with
  | zero => simp
  | succ bound =>
      have earlier : item ∉ (recency items).take bound := fun member =>
        outside (List.take_subset_take_left _ (Nat.le_succ bound) member)
      rw [List.take_succ_cons, List.take_succ_cons, take_erase_of_not_mem_take earlier, List.take_take,
        Nat.min_eq_left (Nat.le_succ bound)]

end Dory.Foundation
