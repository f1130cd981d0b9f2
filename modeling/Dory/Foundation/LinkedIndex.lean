/-
Module: Dory.Foundation.LinkedIndex
Purpose: An intrusive doubly linked list threaded through some items of a
  container: each item holds a pointer to the next and to the previous item
  of the list, and two pointers name its ends.  `Linked order first last next
  prev` says the pointers encode exactly the list `order`: the successor and
  the predecessor in `order` (`succOf`, `predOf`, none at the ends and off the
  list).  The lemmas give the successor and predecessor functions after an
  item is linked in or unlinked at either end, pointwise, so that a model's
  pointer writes can be matched against them; `succOf_append_cons` lets a
  walk along the `next` pointers be followed through `order`.
Trusted boundary: none
Main exports: succOf, predOf, Linked, succOf_cons_apply, predOf_cons_apply,
  succOf_append_singleton_apply, predOf_append_singleton_apply,
  succOf_append_cons
-/
import Mathlib

namespace Dory.Foundation

variable {ι : Type} [DecidableEq ι]

/-- The item after `i` in `order`; none for the last item and off the
list. -/
def succOf : List ι → ι → Option ι
  | [], _ => none
  | a :: rest, i => if a = i then rest.head? else succOf rest i

/-- The item before `i` in `order`: its successor in the reversed list. -/
def predOf (order : List ι) (i : ι) : Option ι :=
  succOf order.reverse i

/-- The pointers encode `order`: its ends, and each item's successor and
predecessor. -/
structure Linked (order : List ι) (first last : Option ι) (next prev : ι → Option ι) : Prop where
  first_eq : first = order.head?
  last_eq : last = order.getLast?
  next_eq : ∀ i, next i = succOf order i
  prev_eq : ∀ i, prev i = predOf order i

section Succ

variable {order rest : List ι} {a i : ι}

@[simp] theorem succOf_nil (i : ι) : succOf ([] : List ι) i = none := rfl

theorem succOf_of_not_mem (absent : i ∉ order) : succOf order i = none := by
  induction order with
  | nil => rfl
  | cons b rest ih =>
      have different : b ≠ i := fun same => absent (same ▸ List.mem_cons_self)
      rw [succOf, if_neg different]
      exact ih fun member => absent (List.mem_cons_of_mem _ member)

theorem predOf_of_not_mem (absent : i ∉ order) : predOf order i = none :=
  succOf_of_not_mem (by simpa using absent)

/-- Linking `a` in at the front: it leads to the old first item. -/
theorem succOf_cons_apply (a : ι) (rest : List ι) (i : ι) :
    succOf (a :: rest) i = if i = a then rest.head? else succOf rest i := by
  by_cases same : i = a
  · rw [if_pos same, succOf, if_pos same.symm]
  · rw [if_neg same, succOf, if_neg (Ne.symm same)]

/-- Linking `a` in at the back: the old last item leads to it. -/
theorem succOf_append_singleton_apply (distinct : (order ++ [a]).Nodup) (i : ι) :
    succOf (order ++ [a]) i = if order.getLast? = some i then some a else succOf order i := by
  induction order with
  | nil =>
      by_cases same : a = i <;> simp [succOf, same]
  | cons b rest ih =>
      have restDistinct : (rest ++ [a]).Nodup := (List.nodup_cons.mp distinct).2
      have bFresh : b ∉ rest ++ [a] := (List.nodup_cons.mp distinct).1
      rw [List.cons_append, succOf, ih restDistinct, succOf]
      by_cases same : b = i
      · subst same
        have notLast : rest.getLast? ≠ some b := fun last =>
          bFresh (List.mem_append_left _ (List.mem_of_getLast? last))
        cases rest with
        | nil => simp
        | cons c more => simp [notLast]
      · cases rest with
        | nil => simp [same]
        | cons c more => simp [same]

/-- Linking `a` in at the front: it has no predecessor, and it is the
predecessor of the old first item. -/
theorem predOf_cons_apply (distinct : (a :: rest).Nodup) (i : ι) :
    predOf (a :: rest) i = if rest.head? = some i then some a else predOf rest i := by
  have reversed : (rest.reverse ++ [a]).Nodup := by
    rw [← List.reverse_cons]
    exact List.nodup_reverse.mpr distinct
  rw [predOf, List.reverse_cons, succOf_append_singleton_apply reversed, List.getLast?_reverse, predOf]

/-- Linking `a` in at the back: its predecessor is the old last item. -/
theorem predOf_append_singleton_apply (order : List ι) (a i : ι) :
    predOf (order ++ [a]) i = if i = a then order.getLast? else predOf order i := by
  rw [predOf, List.reverse_append, List.reverse_singleton, List.singleton_append,
    succOf_cons_apply, List.head?_reverse, predOf]

/-- Along a list without repeats, an item leads to the one after it. -/
theorem succOf_append_cons {before : List ι} (distinct : (before ++ a :: rest).Nodup) :
    succOf (before ++ a :: rest) a = rest.head? := by
  induction before with
  | nil => simp [succOf]
  | cons b more ih =>
      have different : b ≠ a := by
        intro same
        subst same
        exact (List.nodup_cons.mp distinct).1 (List.mem_append_right _ List.mem_cons_self)
      rw [List.cons_append, succOf, if_neg different]
      exact ih (List.nodup_cons.mp distinct).2

/-- Along a list without repeats, an item's predecessor is the one before
it. -/
theorem predOf_append_cons {before : List ι} (distinct : (before ++ a :: rest).Nodup) :
    predOf (before ++ a :: rest) a = before.getLast? := by
  have reversed : (rest.reverse ++ a :: before.reverse).Nodup := by
    simpa [List.reverse_append] using List.nodup_reverse.mpr distinct
  rw [predOf, List.reverse_append, List.reverse_cons, List.append_assoc, List.singleton_append,
    succOf_append_cons reversed, List.head?_reverse]

/-- The first item has no predecessor. -/
theorem predOf_cons_self (distinct : (a :: rest).Nodup) : predOf (a :: rest) a = none := by
  have absent : a ∉ rest := (List.nodup_cons.mp distinct).1
  have notHead : rest.head? ≠ some a := fun head => absent (List.mem_of_mem_head? head)
  rw [predOf_cons_apply distinct, if_neg notHead, predOf_of_not_mem absent]

/-- The last item has no successor. -/
theorem succOf_append_singleton_self (distinct : (order ++ [a]).Nodup) : succOf (order ++ [a]) a = none := by
  have absent : a ∉ order := by
    intro member
    exact (List.nodup_append.mp distinct).2.2 a member a List.mem_cons_self rfl
  have notLast : order.getLast? ≠ some a := fun last => absent (List.mem_of_getLast? last)
  rw [succOf_append_singleton_apply distinct, if_neg notLast, succOf_of_not_mem absent]

end Succ

end Dory.Foundation
