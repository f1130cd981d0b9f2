/-
Module: Dory.Foundation.BatchQueue
Purpose: A queue of batches (a `std::list` of `std::list`s) from whose front
  elements are taken one at a time, a batch leaving the queue when it is
  used up.  `TakenFrom queue left taken` says that `taken` are the first
  elements of `queue`, in order, and that `left` is what remains: the rest
  of the batch the taking stopped in, if it stopped inside one, and the
  batches after it as they were.  The rules give a whole batch, the front of
  a batch, and the composition of two takes.
Trusted boundary: none
Main exports: TakenFrom, TakenFrom.refl, TakenFrom.batch, TakenFrom.front,
  TakenFrom.trans
-/
import Mathlib

namespace Dory.Foundation

variable {α : Type}

/-- `taken` was taken off the front of `queue`, which left `left`. -/
def TakenFrom (queue left : List (List α)) (taken : List α) : Prop :=
  ∃ done front, queue = done ++ left.modifyHead (front ++ ·) ∧ taken = done.flatten ++ front ∧
    (left = [] → front = [])

theorem modifyHead_nil_append (queue : List (List α)) : queue.modifyHead ([] ++ ·) = queue := by
  cases queue <;> rfl

namespace TakenFrom

theorem refl (queue : List (List α)) : TakenFrom queue queue [] :=
  ⟨[], [], by rw [modifyHead_nil_append, List.nil_append], by simp, fun _ => rfl⟩

/-- A whole batch is taken. -/
theorem batch (batch : List α) (queue : List (List α)) : TakenFrom (batch :: queue) queue batch :=
  ⟨[batch], [], by rw [modifyHead_nil_append]; rfl, by simp, fun _ => rfl⟩

/-- The front of a batch is taken, and the rest of it stays in front. -/
theorem front (front rest : List α) (queue : List (List α)) :
    TakenFrom ((front ++ rest) :: queue) (rest :: queue) front :=
  ⟨[], front, by simp, by simp, fun empty => absurd empty (List.cons_ne_nil _ _)⟩

theorem trans {queue middle left : List (List α)} {first second : List α}
    (taken : TakenFrom queue middle first) (more : TakenFrom middle left second) :
    TakenFrom queue left (first ++ second) := by
  obtain ⟨done, front, rfl, rfl, stopped⟩ := taken
  obtain ⟨moreDone, moreFront, rfl, rfl, moreStopped⟩ := more
  cases moreDone with
  | nil =>
      -- the second take stays in the batch the first one stopped in
      refine ⟨done, front ++ moreFront, ?_, by simp, fun empty => ?_⟩
      · cases left <;> simp_all
      · subst empty
        simp_all
  | cons batch batches =>
      -- the second take finishes that batch first
      refine ⟨done ++ (front ++ batch) :: batches, moreFront, by simp, by simp, moreStopped⟩

end TakenFrom

end Dory.Foundation
