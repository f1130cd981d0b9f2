/-
Module: Dory.Thread.SegmentedList.Spec
Purpose: What a segmented list is for: a nonempty list of segments, each a
  list of items, newest first.  Each call of `TSegmentedList` acts on it as
  the source's comments say: a new item goes to the front of the first
  segment, the newest item is the first item of the first nonempty segment,
  the oldest items are at the end of the last segment, a new segment goes in
  front, recycling appends the last segment to the one before it and brings
  an empty segment to the front, and resetting concatenates all segments.
Trusted boundary: none
Main exports: Segments.changeLast, Segments.removeFirstItem, Segments.step,
  Segments.run
-/
import Dory.Thread.SegmentedList

namespace Dory.Thread

/-- The items a call adds to the list. -/
def TSegmentedListOp.added {α : Type} : TSegmentedListOp α → List α
  | .addNew item => [item]
  | .addNewList itemList => itemList
  | _ => []

namespace Segments

variable {α : Type}

/-- The segments with the last one changed. -/
def changeLast (change : List α → List α) (segments : List (List α)) : List (List α) :=
  segments.dropLast ++ (segments.getLast?.map change).toList

/-- The first item of the first nonempty segment, taken away. -/
def removeFirstItem : List (List α) → List α × List (List α)
  | [] => ([], [])
  | [] :: rest =>
      let (taken, rest) := removeFirstItem rest
      (taken, [] :: rest)
  | (item :: items) :: rest => ([item], items :: rest)

/-- The last segment: the oldest items. -/
def oldest (segments : List (List α)) : List α :=
  segments.getLast?.getD []

/-- One call: the items it returns, and the segments after it. -/
def step (segments : List (List α)) : TSegmentedListOp α → List α × List (List α)
  | .addNew item => ([], segments.modifyHead (item :: ·))
  | .addNewList itemList => ([], segments.modifyHead (itemList ++ ·))
  | .removeOneNewest => removeFirstItem segments
  | .emptyOldest => (oldest segments, changeLast (fun _ => []) segments)
  | .removeOldest maxCount =>
      ((oldest segments).drop ((oldest segments).length - maxCount),
        changeLast (fun items => items.take (items.length - maxCount)) segments)
  | .emptyAll => (segments.flatten, segments.map fun _ => [])
  | .emptyAllAndResetSegments => (segments.flatten, [[]])
  | .addNewSegment => ([], [] :: segments)
  | .recycleOldestSegment =>
      ([], match segments.reverse with
        | last :: prev :: older => [] :: (older.reverse ++ [prev ++ last])
        | _ => segments)
  | .resetSegments => ([], [segments.flatten])

/-- A run of calls: what each returned, and the segments after them. -/
def run (segments : List (List α)) : List (TSegmentedListOp α) → List (List α) × List (List α)
  | [] => ([], segments)
  | op :: ops =>
      let (result, segments) := step segments op
      let (results, segments) := run segments ops
      (result :: results, segments)

theorem run_cons (segments : List (List α)) (op : TSegmentedListOp α) (ops : List (TSegmentedListOp α)) :
    run segments (op :: ops) = ((step segments op).1 :: (run (step segments op).2 ops).1, (run (step segments op).2 ops).2) :=
  rfl

@[simp] theorem changeLast_append_singleton (change : List α → List α) (init : List (List α)) (last : List α) :
    changeLast change (init ++ [last]) = init ++ [change last] := by
  simp [changeLast]

@[simp] theorem oldest_append_singleton (init : List (List α)) (last : List α) :
    oldest (init ++ [last]) = last := by
  simp [oldest]

theorem length_oldest_le (segments : List (List α)) : (oldest segments).length ≤ segments.flatten.length := by
  rcases List.eq_nil_or_concat' segments with rfl | ⟨init, last, rfl⟩
  · simp [oldest]
  · simp

/-- Taking up to `maxCount` items from the end of the last segment takes
that many, or all of it. -/
theorem length_flatten_changeLast_take (segments : List (List α)) (maxCount : Nat) :
    (changeLast (fun items => items.take (items.length - maxCount)) segments).flatten.length =
      segments.flatten.length - min (oldest segments).length maxCount := by
  rcases List.eq_nil_or_concat' segments with rfl | ⟨init, last, rfl⟩
  · simp [changeLast, oldest]
  · simp only [changeLast_append_singleton, oldest_append_singleton, List.flatten_append, List.length_append,
      List.flatten_singleton, List.length_take]
    omega

/-- Past empty segments, the first item of the first nonempty one. -/
theorem removeFirstItem_empties_append {empties : List (List α)} (allEmpty : ∀ items ∈ empties, items = [])
    (item : α) (items : List α) (rest : List (List α)) :
    removeFirstItem (empties ++ (item :: items) :: rest) = ([item], empties ++ items :: rest) := by
  induction empties with
  | nil => rfl
  | cons first more ih =>
      rw [allEmpty first List.mem_cons_self]
      simp only [List.cons_append, removeFirstItem]
      rw [ih fun items member => allEmpty items (List.mem_cons_of_mem _ member)]

/-- With every segment empty, nothing is taken. -/
theorem removeFirstItem_of_empty {segments : List (List α)} (allEmpty : ∀ items ∈ segments, items = []) :
    removeFirstItem segments = ([], segments) := by
  induction segments with
  | nil => rfl
  | cons first more ih =>
      rw [allEmpty first List.mem_cons_self]
      simp only [removeFirstItem]
      rw [ih fun items member => allEmpty items (List.mem_cons_of_mem _ member)]

/-- Taking the first item moves it out, and leaves every other item in
place. -/
theorem removeFirstItem_append_flatten (segments : List (List α)) :
    (removeFirstItem segments).1 ++ (removeFirstItem segments).2.flatten = segments.flatten := by
  induction segments with
  | nil => rfl
  | cons first rest ih =>
      cases first with
      | nil => simpa [removeFirstItem] using ih
      | cons item items => simp [removeFirstItem]

/-- At most one item is taken. -/
theorem length_removeFirstItem_le (segments : List (List α)) : (removeFirstItem segments).1.length ≤ 1 := by
  induction segments with
  | nil => simp [removeFirstItem]
  | cons first rest ih =>
      cases first with
      | nil => simpa [removeFirstItem] using ih
      | cons item items => simp [removeFirstItem]

/-- Recycling the oldest segment keeps the items in their order. -/
theorem flatten_recycleOldestSegment (segments : List (List α)) :
    (step segments .recycleOldestSegment).2.flatten = segments.flatten := by
  rcases reversed : segments.reverse with _ | ⟨last, _ | ⟨prev, older⟩⟩
  · simp only [step, reversed]
  · simp only [step, reversed]
  · have split : segments = older.reverse ++ [prev, last] := by
      rw [← List.reverse_reverse segments, reversed]
      simp
    simp only [step, reversed]
    rw [split]
    simp

/-- No call loses or duplicates an item: what it returns and what it
leaves are what there was and what it adds. -/
theorem step_perm {segments : List (List α)} (nonempty : segments ≠ []) (op : TSegmentedListOp α) :
    ((step segments op).1 ++ (step segments op).2.flatten).Perm (op.added ++ segments.flatten) := by
  obtain ⟨init, last, split⟩ : ∃ init last, segments = init ++ [last] := by
    rcases List.eq_nil_or_concat' segments with empty | found
    · exact absurd empty nonempty
    · exact found
  cases op with
  | removeOneNewest =>
      rw [step, removeFirstItem_append_flatten]
      rfl
  | emptyOldest =>
      -- the last segment's items are returned
      rw [split]
      simpa [step, TSegmentedListOp.added] using List.perm_append_comm
  | removeOldest maxCount =>
      -- the items returned are the end of the last segment
      rw [split]
      simp only [step, changeLast_append_singleton, oldest_append_singleton, List.flatten_append,
        List.flatten_singleton, TSegmentedListOp.added, List.nil_append]
      calc (last.drop (last.length - maxCount) ++ (init.flatten ++ last.take (last.length - maxCount))).Perm
            ((init.flatten ++ last.take (last.length - maxCount)) ++ last.drop (last.length - maxCount)) :=
            List.perm_append_comm
        _ = init.flatten ++ last := by rw [List.append_assoc, List.take_append_drop]
  | recycleOldestSegment =>
      rw [show (step segments .recycleOldestSegment).1 = [] from rfl, flatten_recycleOldestSegment]
      rfl
  | addNew item | addNewList itemList =>
      rw [split]
      cases init <;> simp [step, TSegmentedListOp.added]
  | emptyAll | emptyAllAndResetSegments | addNewSegment | resetSegments =>
      simp [step, TSegmentedListOp.added]

end Segments

end Dory.Thread
