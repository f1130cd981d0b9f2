/-
Module: Dory.Thread.SegmentedList.Refinement
Purpose: `TSegmentedList` refines the list of segments of
  `Dory.Thread.SegmentedList.Spec`, through `CopyOutSegments()`.  Each call
  is one step lemma: from a valid list, the list after the call is valid,
  and the call returns what the abstract call returns and leaves what it
  leaves.  A call that changes one segment's items keeps its links
  (`Sound.replace`, `SameLinks`); when the segment becomes empty or nonempty
  at an end of the nonempty list, one of the four routines of
  `Dory.Thread.SegmentedList.Pointers` moves the links with it.  The loops
  of `EmptyAll()` and `ResetSegments()` walk the nonempty segments by their
  links, one segment a turn.  A run of calls from any valid list, and so
  from a new one, is the abstract run (`run_refines`).  As in
  `Dory.Thread.SegmentedList`, asserts are not checked.
Trusted boundary: none
Main exports: TSegmentedList.Valid.step, TSegmentedList.run_refines
-/
import Dory.Thread.SegmentedList.Invariant

namespace Dory.Thread

open Dory.Foundation

namespace TSegment

variable {α : Type}

/-- A segment emptied and unlinked, as the loop of `EmptyAll()` leaves
it. -/
def emptied (segment : TSegment α) : TSegment α :=
  { segment.cleared with prevNonempty := none, nextNonempty := none }

@[simp] theorem address_emptied (segment : TSegment α) : segment.emptied.address = segment.address := rfl

@[simp] theorem emptied_emptied (segment : TSegment α) : segment.emptied.emptied = segment.emptied := rfl

end TSegment

namespace TSegmentedList

variable {α : Type}

/-! ### One segment's items replaced -/

section Replace

variable {list after : TSegmentedList α} {before rest : List (TSegment α)} {old new : TSegment α}

/-- The data stay sound when one segment's items are replaced and the
total follows. -/
theorem Sound.replace (sound : list.Sound) (split : list.allSegments = before ++ old :: rest)
    (replaced : after.allSegments = before ++ new :: rest) (address : new.address = old.address)
    (count : new.numItems = new.items.length) (total : after.totalItems + old.numItems = list.totalItems + new.numItems)
    (numSegments : after.numSegments = list.numSegments) (nextAddress : after.nextAddress = list.nextAddress) :
    after.Sound := by
  have sameAddresses : after.addresses = list.addresses := by
    simp [addresses, split, replaced, address]
  refine ⟨by simp [replaced], sameAddresses ▸ sound.addresses_nodup, fun segment member => ?_, ?_,
    fun segment member => ?_, ?_⟩
  · rw [nextAddress]
    rw [replaced, List.mem_append, List.mem_cons] at member
    rcases member with inBefore | rfl | inRest
    · exact sound.address_lt segment (by simp [split, inBefore])
    · exact address ▸ sound.address_lt old (by simp [split])
    · exact sound.address_lt segment (by simp [split, inRest])
  · rw [numSegments, sound.numSegments_eq, split, replaced]
    simp
  · rw [replaced, List.mem_append, List.mem_cons] at member
    rcases member with inBefore | rfl | inRest
    · exact sound.numItems_eq segment (by simp [split, inBefore])
    · exact count
    · exact sound.numItems_eq segment (by simp [split, inRest])
  · have totalEq := sound.totalItems_eq
    rw [split] at totalEq
    simp only [replaced, List.map_append, List.map_cons, List.sum_append, List.sum_cons] at totalEq ⊢
    omega

/-- Replacing one segment's items keeps every segment's links. -/
theorem map_links_replace (split : list.allSegments = before ++ old :: rest)
    (replaced : after.allSegments = before ++ new :: rest) (same : new.links = old.links) :
    after.allSegments.map TSegment.links = list.allSegments.map TSegment.links := by
  simp [split, replaced, same]

/-- A segment that stays empty, or stays nonempty, leaves the nonempty
addresses as they were. -/
theorem nonemptyAddresses_replace (address : new.address = old.address) (empty : new.empty = old.empty) :
    nonemptyAddresses (before ++ new :: rest) = nonemptyAddresses (before ++ old :: rest) := by
  simp only [nonemptyAddresses_append]
  congr 1
  cases oldEmpty : old.empty
  · rw [nonemptyAddresses_cons_of_not_empty (empty.trans oldEmpty), nonemptyAddresses_cons_of_not_empty oldEmpty,
      address]
  · rw [nonemptyAddresses_cons_of_empty (empty.trans oldEmpty), nonemptyAddresses_cons_of_empty oldEmpty]

end Replace

/-! ### Adding items -/

section Add

variable {list : TSegmentedList α}

/-- `AddNew(item)` acts as `AddNew` of a list of that one item. -/
theorem addNew_eq_addNewList (item : α) (list : TSegmentedList α) : list.addNew item = list.addNewList [item] := by
  unfold addNew addNewList
  split
  · rfl
  · simp [TSegment.addToFront, TSegment.addListToFront]

/-- Items put in front of the first segment, which joins the nonempty
segments at the front when it was empty and gets some. -/
theorem Valid.addNewList (valid : list.Valid) (itemList : List α) :
    (list.addNewList itemList).Valid ∧
      (list.addNewList itemList).copyOutSegments = list.copyOutSegments.modifyHead (itemList ++ ·) := by
  obtain ⟨first, rest, split⟩ := List.exists_cons_of_ne_nil valid.nonempty
  have firstCount := valid.numItems_eq first (by simp [split])
  let filled : TSegmentedList α :=
    { list with allSegments := first.addListToFront itemList :: rest, totalItems := list.totalItems + itemList.length }
  have unfolded : list.addNewList itemList =
      if itemList.length ≠ 0 ∧ (first.addListToFront itemList).numItems = itemList.length then
        filled.addFirstSegToNonemptySegList else filled := by
    unfold TSegmentedList.addNewList
    rw [split]
  have sound : filled.Sound :=
    valid.replace (show list.allSegments = [] ++ first :: rest from split)
      (show filled.allSegments = [] ++ first.addListToFront itemList :: rest from rfl) rfl
      (by simp [TSegment.addListToFront, firstCount]; omega) (by simp [filled, TSegment.addListToFront]; omega) rfl rfl
  have sameLinks : SameLinks filled list :=
    ⟨map_links_replace (show list.allSegments = [] ++ first :: rest from split)
      (show filled.allSegments = [] ++ first.addListToFront itemList :: rest from rfl) rfl, rfl, rfl⟩
  have copy : filled.copyOutSegments = list.copyOutSegments.modifyHead (itemList ++ ·) := by
    simp [filled, copyOutSegments, split, TSegment.addListToFront]
  rw [unfolded]
  split
  · -- the first segment was empty and now holds the items
    rename_i became
    simp only [TSegment.addListToFront] at became
    have wasEmpty : first.empty = true := by
      simp [TSegment.empty]
      omega
    have nowFull : (first.addListToFront itemList).empty = false := by
      simp only [TSegment.empty, TSegment.addListToFront, beq_eq_false_iff_ne, ne_eq]
      omega
    have fresh : first.address ∉ nonemptyAddresses list.allSegments := by
      have distinct := valid.addresses_nodup
      rw [addresses, split, List.map_cons, List.nodup_cons] at distinct
      rw [split, nonemptyAddresses_cons_of_empty wasEmpty]
      exact fun member => distinct.1 ((nonemptyAddresses_sublist rest).subset member)
    have sameAddresses : filled.addresses = list.addresses := by
      simp [filled, addresses, split, TSegment.addListToFront]
    have linked := (valid.links.of_sameLinks sameLinks).addFirstSegToNonemptySegList
      (show filled.allSegments.head? = some (first.addListToFront itemList) from rfl) fresh
      (fun q member => sameAddresses ▸ mem_addresses_of_nonempty member) valid.nonemptyAddresses_nodup
    have same := sameData_addFirstSegToNonemptySegList filled
    refine ⟨⟨sound.of_sameData same, ?_⟩, same.copyOutSegments.trans copy⟩
    rw [same.nonemptyAddresses]
    rw [show filled.allSegments = _ :: rest from rfl, nonemptyAddresses_cons_of_not_empty nowFull]
    rw [split, nonemptyAddresses_cons_of_empty wasEmpty] at linked
    exact linked
  · -- the first segment stays empty, or stays nonempty
    rename_i stays
    have emptyEq : (first.addListToFront itemList).empty = first.empty := by
      simp only [TSegment.addListToFront] at stays
      simp only [TSegment.empty, TSegment.addListToFront]
      by_cases none : itemList.length = 0
      · simp [none]
      · have : first.numItems ≠ 0 := by omega
        simp [this]
    have order : nonemptyAddresses filled.allSegments = nonemptyAddresses list.allSegments := by
      rw [split]
      exact show nonemptyAddresses ([] ++ first.addListToFront itemList :: rest) =
          nonemptyAddresses ([] ++ first :: rest) from
        nonemptyAddresses_replace rfl emptyEq
    exact ⟨⟨sound, order ▸ valid.links.of_sameLinks sameLinks⟩, copy⟩

theorem Valid.addNew (valid : list.Valid) (item : α) :
    (list.addNew item).Valid ∧ (list.addNew item).copyOutSegments = list.copyOutSegments.modifyHead (item :: ·) := by
  rw [addNew_eq_addNewList]
  exact valid.addNewList [item]

/-- `AddNewSegment()` reads back the new segment at its address, and the
old ones elsewhere. -/
theorem segmentAt_addNewSegment (q : Nat) :
    list.addNewSegment.segmentAt q = if list.nextAddress = q then some { address := list.nextAddress }
      else list.segmentAt q := by
  simp only [TSegmentedList.addNewSegment, segmentAt, List.find?_cons]
  by_cases at_ : list.nextAddress = q
  · simp [at_]
  · have differ : (list.nextAddress == q) = false := beq_eq_false_iff_ne.mpr at_
    simp [at_, differ]

/-- A new empty segment in front, at a fresh address. -/
theorem Valid.addNewSegment (valid : list.Valid) :
    list.addNewSegment.Valid ∧ list.addNewSegment.copyOutSegments = [] :: list.copyOutSegments := by
  have fresh : list.nextAddress ∉ list.addresses := by
    simp only [addresses, List.mem_map, not_exists, not_and]
    exact fun segment member same => Nat.ne_of_lt (valid.address_lt segment member) same
  have segments : list.addNewSegment.allSegments = { address := list.nextAddress } :: list.allSegments := rfl
  have sound : list.addNewSegment.Sound := by
    refine ⟨by simp [segments], ?_, fun segment member => ?_, ?_, fun segment member => ?_, ?_⟩
    · simpa [segments, addresses] using
        ⟨fun segment member same => fresh (same ▸ List.mem_map_of_mem member), valid.addresses_nodup⟩
    · rw [segments, List.mem_cons] at member
      rcases member with rfl | old
      · exact Nat.lt_succ_self _
      · exact Nat.lt_succ_of_lt (valid.address_lt segment old)
    · simp [TSegmentedList.addNewSegment, valid.numSegments_eq]
    · rw [segments, List.mem_cons] at member
      rcases member with rfl | old
      · rfl
      · exact valid.numItems_eq segment old
    · simp [TSegmentedList.addNewSegment, valid.totalItems_eq]
  -- the new segment is empty and unlinked, and its address was read as null
  have absent : list.segmentAt list.nextAddress = none :=
    Option.not_isSome_iff_eq_none.mp fun some => fresh ((segmentAt_isSome_iff _).mp some)
  have nextSame : list.addNewSegment.nextOf = list.nextOf := by
    funext q
    rw [nextOf, nextOf, segmentAt_addNewSegment]
    split
    · rename_i at_
      rw [← at_, absent]
      rfl
    · rfl
  have prevSame : list.addNewSegment.prevOf = list.prevOf := by
    funext q
    rw [prevOf, prevOf, segmentAt_addNewSegment]
    split
    · rename_i at_
      rw [← at_, absent]
      rfl
    · rfl
  have order : nonemptyAddresses list.addNewSegment.allSegments = nonemptyAddresses list.allSegments := by
    rw [segments, nonemptyAddresses_cons_of_empty rfl]
  obtain ⟨firstEq, lastEq, nextEq, prevEq⟩ := valid.links
  refine ⟨⟨sound, order ▸ ⟨firstEq, lastEq, nextSame ▸ nextEq, prevSame ▸ prevEq⟩⟩, ?_⟩
  simp [copyOutSegments, segments]

end Add

/-! ### Taking the newest item -/

section Newest

variable {list : TSegmentedList α}

/-- A list without items has only empty segments. -/
theorem Valid.items_eq_nil (valid : list.Valid) (none : list.totalItems = 0) :
    ∀ items ∈ list.copyOutSegments, items = [] := by
  intro items member
  simp only [copyOutSegments, List.mem_map] at member
  obtain ⟨segment, segmentMember, rfl⟩ := member
  have counted : segment.numItems = 0 := by
    have total := valid.totalItems_eq
    rw [none] at total
    exact List.sum_eq_zero_iff.mp total.symm _ (List.mem_map_of_mem segmentMember)
  rw [← List.length_eq_zero_iff, ← valid.numItems_eq segment segmentMember, counted]

/-- A list with items has a nonempty segment. -/
theorem Valid.exists_nonemptyAddresses_eq_cons (valid : list.Valid) (some : list.totalItems ≠ 0) :
    ∃ first rest, nonemptyAddresses list.allSegments = first :: rest := by
  cases order : nonemptyAddresses list.allSegments with
  | cons first rest => exact ⟨first, rest, rfl⟩
  | nil =>
      exfalso
      apply some
      rw [valid.totalItems_eq, List.sum_eq_zero_iff]
      intro count member
      obtain ⟨segment, segmentMember, rfl⟩ := List.mem_map.mp member
      have notKept : segment ∉ list.allSegments.filter fun segment => !segment.empty := by
        intro kept
        have := List.mem_map_of_mem (f := (·.address)) kept
        rw [← nonemptyAddresses, order] at this
        exact List.not_mem_nil this
      simpa [TSegment.empty, segmentMember] using notKept

/-- `RemoveOneNewest()` takes the first item of the first nonempty segment,
which leaves the nonempty segments when it was its last item. -/
theorem Valid.removeOneNewest (valid : list.Valid) :
    list.removeOneNewest.2.Valid ∧
      (list.removeOneNewest.1, list.removeOneNewest.2.copyOutSegments) = Segments.removeFirstItem list.copyOutSegments := by
  by_cases none : list.totalItems = 0
  · rw [TSegmentedList.removeOneNewest, if_pos none, Segments.removeFirstItem_of_empty (valid.items_eq_nil none)]
    exact ⟨valid, rfl⟩
  obtain ⟨first, restOrder, order⟩ := valid.exists_nonemptyAddresses_eq_cons none
  obtain ⟨empties, segment, after, split, emptiesEmpty, full, address, afterOrder⟩ :=
    exists_split_of_nonemptyAddresses_eq_cons order
  have member : segment ∈ list.allSegments := by simp [split]
  have firstEq : list.firstNonempty = some first := by
    rw [valid.links.first_eq, order]
    rfl
  have found : list.segmentAt first = some segment := valid.segmentAt_eq_some_iff.mpr ⟨member, address⟩
  obtain ⟨item, items, segmentItems⟩ : ∃ item items, segment.items = item :: items := by
    cases itemsEq : segment.items with
    | nil => simp [(valid.empty_iff member).mpr itemsEq] at full
    | cons item items => exact ⟨item, items, rfl⟩
  have count : segment.numItems = items.length + 1 := by
    rw [valid.numItems_eq segment member, segmentItems, List.length_cons]
  let taken : TSegment α := { segment with items := items, numItems := segment.numItems - 1 }
  let cut : TSegmentedList α := { list.modifySegment first (fun _ => taken) with totalItems := list.totalItems - 1 }
  have unfolded : list.removeOneNewest = ([item], if taken.numItems = 0 then cut.removeFrontItemFromNonemptySegList else cut) := by
    rw [TSegmentedList.removeOneNewest, if_neg none, firstEq]
    simp only [found, TSegment.takeFront, segmentItems, List.take_succ_cons, List.take_zero, List.drop_succ_cons,
      List.drop_zero]
    rfl
  have cutSegments : cut.allSegments = empties ++ taken :: after := by
    show (list.modifySegment first fun _ => taken).allSegments = _
    rw [← address]
    exact modifySegment_eq split valid.addresses_nodup _
  have sound : cut.Sound :=
    valid.replace split cutSegments rfl (by simp [taken, count])
      (show list.totalItems - 1 + segment.numItems = list.totalItems + (segment.numItems - 1) by omega) rfl rfl
  have sameLinks : SameLinks cut list := ⟨map_links_replace split cutSegments rfl, rfl, rfl⟩
  have emptiesItems : ∀ items ∈ empties.map (·.items), items = [] := by
    simp only [List.mem_map]
    rintro _ ⟨other, otherMember, rfl⟩
    exact (valid.empty_iff (by simp [split, otherMember])).mp (emptiesEmpty other otherMember)
  have abstract : Segments.removeFirstItem list.copyOutSegments = ([item], cut.copyOutSegments) := by
    rw [copyOutSegments, split, List.map_append, List.map_cons, segmentItems,
      Segments.removeFirstItem_empties_append emptiesItems, copyOutSegments, cutSegments]
    simp [taken]
  rw [unfolded, abstract]
  split
  · -- the item was the segment's last: it leaves the nonempty segments
    rename_i emptied
    have takenEmpty : taken.empty = true := by simp [TSegment.empty, emptied]
    have cutOrder : nonemptyAddresses cut.allSegments = restOrder := by
      rw [cutSegments, nonemptyAddresses_append, nonemptyAddresses_eq_nil emptiesEmpty,
        nonemptyAddresses_cons_of_empty takenEmpty, afterOrder, List.nil_append]
    have sameAddresses : cut.addresses = list.addresses := by
      simp [addresses, cutSegments, split, taken]
    have links : cut.Links (first :: restOrder) := order ▸ valid.links.of_sameLinks sameLinks
    have linked := links.removeFrontItemFromNonemptySegList
      (fun q member => sameAddresses ▸ mem_addresses_of_nonempty (order ▸ member))
      (order ▸ valid.nonemptyAddresses_nodup)
    have same := sameData_removeFrontItemFromNonemptySegList cut
    refine ⟨⟨sound.of_sameData same, ?_⟩, by rw [same.copyOutSegments]⟩
    rw [same.nonemptyAddresses, cutOrder]
    exact linked
  · -- the segment keeps items
    rename_i kept
    have emptyEq : taken.empty = segment.empty := by
      rw [full]
      simpa [TSegment.empty] using kept
    have cutOrder : nonemptyAddresses cut.allSegments = nonemptyAddresses list.allSegments := by
      rw [cutSegments, split]
      exact nonemptyAddresses_replace rfl emptyEq
    exact ⟨⟨sound, cutOrder ▸ valid.links.of_sameLinks sameLinks⟩, rfl⟩

end Newest

/-! ### Taking the oldest items -/

section Oldest

variable {list : TSegmentedList α}

theorem exists_split_last (valid : list.Valid) : ∃ init last, list.allSegments = init ++ [last] := by
  rcases List.eq_nil_or_concat' list.allSegments with empty | found
  · exact absurd empty valid.nonempty
  · exact found

/-- The last segment's items are part of the total. -/
theorem numItems_le_totalItems (valid : list.Valid) {init : List (TSegment α)} {last : TSegment α}
    (split : list.allSegments = init ++ [last]) : last.numItems ≤ list.totalItems := by
  have total := valid.totalItems_eq
  rw [split, List.map_append, List.sum_append] at total
  simp only [List.map_cons, List.map_nil, List.sum_cons, List.sum_nil] at total
  omega

/-- When the last segment was nonempty and is emptied, a list with the same
links and addresses is linked along the other nonempty segments once
`RemoveLastSegFromNonemptySegList()` has run. -/
theorem Valid.links_removeLastSegFromNonemptySegList (valid : list.Valid) {init : List (TSegment α)} {last : TSegment α}
    (split : list.allSegments = init ++ [last]) (full : last.empty = false) {cut : TSegmentedList α}
    (sameLinks : SameLinks cut list) (sameAddresses : cut.addresses = list.addresses) :
    cut.removeLastSegFromNonemptySegList.Links (nonemptyAddresses init) := by
  have order : nonemptyAddresses list.allSegments = nonemptyAddresses init ++ [last.address] := by
    rw [split, nonemptyAddresses_append, nonemptyAddresses_cons_of_not_empty full, nonemptyAddresses_nil]
  have links : cut.Links (nonemptyAddresses init ++ [last.address]) := order ▸ valid.links.of_sameLinks sameLinks
  exact links.removeLastSegFromNonemptySegList
    (fun q member => sameAddresses ▸ mem_addresses_of_nonempty (order ▸ member)) (order ▸ valid.nonemptyAddresses_nodup)

/-- `EmptyOldest()` returns the last segment's items and empties it,
unlinking it when it had items. -/
theorem Valid.emptyOldest (valid : list.Valid) :
    list.emptyOldest.2.Valid ∧ (list.emptyOldest.1, list.emptyOldest.2.copyOutSegments) =
      (Segments.oldest list.copyOutSegments, Segments.changeLast (fun _ => []) list.copyOutSegments) := by
  obtain ⟨init, oldest, split⟩ := exists_split_last valid
  have lastSeg : list.allSegments.getLast? = some oldest := by simp [split]
  let shrunk : TSegmentedList α := { list with totalItems := list.totalItems - oldest.numItems }
  let unlinked := if oldest.numItems ≠ 0 then shrunk.removeLastSegFromNonemptySegList else shrunk
  have unfolded : list.emptyOldest = (oldest.items, unlinked.modifySegment oldest.address TSegment.cleared) := by
    rw [TSegmentedList.emptyOldest, lastSeg]
  -- the data after the call are those of the list with its last segment cleared
  let cut := shrunk.modifySegment oldest.address TSegment.cleared
  have cutSegments : cut.allSegments = init ++ [oldest.cleared] :=
    modifySegment_eq (show shrunk.allSegments = init ++ oldest :: [] from split) valid.addresses_nodup _
  have sound : cut.Sound :=
    valid.replace split cutSegments rfl rfl
      (show list.totalItems - oldest.numItems + oldest.numItems = list.totalItems + 0 by
        have := numItems_le_totalItems valid split
        omega) rfl rfl
  have unlinkedData : SameData unlinked shrunk := by
    by_cases full : oldest.numItems ≠ 0
    · simp only [unlinked, if_pos full]
      exact sameData_removeLastSegFromNonemptySegList shrunk
    · simp only [unlinked, if_neg full]
      exact .refl _
  have sameData : SameData (unlinked.modifySegment oldest.address TSegment.cleared) cut :=
    unlinkedData.modifySegment (fun _ _ => TSegment.data_cleared_of_data) _
  have sameLinks : SameLinks (unlinked.modifySegment oldest.address TSegment.cleared) unlinked :=
    ⟨map_links_modifySegment TSegment.links_cleared _, rfl, rfl⟩
  have clearedEmpty : oldest.cleared.empty = true := rfl
  have cutOrder : nonemptyAddresses cut.allSegments = nonemptyAddresses init := by
    rw [cutSegments, nonemptyAddresses_append, nonemptyAddresses_cons_of_empty clearedEmpty, nonemptyAddresses_nil,
      List.append_nil]
  have linked : unlinked.Links (nonemptyAddresses cut.allSegments) := by
    rw [cutOrder]
    by_cases full : oldest.numItems ≠ 0
    · -- the last segment leaves the nonempty segments
      simp only [unlinked, if_pos full]
      exact valid.links_removeLastSegFromNonemptySegList split (by simpa [TSegment.empty] using full) ⟨rfl, rfl, rfl⟩ rfl
    · -- it was empty already
      simp only [unlinked, if_neg full]
      have oldestEmpty : oldest.empty = true := by simpa [TSegment.empty] using full
      have order : nonemptyAddresses list.allSegments = nonemptyAddresses init := by
        rw [split, nonemptyAddresses_append, nonemptyAddresses_cons_of_empty oldestEmpty, nonemptyAddresses_nil,
          List.append_nil]
      exact order ▸ valid.links.of_sameLinks ⟨rfl, rfl, rfl⟩
  rw [unfolded]
  refine ⟨Valid.of_same sound linked sameData sameLinks, ?_⟩
  dsimp only
  rw [sameData.copyOutSegments, copyOutSegments, copyOutSegments, cutSegments, split]
  simp [TSegment.cleared]

/-- `RemoveOldest(max_count)` takes up to `max_count` items from the end of
the last segment, unlinking it when it is left empty. -/
theorem Valid.removeOldest (valid : list.Valid) (maxCount : Nat) :
    (list.removeOldest maxCount).2.Valid ∧
      ((list.removeOldest maxCount).1, (list.removeOldest maxCount).2.copyOutSegments) =
        ((Segments.oldest list.copyOutSegments).drop ((Segments.oldest list.copyOutSegments).length - maxCount),
          Segments.changeLast (fun items => items.take (items.length - maxCount)) list.copyOutSegments) := by
  obtain ⟨init, oldest, split⟩ := exists_split_last valid
  have lastSeg : list.allSegments.getLast? = some oldest := by simp [split]
  have count := valid.numItems_eq oldest (by simp [split])
  let taken : TSegment α :=
    { oldest with
      items := oldest.items.take (oldest.items.length - maxCount)
      numItems := oldest.numItems - maxCount }
  let cut : TSegmentedList α :=
    { list.modifySegment oldest.address (fun segment => (segment.takeUpToLastN maxCount).2) with
      totalItems := list.totalItems - (oldest.numItems - taken.numItems) }
  have unfolded : list.removeOldest maxCount = (oldest.items.drop (oldest.items.length - maxCount),
      if oldest.numItems ≠ 0 ∧ taken.numItems = 0 then cut.removeLastSegFromNonemptySegList else cut) := by
    rw [TSegmentedList.removeOldest, lastSeg]
    simp only [TSegment.takeUpToLastN_eq count]
    rfl
  have cutSegments : cut.allSegments = init ++ [taken] := by
    show (list.modifySegment oldest.address _).allSegments = _
    rw [modifySegment_eq (show list.allSegments = init ++ oldest :: [] from split) valid.addresses_nodup,
      TSegment.takeUpToLastN_eq count]
  have sound : cut.Sound :=
    valid.replace split cutSegments rfl (by simp [taken, count])
      (show list.totalItems - (oldest.numItems - (oldest.numItems - maxCount)) + oldest.numItems =
          list.totalItems + (oldest.numItems - maxCount) by
        have := numItems_le_totalItems valid split
        omega) rfl rfl
  have sameLinks : SameLinks cut list := ⟨map_links_replace split cutSegments rfl, rfl, rfl⟩
  have copy : cut.copyOutSegments = Segments.changeLast (fun items => items.take (items.length - maxCount))
      list.copyOutSegments := by
    simp [copyOutSegments, cutSegments, split, taken]
  have result : Segments.oldest list.copyOutSegments = oldest.items := by simp [copyOutSegments, split]
  rw [unfolded, result, ← copy]
  split
  · -- the last segment was nonempty and is left empty
    rename_i emptied
    have takenEmpty : taken.empty = true := by simpa [TSegment.empty] using emptied.2
    have cutOrder : nonemptyAddresses cut.allSegments = nonemptyAddresses init := by
      rw [cutSegments, nonemptyAddresses_append, nonemptyAddresses_cons_of_empty takenEmpty, nonemptyAddresses_nil,
        List.append_nil]
    have sameAddresses : cut.addresses = list.addresses := by simp [addresses, cutSegments, split, taken]
    have linked := valid.links_removeLastSegFromNonemptySegList split (by simpa [TSegment.empty] using emptied.1)
      sameLinks sameAddresses
    have same := sameData_removeLastSegFromNonemptySegList cut
    exact ⟨Valid.of_same sound (cutOrder ▸ linked) same ⟨rfl, rfl, rfl⟩, by rw [same.copyOutSegments]⟩
  · -- it stays empty, or keeps items
    rename_i stays
    have emptyEq : taken.empty = oldest.empty := by
      simp only [TSegment.empty, taken]
      by_cases none : oldest.numItems = 0
      · simp [none]
      · have : oldest.numItems - maxCount ≠ 0 := fun zero => stays ⟨none, zero⟩
        simp [none, this]
    have cutOrder : nonemptyAddresses cut.allSegments = nonemptyAddresses list.allSegments := by
      rw [cutSegments, split]
      exact nonemptyAddresses_replace rfl emptyEq
    exact ⟨⟨sound, cutOrder ▸ valid.links.of_sameLinks sameLinks⟩, rfl⟩

end Oldest

/-! ### Recycling the oldest segment -/

section Recycle

variable {list : TSegmentedList α}

/-- The splice of the last segment to the front only reorders the
segments. -/
theorem getLast?_toList_append_dropLast_perm {β : Type} (segments : List β) :
    (segments.getLast?.toList ++ segments.dropLast).Perm segments := by
  rcases List.eq_nil_or_concat' segments with rfl | ⟨init, last, rfl⟩
  · simp
  · simpa using (List.perm_append_singleton last init).symm

theorem map_getLast?_toList_append_dropLast {β γ : Type} (f : β → γ) (segments : List β) :
    (segments.getLast?.toList ++ segments.dropLast).map f = (segments.map f).getLast?.toList ++ (segments.map f).dropLast := by
  rcases List.eq_nil_or_concat' segments with rfl | ⟨init, last, rfl⟩ <;> simp

/-- `RecycleOldestSegment()` appends the last segment's items to the segment
before it and splices the emptied last segment to the front.  The links
follow the two segments that may change state: the last one leaves the
nonempty segments when it had items, and the one before it joins them at the
end when it was empty and got some. -/
theorem Valid.recycleOldestSegment (valid : list.Valid) :
    list.recycleOldestSegment.Valid ∧
      list.recycleOldestSegment.copyOutSegments = (Segments.step list.copyOutSegments .recycleOldestSegment).2 := by
  rcases reversed : list.allSegments.reverse with _ | ⟨last, _ | ⟨prev, olderRev⟩⟩
  · exact absurd (List.reverse_eq_nil_iff.mp reversed) valid.nonempty
  · -- a single segment: nothing to recycle
    have copy : list.copyOutSegments.reverse = [last.items] := by
      rw [copyOutSegments, ← List.map_reverse, reversed, List.map_singleton]
    rw [TSegmentedList.recycleOldestSegment, reversed]
    simp only [Segments.step, copy]
    exact ⟨valid, trivial⟩
  have split : list.allSegments = olderRev.reverse ++ [prev, last] := by
    rw [← List.reverse_reverse list.allSegments, reversed]
    simp
  have prevCount := valid.numItems_eq prev (by simp [split])
  have lastCount := valid.numItems_eq last (by simp [split])
  have distinct := valid.addresses_nodup
  -- the data: the last segment's items appended to the one before it
  let appended := last.appendAllTo prev
  let filled : TSegmentedList α :=
    { list.modifySegment prev.address last.appendAllTo with totalItems := list.totalItems + last.numItems }
  have filledSegments : filled.allSegments = (olderRev.reverse ++ [appended]) ++ last :: [] := by
    show (list.modifySegment prev.address last.appendAllTo).allSegments = _
    rw [modifySegment_eq (show list.allSegments = olderRev.reverse ++ prev :: [last] by simp [split]) distinct]
    simp [appended]
  have filledSound : filled.Sound :=
    valid.replace (show list.allSegments = olderRev.reverse ++ prev :: [last] by simp [split])
      (show filled.allSegments = olderRev.reverse ++ appended :: [last] by simp [filledSegments]) rfl
      (by simp [appended, TSegment.appendAllTo, prevCount, lastCount])
      (show list.totalItems + last.numItems + prev.numItems = list.totalItems + (prev.numItems + last.numItems) by omega)
      rfl rfl
  have filledDistinct : filled.addresses.Nodup := by
    show (list.modifySegment prev.address last.appendAllTo).addresses.Nodup
    rw [addresses_modifySegment (TSegment.address_appendAllTo last)]
    exact distinct
  let moved := (list.modifySegment prev.address last.appendAllTo).modifySegment last.address TSegment.cleared
  have movedSegments : moved.allSegments = (olderRev.reverse ++ [appended]) ++ [last.cleared] :=
    modifySegment_eq filledSegments filledDistinct _
  have movedSound : moved.Sound := by
    -- the counters are back to the list's once the last segment is cleared
    have cleared : ({ filled.modifySegment last.address TSegment.cleared with totalItems := list.totalItems } :
        TSegmentedList α).Sound :=
      filledSound.replace filledSegments movedSegments rfl rfl (by simp [filled, TSegment.cleared]) rfl rfl
    exact cleared
  have sameLinks : SameLinks moved list :=
    ⟨(map_links_modifySegment TSegment.links_cleared _).trans
      (map_links_modifySegment (TSegment.links_appendAllTo last) _), rfl, rfl⟩
  have movedAddresses : moved.addresses = list.addresses := by
    simp [addresses, movedSegments, split, appended, TSegment.appendAllTo, TSegment.cleared]
  -- the links: the last segment unlinked when it had items, then the splice
  let unlinked := if last.numItems ≠ 0 then moved.removeLastSegFromNonemptySegList else moved
  let spliced : TSegmentedList α :=
    { unlinked with allSegments := unlinked.allSegments.getLast?.toList ++ unlinked.allSegments.dropLast }
  have unfolded : list.recycleOldestSegment =
      if prev.numItems = 0 ∧ last.numItems ≠ 0 then spliced.addLastSegToNonemptySegList else spliced := by
    rw [TSegmentedList.recycleOldestSegment, reversed]
  have unlinkedData : SameData unlinked moved := by
    by_cases full : last.numItems ≠ 0
    · simp only [unlinked, if_pos full]
      exact sameData_removeLastSegFromNonemptySegList moved
    · simp only [unlinked, if_neg full]
      exact .refl _
  -- the data after the call: the emptied last segment in front
  let rotated : TSegmentedList α := { list with allSegments := last.cleared :: (olderRev.reverse ++ [appended]) }
  have rotatedSound : rotated.Sound :=
    movedSound.of_perm (by rw [movedSegments]; exact (List.perm_append_singleton _ _).symm) rfl rfl rfl
  have splicedData : SameData spliced rotated := by
    refine ⟨?_, unlinkedData.numSegments, unlinkedData.totalItems, unlinkedData.nextAddress⟩
    show (unlinked.allSegments.getLast?.toList ++ unlinked.allSegments.dropLast).map TSegment.data = _
    rw [map_getLast?_toList_append_dropLast, unlinkedData.data, movedSegments]
    simp [rotated]
  have resultData : SameData list.recycleOldestSegment rotated := by
    rw [unfolded]
    split
    · exact (sameData_addLastSegToNonemptySegList spliced).trans splicedData
    · exact splicedData
  have splicedLinks : ∀ {order : List Nat}, unlinked.Links order → spliced.Links order := fun links =>
    links.of_perm (getLast?_toList_append_dropLast_perm _) (unlinkedData.addresses.trans movedAddresses ▸ distinct) rfl rfl
  have rotatedOrder : nonemptyAddresses rotated.allSegments = nonemptyAddresses (olderRev.reverse ++ [appended]) :=
    nonemptyAddresses_cons_of_empty rfl _
  have linked : list.recycleOldestSegment.Links (nonemptyAddresses rotated.allSegments) := by
    rw [rotatedOrder]
    by_cases lastEmpty : last.numItems = 0
    · -- the last segment was empty: the links stay as they were
      have lastIsEmpty : last.empty = true := by simpa [TSegment.empty] using lastEmpty
      have appendedEmpty : appended.empty = prev.empty := by
        simp [appended, TSegment.empty, TSegment.appendAllTo, lastEmpty]
      have order : nonemptyAddresses (olderRev.reverse ++ appended :: []) = nonemptyAddresses list.allSegments := by
        rw [nonemptyAddresses_replace (show appended.address = prev.address from rfl) appendedEmpty, split,
          show olderRev.reverse ++ [prev, last] = (olderRev.reverse ++ [prev]) ++ last :: [] by simp,
          nonemptyAddresses_append _ (last :: []), nonemptyAddresses_cons_of_empty lastIsEmpty, nonemptyAddresses_nil,
          List.append_nil]
      have unlinkedLinks : unlinked.Links (nonemptyAddresses list.allSegments) := by
        simp only [unlinked, if_neg (not_not.mpr lastEmpty)]
        exact valid.links.of_sameLinks sameLinks
      rw [unfolded, if_neg fun both => both.2 lastEmpty, order]
      exact splicedLinks unlinkedLinks
    -- the last segment had items: it leaves the nonempty segments
    have lastFull : last.empty = false := by simpa [TSegment.empty] using lastEmpty
    have appendedFull : appended.empty = false := by
      simp only [appended, TSegment.empty, TSegment.appendAllTo, beq_eq_false_iff_ne]
      omega
    have unlinkedLinks : unlinked.Links (nonemptyAddresses (olderRev.reverse ++ [prev])) := by
      simp only [unlinked, if_pos lastEmpty]
      exact valid.links_removeLastSegFromNonemptySegList
        (show list.allSegments = (olderRev.reverse ++ [prev]) ++ [last] by simp [split]) lastFull sameLinks movedAddresses
    by_cases prevEmpty : prev.numItems = 0
    · -- the segment before it was empty: it joins the nonempty segments at the end
      have prevIsEmpty : prev.empty = true := by simpa [TSegment.empty] using prevEmpty
      have olderOrder : nonemptyAddresses (olderRev.reverse ++ [prev]) = nonemptyAddresses olderRev.reverse := by
        rw [nonemptyAddresses_append, nonemptyAddresses_cons_of_empty prevIsEmpty, nonemptyAddresses_nil,
          List.append_nil]
      have order : nonemptyAddresses (olderRev.reverse ++ [appended]) =
          nonemptyAddresses olderRev.reverse ++ [prev.address] := by
        rw [nonemptyAddresses_append, nonemptyAddresses_cons_of_not_empty appendedFull, nonemptyAddresses_nil]
        rfl
      -- the segment spliced last is the one the items went to
      obtain ⟨target, lastSeg, targetData⟩ :
          ∃ target, spliced.allSegments.getLast? = some target ∧ target.data = appended.data := by
        have lastData : spliced.allSegments.getLast?.map TSegment.data = some appended.data := by
          rw [← List.getLast?_map, splicedData.data]
          simp [rotated, List.getLast?_cons]
        simpa using Option.map_eq_some_iff.mp lastData
      have address : target.address = prev.address := congrArg Prod.fst targetData
      have orderDistinct := order ▸ rotatedOrder ▸ rotatedSound.nonemptyAddresses_nodup
      rw [unfolded, if_pos ⟨prevEmpty, lastEmpty⟩, order, ← address]
      exact (splicedLinks (olderOrder ▸ unlinkedLinks)).addLastSegToNonemptySegList lastSeg
        (address ▸ fun member => (List.nodup_append.mp orderDistinct).2.2 _ member _ List.mem_cons_self rfl)
        (fun q member => splicedData.addresses ▸ mem_addresses_of_nonempty
          (rotatedOrder ▸ order ▸ List.mem_append_left _ member))
        (List.nodup_append.mp orderDistinct).1
    · -- it had items: it stays the last nonempty segment
      have prevFull : prev.empty = false := by simpa [TSegment.empty] using prevEmpty
      have order : nonemptyAddresses (olderRev.reverse ++ appended :: []) =
          nonemptyAddresses (olderRev.reverse ++ prev :: []) :=
        nonemptyAddresses_replace rfl (appendedFull.trans prevFull.symm)
      rw [unfolded, if_neg fun both => prevEmpty both.1, order]
      exact splicedLinks unlinkedLinks
  refine ⟨⟨rotatedSound.of_sameData resultData, by rw [resultData.nonemptyAddresses]; exact linked⟩, ?_⟩
  have copy : list.copyOutSegments.reverse = last.items :: prev.items :: olderRev.map (·.items) := by
    rw [copyOutSegments, ← List.map_reverse, reversed, List.map_cons, List.map_cons]
  rw [resultData.copyOutSegments]
  simp only [Segments.step, copy]
  simp [copyOutSegments, rotated, appended, TSegment.appendAllTo, TSegment.cleared, List.map_reverse]

end Recycle

/-! ### The walks along the nonempty segments -/

section Walk

variable {list : TSegmentedList α}

/-- The segments at the addresses of `todo` emptied and unlinked. -/
def emptiedAt (todo : List Nat) (list : TSegmentedList α) : TSegmentedList α :=
  { list with
    allSegments := list.allSegments.map fun segment => if segment.address ∈ todo then segment.emptied else segment }

/-- The items of the segments at the addresses of `todo`, in that order. -/
def itemsAt (todo : List Nat) (list : TSegmentedList α) : List α :=
  (todo.map fun q => ((list.segmentAt q).map (·.items)).getD []).flatten

theorem emptiedAt_nil (list : TSegmentedList α) : list.emptiedAt [] = list := by
  simp [emptiedAt]

/-- Emptying one segment, then the rest. -/
theorem emptiedAt_modifySegment (p : Nat) (rest : List Nat) (list : TSegmentedList α) :
    (list.modifySegment p TSegment.emptied).emptiedAt rest = list.emptiedAt (p :: rest) := by
  simp only [emptiedAt, modifySegment, List.map_map]
  congr 2
  funext segment
  by_cases at_ : segment.address = p <;> by_cases later : segment.address ∈ rest <;> simp [at_, later]

/-- A walk from `p` along the next pointers: `p` is in the list, and its
next pointer leads on along `todo`. -/
theorem segmentAt_of_walk {p : Nat} {rest : List Nat} (present : p ∈ list.addresses)
    (next : list.nextOf p = succOf (p :: rest) p) :
    ∃ segment, list.segmentAt p = some segment ∧ segment.nextNonempty = rest.head? := by
  obtain ⟨segment, found⟩ := Option.isSome_iff_exists.mp ((segmentAt_isSome_iff p).mpr present)
  rw [nextOf, found, succOf_cons_apply, if_pos rfl] at next
  exact ⟨segment, found, by simpa using next⟩

/-- The loop of `EmptyAll()`, walking `todo` by the next pointers, empties
and unlinks its segments one by one and collects their items; enough fuel
is one turn a segment. -/
theorem emptyAllLoop_eq (todo : List Nat) (distinct : todo.Nodup) :
    ∀ (fuel : Nat) (result : List α) (list : TSegmentedList α), todo.length ≤ fuel →
      (∀ q ∈ todo, q ∈ list.addresses) → (∀ q ∈ todo, list.nextOf q = succOf todo q) →
      emptyAllLoop fuel todo.head? result list = (result ++ list.itemsAt todo, list.emptiedAt todo) := by
  induction todo with
  | nil =>
      intro fuel result list _ _ _
      cases fuel <;> simp [emptyAllLoop, itemsAt, emptiedAt_nil]
  | cons p rest ih =>
      intro fuel result list enough present next
      obtain ⟨fuel, rfl⟩ : ∃ rest, fuel = rest + 1 := ⟨fuel - 1, by simp at enough; omega⟩
      have fresh : p ∉ rest := (List.nodup_cons.mp distinct).1
      obtain ⟨segment, found, segmentNext⟩ :=
        segmentAt_of_walk (present p List.mem_cons_self) (next p List.mem_cons_self)
      -- the segments still to walk are not touched by this turn's write
      let emptied := list.modifySegment p TSegment.emptied
      have other : ∀ q ∈ rest, q ≠ p := fun q member same => fresh (same ▸ member)
      have unchanged : ∀ q ∈ rest, emptied.segmentAt q = list.segmentAt q := fun q member => by
        rw [segmentAt_modifySegment TSegment.address_emptied, if_neg (other q member)]
      have emptiedAddresses : emptied.addresses = list.addresses := addresses_modifySegment TSegment.address_emptied p
      have turn : emptyAllLoop (fuel + 1) (some p) result list =
          emptyAllLoop fuel rest.head? (result ++ segment.items) emptied := by
        simp only [emptyAllLoop, found, segmentNext]
        rfl
      rw [List.head?_cons, turn, ih (List.nodup_cons.mp distinct).2 fuel _ emptied (by simpa using enough)
        (fun q member => emptiedAddresses ▸ present q (List.mem_cons_of_mem _ member))
        (fun q member => by
          rw [nextOf, unchanged q member, ← nextOf, next q (List.mem_cons_of_mem _ member), succOf_cons_apply,
            if_neg (other q member)])]
      have items : emptied.itemsAt rest = list.itemsAt rest := by
        simp only [itemsAt]
        rw [List.map_congr_left fun q member => by rw [unchanged q member]]
      rw [items, emptiedAt_modifySegment]
      simp [itemsAt, found]

/-- The number of items of the segments at the addresses of `todo`. -/
def countAt (todo : List Nat) (list : TSegmentedList α) : Nat :=
  (todo.map fun q => ((list.segmentAt q).map (·.numItems)).getD 0).sum

/-- The segments at the addresses of `todo` cleared, and their items
appended to the segment at `first`. -/
def gatheredAt (first : Nat) (todo : List Nat) (list : TSegmentedList α) : TSegmentedList α :=
  { list with
    allSegments := list.allSegments.map fun segment =>
      if segment.address = first then
        { segment with
          items := segment.items ++ list.itemsAt todo
          numItems := segment.numItems + list.countAt todo }
      else if segment.address ∈ todo then segment.cleared
      else segment }

theorem Sound.countAt_eq_length (sound : list.Sound) (todo : List Nat) :
    list.countAt todo = (list.itemsAt todo).length := by
  induction todo with
  | nil => rfl
  | cons q rest ih =>
      have turn : ((list.segmentAt q).map (·.numItems)).getD 0 = (((list.segmentAt q).map (·.items)).getD []).length := by
        cases found : list.segmentAt q with
        | none => rfl
        | some segment => exact sound.numItems_eq segment (List.mem_of_find?_eq_some found)
      simp only [countAt, itemsAt, List.map_cons, List.sum_cons, List.flatten_cons, List.length_append] at ih ⊢
      rw [turn, ih]

/-- The loop of `ResetSegments()`, walking `todo` by the next pointers,
appends the items of its segments to the segment at `first` and clears
them; the links are not touched, so the walk is not disturbed. -/
theorem resetSegmentsLoop_eq (first : Nat) (todo : List Nat) (distinct : todo.Nodup) (firstOff : first ∉ todo) :
    ∀ (fuel : Nat) (list : TSegmentedList α), todo.length ≤ fuel →
      (∀ q ∈ todo, q ∈ list.addresses) → (∀ q ∈ todo, list.nextOf q = succOf todo q) →
      resetSegmentsLoop first fuel todo.head? list = list.gatheredAt first todo := by
  induction todo with
  | nil =>
      intro fuel list _ _ _
      have gathered : list.gatheredAt first [] = list := by
        simp only [gatheredAt, itemsAt, countAt, List.map_nil, List.flatten_nil, List.sum_nil, List.append_nil,
          Nat.add_zero, List.not_mem_nil, if_false]
        simp
      cases fuel <;> simp [resetSegmentsLoop, gathered]
  | cons p rest ih =>
      intro fuel list enough present next
      obtain ⟨fuel, rfl⟩ : ∃ rest, fuel = rest + 1 := ⟨fuel - 1, by simp at enough; omega⟩
      have fresh : p ∉ rest := (List.nodup_cons.mp distinct).1
      have notFirst : p ≠ first := fun same => firstOff (same ▸ List.mem_cons_self)
      obtain ⟨segment, found, segmentNext⟩ :=
        segmentAt_of_walk (present p List.mem_cons_self) (next p List.mem_cons_self)
      obtain ⟨moved, movedEq⟩ : ∃ moved, moved =
          (list.modifySegment first segment.appendAllTo).modifySegment p TSegment.cleared := ⟨_, rfl⟩
      -- the segments still to walk are not touched by this turn's writes
      have other : ∀ q ∈ rest, q ≠ p ∧ q ≠ first := fun q member =>
        ⟨fun same => fresh (same ▸ member), fun same => firstOff (List.mem_cons_of_mem _ (same ▸ member))⟩
      have unchanged : ∀ q ∈ rest, moved.segmentAt q = list.segmentAt q := fun q member => by
        rw [movedEq, segmentAt_modifySegment TSegment.address_cleared, if_neg (other q member).1,
          segmentAt_modifySegment (TSegment.address_appendAllTo segment), if_neg (other q member).2]
      have movedAddresses : moved.addresses = list.addresses := by
        rw [movedEq, addresses_modifySegment TSegment.address_cleared, addresses_modifySegment (TSegment.address_appendAllTo segment)]
      have turn : resetSegmentsLoop first (fuel + 1) (some p) list = resetSegmentsLoop first fuel rest.head? moved := by
        simp only [resetSegmentsLoop, found, segmentNext, movedEq]
      rw [List.head?_cons, turn, ih (List.nodup_cons.mp distinct).2 (fun member => firstOff (List.mem_cons_of_mem _ member))
        fuel moved (by simpa using enough)
        (fun q member => movedAddresses ▸ present q (List.mem_cons_of_mem _ member))
        (fun q member => by
          rw [nextOf, unchanged q member, ← nextOf, next q (List.mem_cons_of_mem _ member), succOf_cons_apply,
            if_neg (other q member).1])]
      have items : moved.itemsAt rest = list.itemsAt rest := by
        simp only [itemsAt]
        rw [List.map_congr_left fun q member => by rw [unchanged q member]]
      have count : moved.countAt rest = list.countAt rest := by
        simp only [countAt]
        rw [List.map_congr_left fun q member => by rw [unchanged q member]]
      have itemsCons : list.itemsAt (p :: rest) = segment.items ++ list.itemsAt rest := by simp [itemsAt, found]
      have countCons : list.countAt (p :: rest) = segment.numItems + list.countAt rest := by simp [countAt, found]
      simp only [gatheredAt, items, count, itemsCons, countCons]
      subst movedEq
      simp only [modifySegment, List.map_map]
      congr 2
      funext current
      -- the segment at `first`, the one at `p`, and the others
      by_cases atFirst : current.address = first
      · simp [atFirst, Ne.symm notFirst, TSegment.appendAllTo, List.append_assoc, Nat.add_assoc]
      · by_cases atP : current.address = p
        · simp [atP, fresh, notFirst, TSegment.cleared]
        · simp [atFirst, atP]

end Walk

/-! ### Emptying all segments -/

section EmptyAll

variable {list : TSegmentedList α}

/-- A segment off the list of nonempty segments is empty and unlinked
already. -/
theorem Valid.emptied_eq_self (valid : list.Valid) {segment : TSegment α} (member : segment ∈ list.allSegments)
    (absent : segment.address ∉ nonemptyAddresses list.allSegments) : segment.emptied = segment := by
  have empty : segment.empty = true := by
    by_contra full
    exact absent (List.mem_map_of_mem (List.mem_filter.mpr ⟨member, by simpa using full⟩))
  have items := (valid.empty_iff member).mp empty
  have count : segment.numItems = 0 := by simpa [TSegment.empty] using empty
  have found : list.segmentAt segment.address = some segment := valid.segmentAt_eq_some_iff.mpr ⟨member, rfl⟩
  have next : segment.nextNonempty = none := by
    have := valid.links.next_eq segment.address
    rw [nextOf, found, succOf_of_not_mem absent] at this
    simpa using this
  have prev : segment.prevNonempty = none := by
    have := valid.links.prev_eq segment.address
    rw [prevOf, found, predOf_of_not_mem absent] at this
    simpa using this
  cases segment
  simp_all [TSegment.emptied, TSegment.cleared]

/-- Past the empty segments, which hold no item, the items of the nonempty
segments are all the items. -/
theorem flatten_items_filter {segments : List (TSegment α)}
    (emptyItems : ∀ segment ∈ segments, segment.empty = true → segment.items = []) :
    ((segments.filter (!·.empty)).map (·.items)).flatten = (segments.map (·.items)).flatten := by
  induction segments with
  | nil => rfl
  | cons segment rest ih =>
      have restItems := fun other member => emptyItems other (List.mem_cons_of_mem segment member)
      cases empty : segment.empty
      · simp [empty, ih restItems]
      · simp [empty, emptyItems segment List.mem_cons_self empty, ih restItems]

/-- Walking the nonempty segments among some of the list's collects all
their items. -/
theorem Valid.itemsAt_nonemptyAddresses_of_subset (valid : list.Valid) {segments : List (TSegment α)}
    (subset : segments ⊆ list.allSegments) :
    list.itemsAt (nonemptyAddresses segments) = (segments.map (·.items)).flatten := by
  rw [← flatten_items_filter fun segment member empty => (valid.empty_iff (subset member)).mp empty, itemsAt,
    nonemptyAddresses, List.map_map]
  congr 1
  refine List.map_congr_left fun segment member => ?_
  have found : list.segmentAt segment.address = some segment :=
    valid.segmentAt_eq_some_iff.mpr ⟨subset (List.mem_filter.mp member).1, rfl⟩
  simp [found]

theorem Valid.itemsAt_nonemptyAddresses (valid : list.Valid) :
    list.itemsAt (nonemptyAddresses list.allSegments) = list.copyOutSegments.flatten :=
  valid.itemsAt_nonemptyAddresses_of_subset (List.Subset.refl _)

theorem Valid.emptiedAt_nonemptyAddresses (valid : list.Valid) :
    (list.emptiedAt (nonemptyAddresses list.allSegments)).allSegments = list.allSegments.map TSegment.emptied := by
  refine List.map_congr_left fun segment member => ?_
  by_cases linked : segment.address ∈ nonemptyAddresses list.allSegments
  · rw [if_pos linked]
  · rw [if_neg linked, valid.emptied_eq_self member linked]

/-- Segments all emptied and unlinked, at distinct addresses below the next
one, with no items counted and no nonempty segment, are valid. -/
theorem valid_of_emptied (nonempty : list.allSegments ≠ []) (distinct : list.addresses.Nodup)
    (below : ∀ segment ∈ list.allSegments, segment.address < list.nextAddress)
    (count : list.numSegments = list.allSegments.length) :
    ({ list with
      allSegments := list.allSegments.map TSegment.emptied
      totalItems := 0
      firstNonempty := none
      lastNonempty := none } : TSegmentedList α).Valid := by
  have sameAddresses : (list.allSegments.map TSegment.emptied).map (·.address) = list.addresses := by
    simp [addresses, List.map_map, Function.comp_def]
  have allEmpty : ∀ segment ∈ list.allSegments.map TSegment.emptied, segment.empty = true := by
    simp [TSegment.emptied, TSegment.cleared, TSegment.empty]
  refine ⟨⟨by simpa using nonempty, by simpa [addresses, sameAddresses] using distinct, ?_, by simpa using count, ?_,
    by simp [Function.comp_def, TSegment.emptied, TSegment.cleared]⟩, ?_⟩
  · simp only [List.mem_map, forall_exists_index, and_imp]
    rintro _ segment member rfl
    exact below segment member
  · simp [TSegment.emptied, TSegment.cleared]
  · rw [nonemptyAddresses_eq_nil allEmpty]
    refine ⟨rfl, rfl, fun q => ?_, fun q => ?_⟩
    · simp [nextOf, segmentAt, List.find?_map, TSegment.emptied]
    · simp [prevOf, predOf, segmentAt, List.find?_map, TSegment.emptied]

/-- `EmptyAll()` walks the nonempty segments: it returns all items, newest
first, and leaves every segment emptied and unlinked. -/
theorem Valid.emptyAll_eq (valid : list.Valid) :
    list.emptyAll = (list.copyOutSegments.flatten,
      { list with
        allSegments := list.allSegments.map TSegment.emptied
        totalItems := 0
        firstNonempty := none
        lastNonempty := none }) := by
  have enough : (nonemptyAddresses list.allSegments).length ≤ list.allSegments.length := by
    simpa [addresses] using (nonemptyAddresses_sublist list.allSegments).length_le
  have loop := emptyAllLoop_eq (nonemptyAddresses list.allSegments) valid.nonemptyAddresses_nodup
    list.allSegments.length [] list enough (fun q member => mem_addresses_of_nonempty member)
    (fun q _ => valid.links.next_eq q)
  rw [TSegmentedList.emptyAll, valid.links.first_eq, loop, List.nil_append, valid.itemsAt_nonemptyAddresses,
    ← valid.emptiedAt_nonemptyAddresses]
  rfl

theorem Valid.emptyAll (valid : list.Valid) :
    list.emptyAll.2.Valid ∧ (list.emptyAll.1, list.emptyAll.2.copyOutSegments) =
      (list.copyOutSegments.flatten, list.copyOutSegments.map fun _ => []) := by
  rw [valid.emptyAll_eq]
  exact ⟨valid_of_emptied valid.nonempty valid.addresses_nodup valid.address_lt valid.numSegments_eq,
    by simp [copyOutSegments, TSegment.emptied, TSegment.cleared]⟩

/-- `EmptyAllAndResetSegments()` returns all items and keeps the first
segment only, empty. -/
theorem Valid.emptyAllAndResetSegments (valid : list.Valid) :
    list.emptyAllAndResetSegments.2.Valid ∧
      (list.emptyAllAndResetSegments.1, list.emptyAllAndResetSegments.2.copyOutSegments) =
        (list.copyOutSegments.flatten, [[]]) := by
  obtain ⟨first, rest, split⟩ := List.exists_cons_of_ne_nil valid.nonempty
  -- the first segment, emptied by `EmptyAll()`: its pointers are null already
  have unfolded : list.emptyAllAndResetSegments = (list.copyOutSegments.flatten,
      { list with
        allSegments := [first].map TSegment.emptied
        numSegments := 1
        totalItems := 0
        firstNonempty := none
        lastNonempty := none }) := by
    rw [TSegmentedList.emptyAllAndResetSegments, valid.emptyAll_eq]
    simp [keepFirstSegment, split, setPrev, setNext, modifySegment, TSegment.emptied]
  have kept := @valid_of_emptied α { list with allSegments := [first], numSegments := 1 } (by simp)
    (by simp [addresses]) (by simpa using valid.address_lt first (by simp [split])) rfl
  rw [unfolded]
  exact ⟨kept, by simp [copyOutSegments, TSegment.emptied, TSegment.cleared]⟩

end EmptyAll

/-! ### Resetting the segments -/

section Reset

variable {list : TSegmentedList α}

/-- A list of one sound, unlinked segment, counted, whose ends name it
when it has items, is valid. -/
theorem valid_of_single {segment : TSegment α} (segments : list.allSegments = [segment])
    (count : segment.numItems = segment.items.length) (prev : segment.prevNonempty = none)
    (next : segment.nextNonempty = none) (numSegments : list.numSegments = 1) (total : list.totalItems = segment.numItems)
    (below : segment.address < list.nextAddress) (ends : list.lastNonempty = list.firstNonempty)
    (first : list.firstNonempty = if segment.empty then none else some segment.address) : list.Valid := by
  refine ⟨⟨by simp [segments], by simp [addresses, segments], by simpa [segments] using below,
    by simp [numSegments, segments], by simpa [segments] using count, by simp [segments, total]⟩, ?_⟩
  have found : ∀ q, list.segmentAt q = if segment.address = q then some segment else none := by
    intro q
    by_cases at_ : segment.address = q <;> simp [segmentAt, segments, at_]
  cases empty : segment.empty
  · -- the segment is the only nonempty one
    rw [segments, nonemptyAddresses_cons_of_not_empty empty, nonemptyAddresses_nil]
    refine ⟨by simp [first, empty], by simp [ends, first, empty], fun q => ?_, fun q => ?_⟩
    · by_cases at_ : segment.address = q <;> simp [nextOf, found, at_, next, succOf]
    · by_cases at_ : segment.address = q <;> simp [prevOf, found, at_, prev, predOf, succOf]
  · -- no segment is nonempty
    rw [segments, nonemptyAddresses_cons_of_empty empty, nonemptyAddresses_nil]
    refine ⟨by simp [first, empty], by simp [ends, first, empty], fun q => ?_, fun q => ?_⟩
    · by_cases at_ : segment.address = q <;> simp [nextOf, found, at_, next]
    · by_cases at_ : segment.address = q <;> simp [prevOf, found, at_, prev, predOf]

/-- `ResetSegments()` moves all items, in order, into the first segment and
keeps it alone. -/
theorem Valid.resetSegments (valid : list.Valid) :
    list.resetSegments.Valid ∧ list.resetSegments.copyOutSegments = [list.copyOutSegments.flatten] := by
  obtain ⟨first, rest, split⟩ := List.exists_cons_of_ne_nil valid.nonempty
  have head : list.allSegments.head? = some first := by simp [split]
  have distinct : (first.address :: rest.map (·.address)).Nodup := by
    simpa [addresses, split] using valid.addresses_nodup
  have firstOff : first.address ∉ nonemptyAddresses rest := fun member =>
    (List.nodup_cons.mp distinct).1 ((nonemptyAddresses_sublist rest).subset member)
  -- the walk starts after the first segment, at the first nonempty one of the others
  have start : (if list.firstNonempty = some first.address then list.nextOf first.address else list.firstNonempty) =
      (nonemptyAddresses rest).head? := by
    cases empty : first.empty
    · have order : nonemptyAddresses list.allSegments = first.address :: nonemptyAddresses rest := by
        rw [split, nonemptyAddresses_cons_of_not_empty empty]
      rw [valid.links.first_eq, order, List.head?_cons, if_pos rfl, valid.links.next_eq, order, succOf_cons_apply,
        if_pos rfl]
    · have order : nonemptyAddresses list.allSegments = nonemptyAddresses rest := by
        rw [split, nonemptyAddresses_cons_of_empty empty]
      have notFirst : (nonemptyAddresses rest).head? ≠ some first.address := fun same =>
        firstOff (List.mem_of_mem_head? same)
      rw [valid.links.first_eq, order, if_neg notFirst]
  have next : ∀ q ∈ nonemptyAddresses rest, list.nextOf q = succOf (nonemptyAddresses rest) q := by
    intro q member
    rw [valid.links.next_eq]
    cases empty : first.empty
    · have notFirst : q ≠ first.address := fun same => firstOff (same ▸ member)
      rw [split, nonemptyAddresses_cons_of_not_empty empty, succOf_cons_apply, if_neg notFirst]
    · rw [split, nonemptyAddresses_cons_of_empty empty]
  have enough : (nonemptyAddresses rest).length ≤ list.allSegments.length := by
    have := (nonemptyAddresses_sublist rest).length_le
    simp only [List.length_map] at this
    rw [split, List.length_cons]
    omega
  have loop := resetSegmentsLoop_eq first.address (nonemptyAddresses rest)
    ((nonemptyAddresses_sublist rest).nodup (List.nodup_cons.mp distinct).2) firstOff list.allSegments.length list
    enough (fun q member => by
      simpa [addresses, split] using Or.inr ((nonemptyAddresses_sublist rest).subset member)) next
  -- the first segment with all the items
  let whole : TSegment α :=
    { first with
      items := first.items ++ list.itemsAt (nonemptyAddresses rest)
      numItems := first.numItems + list.countAt (nonemptyAddresses rest)
      prevNonempty := none
      nextNonempty := none }
  have unfolded : list.resetSegments =
      { list with
        allSegments := [whole]
        numSegments := 1
        firstNonempty := if whole.empty then none else some first.address
        lastNonempty := if whole.empty then none else some first.address } := by
    rw [TSegmentedList.resetSegments, head]
    simp only [start, loop]
    simp [gatheredAt, keepFirstSegment, split, setPrev, setNext, modifySegment, segmentAt, whole]
  have items : whole.items = list.copyOutSegments.flatten := by
    simp [whole, valid.itemsAt_nonemptyAddresses_of_subset (show rest ⊆ list.allSegments by simp [split]),
      copyOutSegments, split]
  have count : whole.numItems = whole.items.length := by
    simp [whole, valid.countAt_eq_length, valid.numItems_eq first (by simp [split])]
  have total : list.totalItems = whole.numItems := by
    rw [count, items, valid.totalItems_eq_length]
  rw [unfolded]
  exact ⟨valid_of_single rfl count rfl rfl rfl total (valid.address_lt first (by simp [split])) rfl rfl,
    by simp [copyOutSegments, items]⟩

end Reset

/-! ### The sanity check -/

section Sanity

variable {list : TSegmentedList α}

/-- The walk of `SanityCheck()`: from any point of the list of nonempty
segments, with `before` the part already walked and `rest` the segments not
yet passed, it reaches the last nonempty segment, and the segments left
after it are empty.  The walk is by induction on the fuel, one nonempty
segment a turn. -/
theorem Valid.checkNonemptyLinks_eq (valid : list.Valid) :
    ∀ (fuel : Nat) (before : List Nat) (rest : List (TSegment α)),
      before ++ nonemptyAddresses rest = nonemptyAddresses list.allSegments → rest ⊆ list.allSegments →
      (rest.map (·.address)).Nodup → (nonemptyAddresses rest).length < fuel →
      ∃ after, list.checkNonemptyLinks fuel (nonemptyAddresses rest).head? before.getLast? rest =
        some ((nonemptyAddresses list.allSegments).getLast?, after) ∧ ∀ segment ∈ after, segment.empty = true := by
  intro fuel
  induction fuel with
  | zero => intro _ _ _ _ _ short; omega
  | succ fuel ih =>
      intro before rest order subset distinct short
      cases todo : nonemptyAddresses rest with
      | nil =>
          -- no nonempty segment is left: the walk stops at the last one passed
          refine ⟨rest, ?_, fun segment member => empty_of_nonemptyAddresses_eq_nil todo member⟩
          rw [← order, todo, List.append_nil]
          rfl
      | cons n later =>
          obtain ⟨empties, segment, after, split, emptiesEmpty, full, address, afterOrder⟩ :=
            exists_split_of_nonemptyAddresses_eq_cons todo
          have found : list.segmentAt n = some segment :=
            valid.segmentAt_eq_some_iff.mpr ⟨subset (by simp [split]), address⟩
          have orderDistinct : (before ++ n :: later).Nodup := by
            rw [← todo, order]
            exact valid.nonemptyAddresses_nodup
          have prev : segment.prevNonempty = before.getLast? := by
            have linked := valid.links.prev_eq n
            rw [prevOf, found, ← order, todo, predOf_append_cons orderDistinct] at linked
            simpa using linked
          have next : segment.nextNonempty = later.head? := by
            have linked := valid.links.next_eq n
            rw [nextOf, found, ← order, todo, succOf_append_cons orderDistinct] at linked
            simpa using linked
          -- the segments passed on the way are the empty ones before it
          have notReached : ∀ other ∈ empties, (other.address ≠ n) = True := by
            rw [split, List.map_append, List.map_cons, List.nodup_append] at distinct
            intro other member
            simpa using fun same => distinct.2.2 _ (List.mem_map_of_mem member) _ List.mem_cons_self
              (same.trans address.symm)
          have taken : rest.takeWhile (fun other => decide (other.address ≠ n)) = empties := by
            rw [split, List.takeWhile_append_of_pos (by simpa using notReached),
              List.takeWhile_cons_of_neg (by simp [address]), List.append_nil]
          have dropped : rest.dropWhile (fun other => decide (other.address ≠ n)) = segment :: after := by
            rw [split, List.dropWhile_append_of_pos (by simpa using notReached),
              List.dropWhile_cons_of_neg (by simp [address])]
          have turn : list.checkNonemptyLinks (fuel + 1) (some n) before.getLast? rest =
              list.checkNonemptyLinks fuel later.head? (before ++ [n]).getLast? after := by
            rw [checkNonemptyLinks, found]
            dsimp only
            rw [taken, dropped, List.all_eq_true.mpr emptiesEmpty]
            simp [prev, full, next]
          have afterSubset : after ⊆ list.allSegments := fun other member => subset (by simp [split, member])
          have afterDistinct : (after.map (·.address)).Nodup := by
            rw [split, List.map_append, List.map_cons] at distinct
            exact (List.nodup_cons.mp (List.nodup_append.mp distinct).2.1).2
          rw [List.head?_cons, turn, ← afterOrder]
          refine ih (before ++ [n]) after ?_ afterSubset afterDistinct ?_
          · rw [afterOrder, List.append_assoc, List.singleton_append, ← todo, order]
          · rw [todo, List.length_cons] at short
            rw [afterOrder]
            omega

/-- `SanityCheck()` holds of every valid list. -/
theorem Valid.sanityCheck (valid : list.Valid) : list.sanityCheck = true := by
  obtain ⟨after, walk, afterEmpty⟩ := valid.checkNonemptyLinks_eq (list.allSegments.length + 1) [] list.allSegments
    rfl (List.Subset.refl _) (by simpa [addresses] using valid.addresses_nodup)
    (by simpa [addresses] using Nat.lt_succ_of_le (nonemptyAddresses_sublist list.allSegments).length_le)
  have segments : ∀ segment ∈ list.allSegments, segment.sanityCheck = true := fun segment member => by
    simp [TSegment.sanityCheck, valid.numItems_eq segment member]
  rw [List.getLast?_nil] at walk
  rw [TSegmentedList.sanityCheck, valid.links.first_eq, walk, valid.links.last_eq]
  simp [valid.numSegments_eq, List.all_eq_true.mpr segments, valid.totalItems_eq, List.all_eq_true.mpr afterEmpty]

end Sanity

/-! ### Runs of calls -/

section Run

variable {list : TSegmentedList α}

/-- The constructor's list, one empty segment, is valid. -/
theorem valid_new : (TSegmentedList.new : TSegmentedList α).Valid :=
  valid_of_single rfl rfl rfl rfl rfl rfl Nat.zero_lt_one rfl rfl

/-- Each call keeps the list valid and acts on the segments as the abstract
call does. -/
theorem Valid.step (valid : list.Valid) (op : TSegmentedListOp α) :
    (list.step op).2.Valid ∧ ((list.step op).1, (list.step op).2.copyOutSegments) = Segments.step list.copyOutSegments op := by
  cases op with
  | addNew item =>
      obtain ⟨after, copy⟩ := valid.addNew item
      exact ⟨after, by rw [TSegmentedList.step, copy]; rfl⟩
  | addNewList itemList =>
      obtain ⟨after, copy⟩ := valid.addNewList itemList
      exact ⟨after, by rw [TSegmentedList.step, copy]; rfl⟩
  | removeOneNewest => exact valid.removeOneNewest
  | emptyOldest => exact valid.emptyOldest
  | removeOldest maxCount => exact valid.removeOldest maxCount
  | emptyAll => exact valid.emptyAll
  | emptyAllAndResetSegments => exact valid.emptyAllAndResetSegments
  | addNewSegment =>
      obtain ⟨after, copy⟩ := valid.addNewSegment
      exact ⟨after, by rw [TSegmentedList.step, copy]; rfl⟩
  | recycleOldestSegment =>
      obtain ⟨after, copy⟩ := valid.recycleOldestSegment
      exact ⟨after, by rw [TSegmentedList.step, copy]; rfl⟩
  | resetSegments =>
      obtain ⟨after, copy⟩ := valid.resetSegments
      exact ⟨after, by rw [TSegmentedList.step, copy]; rfl⟩

theorem run_cons (list : TSegmentedList α) (op : TSegmentedListOp α) (ops : List (TSegmentedListOp α)) :
    list.run (op :: ops) = ((list.step op).1 :: ((list.step op).2.run ops).1, ((list.step op).2.run ops).2) := rfl

/-- A run of calls from a valid list: by induction on the calls, each one a
step. -/
theorem Valid.run (valid : list.Valid) (ops : List (TSegmentedListOp α)) :
    (list.run ops).2.Valid ∧ ((list.run ops).1, (list.run ops).2.copyOutSegments) = Segments.run list.copyOutSegments ops := by
  induction ops generalizing list with
  | nil => exact ⟨valid, rfl⟩
  | cons op ops ih =>
      obtain ⟨stepValid, stepEq⟩ := valid.step op
      obtain ⟨runValid, runEq⟩ := ih stepValid
      rw [run_cons, Segments.run_cons, ← stepEq]
      exact ⟨runValid, by simp only [← runEq]⟩

/-- From the constructor, every run of calls keeps the list valid and
`SanityCheck()` true, and returns and leaves what the abstract run on one
empty segment returns and leaves. -/
theorem run_refines (ops : List (TSegmentedListOp α)) :
    (TSegmentedList.new.run ops).2.Valid ∧ (TSegmentedList.new.run ops).2.sanityCheck = true ∧
      ((TSegmentedList.new.run ops).1, (TSegmentedList.new.run ops).2.copyOutSegments) = Segments.run [[]] ops := by
  obtain ⟨valid, refines⟩ := valid_new.run ops
  exact ⟨valid, valid.sanityCheck, refines⟩

/-- No call loses or duplicates an item: what it returns and what the list
holds after it are what the list held and what the call adds. -/
theorem Valid.step_perm (valid : list.Valid) (op : TSegmentedListOp α) :
    ((list.step op).1 ++ (list.step op).2.copyOutSegments.flatten).Perm (op.added ++ list.copyOutSegments.flatten) := by
  have nonempty : list.copyOutSegments ≠ [] := by simpa [copyOutSegments] using valid.nonempty
  have abstract := Segments.step_perm nonempty op
  rw [← (valid.step op).2] at abstract
  exact abstract

/-- The count of the same: each call's items returned and the total after
it make the total before and the items added. -/
theorem Valid.totalItems_step (valid : list.Valid) (op : TSegmentedListOp α) :
    (list.step op).1.length + (list.step op).2.totalItems = op.added.length + list.totalItems := by
  rw [(valid.step op).1.totalItems_eq_length, valid.totalItems_eq_length, ← List.length_append, ← List.length_append,
    (valid.step_perm op).length_eq]

/-- `RemoveOneNewest()` keeps the list valid and takes at most one item off
its total. -/
theorem Valid.removeOneNewest_eq (valid : list.Valid) {taken : List α} {rest : TSegmentedList α}
    (removed : list.removeOneNewest = (taken, rest)) :
    rest.Valid ∧ taken.length ≤ 1 ∧ taken.length + rest.totalItems = list.totalItems := by
  have stepped : list.step .removeOneNewest = (taken, rest) := removed
  obtain ⟨after, refines⟩ := valid.step .removeOneNewest
  have total := valid.totalItems_step .removeOneNewest
  rw [stepped] at after refines total
  have first : taken = (Segments.removeFirstItem list.copyOutSegments).1 := congrArg Prod.fst refines
  refine ⟨after, ?_, ?_⟩
  · rw [first]
    exact Segments.length_removeFirstItem_le _
  · simpa [TSegmentedListOp.added] using total

theorem Valid.totalItems_addNewList (valid : list.Valid) (itemList : List α) :
    (list.addNewList itemList).totalItems = itemList.length + list.totalItems := by
  simpa [TSegmentedList.step, TSegmentedListOp.added] using valid.totalItems_step (.addNewList itemList)

theorem Valid.totalItems_addNewSegment (valid : list.Valid) : list.addNewSegment.totalItems = list.totalItems := by
  simpa [TSegmentedList.step, TSegmentedListOp.added] using valid.totalItems_step .addNewSegment

theorem Valid.totalItems_resetSegments (valid : list.Valid) : list.resetSegments.totalItems = list.totalItems := by
  simpa [TSegmentedList.step, TSegmentedListOp.added] using valid.totalItems_step .resetSegments

/-- `EmptyAllAndResetSegments()` leaves no item. -/
theorem Valid.totalItems_emptyAllAndResetSegments (valid : list.Valid) :
    list.emptyAllAndResetSegments.2.totalItems = 0 := by
  obtain ⟨after, refines⟩ := valid.step .emptyAllAndResetSegments
  have segments : (list.step .emptyAllAndResetSegments).2.copyOutSegments =
      (Segments.step list.copyOutSegments .emptyAllAndResetSegments).2 := congrArg Prod.snd refines
  show (list.step .emptyAllAndResetSegments).2.totalItems = 0
  rw [after.totalItems_eq_length, segments]
  rfl

/-- Over a run of calls from a valid list, by induction on the calls: the
items returned and those left are the items there were and those added. -/
theorem Valid.run_perm (valid : list.Valid) (ops : List (TSegmentedListOp α)) :
    ((list.run ops).1.flatten ++ (list.run ops).2.copyOutSegments.flatten).Perm
      (ops.flatMap TSegmentedListOp.added ++ list.copyOutSegments.flatten) := by
  induction ops generalizing list with
  | nil => exact List.Perm.refl _
  | cons op ops ih =>
      have rest := ih (valid.step op).1
      have first := valid.step_perm op
      -- the first call's items, then the rest of the run's, moved past each other
      rw [run_cons, List.flatten_cons, List.flatMap_cons, List.append_assoc]
      refine (rest.append_left _).trans ?_
      refine (List.perm_append_comm_assoc _ _ _).trans ?_
      refine (first.append_left _).trans ?_
      rw [List.append_assoc]
      exact List.perm_append_comm_assoc _ _ _

/-- From the constructor, every run of calls hands back or keeps each item
added, once: the items returned and those left are a permutation of the
items added. -/
theorem run_conserves_items (ops : List (TSegmentedListOp α)) :
    ((TSegmentedList.new.run ops).1.flatten ++ (TSegmentedList.new.run ops).2.copyOutSegments.flatten).Perm
      (ops.flatMap TSegmentedListOp.added) := by
  simpa [TSegmentedList.new, copyOutSegments] using valid_new.run_perm ops

end Run

end TSegmentedList

end Dory.Thread
