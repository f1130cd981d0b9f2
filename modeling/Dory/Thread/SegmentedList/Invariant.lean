/-
Module: Dory.Thread.SegmentedList.Invariant
Purpose: The representation invariant of `TSegmentedList`, in two halves.
  `Sound` is what the data must satisfy: at least one segment, distinct
  addresses below the next one to be made, and exact counts (`NumSegments`,
  each segment's `NumItems`, `TotalItems`).  `Valid` adds that the links
  list exactly the nonempty segments in order.  A call changes either the
  data of the segments and leaves their links (`SameLinks`), or the links and
  leaves the data (`SameData`); each half of the invariant moves across the
  change it does not see.  `modifySegment_eq` finds where a write lands in
  a list with distinct addresses.
Trusted boundary: none
Main exports: TSegment.links, TSegmentedList.Sound, TSegmentedList.Valid,
  SameData, SameLinks, Sound.of_sameData, Links.of_sameLinks,
  nonemptyAddresses_eq_of_data, modifySegment_eq
-/
import Dory.Thread.SegmentedList.Pointers
import Dory.Thread.SegmentedList.Spec

namespace Dory.Thread

open Dory.Foundation

namespace TSegment

variable {α : Type}

/-- What a segment's links are: its address and its two pointers. -/
def links (segment : TSegment α) : Nat × Option Nat × Option Nat :=
  (segment.address, segment.prevNonempty, segment.nextNonempty)

/-- Clearing a segment moves its items and keeps its links. -/
theorem links_cleared (segment : TSegment α) : segment.cleared.links = segment.links := rfl

/-- Appending a segment's items to another keeps the other's links. -/
theorem links_appendAllTo (segment dst : TSegment α) : (segment.appendAllTo dst).links = dst.links := rfl

theorem address_appendAllTo (segment dst : TSegment α) : (segment.appendAllTo dst).address = dst.address := rfl

theorem address_cleared (segment : TSegment α) : segment.cleared.address = segment.address := rfl

/-- What is left of a cleared segment is read off its data. -/
theorem data_cleared_of_data {segment other : TSegment α} (same : segment.data = other.data) :
    segment.cleared.data = other.cleared.data := by
  have address : segment.address = other.address := congrArg Prod.fst same
  simp [data, cleared, address]

/-- `TakeUpToLastN(n)` of a sound segment: its last `n` items, or all of
them. -/
theorem takeUpToLastN_eq {segment : TSegment α} (count : segment.numItems = segment.items.length) (n : Nat) :
    segment.takeUpToLastN n = (segment.items.drop (segment.items.length - n),
      { segment with items := segment.items.take (segment.items.length - n), numItems := segment.numItems - n }) := by
  unfold takeUpToLastN
  split
  · rename_i all
    have none : segment.items.length - n = 0 := by omega
    simp [takeAll, none]
    omega
  · rfl

end TSegment

/-! ### The nonempty segments -/

section Nonempty

variable {α : Type} {segment : TSegment α} {segments : List (TSegment α)}

@[simp] theorem nonemptyAddresses_nil : nonemptyAddresses ([] : List (TSegment α)) = [] := rfl

theorem nonemptyAddresses_cons_of_empty (empty : segment.empty = true) (segments : List (TSegment α)) :
    nonemptyAddresses (segment :: segments) = nonemptyAddresses segments := by
  simp [nonemptyAddresses, empty]

theorem nonemptyAddresses_cons_of_not_empty (full : segment.empty = false) (segments : List (TSegment α)) :
    nonemptyAddresses (segment :: segments) = segment.address :: nonemptyAddresses segments := by
  simp [nonemptyAddresses, full]

@[simp] theorem nonemptyAddresses_append (before after : List (TSegment α)) :
    nonemptyAddresses (before ++ after) = nonemptyAddresses before ++ nonemptyAddresses after := by
  simp [nonemptyAddresses]

/-- The nonempty segments' addresses are read off their data. -/
theorem nonemptyAddresses_eq_map_data (segments : List (TSegment α)) :
    nonemptyAddresses segments =
      ((segments.map TSegment.data).filter fun data => data.2.2 != 0).map Prod.fst := by
  simp only [nonemptyAddresses, List.filter_map, List.map_map]
  congr 1

theorem nonemptyAddresses_eq_of_data {other : List (TSegment α)}
    (same : other.map TSegment.data = segments.map TSegment.data) :
    nonemptyAddresses other = nonemptyAddresses segments := by
  rw [nonemptyAddresses_eq_map_data, same, ← nonemptyAddresses_eq_map_data]

theorem nonemptyAddresses_sublist (segments : List (TSegment α)) :
    (nonemptyAddresses segments).Sublist (segments.map (·.address)) :=
  (List.filter_sublist).map _

/-- A list of empty segments has no nonempty address. -/
theorem nonemptyAddresses_eq_nil {segments : List (TSegment α)} (allEmpty : ∀ segment ∈ segments, segment.empty = true) :
    nonemptyAddresses segments = [] := by
  simp only [nonemptyAddresses, List.map_eq_nil_iff, List.filter_eq_nil_iff]
  intro segment member
  simp [allEmpty segment member]

theorem empty_of_nonemptyAddresses_eq_nil {segments : List (TSegment α)} (none : nonemptyAddresses segments = [])
    {segment : TSegment α} (member : segment ∈ segments) : segment.empty = true := by
  simp only [nonemptyAddresses, List.map_eq_nil_iff, List.filter_eq_nil_iff] at none
  simpa using none segment member

/-- The first nonempty segment: the segments before it are empty, and the
nonempty ones after it are the rest. -/
theorem exists_split_of_nonemptyAddresses_eq_cons {first : Nat} {rest : List Nat}
    (order : nonemptyAddresses segments = first :: rest) :
    ∃ empties segment after, segments = empties ++ segment :: after ∧
      (∀ other ∈ empties, other.empty = true) ∧ segment.empty = false ∧ segment.address = first ∧
      nonemptyAddresses after = rest := by
  obtain ⟨segment, kept, filtered, address, restEq⟩ := List.map_eq_cons_iff.mp order
  obtain ⟨empties, after, split, emptiesEmpty, full, afterKept⟩ := List.filter_eq_cons_iff.mp filtered
  refine ⟨empties, segment, after, split, fun other member => ?_, by simpa using full, address, ?_⟩
  · simpa using emptiesEmpty other member
  · rw [nonemptyAddresses, afterKept, restEq]

end Nonempty

namespace TSegmentedList

variable {α : Type}

/-! ### The invariant -/

/-- The invariant of the segments' data. -/
structure Sound (list : TSegmentedList α) : Prop where
  nonempty : list.allSegments ≠ []
  addresses_nodup : list.addresses.Nodup
  address_lt : ∀ segment ∈ list.allSegments, segment.address < list.nextAddress
  numSegments_eq : list.numSegments = list.allSegments.length
  numItems_eq : ∀ segment ∈ list.allSegments, segment.numItems = segment.items.length
  totalItems_eq : list.totalItems = (list.allSegments.map (·.numItems)).sum

/-- The representation invariant: sound data, and links that list exactly
the nonempty segments, in order. -/
structure Valid (list : TSegmentedList α) : Prop extends list.Sound where
  links : list.Links (nonemptyAddresses list.allSegments)

section Sound

variable {list : TSegmentedList α}

theorem Sound.nonemptyAddresses_nodup (sound : list.Sound) : (nonemptyAddresses list.allSegments).Nodup :=
  (nonemptyAddresses_sublist _).nodup sound.addresses_nodup

theorem mem_addresses_of_nonempty {q : Nat} (member : q ∈ nonemptyAddresses list.allSegments) :
    q ∈ list.addresses :=
  (nonemptyAddresses_sublist _).subset member

/-- A segment is empty exactly when it holds no item. -/
theorem Sound.empty_iff (sound : list.Sound) {segment : TSegment α} (member : segment ∈ list.allSegments) :
    segment.empty = true ↔ segment.items = [] := by
  simp [TSegment.empty, sound.numItems_eq segment member]

/-- With distinct addresses, the segment found at an address is the one of
the list with that address. -/
theorem segmentAt_eq_some_iff_of_nodup (distinct : list.addresses.Nodup) {q : Nat} {segment : TSegment α} :
    list.segmentAt q = some segment ↔ segment ∈ list.allSegments ∧ segment.address = q := by
  constructor
  · intro found
    exact ⟨List.mem_of_find?_eq_some found, by simpa using List.find?_some found⟩
  · rintro ⟨member, rfl⟩
    obtain ⟨found, foundEq⟩ := Option.isSome_iff_exists.mp
      ((segmentAt_isSome_iff _).mpr (List.mem_map_of_mem (f := (·.address)) member))
    have ⟨foundMember, foundAddress⟩ : found ∈ list.allSegments ∧ found.address = segment.address :=
      ⟨List.mem_of_find?_eq_some foundEq, by simpa using List.find?_some foundEq⟩
    rw [foundEq, List.inj_on_of_nodup_map distinct foundMember member foundAddress]

/-- The total counts the items of all segments. -/
theorem Sound.totalItems_eq_length (sound : list.Sound) : list.totalItems = list.copyOutSegments.flatten.length := by
  rw [sound.totalItems_eq, copyOutSegments, List.length_flatten, List.map_map]
  exact congrArg List.sum (List.map_congr_left fun segment member => sound.numItems_eq segment member)

theorem Sound.segmentAt_eq_some_iff (sound : list.Sound) {q : Nat} {segment : TSegment α} :
    list.segmentAt q = some segment ↔ segment ∈ list.allSegments ∧ segment.address = q :=
  segmentAt_eq_some_iff_of_nodup sound.addresses_nodup

end Sound

/-! ### Calls that change the data or the links only -/

/-- The segments hold the same data, and the counters are the same. -/
structure SameData (after before : TSegmentedList α) : Prop where
  data : after.allSegments.map TSegment.data = before.allSegments.map TSegment.data
  numSegments : after.numSegments = before.numSegments
  totalItems : after.totalItems = before.totalItems
  nextAddress : after.nextAddress = before.nextAddress

/-- The segments have the same links, and so do the ends. -/
structure SameLinks (after before : TSegmentedList α) : Prop where
  links : after.allSegments.map TSegment.links = before.allSegments.map TSegment.links
  firstNonempty : after.firstNonempty = before.firstNonempty
  lastNonempty : after.lastNonempty = before.lastNonempty

section Same

variable {list after before : TSegmentedList α}

theorem SameData.refl (list : TSegmentedList α) : SameData list list := ⟨rfl, rfl, rfl, rfl⟩

theorem SameData.trans {middle : TSegmentedList α} (second : SameData after middle) (first : SameData middle before) :
    SameData after before :=
  ⟨second.data.trans first.data, second.numSegments.trans first.numSegments,
    second.totalItems.trans first.totalItems, second.nextAddress.trans first.nextAddress⟩

theorem sameData_setNext (list : TSegmentedList α) (p : Nat) (value : Option Nat) :
    SameData (list.setNext p value) list :=
  ⟨map_data_setNext p value, rfl, rfl, rfl⟩

theorem sameData_setPrev (list : TSegmentedList α) (p : Nat) (value : Option Nat) :
    SameData (list.setPrev p value) list :=
  ⟨map_data_setPrev p value, rfl, rfl, rfl⟩

theorem sameData_setEnds (list : TSegmentedList α) (first last : Option Nat) :
    SameData { list with firstNonempty := first, lastNonempty := last } list :=
  ⟨rfl, rfl, rfl, rfl⟩

theorem SameData.addresses (same : SameData after before) : after.addresses = before.addresses := by
  have := congrArg (List.map Prod.fst) same.data
  simpa [TSegmentedList.addresses, List.map_map, Function.comp_def, TSegment.data] using this

theorem SameData.nonemptyAddresses (same : SameData after before) :
    nonemptyAddresses after.allSegments = nonemptyAddresses before.allSegments :=
  nonemptyAddresses_eq_of_data same.data

theorem SameData.copyOutSegments (same : SameData after before) : after.copyOutSegments = before.copyOutSegments := by
  have := congrArg (List.map fun data => data.2.1) same.data
  simpa [TSegmentedList.copyOutSegments, List.map_map, Function.comp_def, TSegment.data] using this

/-- A segment of the list after has one of the same data before. -/
theorem SameData.exists_mem (same : SameData after before) {segment : TSegment α} (member : segment ∈ after.allSegments) :
    ∃ other ∈ before.allSegments, other.data = segment.data := by
  have := List.mem_map_of_mem (f := TSegment.data) member
  rw [same.data] at this
  simpa using this

/-- The invariant of the data moves across a call that keeps the data. -/
theorem Sound.of_sameData (sound : before.Sound) (same : SameData after before) : after.Sound := by
  have sameLength : after.allSegments.length = before.allSegments.length := by
    simpa using congrArg List.length same.data
  refine ⟨?_, same.addresses ▸ sound.addresses_nodup, fun segment member => ?_, ?_, fun segment member => ?_, ?_⟩
  · intro empty
    exact sound.nonempty (List.eq_nil_of_length_eq_zero (by simp [← sameLength, empty]))
  · obtain ⟨other, otherMember, otherData⟩ := same.exists_mem member
    have address := congrArg Prod.fst otherData
    simp only [TSegment.data] at address
    rw [← address, same.nextAddress]
    exact sound.address_lt other otherMember
  · rw [same.numSegments, sameLength, sound.numSegments_eq]
  · obtain ⟨other, otherMember, otherData⟩ := same.exists_mem member
    simp only [TSegment.data, Prod.mk.injEq] at otherData
    rw [← otherData.2.2, ← otherData.2.1]
    exact sound.numItems_eq other otherMember
  · have := congrArg (List.map fun data => data.2.2) same.data
    simp only [List.map_map] at this
    rw [same.totalItems, sound.totalItems_eq]
    exact congrArg List.sum this.symm

/-- The pointer reads are read off the segments' links. -/
theorem nextOf_eq_of_links (same : after.allSegments.map TSegment.links = before.allSegments.map TSegment.links) :
    after.nextOf = before.nextOf := by
  funext q
  have found := congrArg (fun links => (links.find? fun link => link.1 == q).bind (·.2.2)) same
  simpa [List.find?_map, Function.comp_def, TSegment.links, nextOf, segmentAt, Option.bind_map] using found

theorem prevOf_eq_of_links (same : after.allSegments.map TSegment.links = before.allSegments.map TSegment.links) :
    after.prevOf = before.prevOf := by
  funext q
  have found := congrArg (fun links => (links.find? fun link => link.1 == q).bind (·.2.1)) same
  simpa [List.find?_map, Function.comp_def, TSegment.links, prevOf, segmentAt, Option.bind_map] using found

/-- The links move across a call that keeps them. -/
theorem Links.of_sameLinks {order : List Nat} (links : before.Links order) (same : SameLinks after before) :
    after.Links order := by
  obtain ⟨firstEq, lastEq, nextEq, prevEq⟩ := links
  exact ⟨same.firstNonempty.trans firstEq, same.lastNonempty.trans lastEq,
    fun q => (congrFun (nextOf_eq_of_links same.links) q).trans (nextEq q),
    fun q => (congrFun (prevOf_eq_of_links same.links) q).trans (prevEq q)⟩

/-- The invariant holds of a list whose data are those of a sound list and
whose links are those of a list linked along the sound list's nonempty
segments. -/
theorem Valid.of_same {data links : TSegmentedList α} (sound : data.Sound)
    (linked : links.Links (nonemptyAddresses data.allSegments)) (sameData : SameData after data)
    (sameLinks : SameLinks after links) : after.Valid := by
  refine ⟨sound.of_sameData sameData, ?_⟩
  rw [sameData.nonemptyAddresses]
  exact linked.of_sameLinks sameLinks

/-- A write that keeps a segment's links keeps the links of every
segment. -/
theorem map_links_modifySegment {change : TSegment α → TSegment α}
    (keeps : ∀ segment, (change segment).links = segment.links) (p : Nat) :
    (list.modifySegment p change).allSegments.map TSegment.links = list.allSegments.map TSegment.links := by
  simp only [modifySegment, List.map_map]
  exact List.map_congr_left fun segment _ => by by_cases at_ : segment.address = p <;> simp [at_, keeps]

/-- A write whose result's data depend only on the segment's data keeps
two lists of the same data alike. -/
theorem SameData.modifySegment (same : SameData after before) {change : TSegment α → TSegment α}
    (respects : ∀ segment other : TSegment α, segment.data = other.data → (change segment).data = (change other).data)
    (p : Nat) : SameData (after.modifySegment p change) (before.modifySegment p change) := by
  refine ⟨?_, same.numSegments, same.totalItems, same.nextAddress⟩
  simp only [TSegmentedList.modifySegment, List.map_map]
  have data := same.data
  generalize after.allSegments = segments at data
  generalize before.allSegments = others at data
  -- the two lists are walked together, segment by segment
  induction segments generalizing others with
  | nil => cases others <;> simp_all
  | cons segment rest ih =>
      cases others with
      | nil => simp at data
      | cons other more =>
          simp only [List.map_cons, List.cons.injEq] at data ⊢
          have address : segment.address = other.address := congrArg Prod.fst data.1
          refine ⟨?_, ih more data.2⟩
          by_cases at_ : segment.address = p
          · simp [at_, ← address, respects segment other data.1]
          · simp [at_, ← address, data.1]

/-! The four routines on the list of nonempty segments touch links only. -/

theorem sameData_addFirstSegToNonemptySegList (list : TSegmentedList α) :
    SameData list.addFirstSegToNonemptySegList list := by
  unfold addFirstSegToNonemptySegList
  split
  · exact .refl _
  · dsimp only
    split
    · exact (sameData_setEnds _ _ _).trans ((sameData_setPrev _ _ _).trans (sameData_setNext _ _ _))
    · exact (sameData_setEnds _ _ _).trans ((sameData_setEnds _ _ _).trans (sameData_setNext _ _ _))

theorem sameData_removeFrontItemFromNonemptySegList (list : TSegmentedList α) :
    SameData list.removeFrontItemFromNonemptySegList list := by
  unfold removeFrontItemFromNonemptySegList
  split
  · exact .refl _
  · dsimp only
    split
    · exact (sameData_setPrev _ _ _).trans ((sameData_setEnds _ _ _).trans (sameData_setNext _ _ _))
    · exact (sameData_setEnds _ _ _).trans ((sameData_setEnds _ _ _).trans (sameData_setNext _ _ _))

theorem sameData_removeLastSegFromNonemptySegList (list : TSegmentedList α) :
    SameData list.removeLastSegFromNonemptySegList list := by
  unfold removeLastSegFromNonemptySegList
  split
  · exact .refl _
  · dsimp only
    split
    · exact (sameData_setNext _ _ _).trans ((sameData_setEnds _ _ _).trans (sameData_setPrev _ _ _))
    · exact (sameData_setEnds _ _ _).trans ((sameData_setEnds _ _ _).trans (sameData_setPrev _ _ _))

theorem sameData_addLastSegToNonemptySegList (list : TSegmentedList α) :
    SameData list.addLastSegToNonemptySegList list := by
  unfold addLastSegToNonemptySegList
  split
  · exact .refl _
  · dsimp only
    split
    · exact (sameData_setEnds _ _ _).trans ((sameData_setNext _ _ _).trans (sameData_setPrev _ _ _))
    · exact (sameData_setEnds _ _ _).trans ((sameData_setEnds _ _ _).trans (sameData_setPrev _ _ _))

end Same

/-! ### Where a write lands -/

section Write

variable {list : TSegmentedList α}

/-- With distinct addresses, a write through a segment's address changes
that segment and no other. -/
theorem modifySegment_eq {before after : List (TSegment α)} {segment : TSegment α}
    (split : list.allSegments = before ++ segment :: after) (distinct : list.addresses.Nodup)
    (change : TSegment α → TSegment α) :
    (list.modifySegment segment.address change).allSegments = before ++ change segment :: after := by
  rw [addresses, split, List.map_append, List.map_cons, List.nodup_append] at distinct
  have notBefore : ∀ other ∈ before, other.address ≠ segment.address := fun other member same =>
    distinct.2.2 _ (List.mem_map_of_mem member) _ List.mem_cons_self same
  have notAfter : ∀ other ∈ after, other.address ≠ segment.address := fun other member same =>
    (List.nodup_cons.mp distinct.2.1).1 (same ▸ List.mem_map_of_mem member)
  simp only [modifySegment, split, List.map_append, List.map_cons]
  congr 1
  · exact (List.map_congr_left (g := id) fun other member => if_neg (notBefore other member)).trans (List.map_id _)
  · congr 1
    exact (List.map_congr_left (g := id) fun other member => if_neg (notAfter other member)).trans (List.map_id _)

end Write

/-! ### Reordering the segments -/

section Perm

variable {after before : TSegmentedList α}

/-- With distinct addresses, what is read through a pointer does not
depend on the order of the segments. -/
theorem segmentAt_eq_of_perm (perm : after.allSegments.Perm before.allSegments) (distinct : before.addresses.Nodup) :
    after.segmentAt = before.segmentAt := by
  have distinctAfter : after.addresses.Nodup := (perm.map _).nodup_iff.mpr distinct
  funext q
  apply Option.ext
  intro segment
  rw [segmentAt_eq_some_iff_of_nodup distinctAfter, segmentAt_eq_some_iff_of_nodup distinct, perm.mem_iff]

/-- The invariant of the data does not depend on the order of the
segments. -/
theorem Sound.of_perm (sound : before.Sound) (perm : after.allSegments.Perm before.allSegments)
    (numSegments : after.numSegments = before.numSegments) (totalItems : after.totalItems = before.totalItems)
    (nextAddress : after.nextAddress = before.nextAddress) : after.Sound := by
  refine ⟨fun empty => sound.nonempty (List.Perm.nil_eq (empty ▸ perm)).symm, (perm.map _).nodup_iff.mpr sound.addresses_nodup,
    fun segment member => ?_, ?_, fun segment member => sound.numItems_eq segment (perm.mem_iff.mp member), ?_⟩
  · rw [nextAddress]
    exact sound.address_lt segment (perm.mem_iff.mp member)
  · rw [numSegments, sound.numSegments_eq, perm.length_eq]
  · rw [totalItems, sound.totalItems_eq]
    exact ((perm.map _).sum_eq).symm

/-- Nor do the links, read through pointers. -/
theorem Links.of_perm {order : List Nat} (links : before.Links order) (perm : after.allSegments.Perm before.allSegments)
    (distinct : before.addresses.Nodup) (firstNonempty : after.firstNonempty = before.firstNonempty)
    (lastNonempty : after.lastNonempty = before.lastNonempty) : after.Links order := by
  have found := segmentAt_eq_of_perm perm distinct
  obtain ⟨firstEq, lastEq, nextEq, prevEq⟩ := links
  refine ⟨firstNonempty.trans firstEq, lastNonempty.trans lastEq, fun q => ?_, fun q => ?_⟩
  · rw [← nextEq, nextOf, nextOf, found]
  · rw [← prevEq, prevOf, prevOf, found]

end Perm

end TSegmentedList

end Dory.Thread
