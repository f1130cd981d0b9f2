/-
Module: Dory.Thread.SegmentedList.Pointers
Purpose: The pointer level of `TSegmentedList`.  A segment is found by its
  address (`segmentAt`) and written through it (`modifySegment`); with the
  addresses of the segments distinct, a write changes what is read at its
  own address only.  `Links list order` says the list's links encode `order`
  (`Foundation.Linked` over `nextOf` and `prevOf`).  The four routines that
  keep the list of nonempty segments each move that encoding by one item at
  one end: the first segment linked in at the front, the front item and the
  last segment unlinked, the last segment linked in at the back.  Writes to
  a segment's items leave the links as they were.
Trusted boundary: none
Main exports: TSegment.data, TSegmentedList.addresses,
  nonemptyAddresses, TSegmentedList.Links, segmentAt_modifySegment,
  nextOf_setNext, prevOf_setPrev, Links.addFirstSegToNonemptySegList,
  Links.removeFrontItemFromNonemptySegList,
  Links.removeLastSegFromNonemptySegList, Links.addLastSegToNonemptySegList
-/
import Dory.Foundation.LinkedIndex
import Dory.Thread.SegmentedList

namespace Dory.Thread

open Dory.Foundation

namespace TSegment

variable {α : Type}

/-- What a segment holds: its address, its items and their count. -/
def data (segment : TSegment α) : Nat × List α × Nat :=
  (segment.address, segment.items, segment.numItems)

end TSegment

/-- The addresses of the nonempty segments, in order: what the links should
encode. -/
def nonemptyAddresses {α : Type} (segments : List (TSegment α)) : List Nat :=
  (segments.filter fun segment => !segment.empty).map (·.address)

namespace TSegmentedList

variable {α : Type}

/-- The addresses of the segments, in order. -/
def addresses (list : TSegmentedList α) : List Nat :=
  list.allSegments.map (·.address)

/-- The list's links encode `order`. -/
def Links (list : TSegmentedList α) (order : List Nat) : Prop :=
  Linked order list.firstNonempty list.lastNonempty list.nextOf list.prevOf

/-! ### Reads and writes through a pointer -/

section Pointer

variable {list : TSegmentedList α}

theorem segmentAt_eq_find? (q : Nat) :
    list.segmentAt q = list.allSegments.find? (·.address == q) := rfl

/-- A write that keeps the segment's address changes what is read at that
address only. -/
theorem segmentAt_modifySegment {change : TSegment α → TSegment α}
    (keeps : ∀ segment, (change segment).address = segment.address) (p q : Nat) :
    (list.modifySegment p change).segmentAt q =
      if q = p then (list.segmentAt p).map change else list.segmentAt q := by
  have test : ((fun segment : TSegment α => segment.address == q) ∘
      fun segment : TSegment α => if segment.address = p then change segment else segment) =
      fun segment => segment.address == q := by
    funext segment
    by_cases at_ : segment.address = p <;> simp [at_, keeps]
  rw [segmentAt, modifySegment, List.find?_map, test]
  by_cases same : q = p
  · subst same
    rw [if_pos rfl]
    refine Option.map_congr fun segment found => ?_
    have := List.find?_some found
    simp_all
  · rw [if_neg same, ← segmentAt_eq_find?]
    cases found : list.segmentAt q with
    | none => rfl
    | some segment =>
        have := List.find?_some found
        have : segment.address ≠ p := by simp at this; omega
        simp [this]

theorem segmentAt_isSome_iff (p : Nat) : (list.segmentAt p).isSome ↔ p ∈ list.addresses := by
  simp [segmentAt, addresses, List.find?_isSome]

/-- A pointer write to a segment: its pointer `p` now holds `value`. -/
theorem nextOf_setNext {p : Nat} (present : p ∈ list.addresses) (value : Option Nat) (q : Nat) :
    (list.setNext p value).nextOf q = if q = p then value else list.nextOf q := by
  rw [nextOf, setNext, @segmentAt_modifySegment α list (fun segment => { segment with nextNonempty := value })
    (fun _ => rfl)]
  by_cases same : q = p
  · obtain ⟨segment, found⟩ := Option.isSome_iff_exists.mp ((segmentAt_isSome_iff p).mpr present)
    simp [same, found]
  · simp [same, nextOf]

theorem prevOf_setPrev {p : Nat} (present : p ∈ list.addresses) (value : Option Nat) (q : Nat) :
    (list.setPrev p value).prevOf q = if q = p then value else list.prevOf q := by
  rw [prevOf, setPrev, @segmentAt_modifySegment α list (fun segment => { segment with prevNonempty := value })
    (fun _ => rfl)]
  by_cases same : q = p
  · obtain ⟨segment, found⟩ := Option.isSome_iff_exists.mp ((segmentAt_isSome_iff p).mpr present)
    simp [same, found]
  · simp [same, prevOf]

/-- A write that keeps a segment's address and its next pointer keeps
every next pointer read. -/
theorem nextOf_modifySegment {change : TSegment α → TSegment α}
    (address : ∀ segment, (change segment).address = segment.address)
    (next : ∀ segment, (change segment).nextNonempty = segment.nextNonempty) (p : Nat) :
    (list.modifySegment p change).nextOf = list.nextOf := by
  funext q
  rw [nextOf, segmentAt_modifySegment address]
  by_cases same : q = p
  · subst same
    cases found : list.segmentAt q <;> simp [found, nextOf, next]
  · simp [same, nextOf]

theorem prevOf_modifySegment {change : TSegment α → TSegment α}
    (address : ∀ segment, (change segment).address = segment.address)
    (prev : ∀ segment, (change segment).prevNonempty = segment.prevNonempty) (p : Nat) :
    (list.modifySegment p change).prevOf = list.prevOf := by
  funext q
  rw [prevOf, segmentAt_modifySegment address]
  by_cases same : q = p
  · subst same
    cases found : list.segmentAt q <;> simp [found, prevOf, prev]
  · simp [same, prevOf]

@[simp] theorem nextOf_setPrev (p : Nat) (value : Option Nat) : (list.setPrev p value).nextOf = list.nextOf :=
  @nextOf_modifySegment α list (fun segment => { segment with prevNonempty := value }) (fun _ => rfl) (fun _ => rfl) p

@[simp] theorem prevOf_setNext (p : Nat) (value : Option Nat) : (list.setNext p value).prevOf = list.prevOf :=
  @prevOf_modifySegment α list (fun segment => { segment with nextNonempty := value }) (fun _ => rfl) (fun _ => rfl) p

/-- A write that keeps a segment's address keeps the addresses. -/
theorem addresses_modifySegment {change : TSegment α → TSegment α}
    (keeps : ∀ segment, (change segment).address = segment.address) (p : Nat) :
    (list.modifySegment p change).addresses = list.addresses := by
  simp only [addresses, modifySegment, List.map_map]
  exact List.map_congr_left fun segment _ => by by_cases at_ : segment.address = p <;> simp [at_, keeps]

/-- A write that keeps a segment's data keeps the data of every segment. -/
theorem map_data_modifySegment {change : TSegment α → TSegment α}
    (keeps : ∀ segment, (change segment).data = segment.data) (p : Nat) :
    (list.modifySegment p change).allSegments.map TSegment.data = list.allSegments.map TSegment.data := by
  simp only [modifySegment, List.map_map]
  exact List.map_congr_left fun segment _ => by by_cases at_ : segment.address = p <;> simp [at_, keeps]

@[simp] theorem addresses_setNext (p : Nat) (value : Option Nat) : (list.setNext p value).addresses = list.addresses :=
  @addresses_modifySegment α list (fun segment => { segment with nextNonempty := value }) (fun _ => rfl) p

@[simp] theorem addresses_setPrev (p : Nat) (value : Option Nat) : (list.setPrev p value).addresses = list.addresses :=
  @addresses_modifySegment α list (fun segment => { segment with prevNonempty := value }) (fun _ => rfl) p

@[simp] theorem map_data_setNext (p : Nat) (value : Option Nat) :
    (list.setNext p value).allSegments.map TSegment.data = list.allSegments.map TSegment.data :=
  @map_data_modifySegment α list (fun segment => { segment with nextNonempty := value }) (fun _ => rfl) p

@[simp] theorem map_data_setPrev (p : Nat) (value : Option Nat) :
    (list.setPrev p value).allSegments.map TSegment.data = list.allSegments.map TSegment.data :=
  @map_data_modifySegment α list (fun segment => { segment with prevNonempty := value }) (fun _ => rfl) p

section Fields

variable (list : TSegmentedList α) (p : Nat) (value : Option Nat)

@[simp] theorem firstNonempty_setNext : (list.setNext p value).firstNonempty = list.firstNonempty := rfl
@[simp] theorem lastNonempty_setNext : (list.setNext p value).lastNonempty = list.lastNonempty := rfl
@[simp] theorem firstNonempty_setPrev : (list.setPrev p value).firstNonempty = list.firstNonempty := rfl
@[simp] theorem lastNonempty_setPrev : (list.setPrev p value).lastNonempty = list.lastNonempty := rfl

/-- Setting the ends leaves the segments, and so every pointer read. -/
@[simp] theorem nextOf_setEnds (first last : Option Nat) :
    ({ list with firstNonempty := first, lastNonempty := last } : TSegmentedList α).nextOf = list.nextOf := rfl
@[simp] theorem prevOf_setEnds (first last : Option Nat) :
    ({ list with firstNonempty := first, lastNonempty := last } : TSegmentedList α).prevOf = list.prevOf := rfl

end Fields

end Pointer

/-! ### The four routines on the list of nonempty segments -/

section Routines

variable {list : TSegmentedList α} {order : List Nat}

theorem mem_addresses_of_head? {segment : TSegment α} (head : list.allSegments.head? = some segment) :
    segment.address ∈ list.addresses :=
  List.mem_map_of_mem (List.mem_of_mem_head? head)

theorem mem_addresses_of_getLast? {segment : TSegment α} (last : list.allSegments.getLast? = some segment) :
    segment.address ∈ list.addresses :=
  List.mem_map_of_mem (List.mem_of_getLast? last)

/-- `AddFirstSegToNonemptySegList()`: the first segment, not yet linked,
becomes the first of the nonempty segments. -/
theorem Links.addFirstSegToNonemptySegList {first : TSegment α} (links : list.Links order)
    (head : list.allSegments.head? = some first) (fresh : first.address ∉ order)
    (present : ∀ q ∈ order, q ∈ list.addresses) (distinct : order.Nodup) :
    list.addFirstSegToNonemptySegList.Links (first.address :: order) := by
  have firstPresent := mem_addresses_of_head? head
  have extended : (first.address :: order).Nodup := List.nodup_cons.mpr ⟨fresh, distinct⟩
  obtain ⟨firstEq, lastEq, nextEq, prevEq⟩ := links
  unfold TSegmentedList.addFirstSegToNonemptySegList
  rw [head]
  cases order with
  | nil =>
      -- the only nonempty segment: it is also the last
      simp only [firstNonempty_setNext, firstEq]
      refine ⟨rfl, rfl, fun q => ?_, fun q => ?_⟩
      · show (list.setNext first.address none).nextOf q = _
        rw [nextOf_setNext firstPresent, nextEq, succOf_cons_apply]
        rfl
      · show (list.setNext first.address none).prevOf q = _
        rw [prevOf_setNext, prevEq, predOf_cons_apply extended]
        simp [predOf]
  | cons old rest =>
      -- the old first nonempty segment now has the first segment before it
      have oldPresent := present old List.mem_cons_self
      simp only [firstNonempty_setNext, firstEq, List.head?_cons]
      refine ⟨rfl, ?_, fun q => ?_, fun q => ?_⟩
      · show list.lastNonempty = _
        rw [lastEq, List.getLast?_cons_cons]
      · show ((list.setNext first.address (some old)).setPrev old (some first.address)).nextOf q = _
        rw [nextOf_setPrev, nextOf_setNext firstPresent, nextEq, succOf_cons_apply first.address]
        rfl
      · show ((list.setNext first.address (some old)).setPrev old (some first.address)).prevOf q = _
        rw [prevOf_setPrev (by simpa using oldPresent), prevOf_setNext, prevEq, predOf_cons_apply extended,
          List.head?_cons]
        by_cases same : q = old
        · simp [same]
        · simp [same, Ne.symm same]

/-- `RemoveFrontItemFromNonemptySegList()`: the first nonempty segment is
unlinked, and the next one becomes the first. -/
theorem Links.removeFrontItemFromNonemptySegList {first : Nat} {rest : List Nat} (links : list.Links (first :: rest))
    (present : ∀ q ∈ first :: rest, q ∈ list.addresses) (distinct : (first :: rest).Nodup) :
    list.removeFrontItemFromNonemptySegList.Links rest := by
  have firstPresent := present first List.mem_cons_self
  have firstFresh : first ∉ rest := (List.nodup_cons.mp distinct).1
  obtain ⟨firstEq, lastEq, nextEq, prevEq⟩ := links
  have next : list.nextOf first = rest.head? := by rw [nextEq, succOf_cons_apply, if_pos rfl]
  unfold TSegmentedList.removeFrontItemFromNonemptySegList
  rw [firstEq, List.head?_cons]
  dsimp only
  rw [next]
  cases rest with
  | nil =>
      -- the only nonempty segment: no segment is linked after it
      refine ⟨rfl, rfl, fun q => ?_, fun q => ?_⟩
      · show (list.setNext first none).nextOf q = _
        rw [nextOf_setNext firstPresent, nextEq, succOf_cons_apply]
        by_cases same : q = first <;> simp [same]
      · show (list.setNext first none).prevOf q = _
        rw [prevOf_setNext, prevEq]
        simp [predOf, succOf]
  | cons second more =>
      -- the second nonempty segment loses its predecessor
      have secondPresent := present second (List.mem_cons_of_mem _ List.mem_cons_self)
      have restDistinct := (List.nodup_cons.mp distinct).2
      refine ⟨rfl, ?_, fun q => ?_, fun q => ?_⟩
      · show list.lastNonempty = _
        rw [lastEq, List.getLast?_cons_cons]
      · show ((list.setNext first none).setPrev second none).nextOf q = _
        rw [nextOf_setPrev, nextOf_setNext firstPresent, nextEq, succOf_cons_apply]
        by_cases same : q = first
        · rw [if_pos same, same, succOf_of_not_mem firstFresh]
        · rw [if_neg same, if_neg same]
      · show ((list.setNext first none).setPrev second none).prevOf q = _
        rw [prevOf_setPrev (by simpa using secondPresent), prevOf_setNext, prevEq, predOf_cons_apply distinct,
          List.head?_cons]
        by_cases same : q = second
        · rw [if_pos same, same, predOf_cons_self restDistinct]
        · rw [if_neg same, if_neg (by simpa using Ne.symm same)]

/-- `RemoveLastSegFromNonemptySegList()`: the last nonempty segment is
unlinked, and the one before it becomes the last. -/
theorem Links.removeLastSegFromNonemptySegList {last : Nat} (links : list.Links (order ++ [last]))
    (present : ∀ q ∈ order ++ [last], q ∈ list.addresses) (distinct : (order ++ [last]).Nodup) :
    list.removeLastSegFromNonemptySegList.Links order := by
  have lastPresent := present last (List.mem_append_right _ List.mem_cons_self)
  have lastFresh : last ∉ order := fun member =>
    (List.nodup_append.mp distinct).2.2 last member last List.mem_cons_self rfl
  obtain ⟨firstEq, lastEq, nextEq, prevEq⟩ := links
  have prev : list.prevOf last = order.getLast? := by
    rw [prevEq, predOf_append_singleton_apply, if_pos rfl]
  unfold TSegmentedList.removeLastSegFromNonemptySegList
  rw [lastEq, List.getLast?_append_of_ne_nil _ (List.cons_ne_nil _ _), List.getLast?_singleton]
  dsimp only
  rw [prev]
  rcases List.eq_nil_or_concat' order with empty | ⟨before, previous, rfl⟩
  · -- the only nonempty segment
    subst empty
    refine ⟨rfl, rfl, fun q => ?_, fun q => ?_⟩
    · show (list.setPrev last none).nextOf q = _
      rw [nextOf_setPrev, nextEq]
      simp [succOf]
    · show (list.setPrev last none).prevOf q = _
      rw [prevOf_setPrev lastPresent, prevEq]
      by_cases same : q = last
      · simp [same, predOf]
      · simp [same, predOf, succOf, Ne.symm same]
  · -- the segment before it loses its successor
    have previousPresent := present previous (by simp)
    have shorter : (before ++ [previous]).Nodup := (List.nodup_append.mp distinct).1
    rw [List.getLast?_append_of_ne_nil _ (List.cons_ne_nil _ _), List.getLast?_singleton]
    dsimp only
    refine ⟨?_, by simp, fun q => ?_, fun q => ?_⟩
    · show list.firstNonempty = _
      rw [firstEq]
      cases before <;> simp
    · show ((list.setPrev last none).setNext previous none).nextOf q = _
      rw [nextOf_setNext (by simpa using previousPresent), nextOf_setPrev, nextEq,
        succOf_append_singleton_apply distinct, List.getLast?_append_of_ne_nil _ (List.cons_ne_nil _ _),
        List.getLast?_singleton]
      by_cases same : q = previous
      · rw [if_pos same, same, succOf_append_singleton_self shorter]
      · rw [if_neg same, if_neg (by simpa using Ne.symm same)]
    · show ((list.setPrev last none).setNext previous none).prevOf q = _
      rw [prevOf_setNext, prevOf_setPrev lastPresent, prevEq, predOf_append_singleton_apply]
      by_cases same : q = last
      · rw [if_pos same, same, predOf_of_not_mem lastFresh]
      · rw [if_neg same, if_neg same]

/-- `AddLastSegToNonemptySegList()`: the last segment, not yet linked,
becomes the last of the nonempty segments. -/
theorem Links.addLastSegToNonemptySegList {last : TSegment α} (links : list.Links order)
    (lastSeg : list.allSegments.getLast? = some last) (fresh : last.address ∉ order)
    (present : ∀ q ∈ order, q ∈ list.addresses) (distinct : order.Nodup) :
    list.addLastSegToNonemptySegList.Links (order ++ [last.address]) := by
  have lastPresent := mem_addresses_of_getLast? lastSeg
  have extended : (order ++ [last.address]).Nodup :=
    distinct.append (List.nodup_singleton _) (List.disjoint_singleton.mpr fresh)
  obtain ⟨firstEq, lastEq, nextEq, prevEq⟩ := links
  unfold TSegmentedList.addLastSegToNonemptySegList
  rw [lastSeg]
  dsimp only
  rcases List.eq_nil_or_concat' order with empty | ⟨before, previous, rfl⟩
  · -- the only nonempty segment: it is also the first
    subst empty
    simp only [lastNonempty_setPrev, lastEq, List.getLast?_nil]
    refine ⟨rfl, rfl, fun q => ?_, fun q => ?_⟩
    · show (list.setPrev last.address none).nextOf q = _
      rw [nextOf_setPrev, nextEq]
      simp [succOf]
    · show (list.setPrev last.address none).prevOf q = _
      rw [prevOf_setPrev lastPresent, prevEq]
      by_cases same : q = last.address <;> simp [same, predOf, succOf]
  · -- the old last nonempty segment now has the last segment after it
    have previousPresent := present previous (by simp)
    simp only [lastNonempty_setPrev, lastEq, List.getLast?_append_of_ne_nil _ (List.cons_ne_nil _ _),
      List.getLast?_singleton]
    refine ⟨?_, ?_, fun q => ?_, fun q => ?_⟩
    · show list.firstNonempty = _
      rw [firstEq]
      cases before <;> simp
    · show some last.address = _
      simp
    · show ((list.setPrev last.address (some previous)).setNext previous (some last.address)).nextOf q = _
      rw [nextOf_setNext (by simpa using previousPresent), nextOf_setPrev, nextEq,
        succOf_append_singleton_apply extended, List.getLast?_append_of_ne_nil _ (List.cons_ne_nil _ _),
        List.getLast?_singleton]
      by_cases same : q = previous
      · rw [if_pos same, if_pos (by rw [same])]
      · rw [if_neg same, if_neg (by simpa using Ne.symm same)]
    · show ((list.setPrev last.address (some previous)).setNext previous (some last.address)).prevOf q = _
      rw [prevOf_setNext, prevOf_setPrev lastPresent, prevEq, predOf_append_singleton_apply (before ++ [previous])]
      simp

end Routines

end TSegmentedList

end Dory.Thread
