/-
Module: Dory.Thread.SegmentedList
Purpose: `Thread::TSegmentedList` (thread/segmented_list.h), the idle list
  of the managed thread pool: a `std::list` of segments, each an ordered list
  of items, with an intrusive doubly linked list of the nonempty segments
  (`FirstNonempty`, `LastNonempty` and each segment's `PrevNonempty` and
  `NextNonempty`).  A segment has an address; a pointer is an address, read
  with `segmentAt` and written with `modifySegment`.  Every operation and the
  four routines that keep the nonempty list are modelled as the source runs
  them, with `CopyOutSegments()` and `SanityCheck()`.  The two loops that
  follow the `NextNonempty` links, and the one in `SanityCheck()`, carry a
  bound of one turn per segment, which a list whose links are right never
  reaches.  Release builds define `NDEBUG`, so the list's asserts are not
  checked.
Trusted boundary: none
Main exports: TSegment, TSegmentedList, TSegmentedList.new, the operations,
  copyOutSegments, sanityCheck, TSegmentedListOp, TSegmentedList.step
-/
import Mathlib

namespace Dory.Thread

/-- `TSegmentedList::TSegment`, with its address. -/
structure TSegment (α : Type) where
  address : Nat
  prevNonempty : Option Nat := none
  nextNonempty : Option Nat := none
  items : List α := []
  numItems : Nat := 0
deriving DecidableEq, Repr

namespace TSegment

variable {α : Type}

/-- `Empty()`: by the item count. -/
def empty (segment : TSegment α) : Bool :=
  segment.numItems == 0

/-- `AddToFront(item)`. -/
def addToFront (item : α) (segment : TSegment α) : TSegment α :=
  { segment with items := item :: segment.items, numItems := segment.numItems + 1 }

/-- `AddToFront(item_list)`: the list spliced in at the front. -/
def addListToFront (itemList : List α) (segment : TSegment α) : TSegment α :=
  { segment with items := itemList ++ segment.items, numItems := segment.numItems + itemList.length }

/-- `TakeFront(dst)`: the front item, and the segment without it. -/
def takeFront (segment : TSegment α) : List α × TSegment α :=
  (segment.items.take 1, { segment with items := segment.items.drop 1, numItems := segment.numItems - 1 })

/-- `TakeAll()`. -/
def takeAll (segment : TSegment α) : List α × TSegment α :=
  (segment.items, { segment with items := [], numItems := 0 })

/-- `TakeUpToLastN(n)`: all items when there are at most `n`, else the last
`n`. -/
def takeUpToLastN (n : Nat) (segment : TSegment α) : List α × TSegment α :=
  if n ≥ segment.numItems then segment.takeAll
  else
    (segment.items.drop (segment.items.length - n),
      { segment with items := segment.items.take (segment.items.length - n), numItems := segment.numItems - n })

/-- `AppendAllTo(dst)`: `dst` with this segment's items at its end. -/
def appendAllTo (segment dst : TSegment α) : TSegment α :=
  { dst with items := dst.items ++ segment.items, numItems := dst.numItems + segment.numItems }

/-- The segment after `AppendAllTo` has moved its items away. -/
def cleared (segment : TSegment α) : TSegment α :=
  { segment with items := [], numItems := 0 }

/-- `TSegment::SanityCheck()`. -/
def sanityCheck (segment : TSegment α) : Bool :=
  segment.items.length == segment.numItems

end TSegment

/-- `TSegmentedList`.  `nextAddress` is where the next segment is made. -/
structure TSegmentedList (α : Type) where
  allSegments : List (TSegment α)
  numSegments : Nat
  totalItems : Nat
  firstNonempty : Option Nat
  lastNonempty : Option Nat
  nextAddress : Nat
deriving Repr

namespace TSegmentedList

variable {α : Type}

/-- The constructor: one empty segment. -/
def new : TSegmentedList α :=
  { allSegments := [{ address := 0 }], numSegments := 1, totalItems := 0, firstNonempty := none,
    lastNonempty := none, nextAddress := 1 }

/-! ### Pointers -/

/-- `*p`: the segment at an address. -/
def segmentAt (list : TSegmentedList α) (p : Nat) : Option (TSegment α) :=
  list.allSegments.find? (·.address == p)

/-- A write through a pointer. -/
def modifySegment (list : TSegmentedList α) (p : Nat) (change : TSegment α → TSegment α) : TSegmentedList α :=
  { list with allSegments := list.allSegments.map fun segment => if segment.address = p then change segment else segment }

/-- `p->PrevNonempty = value`. -/
def setPrev (list : TSegmentedList α) (p : Nat) (value : Option Nat) : TSegmentedList α :=
  list.modifySegment p fun segment => { segment with prevNonempty := value }

/-- `p->NextNonempty = value`. -/
def setNext (list : TSegmentedList α) (p : Nat) (value : Option Nat) : TSegmentedList α :=
  list.modifySegment p fun segment => { segment with nextNonempty := value }

/-- `p->NextNonempty`, none for a null pointer. -/
def nextOf (list : TSegmentedList α) (p : Nat) : Option Nat :=
  (list.segmentAt p).bind (·.nextNonempty)

/-- `p->PrevNonempty`, none for a null pointer. -/
def prevOf (list : TSegmentedList α) (p : Nat) : Option Nat :=
  (list.segmentAt p).bind (·.prevNonempty)

/-! ### Keeping the list of nonempty segments -/

/-- `AddFirstSegToNonemptySegList()`: the first segment just became
nonempty. -/
def addFirstSegToNonemptySegList (list : TSegmentedList α) : TSegmentedList α :=
  match list.allSegments.head? with
  | none => list
  | some firstSeg =>
      let list := list.setNext firstSeg.address list.firstNonempty
      let list :=
        match list.firstNonempty with
        | some first => list.setPrev first (some firstSeg.address)
        | none => { list with lastNonempty := some firstSeg.address }
      { list with firstNonempty := some firstSeg.address }

/-- `RemoveFrontItemFromNonemptySegList()`: the first nonempty segment just
became empty. -/
def removeFrontItemFromNonemptySegList (list : TSegmentedList α) : TSegmentedList α :=
  match list.firstNonempty with
  | none => list
  | some first =>
      let next := list.nextOf first
      let list := { list.setNext first none with firstNonempty := next }
      match next with
      | some n => list.setPrev n none
      | none => { list with lastNonempty := none }

/-- `RemoveLastSegFromNonemptySegList()`: the last segment just became
empty. -/
def removeLastSegFromNonemptySegList (list : TSegmentedList α) : TSegmentedList α :=
  match list.lastNonempty with
  | none => list
  | some last =>
      let prev := list.prevOf last
      let list := { list.setPrev last none with lastNonempty := prev }
      match prev with
      | some p => list.setNext p none
      | none => { list with firstNonempty := none }

/-- `AddLastSegToNonemptySegList()`: the last segment just became
nonempty. -/
def addLastSegToNonemptySegList (list : TSegmentedList α) : TSegmentedList α :=
  match list.allSegments.getLast? with
  | none => list
  | some lastSeg =>
      let list := list.setPrev lastSeg.address list.lastNonempty
      let list :=
        match list.lastNonempty with
        | some last => list.setNext last (some lastSeg.address)
        | none => { list with firstNonempty := some lastSeg.address }
      { list with lastNonempty := some lastSeg.address }

/-! ### The operations -/

/-- `AddNew(item)`, copying or moving. -/
def addNew (item : α) (list : TSegmentedList α) : TSegmentedList α :=
  match list.allSegments with
  | [] => list
  | firstSeg :: rest =>
      let firstSeg := firstSeg.addToFront item
      let list := { list with allSegments := firstSeg :: rest, totalItems := list.totalItems + 1 }
      if firstSeg.numItems = 1 then list.addFirstSegToNonemptySegList else list

/-- `AddNew(item_list)`: the items spliced to the front of the first
segment (the caller's list is left empty). -/
def addNewList (itemList : List α) (list : TSegmentedList α) : TSegmentedList α :=
  match list.allSegments with
  | [] => list
  | firstSeg :: rest =>
      let numToAdd := itemList.length
      let firstSeg := firstSeg.addListToFront itemList
      let list := { list with allSegments := firstSeg :: rest, totalItems := list.totalItems + numToAdd }
      if numToAdd ≠ 0 ∧ firstSeg.numItems = numToAdd then list.addFirstSegToNonemptySegList else list

/-- `RemoveOneNewest()`. -/
def removeOneNewest (list : TSegmentedList α) : List α × TSegmentedList α :=
  if list.totalItems = 0 then ([], list)
  else
    match list.firstNonempty with
    | none => ([], list)
    | some first =>
        match list.segmentAt first with
        | none => ([], list)
        | some seg =>
            let (result, seg) := seg.takeFront
            let list := { list.modifySegment first (fun _ => seg) with totalItems := list.totalItems - 1 }
            (result, if seg.numItems = 0 then list.removeFrontItemFromNonemptySegList else list)

/-- `EmptyOldest()`. -/
def emptyOldest (list : TSegmentedList α) : List α × TSegmentedList α :=
  match list.allSegments.getLast? with
  | none => ([], list)
  | some oldest =>
      let list := { list with totalItems := list.totalItems - oldest.numItems }
      let list := if oldest.numItems ≠ 0 then list.removeLastSegFromNonemptySegList else list
      (oldest.items, list.modifySegment oldest.address TSegment.cleared)

/-- `RemoveOldest(max_count)`. -/
def removeOldest (maxCount : Nat) (list : TSegmentedList α) : List α × TSegmentedList α :=
  match list.allSegments.getLast? with
  | none => ([], list)
  | some oldest =>
      let initialSize := oldest.numItems
      let (result, taken) := oldest.takeUpToLastN maxCount
      let finalSize := taken.numItems
      let list := { list.modifySegment oldest.address (fun segment => (segment.takeUpToLastN maxCount).2) with
        totalItems := list.totalItems - (initialSize - finalSize) }
      (result, if initialSize ≠ 0 ∧ finalSize = 0 then list.removeLastSegFromNonemptySegList else list)

/-- The loop of `EmptyAll()` along the `NextNonempty` links: each segment
unlinked and emptied onto the end of the result. -/
def emptyAllLoop : Nat → Option Nat → List α → TSegmentedList α → List α × TSegmentedList α
  | 0, _, result, list => (result, list)
  | _ + 1, none, result, list => (result, list)
  | fuel + 1, some p, result, list =>
      match list.segmentAt p with
      | none => (result, list)
      | some seg =>
          let list := list.modifySegment p fun segment =>
            { segment.cleared with prevNonempty := none, nextNonempty := none }
          emptyAllLoop fuel seg.nextNonempty (result ++ seg.items) list

/-- `EmptyAll()`. -/
def emptyAll (list : TSegmentedList α) : List α × TSegmentedList α :=
  let (result, list) := emptyAllLoop list.allSegments.length list.firstNonempty [] list
  (result, { list with totalItems := 0, firstNonempty := none, lastNonempty := none })

/-- `AllSegments.resize(1)`, for a list that has segments. -/
def keepFirstSegment (list : TSegmentedList α) : TSegmentedList α :=
  { list with allSegments := list.allSegments.take 1, numSegments := 1 }

/-- `EmptyAllAndResetSegments()`. -/
def emptyAllAndResetSegments (list : TSegmentedList α) : List α × TSegmentedList α :=
  let (result, list) := list.emptyAll
  let list := list.keepFirstSegment
  let list := match list.allSegments.head? with
    | some first => (list.setPrev first.address none).setNext first.address none
    | none => list
  (result, { list with firstNonempty := none, lastNonempty := none })

/-- `AddNewSegment()`: a new empty segment in front. -/
def addNewSegment (list : TSegmentedList α) : TSegmentedList α :=
  let segment : TSegment α := { address := list.nextAddress }
  { list with
    allSegments := segment :: list.allSegments
    numSegments := list.numSegments + 1
    nextAddress := list.nextAddress + 1 }

/-- `RecycleOldestSegment()`. -/
def recycleOldestSegment (list : TSegmentedList α) : TSegmentedList α :=
  match list.allSegments.reverse with
  | [] | [_] => list
  | last :: prev :: _ =>
      let lastWasNonempty := last.numItems ≠ 0
      let prevBecameNonempty := prev.numItems = 0 ∧ lastWasNonempty
      -- `last.AppendAllTo(*seg_iter)`
      let list := (list.modifySegment prev.address last.appendAllTo).modifySegment last.address TSegment.cleared
      let list := if lastWasNonempty then list.removeLastSegFromNonemptySegList else list
      -- `splice` of the last segment to the front
      let list := { list with allSegments := list.allSegments.getLast?.toList ++ list.allSegments.dropLast }
      if prevBecameNonempty then list.addLastSegToNonemptySegList else list

/-- The loop of `ResetSegments()` along the `NextNonempty` links: each
segment's items appended to the first segment. -/
def resetSegmentsLoop (first : Nat) : Nat → Option Nat → TSegmentedList α → TSegmentedList α
  | 0, _, list => list
  | _ + 1, none, list => list
  | fuel + 1, some p, list =>
      match list.segmentAt p with
      | none => list
      | some curr =>
          let list := (list.modifySegment first curr.appendAllTo).modifySegment p TSegment.cleared
          resetSegmentsLoop first fuel curr.nextNonempty list

/-- `ResetSegments()`. -/
def resetSegments (list : TSegmentedList α) : TSegmentedList α :=
  match list.allSegments.head? with
  | none => list
  | some first =>
      let segp := if list.firstNonempty = some first.address then list.nextOf first.address
        else list.firstNonempty
      let list := resetSegmentsLoop first.address list.allSegments.length segp list
      let list := ((list.keepFirstSegment).setPrev first.address none).setNext first.address none
      let firstEmpty := (list.segmentAt first.address).all TSegment.empty
      { list with
        firstNonempty := if firstEmpty then none else some first.address
        lastNonempty := if firstEmpty then none else some first.address }

/-! ### The testing interface -/

/-- `CopyOutSegments()`. -/
def copyOutSegments (list : TSegmentedList α) : List (List α) :=
  list.allSegments.map (·.items)

/-- The walk of `SanityCheck()` along the `NextNonempty` links from `n`,
with `p` the segment before it and `rest` the segments not yet passed: the
last segment linked and the segments after it, or none where the check
fails. -/
def checkNonemptyLinks (list : TSegmentedList α) :
    Nat → Option Nat → Option Nat → List (TSegment α) → Option (Option Nat × List (TSegment α))
  | 0, _, _, _ => none
  | _ + 1, none, p, rest => some (p, rest)
  | fuel + 1, some n, p, rest =>
      match list.segmentAt n with
      | none => none
      | some seg =>
          if seg.prevNonempty ≠ p then none
          -- the segments passed on the way to `n` are all empty
          else if !(rest.takeWhile (·.address ≠ n)).all TSegment.empty then none
          else
            match rest.dropWhile (·.address ≠ n) with
            | [] => none
            | reached :: after =>
                if reached.empty then none else checkNonemptyLinks list fuel seg.nextNonempty (some n) after

/-- `SanityCheck()`. -/
def sanityCheck (list : TSegmentedList α) : Bool :=
  list.numSegments == list.allSegments.length &&
    list.allSegments.all TSegment.sanityCheck &&
    (list.allSegments.map (·.numItems)).sum == list.totalItems &&
    match checkNonemptyLinks list (list.allSegments.length + 1) list.firstNonempty none list.allSegments with
    | none => false
    | some (p, rest) => list.lastNonempty == p && rest.all TSegment.empty

end TSegmentedList

/-! ### Runs of calls -/

/-- The calls of the public interface.  `AddNew` copying an item and moving
one are the same call here. -/
inductive TSegmentedListOp (α : Type) where
  | addNew (item : α)
  | addNewList (itemList : List α)
  | removeOneNewest
  | emptyOldest
  | removeOldest (maxCount : Nat)
  | emptyAll
  | emptyAllAndResetSegments
  | addNewSegment
  | recycleOldestSegment
  | resetSegments
deriving Repr

namespace TSegmentedList

variable {α : Type}

/-- One call: the items it returns, and the list after it. -/
def step (list : TSegmentedList α) : TSegmentedListOp α → List α × TSegmentedList α
  | .addNew item => ([], list.addNew item)
  | .addNewList itemList => ([], list.addNewList itemList)
  | .removeOneNewest => list.removeOneNewest
  | .emptyOldest => list.emptyOldest
  | .removeOldest maxCount => list.removeOldest maxCount
  | .emptyAll => list.emptyAll
  | .emptyAllAndResetSegments => list.emptyAllAndResetSegments
  | .addNewSegment => ([], list.addNewSegment)
  | .recycleOldestSegment => ([], list.recycleOldestSegment)
  | .resetSegments => ([], list.resetSegments)

/-- A run of calls: what each returned, and the list after them. -/
def run (list : TSegmentedList α) : List (TSegmentedListOp α) → List (List α) × TSegmentedList α
  | [] => ([], list)
  | op :: ops =>
      let (result, list) := list.step op
      let (results, list) := run list ops
      (result :: results, list)

end TSegmentedList

end Dory.Thread
