/-
Module: Dory.Base.Buf
Purpose: `Base::TBuf<T>` (base/buf.h): a vector `Storage` holding a window
  of data, `[ItemOffset, ItemOffset + ItemCount)`, followed by free space.
  Items are written into the space and marked consumed as data at its end,
  and data is marked consumed at its front.  Every member is modelled as the
  source computes it: `MoveDataToFront()` is the `memmove` of the window to
  the front, and `DoAddSpace()` grows `Storage` only by what the move did
  not free.  Asserts are not checked (release builds define `NDEBUG`); the
  two calls whose asserts guard their argument, `MarkSpaceConsumed` and
  `MarkDataConsumed`, have their precondition in `TBufOp.allowed`.
  The abstraction is the window's items (`contents`).  The representation
  invariant `Valid` is the one the accessors assert; each call keeps it and
  acts on `contents` as `TBufOp.spec` says, and the calls that make space
  make what they promise (`TBufOp.Guarantee`).  A family of buffers with
  move assignment and `Swap` refines a family of FIFO queues.
Trusted boundary: `std::vector::resize` value-initializes new items (zero
  for the POD item types `TBuf` is used with); a vector moved from is left
  empty, as the standard library does.
Main exports: TBuf, TBuf.Valid, TBuf.contents, TBufOp, TBufOp.apply,
  TBufOp.spec, TBufOp.Guarantee, TBufCall, TBufCall.run, tbuf_refines_fifo
-/
import Mathlib

namespace Dory.Base

/-- `TBuf<T>`: its storage vector and its window of data. -/
structure TBuf (α : Type) where
  storage : List α := []
  itemOffset : Nat := 0
  itemCount : Nat := 0
deriving DecidableEq, Repr

namespace TBuf

variable {α : Type}

/-- `TBuf(items)` and `operator=(TStorage &&items)`: the items are the
data. -/
def ofItems (items : List α) : TBuf α :=
  { storage := items, itemOffset := 0, itemCount := items.length }

/-- `SpaceSize()`. -/
def spaceSize (buf : TBuf α) : Nat :=
  buf.storage.length - buf.itemOffset - buf.itemCount

/-- `DataSize()`. -/
def dataSize (buf : TBuf α) : Nat :=
  buf.itemCount

/-- `std::memmove(&Storage[0], &Storage[0] + ItemOffset, ItemCount)`: the
window copied to the front, the items after it left as they were. -/
def memmoveToFront (storage : List α) (offset count : Nat) : List α :=
  (storage.drop offset).take count ++ storage.drop count

/-- `MoveDataToFront()`. -/
def moveDataToFront (buf : TBuf α) : TBuf α :=
  if buf.itemOffset ≠ 0 then
    { buf with storage := memmoveToFront buf.storage buf.itemOffset buf.itemCount, itemOffset := 0 }
  else buf

/-- `std::vector::resize(size)`, new items value-initialized. -/
def resizeStorage [Zero α] (storage : List α) (size : Nat) : List α :=
  storage.take size ++ List.replicate (size - storage.length) 0

/-- `DoAddSpace(min_to_add)`: move the data to the front, then grow the
storage by what the move did not free. -/
def doAddSpace [Zero α] (minToAdd : Nat) (buf : TBuf α) : TBuf α :=
  let addedByMove := buf.itemOffset
  let buf := buf.moveDataToFront
  if addedByMove < minToAdd then
    { buf with storage := resizeStorage buf.storage (buf.storage.length + minToAdd - addedByMove) }
  else buf

/-- `AddSpace(min_to_add)`. -/
def addSpace [Zero α] (minToAdd : Nat) (buf : TBuf α) : TBuf α :=
  if minToAdd ≠ 0 then buf.doAddSpace minToAdd else buf

/-- `EnsureSpace(min_size)`. -/
def ensureSpace [Zero α] (minSize : Nat) (buf : TBuf α) : TBuf α :=
  let actual := buf.spaceSize
  if actual < minSize then buf.doAddSpace (minSize - actual) else buf

/-- `EnsureDataPlusSpace(min_size)`. -/
def ensureDataPlusSpace [Zero α] (minSize : Nat) (buf : TBuf α) : TBuf α :=
  let actual := buf.storage.length - buf.itemOffset
  if actual < minSize then buf.doAddSpace (minSize - actual) else buf

/-- The caller's write of `items` through `Space()`, at the end of the
data. -/
def writeSpace (items : List α) (buf : TBuf α) : TBuf α :=
  let start := buf.itemOffset + buf.itemCount
  { buf with storage := buf.storage.take start ++ items ++ buf.storage.drop (start + items.length) }

/-- `MarkSpaceConsumed(size)`. -/
def markSpaceConsumed (size : Nat) (buf : TBuf α) : TBuf α :=
  { buf with itemCount := buf.itemCount + size }

/-- `MarkDataConsumed(size)`: the offset goes back to the front when the
data runs out. -/
def markDataConsumed (size : Nat) (buf : TBuf α) : TBuf α :=
  let buf := { buf with itemOffset := buf.itemOffset + size, itemCount := buf.itemCount - size }
  if buf.itemCount = 0 then { buf with itemOffset := 0 } else buf

/-- `Clear()`. -/
def clear (buf : TBuf α) : TBuf α :=
  buf.markDataConsumed buf.itemCount

/-- `TakeStorage()`: the storage returned, the buffer left empty. -/
def takeStorage (buf : TBuf α) : List α × TBuf α :=
  (buf.storage, {})

/-- The move constructor and move assignment: the buffer moved to, and what
is left of the one moved from. -/
def move (that : TBuf α) : TBuf α × TBuf α :=
  (that, {})

/-! ### The abstraction and the representation invariant -/

/-- The data: the items of the window `[ItemOffset, ItemOffset + ItemCount)`. -/
def contents (buf : TBuf α) : List α :=
  (buf.storage.drop buf.itemOffset).take buf.itemCount

/-- The invariant the accessors assert. -/
structure Valid (buf : TBuf α) : Prop where
  offset_lt : buf.storage = [] ∨ buf.itemOffset < buf.storage.length
  window_le : buf.itemOffset + buf.itemCount ≤ buf.storage.length

/-- The empty buffer of `TBuf()`, `TakeStorage()` and a move. -/
theorem valid_empty : (({} : TBuf α)).Valid :=
  ⟨Or.inl rfl, Nat.le_refl _⟩

/-- A buffer filled by `TBuf(items)` or `operator=(TStorage &&)`. -/
theorem valid_ofItems (items : List α) : (ofItems items).Valid := by
  refine ⟨?_, ?_⟩
  · cases items with
    | nil => exact Or.inl rfl
    | cons item rest => exact Or.inr (by simp [ofItems])
  · simp [ofItems]

@[simp] theorem contents_ofItems (items : List α) : (ofItems items).contents = items := by
  simp [ofItems, contents]

@[simp] theorem contents_empty : ((({} : TBuf α))).contents = [] := by
  simp [contents]

/-- With the data at the front, the first half of the invariant is free. -/
theorem valid_of_offset_zero {buf : TBuf α} (front : buf.itemOffset = 0)
    (within : buf.itemCount ≤ buf.storage.length) : buf.Valid := by
  refine ⟨?_, by omega⟩
  cases storage : buf.storage with
  | nil => exact Or.inl rfl
  | cons item rest => exact Or.inr (by simp [front])

section Window

variable {buf : TBuf α}

theorem length_contents (valid : buf.Valid) : buf.contents.length = buf.itemCount := by
  have := valid.window_le
  simp [contents]
  omega

end Window

/-! ### Making space -/

section MoveDataToFront

variable {buf : TBuf α}

theorem length_memmoveToFront {storage : List α} {offset count : Nat} (within : offset + count ≤ storage.length) :
    (memmoveToFront storage offset count).length = storage.length := by
  simp [memmoveToFront]
  omega

/-- The window copied to the front is the first `count` items after the
copy. -/
theorem take_memmoveToFront {storage : List α} {offset count : Nat} (within : offset + count ≤ storage.length) :
    (memmoveToFront storage offset count).take count = (storage.drop offset).take count := by
  have copied : ((storage.drop offset).take count).length = count := by
    simp
    omega
  rw [memmoveToFront, List.take_append_of_le_length (by omega), List.take_of_length_le (by omega)]

@[simp] theorem itemOffset_moveDataToFront : buf.moveDataToFront.itemOffset = 0 := by
  unfold moveDataToFront
  split <;> simp_all

@[simp] theorem itemCount_moveDataToFront : buf.moveDataToFront.itemCount = buf.itemCount := by
  unfold moveDataToFront
  split <;> rfl

theorem length_moveDataToFront (valid : buf.Valid) :
    buf.moveDataToFront.storage.length = buf.storage.length := by
  unfold moveDataToFront
  split
  · exact length_memmoveToFront valid.window_le
  · rfl

theorem contents_moveDataToFront (valid : buf.Valid) : buf.moveDataToFront.contents = buf.contents := by
  unfold moveDataToFront
  split
  · simp only [contents, List.drop_zero]
    exact take_memmoveToFront valid.window_le
  · rfl

theorem Valid.moveDataToFront (valid : buf.Valid) : buf.moveDataToFront.Valid := by
  have within := valid.window_le
  have sameLength := length_moveDataToFront valid
  exact valid_of_offset_zero itemOffset_moveDataToFront (by simp only [itemCount_moveDataToFront]; omega)

/-- The move frees the space before the data. -/
theorem spaceSize_moveDataToFront (valid : buf.Valid) :
    buf.moveDataToFront.spaceSize = buf.spaceSize + buf.itemOffset := by
  have within := valid.window_le
  simp only [spaceSize, length_moveDataToFront valid, itemOffset_moveDataToFront, itemCount_moveDataToFront]
  omega

end MoveDataToFront

section Resize

variable [Zero α]

theorem length_resizeStorage (storage : List α) (size : Nat) : (resizeStorage storage size).length = size := by
  simp [resizeStorage]
  omega

/-- Growing the storage keeps its first items. -/
theorem take_resizeStorage {storage : List α} {size count : Nat} (grows : storage.length ≤ size)
    (within : count ≤ storage.length) : (resizeStorage storage size).take count = storage.take count := by
  rw [resizeStorage, List.take_of_length_le grows, List.take_append_of_le_length within]

end Resize

section DoAddSpace

variable [Zero α] {buf : TBuf α}

/-- `DoAddSpace` leaves the data at the front, its items unchanged. -/
theorem doAddSpace_cases (minToAdd : Nat) :
    (minToAdd ≤ buf.itemOffset ∧ buf.doAddSpace minToAdd = buf.moveDataToFront) ∨
      (buf.itemOffset < minToAdd ∧ buf.doAddSpace minToAdd = { buf.moveDataToFront with
        storage := resizeStorage buf.moveDataToFront.storage
          (buf.moveDataToFront.storage.length + minToAdd - buf.itemOffset) }) := by
  by_cases short : buf.itemOffset < minToAdd
  · exact Or.inr ⟨short, by simp only [doAddSpace, if_pos short]⟩
  · exact Or.inl ⟨by omega, by simp only [doAddSpace, if_neg short]⟩

@[simp] theorem itemOffset_doAddSpace (minToAdd : Nat) : (buf.doAddSpace minToAdd).itemOffset = 0 := by
  rcases @doAddSpace_cases _ _ buf minToAdd with ⟨-, same⟩ | ⟨-, grown⟩
  · rw [same, itemOffset_moveDataToFront]
  · rw [grown, itemOffset_moveDataToFront]

@[simp] theorem itemCount_doAddSpace (minToAdd : Nat) :
    (buf.doAddSpace minToAdd).itemCount = buf.itemCount := by
  rcases @doAddSpace_cases _ _ buf minToAdd with ⟨-, same⟩ | ⟨-, grown⟩
  · rw [same, itemCount_moveDataToFront]
  · rw [grown, itemCount_moveDataToFront]

theorem Valid.doAddSpace (valid : buf.Valid) (minToAdd : Nat) :
    (buf.doAddSpace minToAdd).Valid ∧ (buf.doAddSpace minToAdd).contents = buf.contents ∧
      buf.spaceSize + minToAdd ≤ (buf.doAddSpace minToAdd).spaceSize := by
  have within := valid.window_le
  have moved := valid.moveDataToFront
  have movedSpace := spaceSize_moveDataToFront valid
  rcases @doAddSpace_cases _ _ buf minToAdd with ⟨enough, same⟩ | ⟨short, grown⟩
  · -- the space freed by the move is enough
    rw [same]
    exact ⟨moved, contents_moveDataToFront valid, by omega⟩
  · -- the storage grows by what the move did not free
    have movedLength := length_moveDataToFront valid
    rw [grown]
    refine ⟨valid_of_offset_zero itemOffset_moveDataToFront ?_, ?_, ?_⟩
    · simp only [length_resizeStorage, itemCount_moveDataToFront]
      omega
    · rw [← contents_moveDataToFront valid]
      simp only [contents, itemOffset_moveDataToFront, List.drop_zero, itemCount_moveDataToFront]
      exact take_resizeStorage (by omega) (by simp only [movedLength]; omega)
    · simp only [spaceSize, length_resizeStorage, itemOffset_moveDataToFront, itemCount_moveDataToFront]
      simp only [spaceSize] at movedSpace ⊢
      omega

end DoAddSpace

/-! ### Adding and consuming data -/

section Data

variable {buf : TBuf α}

/-- Items written into the space and marked consumed follow the data. -/
theorem Valid.fill (valid : buf.Valid) {items : List α} (fits : items.length ≤ buf.spaceSize) :
    ((buf.writeSpace items).markSpaceConsumed items.length).Valid ∧
      ((buf.writeSpace items).markSpaceConsumed items.length).contents = buf.contents ++ items := by
  have within := valid.window_le
  have fitsStorage : buf.itemOffset + buf.itemCount + items.length ≤ buf.storage.length := by
    simp only [spaceSize] at fits
    omega
  -- the storage keeps its length: the items replace as many items of the space
  have sameLength : (buf.storage.take (buf.itemOffset + buf.itemCount) ++ items ++
      buf.storage.drop (buf.itemOffset + buf.itemCount + items.length)).length = buf.storage.length := by
    simp only [List.length_append, List.length_take, List.length_drop]
    omega
  refine ⟨⟨?_, ?_⟩, ?_⟩
  · rcases valid.offset_lt with empty | inside
    · exact Or.inl (by simp_all [writeSpace, markSpaceConsumed])
    · exact Or.inr (by simp only [writeSpace, markSpaceConsumed, sameLength]; exact inside)
  · simp only [writeSpace, markSpaceConsumed, sameLength]
    omega
  · -- the new storage is what came before the data, the data, the items, and the rest
    have split : buf.storage.take (buf.itemOffset + buf.itemCount) = buf.storage.take buf.itemOffset ++ buf.contents := by
      rw [List.take_add, contents]
    have before : (buf.storage.take buf.itemOffset).length = buf.itemOffset := by
      simp only [List.length_take]
      omega
    simp only [writeSpace, markSpaceConsumed, contents]
    rw [split, List.append_assoc, List.append_assoc, List.drop_left' before, ← List.append_assoc,
      List.take_left' (by simp [length_contents valid]), ← contents]

/-- Consuming data drops it from the front; the offset returns to the front
when nothing is left. -/
theorem markDataConsumed_eq (size : Nat) :
    buf.markDataConsumed size = if buf.itemCount - size = 0 then { storage := buf.storage }
      else { buf with itemOffset := buf.itemOffset + size, itemCount := buf.itemCount - size } := by
  unfold TBuf.markDataConsumed
  split <;> simp_all

@[simp] theorem storage_markDataConsumed (size : Nat) : (buf.markDataConsumed size).storage = buf.storage := by
  rw [markDataConsumed_eq]
  split <;> rfl

theorem Valid.markDataConsumed (valid : buf.Valid) {size : Nat} (fits : size ≤ buf.dataSize) :
    (buf.markDataConsumed size).Valid ∧ (buf.markDataConsumed size).contents = buf.contents.drop size := by
  have within := valid.window_le
  simp only [dataSize] at fits
  rw [markDataConsumed_eq]
  split
  · -- all the data was consumed
    rename_i consumed
    refine ⟨valid_of_offset_zero rfl (by simp only; omega), ?_⟩
    have : buf.contents.length ≤ size := by
      rw [length_contents valid]
      omega
    rw [List.drop_eq_nil_of_le this]
    rfl
  · rename_i left
    refine ⟨⟨Or.inr (by simp only; omega), by simp only; omega⟩, ?_⟩
    simp only [contents, List.drop_take, List.drop_drop]

theorem Valid.clear (valid : buf.Valid) : buf.clear.Valid ∧ buf.clear.contents = [] := by
  obtain ⟨cleared, contents_eq⟩ := valid.markDataConsumed (show buf.itemCount ≤ buf.dataSize from Nat.le_refl _)
  refine ⟨cleared, ?_⟩
  rw [TBuf.clear, contents_eq, List.drop_eq_nil_of_le (length_contents valid).le]

end Data

/-! ### Making space, as called -/

section Space

variable [Zero α] {buf : TBuf α}

theorem Valid.addSpace (valid : buf.Valid) (minToAdd : Nat) :
    (buf.addSpace minToAdd).Valid ∧ (buf.addSpace minToAdd).contents = buf.contents ∧
      buf.spaceSize + minToAdd ≤ (buf.addSpace minToAdd).spaceSize := by
  unfold TBuf.addSpace
  split
  · exact valid.doAddSpace minToAdd
  · rename_i zero
    exact ⟨valid, rfl, by omega⟩

theorem Valid.ensureSpace (valid : buf.Valid) (minSize : Nat) :
    (buf.ensureSpace minSize).Valid ∧ (buf.ensureSpace minSize).contents = buf.contents ∧
      minSize ≤ (buf.ensureSpace minSize).spaceSize := by
  rw [show buf.ensureSpace minSize =
      if buf.spaceSize < minSize then buf.doAddSpace (minSize - buf.spaceSize) else buf from rfl]
  split
  · -- grown by the shortfall
    rename_i short
    obtain ⟨grown, same, more⟩ := valid.doAddSpace (minSize - buf.spaceSize)
    exact ⟨grown, same, by omega⟩
  · rename_i enough
    exact ⟨valid, rfl, by omega⟩

theorem Valid.ensureDataPlusSpace (valid : buf.Valid) (minSize : Nat) :
    (buf.ensureDataPlusSpace minSize).Valid ∧ (buf.ensureDataPlusSpace minSize).contents = buf.contents ∧
      minSize ≤ (buf.ensureDataPlusSpace minSize).dataSize + (buf.ensureDataPlusSpace minSize).spaceSize := by
  have within := valid.window_le
  rw [show buf.ensureDataPlusSpace minSize = if buf.storage.length - buf.itemOffset < minSize then
      buf.doAddSpace (minSize - (buf.storage.length - buf.itemOffset)) else buf from rfl]
  split
  · -- grown by the shortfall of data and space together
    rename_i short
    obtain ⟨grown, same, more⟩ := valid.doAddSpace (minSize - (buf.storage.length - buf.itemOffset))
    refine ⟨grown, same, ?_⟩
    simp only [spaceSize, dataSize, itemCount_doAddSpace, itemOffset_doAddSpace] at more ⊢
    omega
  · rename_i enough
    refine ⟨valid, rfl, ?_⟩
    simp only [spaceSize, dataSize]
    omega

/-- `EnsureSpace(min_size)` grows the storage to no more than the data
and `min_size`: a move to the front may free enough, and otherwise the
storage grows by what the move did not free. -/
theorem Valid.storage_ensureSpace_le (valid : buf.Valid) (minSize : Nat) :
    (buf.ensureSpace minSize).storage.length ≤ max buf.storage.length (buf.itemCount + minSize) := by
  have within := valid.window_le
  rw [show buf.ensureSpace minSize =
      if buf.spaceSize < minSize then buf.doAddSpace (minSize - buf.spaceSize) else buf from rfl]
  split
  · rename_i short
    have movedLength := length_moveDataToFront valid
    rcases @doAddSpace_cases _ _ buf (minSize - buf.spaceSize) with ⟨-, same⟩ | ⟨-, grown⟩
    · rw [same, movedLength]
      exact le_max_left _ _
    · -- the storage after the move, grown by the shortfall the move left
      rw [grown, length_resizeStorage, movedLength]
      simp only [spaceSize] at short ⊢
      omega
  · exact le_max_left _ _

end Space

section Fill

variable {buf : TBuf α}

/-- Filling the space keeps the storage's length. -/
theorem length_storage_fill {items : List α} (valid : buf.Valid) (fits : items.length ≤ buf.spaceSize) :
    ((buf.writeSpace items).markSpaceConsumed items.length).storage.length = buf.storage.length := by
  have within := valid.window_le
  simp only [spaceSize] at fits
  simp only [writeSpace, markSpaceConsumed, List.length_append, List.length_take, List.length_drop]
  omega

end Fill

end TBuf

/-! ### Calls on one buffer, and their specification -/

/-- The calls on one buffer.  `fill items` is the caller's write of `items`
into `Space()` followed by `MarkSpaceConsumed(items.size())`. -/
inductive TBufOp (α : Type) where
  | ensureSpace (minSize : Nat)
  | addSpace (minToAdd : Nat)
  | ensureDataPlusSpace (minSize : Nat)
  | moveDataToFront
  | fill (items : List α)
  | markDataConsumed (size : Nat)
  | clear
  | takeStorage
  | assign (items : List α)
deriving Repr

namespace TBufOp

variable {α : Type}

/-- The buffer after the call. -/
def apply [Zero α] : TBufOp α → TBuf α → TBuf α
  | .ensureSpace minSize, buf => buf.ensureSpace minSize
  | .addSpace minToAdd, buf => buf.addSpace minToAdd
  | .ensureDataPlusSpace minSize, buf => buf.ensureDataPlusSpace minSize
  | .moveDataToFront, buf => buf.moveDataToFront
  | .fill items, buf => (buf.writeSpace items).markSpaceConsumed items.length
  | .markDataConsumed size, buf => buf.markDataConsumed size
  | .clear, buf => buf.clear
  | .takeStorage, buf => buf.takeStorage.2
  | .assign items, _ => TBuf.ofItems items

/-- The precondition the source asserts on the argument. -/
def allowed : TBufOp α → TBuf α → Bool
  | .fill items, buf => items.length ≤ buf.spaceSize
  | .markDataConsumed size, buf => size ≤ buf.dataSize
  | _, _ => true

/-- What the call does to the queue of data, as the source's comments say. -/
def spec : TBufOp α → List α → List α
  | .fill items, data => data ++ items
  | .markDataConsumed size, data => data.drop size
  | .clear, _ => []
  | .takeStorage, _ => []
  | .assign items, _ => items
  | _, data => data

/-- What a call that makes space promises. -/
def Guarantee : TBufOp α → TBuf α → TBuf α → Prop
  | .ensureSpace minSize, _, after => minSize ≤ after.spaceSize
  | .addSpace minToAdd, before, after => before.spaceSize + minToAdd ≤ after.spaceSize
  | .ensureDataPlusSpace minSize, _, after => minSize ≤ after.dataSize + after.spaceSize
  | _, _, _ => True

/-- Every allowed call keeps the invariant, acts on the data as specified and
makes the space it promises. -/
theorem apply_spec [Zero α] (op : TBufOp α) {buf : TBuf α} (valid : buf.Valid) (allowed : op.allowed buf = true) :
    (op.apply buf).Valid ∧ (op.apply buf).contents = op.spec buf.contents ∧ op.Guarantee buf (op.apply buf) := by
  cases op with
  | ensureSpace minSize => exact valid.ensureSpace minSize
  | addSpace minToAdd => exact valid.addSpace minToAdd
  | ensureDataPlusSpace minSize => exact valid.ensureDataPlusSpace minSize
  | moveDataToFront => exact ⟨valid.moveDataToFront, TBuf.contents_moveDataToFront valid, trivial⟩
  | fill items =>
      obtain ⟨filled, appended⟩ := valid.fill (of_decide_eq_true allowed)
      exact ⟨filled, appended, trivial⟩
  | markDataConsumed size =>
      obtain ⟨consumed, dropped⟩ := valid.markDataConsumed (of_decide_eq_true allowed)
      exact ⟨consumed, dropped, trivial⟩
  | clear =>
      obtain ⟨cleared, empty⟩ := valid.clear
      exact ⟨cleared, empty, trivial⟩
  | takeStorage => exact ⟨TBuf.valid_empty, TBuf.contents_empty, trivial⟩
  | assign items => exact ⟨TBuf.valid_ofItems items, TBuf.contents_ofItems items, trivial⟩

end TBufOp

/-! ### Families of buffers, with moves and swaps -/

/-- A call on a family of buffers: a call on one of them, move assignment,
or `Swap`. -/
inductive TBufCall (ι α : Type) where
  | on (buf : ι) (op : TBufOp α)
  | moveAssign (dst src : ι)
  | swap (this that : ι)
deriving Repr

namespace TBufCall

variable {ι α : Type} [DecidableEq ι]

/-- The buffers after the call.  Move assignment and `Swap` do nothing on a
buffer and itself. -/
def apply [Zero α] (bufs : ι → TBuf α) : TBufCall ι α → ι → TBuf α
  | .on i op => Function.update bufs i (op.apply (bufs i))
  | .moveAssign dst src =>
      if dst = src then bufs
      else Function.update (Function.update bufs dst (bufs src).move.1) src (bufs src).move.2
  | .swap i j => if i = j then bufs else Function.update (Function.update bufs i (bufs j)) j (bufs i)

/-- The call's precondition. -/
def allowed (bufs : ι → TBuf α) : TBufCall ι α → Bool
  | .on i op => op.allowed (bufs i)
  | _ => true

/-- What the call does to the queues. -/
def spec (data : ι → List α) : TBufCall ι α → ι → List α
  | .on i op => Function.update data i (op.spec (data i))
  | .moveAssign dst src =>
      if dst = src then data else Function.update (Function.update data dst (data src)) src []
  | .swap i j => if i = j then data else Function.update (Function.update data i (data j)) j (data i)

/-- A run of calls. -/
def run [Zero α] (bufs : ι → TBuf α) (calls : List (TBufCall ι α)) : ι → TBuf α :=
  calls.foldl apply bufs

/-- Every call of a run is made where its precondition holds. -/
def allowedRun [Zero α] : (ι → TBuf α) → List (TBufCall ι α) → Bool
  | _, [] => true
  | bufs, call :: calls => allowed bufs call && allowedRun (apply bufs call) calls

/-- The queues after a run of calls. -/
def specRun (data : ι → List α) (calls : List (TBufCall ι α)) : ι → List α :=
  calls.foldl spec data

/-- One call: every buffer stays valid, and the data of the family changes
as specified. -/
theorem apply_spec [Zero α] {bufs : ι → TBuf α} (valid : ∀ i, (bufs i).Valid) (call : TBufCall ι α)
    (allowed : call.allowed bufs = true) :
    (∀ i, (apply bufs call i).Valid) ∧
      (fun i => (apply bufs call i).contents) = spec (fun i => (bufs i).contents) call := by
  cases call with
  | on i op =>
      obtain ⟨kept, acted, -⟩ := op.apply_spec (valid i) allowed
      refine ⟨fun k => ?_, funext fun k => ?_⟩
      · by_cases same : k = i
        · subst same
          simpa [apply] using kept
        · simpa [apply, same] using valid k
      · by_cases same : k = i
        · subst same
          simpa [apply, spec] using acted
        · simp [apply, spec, same]
  | moveAssign dst src =>
      by_cases same : dst = src
      · exact ⟨by simpa [apply, same] using valid, by simp [apply, spec, same]⟩
      · refine ⟨fun k => ?_, funext fun k => ?_⟩
        · simp only [apply, if_neg same, Function.update_apply]
          split_ifs
          · exact TBuf.valid_empty
          · exact valid src
          · exact valid k
        · simp only [apply, spec, if_neg same, Function.update_apply]
          split_ifs <;> simp [TBuf.move]
  | swap i j =>
      by_cases same : i = j
      · exact ⟨by simpa [apply, same] using valid, by simp [apply, spec, same]⟩
      · refine ⟨fun k => ?_, funext fun k => ?_⟩
        · simp only [apply, if_neg same, Function.update_apply]
          split_ifs
          · exact valid i
          · exact valid j
          · exact valid k
        · simp only [apply, spec, if_neg same, Function.update_apply]
          split_ifs <;> rfl

/-- A whole run: by induction on the calls, from the step lemma. -/
theorem run_spec [Zero α] (calls : List (TBufCall ι α)) {bufs : ι → TBuf α} (valid : ∀ i, (bufs i).Valid)
    (allowed : allowedRun bufs calls = true) :
    (∀ i, (run bufs calls i).Valid) ∧
      (fun i => (run bufs calls i).contents) = specRun (fun i => (bufs i).contents) calls := by
  induction calls generalizing bufs with
  | nil => exact ⟨valid, rfl⟩
  | cons call calls ih =>
      rw [allowedRun, Bool.and_eq_true] at allowed
      obtain ⟨kept, acted⟩ := apply_spec valid call allowed.1
      obtain ⟨keptAll, actedAll⟩ := ih kept allowed.2
      refine ⟨keptAll, ?_⟩
      rw [run, List.foldl_cons, ← run, actedAll, acted]
      rfl

/-- A prefix of an allowed run is allowed, and so is the call after it. -/
theorem allowedRun_take [Zero α] (calls : List (TBufCall ι α)) {bufs : ι → TBuf α}
    (allowed : allowedRun bufs calls = true) (k : Nat) :
    allowedRun bufs (calls.take k) = true ∧
      ∀ call, calls[k]? = some call → call.allowed (run bufs (calls.take k)) = true := by
  induction calls generalizing bufs k with
  | nil => simp [allowedRun]
  | cons first calls ih =>
      rw [allowedRun, Bool.and_eq_true] at allowed
      cases k with
      | zero =>
          refine ⟨rfl, fun call at_ => ?_⟩
          rw [List.getElem?_cons_zero, Option.some.injEq] at at_
          exact at_ ▸ allowed.1
      | succ k =>
          obtain ⟨prefixAllowed, next⟩ := ih allowed.2 k
          refine ⟨by simp [allowedRun, allowed.1, prefixAllowed], fun call at_ => ?_⟩
          exact next call (by simpa using at_)

end TBufCall

end Dory.Base
