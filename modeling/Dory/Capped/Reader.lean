/-
Module: Dory.Capped.Reader
Purpose: `Capped::TReader` (capped/reader.{h,cc}): one forward pass over the
  data of a blob, block after block.  `Advance()` copies (for `Read()`) or
  passes over (for `Skip()`) the next bytes, going on to the next block when
  it has used one up, and throws `TMemoryCapReached` when it runs out of
  blocks.  A well-formed blob (`TBlob.Valid`: blocks of a block's data each,
  the last used for between 1 and a block of bytes, and `NumBytes` counting
  the bytes used) is what `TWriter::DraftBlob()` makes.  On such a blob the
  reader is a cursor into the blob's data: `TReader.rest` is what it has
  left, and each call within it takes the front of it (`Inv.advance_of_le`).
  So a reader reads back what a writer wrote (`Inv.read_of_prefix`).
  Release builds define `NDEBUG`, so the reader's asserts are not checked.
Trusted boundary: none
Main exports: TBlob.Valid, TWriter.draftBlob_valid, makeKeyAndValue_valid, TReader,
  TReader.advance, TReader.read, TReader.skip, TReader.rest, TReader.Inv,
  TReader.inv_create, TReader.Inv.advance_of_le
-/
import Dory.Capped.Writer

namespace Dory.Capped

open Dory.Foundation

/-! ### Well-formed blobs -/

/-- What the blocks of a blob hold as `DraftBlob()` leaves them: every block
has `blockSize` bytes of data, the last is used for between 1 and
`blockSize` of them, and `NumBytes` counts the bytes used. -/
structure TBlob.Valid (blockSize : Nat) (blob : TBlob) : Prop where
  sized : ∀ block ∈ blob.blocks, block.length = blockSize
  lastPos : blob.blocks ≠ [] → 0 < blob.lastBlockSize
  lastLe : blob.lastBlockSize ≤ blockSize
  counted : blob.numBytes = (blob.forEachBlock blockSize).flatten.length

/-- A valid writer drafts a well-formed blob. -/
theorem TWriter.draftBlob_valid {blockSize : Nat} {writer : TWriter} (valid : writer.Valid blockSize) :
    writer.draftBlob.1.Valid blockSize := by
  have counted := (draftBlob_contents valid).2
  rw [← (draftBlob_contents valid).1] at counted
  unfold draftBlob at counted ⊢
  split
  · exact ⟨by simp, by simp, Nat.zero_le _, rfl⟩
  · rename_i listed
    refine ⟨valid.sized, fun _ => valid.lastUsed ?_, valid.cursorLe, ?_⟩
    · rw [listed]
      exact List.cons_ne_nil _ _
    · simpa only [listed] using counted

/-- The blob made for a key and a value is well formed. -/
theorem makeKeyAndValue_valid {key value : List UInt8} {pool rest : TPool} {blob : TBlob}
    (made : makeKeyAndValue key value pool = .ok (rest, blob)) : blob.Valid pool.getDataSize := by
  obtain ⟨⟨pool', writer⟩, keyWritten, valueStep⟩ := bind_eq_ok made
  obtain ⟨⟨rest', after⟩, valueWritten, drafted⟩ := bind_eq_ok valueStep
  obtain ⟨rfl, rfl⟩ := Prod.mk.inj (Except.ok.inj drafted)
  -- both writes keep the writer valid, for the pool's block size
  obtain ⟨keyValid, -, keySize⟩ := TWriter.write_contents (TWriter.valid_init pool.getDataSize) keyWritten
  have sameData : pool'.getDataSize = pool.getDataSize := by simp [TPool.getDataSize, keySize]
  rw [← sameData] at keyValid
  obtain ⟨valueValid, -, -⟩ := TWriter.write_contents keyValid valueWritten
  rw [sameData] at valueValid
  exact TWriter.draftBlob_valid valueValid

/-! ### The reader -/

/-- `TReader`: the blob it reads, `Block` and the blocks after it (none once
`Block` and `Cursor` are null, at the end of the blob), `Cursor` as an
offset into `Block`, and `BytesRemaining`. -/
structure TReader where
  blob : TBlob
  blocks : List (List UInt8)
  cursor : Nat
  bytesRemaining : Nat
deriving DecidableEq, Repr

namespace TReader

/-- The constructor `TReader(blob)`. -/
def create (blob : TBlob) : TReader :=
  { blob, blocks := blob.blocks, cursor := 0, bytesRemaining := blob.numBytes }

/-- `operator bool()`: the reader has not reached the end of the blob. -/
def toBool (reader : TReader) : Bool :=
  !reader.blocks.isEmpty

/-- `GetBytesConsumed()`. -/
def getBytesConsumed (reader : TReader) : Nat :=
  reader.blob.numBytes - reader.bytesRemaining

/-- The bytes used in `Block`, which `next` follows: a whole block, or
`LastBlockSize` in the last. -/
def usedSize (blockSize lastBlockSize : Nat) (next : List (List UInt8)) : Nat :=
  if next = [] then lastBlockSize else blockSize

/-- The loop of `Advance()`, at `Block` (the head of `blocks`) and `Cursor`,
with `BytesRemaining` and `size` bytes still to pass over: the bytes passed
over, and the reader where the loop stops.  `blockSize` is the blob's
`GetBlockSize()`. -/
def advanceLoop (blockSize : Nat) (blob : TBlob) :
    List (List UInt8) → Nat → Nat → Nat → Except TCappedError (List UInt8 × TReader)
  | blocks, cursor, remaining, 0 => .ok ([], { blob, blocks, cursor, bytesRemaining := remaining })
  -- past the last block: out of data
  | [], _, _, _ + 1 => .error .memoryCapReached
  | block :: next, cursor, remaining, size + 1 =>
      let avail := usedSize blockSize blob.lastBlockSize next - cursor
      if size + 1 < avail then
        .ok ((block.drop cursor).take (size + 1),
          { blob, blocks := block :: next, cursor := cursor + (size + 1), bytesRemaining := remaining - (size + 1) })
      else do
        -- the rest of this block, then on from the start of the next
        let (passed, reader) ← advanceLoop blockSize blob next 0 (remaining - avail) (size + 1 - avail)
        pure ((block.drop cursor).take avail ++ passed, reader)

/-- `Advance(data, size)`: the bytes passed over, which `Read()` copies to
`data` and `Skip()` drops. -/
def advance (blockSize : Nat) (reader : TReader) (size : Nat) : Except TCappedError (List UInt8 × TReader) :=
  if size = 0 then .ok ([], reader)
  else if reader.blob.numBytes = 0 then .error .memoryCapReached
  else advanceLoop blockSize reader.blob reader.blocks reader.cursor reader.bytesRemaining size

/-- `Read(data, size)`: the bytes copied to `data`. -/
def read (blockSize : Nat) (reader : TReader) (size : Nat) : Except TCappedError (List UInt8 × TReader) :=
  reader.advance blockSize size

/-- `Skip(size)`. -/
def skip (blockSize : Nat) (reader : TReader) (size : Nat) : Except TCappedError TReader :=
  (reader.advance blockSize size).map Prod.snd

/-! ### The reader as a cursor into the blob's data -/

/-- The data of blocks from `Block` on, each as far as it is used. -/
def usedData (blockSize lastBlockSize : Nat) : List (List UInt8) → List UInt8
  | [] => []
  | block :: next => block.take (usedSize blockSize lastBlockSize next) ++ usedData blockSize lastBlockSize next

/-- What is left at `Cursor` in `Block`: the rest of the block's used data,
and the blocks after it. -/
def restAt (blockSize lastBlockSize : Nat) : List (List UInt8) → Nat → List UInt8
  | [], _ => []
  | block :: next, cursor =>
      (block.take (usedSize blockSize lastBlockSize next)).drop cursor ++ usedData blockSize lastBlockSize next

/-- What the reader has left to pass over. -/
def rest (blockSize : Nat) (reader : TReader) : List UInt8 :=
  restAt blockSize reader.blob.lastBlockSize reader.blocks reader.cursor

theorem restAt_zero (blockSize lastBlockSize : Nat) (blocks : List (List UInt8)) :
    restAt blockSize lastBlockSize blocks 0 = usedData blockSize lastBlockSize blocks := by
  cases blocks with
  | nil => rfl
  | cons block next => simp only [restAt, usedData, List.drop_zero]

/-- Block by block, the used data is what `ForEachBlock` visits.  By
induction on the blocks, the last one apart. -/
theorem usedData_eq_forEachBlock (blockSize : Nat) (blob : TBlob) :
    usedData blockSize blob.lastBlockSize blob.blocks = (blob.forEachBlock blockSize).flatten := by
  unfold TBlob.forEachBlock
  generalize blob.blocks = blocks
  induction blocks with
  | nil => rfl
  | cons block next ih =>
      cases next with
      | nil => simp [usedData, usedSize]
      | cons block' next' =>
          simp only at ih
          rw [usedData, ih, usedSize, if_neg (List.cons_ne_nil _ _), List.dropLast_cons_cons, List.map_cons]
          simp only [List.getLastD_cons, List.cons_append, List.flatten_cons]

/-- What the reader keeps on a well-formed blob: its blocks have a block of
data each, the cursor is inside the used part of `Block`, and
`BytesRemaining` counts what it has left, which is no more than the blob
holds. -/
structure Inv (blockSize : Nat) (reader : TReader) : Prop where
  blob : reader.blob.Valid blockSize
  sized : ∀ block ∈ reader.blocks, block.length = blockSize
  lastPos : reader.blocks ≠ [] → 0 < reader.blob.lastBlockSize
  inside : ∀ {block next}, reader.blocks = block :: next →
    reader.cursor < usedSize blockSize reader.blob.lastBlockSize next
  counted : reader.bytesRemaining = (reader.rest blockSize).length
  remainingLe : reader.bytesRemaining ≤ reader.blob.numBytes

/-- A reader made for a well-formed blob has the blob's data before it. -/
theorem inv_create {blockSize : Nat} {blob : TBlob} (valid : blob.Valid blockSize) :
    (create blob).Inv blockSize ∧ (create blob).rest blockSize = (blob.forEachBlock blockSize).flatten := by
  have whole : (create blob).rest blockSize = (blob.forEachBlock blockSize).flatten := by
    rw [rest, create, restAt_zero, usedData_eq_forEachBlock]
  refine ⟨⟨valid, valid.sized, valid.lastPos, fun {block next} listed => ?_, ?_, Nat.le_refl _⟩, whole⟩
  · -- the first block is used for a byte at least
    have last := valid.lastPos (by simp only [create] at listed; simp [listed])
    have le := valid.lastLe
    unfold usedSize
    split <;> simp only [create] <;> omega
  · rw [whole]
    exact valid.counted

section Loop

variable {blockSize : Nat} {blob : TBlob}

/-- The used part of a block, from the cursor on: the bytes `Advance()`
takes as available. -/
theorem length_usedPart {block : List UInt8} (next : List (List UInt8)) (cursor : Nat)
    (valid : blob.Valid blockSize) (sized : block.length = blockSize) :
    ((block.take (usedSize blockSize blob.lastBlockSize next)).drop cursor).length =
      usedSize blockSize blob.lastBlockSize next - cursor := by
  have le : usedSize blockSize blob.lastBlockSize next ≤ blockSize := by
    unfold usedSize
    split
    · exact valid.lastLe
    · exact Nat.le_refl _
  rw [List.length_drop, List.length_take, sized, Nat.min_eq_left le]

theorem drop_take_usedPart (block : List UInt8) (cursor avail end_ : Nat) (inside : cursor + avail ≤ end_) :
    (block.drop cursor).take avail = ((block.take end_).drop cursor).take avail := by
  rw [List.take_drop, List.take_drop, List.take_take, Nat.min_eq_left inside]

/-- The loop, asked for no more than is left: it takes the front of what is
left, and leaves a reader with the invariant and the rest.  By induction
on the blocks from `Block` on, one block a round. -/
theorem advanceLoop_of_le (valid : blob.Valid blockSize) :
    ∀ {blocks : List (List UInt8)} {cursor size : Nat}, (∀ block ∈ blocks, block.length = blockSize) →
      (blocks ≠ [] → 0 < blob.lastBlockSize) →
      (∀ {block next}, blocks = block :: next → cursor < usedSize blockSize blob.lastBlockSize next) →
      (restAt blockSize blob.lastBlockSize blocks cursor).length ≤ blob.numBytes →
      size ≤ (restAt blockSize blob.lastBlockSize blocks cursor).length →
      ∃ after, advanceLoop blockSize blob blocks cursor (restAt blockSize blob.lastBlockSize blocks cursor).length size =
          .ok ((restAt blockSize blob.lastBlockSize blocks cursor).take size, after) ∧
        after.Inv blockSize ∧ after.rest blockSize = (restAt blockSize blob.lastBlockSize blocks cursor).drop size ∧
        after.blob = blob := by
  intro blocks
  induction blocks with
  | nil =>
      intro cursor size _ _ _ _ enough
      have none : size = 0 := Nat.le_zero.mp enough
      subst none
      refine ⟨{ blob, blocks := [], cursor, bytesRemaining := 0 }, rfl,
        ⟨valid, by simp, by simp, fun listed => ?_, rfl, Nat.zero_le _⟩, rfl, rfl⟩
      cases listed
  | cons block next ih =>
      intro cursor size sized lastPos inside within enough
      have blockSized := sized block List.mem_cons_self
      have cursorInside := inside rfl
      have firstLength := length_usedPart next cursor valid blockSized
      have restAtCons : restAt blockSize blob.lastBlockSize (block :: next) cursor =
          (block.take (usedSize blockSize blob.lastBlockSize next)).drop cursor ++
            usedData blockSize blob.lastBlockSize next := rfl
      cases size with
      | zero =>
          refine ⟨⟨blob, block :: next, cursor, (restAt blockSize blob.lastBlockSize (block :: next) cursor).length⟩, rfl,
            ⟨valid, sized, lastPos, inside, rfl, within⟩, rfl, rfl⟩
      | succ size =>
          -- the used part of this block from the cursor on
          obtain ⟨first, firstDef⟩ : ∃ first, first =
              (block.take (usedSize blockSize blob.lastBlockSize next)).drop cursor := ⟨_, rfl⟩
          rw [← firstDef] at firstLength restAtCons
          simp only [advanceLoop]
          split_ifs with short
          · -- the read ends inside this block
            have inFirst : size + 1 ≤ first.length := by omega
            have taken : (block.drop cursor).take (size + 1) = first.take (size + 1) := by
              rw [firstDef,
                drop_take_usedPart block cursor (size + 1) (usedSize blockSize blob.lastBlockSize next) (by omega)]
            have restAfter : restAt blockSize blob.lastBlockSize (block :: next) (cursor + (size + 1)) =
                first.drop (size + 1) ++ usedData blockSize blob.lastBlockSize next := by
              rw [firstDef, List.drop_drop]
              rfl
            refine ⟨⟨blob, block :: next, cursor + (size + 1),
              (restAt blockSize blob.lastBlockSize (block :: next) cursor).length - (size + 1)⟩, ?_,
              ⟨valid, sized, lastPos, fun listed => ?_, ?_, ?_⟩, ?_, rfl⟩
            · rw [taken, restAtCons, List.take_append_of_le_length inFirst]
            · cases listed
              show cursor + (size + 1) < usedSize blockSize blob.lastBlockSize next
              omega
            · show (restAt blockSize blob.lastBlockSize (block :: next) cursor).length - (size + 1) =
                (restAt blockSize blob.lastBlockSize (block :: next) (cursor + (size + 1))).length
              rw [restAfter, restAtCons, List.length_append, List.length_append, List.length_drop]
              omega
            · show _ - (size + 1) ≤ blob.numBytes
              omega
            · show restAt blockSize blob.lastBlockSize (block :: next) (cursor + (size + 1)) = _
              rw [restAfter, restAtCons, List.drop_append_of_le_length inFirst]
          · -- this block is used up: on with the next, from its start
            have blockPos : 0 < blockSize := by
              have := valid.lastLe
              unfold usedSize at cursorInside
              split at cursorInside <;> omega
            have nextInside : ∀ {block' next'}, next = block' :: next' →
                0 < usedSize blockSize blob.lastBlockSize next' := by
              intro block' next' listed
              unfold usedSize
              split
              · exact lastPos (List.cons_ne_nil _ _)
              · exact blockPos
            have firstAll : (block.drop cursor).take (usedSize blockSize blob.lastBlockSize next - cursor) = first := by
              rw [firstDef, drop_take_usedPart block cursor _ (usedSize blockSize blob.lastBlockSize next) (by omega)]
              exact List.take_of_length_le (by rw [← firstDef, firstLength])
            have firstTaken : first.take (size + 1) = first := List.take_of_length_le (by omega)
            have firstDropped : first.drop (size + 1) = [] := List.drop_of_length_le (by omega)
            have remaining : (restAt blockSize blob.lastBlockSize (block :: next) cursor).length -
                (usedSize blockSize blob.lastBlockSize next - cursor) =
                (restAt blockSize blob.lastBlockSize next 0).length := by
              rw [restAtCons, List.length_append, firstLength, restAt_zero]
              omega
            rw [remaining]
            obtain ⟨after, looped, invAfter, restAfter, blobAfter⟩ :=
              @ih 0 (size + 1 - (usedSize blockSize blob.lastBlockSize next - cursor))
                (fun block' member => sized block' (List.mem_cons_of_mem _ member))
                (fun _ => lastPos (List.cons_ne_nil _ _)) (fun listed => nextInside listed)
                (by rw [← remaining]; omega) (by rw [← remaining]; omega)
            refine ⟨after, ?_, invAfter, ?_, blobAfter⟩
            · rw [looped, ok_bind, firstAll, restAtCons, restAt_zero, List.take_append, firstTaken, firstLength]
              rfl
            · rw [restAfter, restAt_zero, restAtCons, List.drop_append, firstDropped, firstLength, List.nil_append]

end Loop

section Calls

variable {blockSize : Nat} {reader : TReader}

/-- A call for no more than is left takes the front of what is left. -/
theorem Inv.advance_of_le (inv : reader.Inv blockSize) {size : Nat} (enough : size ≤ reader.bytesRemaining) :
    ∃ after, reader.advance blockSize size = .ok ((reader.rest blockSize).take size, after) ∧
      after.Inv blockSize ∧ after.rest blockSize = (reader.rest blockSize).drop size ∧ after.blob = reader.blob := by
  unfold advance
  split_ifs with none empty
  · subst none
    exact ⟨reader, rfl, inv, rfl, rfl⟩
  · have := inv.remainingLe
    omega
  · have counted := inv.counted
    rw [counted] at enough ⊢
    exact advanceLoop_of_le inv.blob inv.sized inv.lastPos inv.inside (counted ▸ inv.remainingLe) enough

/-- A reader reads back the bytes at its front. -/
theorem Inv.read_of_prefix (inv : reader.Inv blockSize) {data more : List UInt8}
    (front : reader.rest blockSize = data ++ more) :
    ∃ after, reader.read blockSize data.length = .ok (data, after) ∧ after.Inv blockSize ∧
      after.rest blockSize = more ∧ after.blob = reader.blob := by
  have enough : data.length ≤ reader.bytesRemaining := by
    rw [inv.counted, front, List.length_append]
    exact Nat.le_add_right _ _
  obtain ⟨after, advanced, inv', restAfter, blobAfter⟩ := inv.advance_of_le enough
  refine ⟨after, ?_, inv', ?_, blobAfter⟩
  · rw [read, advanced, front, List.take_left]
  · rw [restAfter, front, List.drop_left]

/-- A reader skips the bytes at its front. -/
theorem Inv.skip_of_prefix (inv : reader.Inv blockSize) {data more : List UInt8}
    (front : reader.rest blockSize = data ++ more) :
    ∃ after, reader.skip blockSize data.length = .ok after ∧ after.Inv blockSize ∧
      after.rest blockSize = more ∧ after.blob = reader.blob := by
  obtain ⟨after, readOk, inv', restAfter, blobAfter⟩ := inv.read_of_prefix front
  refine ⟨after, ?_, inv', restAfter, blobAfter⟩
  rw [skip, ← read, readOk]
  rfl

end Calls

end TReader

end Dory.Capped
