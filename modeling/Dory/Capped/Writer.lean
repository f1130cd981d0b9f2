/-
Module: Dory.Capped.Writer
Purpose: The capped blob storage of src/capped: `TPool` (pool.{h,cc}) as the
  writer uses it, `TWriter` (writer.{h,cc}), `TBlob` (blob.h) and the
  `MakeKeyAndValue` of src/dory/msg.cc, which builds every message's key and
  value with one writer.  A block is the list of its data bytes; the bytes
  of a block taken from the pool are whatever it held, zero here.  The
  writer's list runs from `FirstBlock`, and `LastBlock` is its last block,
  null when the list is empty; `Cursor` is an offset into that block.
  `Write` fills the last block, allocates `ceil(size / block_size)` new
  blocks, copies whole blocks while more than a block is left, and copies
  the rest into the block it stopped at.  With nothing written and nothing
  to write it allocates no block and takes the `Data` of a null block:
  `nullBlockDereference`, undefined behaviour in the source.  A message with
  an empty key is made that way.  Otherwise a write appends its bytes to
  the writer's contents and keeps every block but the last full.  Release
  builds define `NDEBUG`, so the asserts of the writer and the blob are not
  checked.
Trusted boundary: none
Main exports: TPool, TWriter, TBlob, TWriter.write, TWriter.draftBlob,
  TWriter.writeAll, makeKeyAndValue, TWriter.Valid, TWriter.contents,
  write_contents, writeAll_draftBlob, write_ok_of_le_room, makeKeyAndValue_contents,
  makeKeyAndValue_ok, write_nothing_to_empty, makeKeyAndValue_null_iff,
  makeKeyAndValue_empty_key
-/
import Mathlib
import Dory.Foundation.Buffer
import Dory.Foundation.Simulation

namespace Dory.Capped

open Dory.Foundation Dory.Foundation.Buffer

/-- What the capped storage can throw: `TMemoryCapReached` when the pool
runs out of blocks, and the data of a null block taken by `Write`. -/
inductive TCappedError where
  | memoryCapReached
  | nullBlockDereference
deriving DecidableEq, Repr

open TCappedError

/-- `sizeof(TBlock)` on a 64-bit target: the `NextBlock` pointer and a data
place-holder of `sizeof(void *)` bytes. -/
def sizeofTBlock : Nat := 16

/-- `TPool`: the size of a block, at least `sizeof(TBlock)` as its
constructor makes it, and the number of blocks on the free list. -/
structure TPool where
  blockSize : Nat
  freeCount : Nat
  holdsBlock : sizeofTBlock ≤ blockSize

namespace TPool

/-- `TPool(block_size, block_count, sync_policy)`. -/
def create (blockSize blockCount : Nat) : TPool :=
  ⟨max blockSize sizeofTBlock, blockCount, le_max_right _ _⟩

/-- `GetBlockOverhead()`: the `NextBlock` pointer. -/
def getBlockOverhead : Nat := 8

/-- `GetDataSize()`: the bytes of data a block holds. -/
def getDataSize (pool : TPool) : Nat := pool.blockSize - getBlockOverhead

theorem getDataSize_pos (pool : TPool) : 0 < pool.getDataSize := by
  have := pool.holdsBlock
  simp only [getDataSize, getBlockOverhead, sizeofTBlock] at this ⊢
  omega

/-- `AllocList(block_count)`: unlink `count` blocks from the free list, or
throw `TMemoryCapReached` (after returning the blocks taken so far); no
block for a count of 0. -/
def allocList (pool : TPool) : Nat → Except TCappedError (TPool × List (List UInt8))
  | 0 => .ok (pool, [])
  | count + 1 =>
      if pool.freeCount = 0 then .error memoryCapReached
      else do
        let (rest, blocks) ← allocList { pool with freeCount := pool.freeCount - 1 } count
        pure (rest, List.replicate pool.getDataSize 0 :: blocks)

theorem allocList_ok {pool rest : TPool} {count : Nat} {blocks : List (List UInt8)}
    (allocated : pool.allocList count = .ok (rest, blocks)) :
    blocks.length = count ∧ (∀ block ∈ blocks, block.length = pool.getDataSize) ∧
      rest.blockSize = pool.blockSize := by
  induction count generalizing pool blocks with
  | zero =>
      cases allocated
      simp
  | succ count ih =>
      simp only [allocList] at allocated
      split at allocated
      · cases allocated
      · obtain ⟨⟨rest', blocks'⟩, taken, linked⟩ := bind_eq_ok allocated
        cases linked
        obtain ⟨length, sizes, same⟩ := ih taken
        refine ⟨by simp [length], ?_, same⟩
        intro block member
        rcases List.mem_cons.mp member with rfl | later
        · simp
        · exact sizes block later

/-- With enough free blocks, `AllocList` succeeds. -/
theorem allocList_of_le {pool : TPool} {count : Nat} (enough : count ≤ pool.freeCount) :
    ∃ rest blocks, pool.allocList count = .ok (rest, blocks) := by
  induction count generalizing pool with
  | zero => exact ⟨pool, [], rfl⟩
  | succ count ih =>
      have fewer : count ≤ ({ pool with freeCount := pool.freeCount - 1 } : TPool).freeCount := by
        simp only
        omega
      obtain ⟨rest, blocks, taken⟩ := ih fewer
      refine ⟨rest, List.replicate pool.getDataSize 0 :: blocks, ?_⟩
      simp only [allocList, if_neg (show pool.freeCount ≠ 0 by omega), taken]
      rfl

end TPool

/-- `TBlob`: the blocks, the bytes used in the last one, and the size. -/
structure TBlob where
  blocks : List (List UInt8) := []
  lastBlockSize : Nat := 0
  numBytes : Nat := 0
deriving DecidableEq, Repr

/-- The blocks `ForEachBlock` visits: each block's data, all of it but in
the last block, where only `LastBlockSize` bytes are used. -/
def TBlob.forEachBlock (blockSize : Nat) (blob : TBlob) : List (List UInt8) :=
  match blob.blocks with
  | [] => []
  | _ :: _ => blob.blocks.dropLast.map (·.take blockSize) ++ [blob.blocks.getLastD [] |>.take blob.lastBlockSize]

/-- `TWriter`: the blocks from `FirstBlock` (`LastBlock` is the last of
them, null when there are none), `Cursor` as an offset into the last block,
and `NumBytes`.  The defaults are `Init()`. -/
structure TWriter where
  blocks : List (List UInt8) := []
  cursor : Nat := 0
  numBytes : Nat := 0
deriving DecidableEq, Repr

namespace TWriter

/-- The loop of `Write` that copies the new data into the allocated blocks:
whole blocks while more than a block is left, then the rest into the block
it stopped at, which becomes `LastBlock`, with `Cursor` after the rest.
Taking the data of a null block is `nullBlockDereference`. -/
def fillBlocks (blockSize : Nat) : List (List UInt8) → List UInt8 →
    Except TCappedError (List (List UInt8) × Nat)
  | [], _ => .error nullBlockDereference
  | block :: rest, data =>
      if data.length > blockSize then do
        let (rest, cursor) ← fillBlocks blockSize rest (data.drop blockSize)
        pure (overwrite block 0 (data.take blockSize) :: rest, cursor)
      else .ok (overwrite block 0 data :: rest, data.length)

/-- The part of `Write` after `link` is chosen: allocate the blocks for the
rest of the data, link them after `linked`, and fill them. -/
def linkNewBlocks (pool : TPool) (linked : List (List UInt8)) (data : List UInt8) (numBytes : Nat) :
    Except TCappedError (TPool × TWriter) := do
  let blockSize := pool.getDataSize
  let (pool, blocks) ← pool.allocList ((data.length + blockSize - 1) / blockSize)
  let (blocks, cursor) ← fillBlocks blockSize blocks data
  pure (pool, { blocks := linked ++ blocks, cursor, numBytes })

/-- `Write(data, size)`. -/
def write (writer : TWriter) (pool : TPool) (data : List UInt8) : Except TCappedError (TPool × TWriter) :=
  let blockSize := pool.getDataSize
  match writer.blocks with
  | [] =>
      -- no blocks yet: the new ones become the list
      linkNewBlocks pool [] data (writer.numBytes + data.length)
  | _ :: _ =>
      let avail := blockSize - writer.cursor
      if data.length ≤ avail then
        .ok (pool, { writer with
          blocks := writer.blocks.modifyLast (overwrite · writer.cursor data)
          cursor := writer.cursor + data.length
          numBytes := writer.numBytes + data.length })
      else
        -- fill the last block, and link the new ones after it
        linkNewBlocks pool (writer.blocks.modifyLast (overwrite · writer.cursor (data.take avail)))
          (data.drop avail) (writer.numBytes + data.length)

/-- `DraftBlob()`: the blob of what was written, and the writer back to
`Init()`; with no blocks, an empty blob. -/
def draftBlob (writer : TWriter) : TBlob × TWriter :=
  match writer.blocks with
  | [] => ({}, writer)
  | _ :: _ => ({ blocks := writer.blocks, lastBlockSize := writer.cursor, numBytes := writer.numBytes }, {})

/-- `Write` called with each piece of data in turn. -/
def writeAll (writer : TWriter) (pool : TPool) : List (List UInt8) → Except TCappedError (TPool × TWriter)
  | [] => .ok (pool, writer)
  | data :: rest => do
      let (pool, writer) ← writer.write pool data
      writeAll writer pool rest

end TWriter

/-- `MakeKeyAndValue(key, key_size, value, value_size, pool)` of msg.cc: one
writer, the key written and then the value, and the drafted blob. -/
def makeKeyAndValue (key value : List UInt8) (pool : TPool) : Except TCappedError (TPool × TBlob) := do
  let (pool, writer) ← ({} : TWriter).write pool key
  let (pool, writer) ← writer.write pool value
  pure (pool, writer.draftBlob.1)

/-! ### What a write does to the contents -/

namespace TWriter

/-- The bytes the writer holds: every block but the last whole, and the last
up to the cursor. -/
def contents (writer : TWriter) : List UInt8 :=
  writer.blocks.dropLast.flatten ++ (writer.blocks.getLastD []).take writer.cursor

/-- What `Write` keeps of a writer: every block holds `blockSize` bytes, the
cursor is inside the last block and past its first byte, and `NumBytes`
counts the contents. -/
structure Valid (blockSize : Nat) (writer : TWriter) : Prop where
  sized : ∀ block ∈ writer.blocks, block.length = blockSize
  cursorLe : writer.cursor ≤ blockSize
  lastUsed : writer.blocks ≠ [] → 0 < writer.cursor
  counted : writer.numBytes = writer.contents.length

theorem valid_init (blockSize : Nat) : ({} : TWriter).Valid blockSize :=
  ⟨by simp, by simp, by simp, by simp [contents]⟩

theorem overwrite_zero (block chunk : List UInt8) :
    overwrite block 0 chunk = chunk ++ block.drop chunk.length := by
  simp [overwrite]

theorem contents_of_split {writer : TWriter} {init : List (List UInt8)} {last : List UInt8}
    (split : writer.blocks = init ++ [last]) :
    writer.contents = init.flatten ++ last.take writer.cursor := by
  rw [contents, split, List.dropLast_concat, List.getLastD_concat]

section Fill

variable {blockSize : Nat}

/-- Allocated blocks enough for the data, and no more, are filled with it:
whole blocks and then a last block holding between 1 and `blockSize` of its
bytes. -/
theorem fillBlocks_ok (positive : 0 < blockSize) {blocks : List (List UInt8)} {data : List UInt8}
    (sized : ∀ block ∈ blocks, block.length = blockSize)
    (exact : blocks.length = (data.length + blockSize - 1) / blockSize) (nonempty : data ≠ []) :
    ∃ init last cursor, fillBlocks blockSize blocks data = .ok (init ++ [last], cursor) ∧
      (∀ block ∈ init ++ [last], block.length = blockSize) ∧ 0 < cursor ∧ cursor ≤ blockSize ∧
      init.flatten ++ last.take cursor = data := by
  have some : 0 < data.length := List.length_pos_iff.mpr nonempty
  induction blocks generalizing data with
  | nil =>
      -- at least one block is allocated for nonempty data
      have : 1 ≤ (data.length + blockSize - 1) / blockSize :=
        (Nat.le_div_iff_mul_le positive).mpr (by omega)
      simp only [List.length_nil] at exact
      omega
  | cons block rest ih =>
      have blockSized := sized block List.mem_cons_self
      by_cases more : data.length > blockSize
      · -- a whole block, and the rest of the data in the rest of the blocks
        have restExact : rest.length = ((data.drop blockSize).length + blockSize - 1) / blockSize := by
          have shift : data.length + blockSize - 1 = (data.length - blockSize + blockSize - 1) + blockSize := by
            omega
          rw [List.length_cons, shift, Nat.add_div_right _ positive] at exact
          simp only [List.length_drop]
          omega
        obtain ⟨init, last, cursor, fill, filledSized, pos, le, filledContents⟩ :=
          ih (fun b member => sized b (List.mem_cons_of_mem _ member)) restExact
            (by simp only [ne_eq, List.drop_eq_nil_iff]; omega) (by simp only [List.length_drop]; omega)
        have whole : overwrite block 0 (data.take blockSize) = data.take blockSize := by
          rw [overwrite_zero, List.length_take_of_le (by omega), List.drop_eq_nil_of_le (by omega),
            List.append_nil]
        refine ⟨data.take blockSize :: init, last, cursor, ?_, ?_, pos, le, ?_⟩
        · simp only [fillBlocks, if_pos more, fill, ok_bind, whole]
          rfl
        · intro b member
          rcases List.mem_cons.mp member with rfl | later
          · simp only [List.length_take]
            omega
          · exact filledSized b later
        · rw [List.flatten_cons, List.append_assoc, filledContents, List.take_append_drop]
      · -- the rest of the data fits in this block, the last one allocated
        have one : (data.length + blockSize - 1) / blockSize = 1 :=
          Nat.div_eq_of_lt_le (by omega) (by omega)
        have none : rest = [] := by
          simp only [List.length_cons, one] at exact
          exact List.length_eq_zero_iff.mp (by omega)
        subst none
        refine ⟨[], overwrite block 0 data, data.length, ?_, ?_, some, by omega, ?_⟩
        · simp only [fillBlocks, if_neg more]
          rfl
        · simp only [List.nil_append, List.mem_singleton, forall_eq, overwrite_zero, List.length_append,
            List.length_drop, blockSized]
          omega
        · simp [overwrite_zero]

end Fill

/-- New blocks linked after full ones hold the data: the writer's contents
are the full blocks and then the data, and the last block is used. -/
theorem linkNewBlocks_ok {pool rest : TPool} {linked : List (List UInt8)} {data : List UInt8}
    {numBytes : Nat} {writer : TWriter}
    (linkedSized : ∀ block ∈ linked, block.length = pool.getDataSize)
    (linkedNew : linkNewBlocks pool linked data numBytes = .ok (rest, writer)) :
    (∀ block ∈ writer.blocks, block.length = pool.getDataSize) ∧ writer.cursor ≤ pool.getDataSize ∧
      0 < writer.cursor ∧ writer.contents = linked.flatten ++ data ∧ writer.numBytes = numBytes ∧
      rest.blockSize = pool.blockSize := by
  unfold linkNewBlocks at linkedNew
  obtain ⟨⟨allocatedPool, blocks⟩, allocated, filling⟩ := bind_eq_ok linkedNew
  obtain ⟨count, sized, sameSize⟩ := TPool.allocList_ok allocated
  obtain ⟨⟨filledBlocks, cursor⟩, fill, linkedUp⟩ := bind_eq_ok filling
  obtain ⟨rfl, rfl⟩ := Prod.mk.inj (Except.ok.inj linkedUp)
  -- nothing to write allocates no block, and filling none fails
  have nonempty : data ≠ [] := by
    rintro rfl
    have none : blocks = [] := List.length_eq_zero_iff.mp (by
      rw [count, List.length_nil, Nat.zero_add]
      exact Nat.div_eq_of_lt (by have := pool.getDataSize_pos; omega))
    subst none
    cases fill
  obtain ⟨init, last, cursor', filled, filledSized, pos, le, filledContents⟩ :=
    fillBlocks_ok pool.getDataSize_pos sized count nonempty
  rw [filled] at fill
  obtain ⟨rfl, rfl⟩ := Prod.mk.inj (Except.ok.inj fill)
  refine ⟨?_, le, pos, ?_, rfl, sameSize⟩
  · intro block member
    rcases List.mem_append.mp member with old | new
    · exact linkedSized block old
    · exact filledSized block new
  · rw [contents_of_split (List.append_assoc linked init [last]).symm, List.flatten_append,
      List.append_assoc, filledContents]

/-- A successful `Write` keeps the writer valid and appends its data to the
contents. -/
theorem write_contents {writer after : TWriter} {pool rest : TPool} {data : List UInt8}
    (valid : writer.Valid pool.getDataSize) (written : writer.write pool data = .ok (rest, after)) :
    after.Valid pool.getDataSize ∧ after.contents = writer.contents ++ data ∧
      rest.blockSize = pool.blockSize := by
  unfold write at written
  split at written
  · -- no blocks: the new ones hold everything
    rename_i empty
    have nothing : writer.contents = [] := by simp [contents, empty]
    obtain ⟨sized, le, pos, contents, count, same⟩ := linkNewBlocks_ok (by simp) written
    rw [List.flatten_nil, List.nil_append] at contents
    refine ⟨⟨sized, le, fun _ => pos, ?_⟩, by rw [contents, nothing, List.nil_append], same⟩
    rw [count, valid.counted, nothing, contents]
    simp
  · rename_i first others listed
    obtain ⟨init, last, split⟩ := (List.eq_nil_or_concat writer.blocks).resolve_left (by simp [listed])
    rw [List.concat_eq_append] at split
    have lastSized : last.length = pool.getDataSize := valid.sized last (by simp [split])
    have initSized : ∀ block ∈ init, block.length = pool.getDataSize :=
      fun block member => valid.sized block (by simp [split, member])
    have before : writer.contents = init.flatten ++ last.take writer.cursor := contents_of_split split
    have cursorLe := valid.cursorLe
    dsimp only at written
    split at written
    · -- the data fits after the cursor
      rename_i fits
      obtain ⟨rfl, rfl⟩ := Prod.mk.inj (Except.ok.inj written)
      have stored : (overwrite last writer.cursor data).take (writer.cursor + data.length) =
          last.take writer.cursor ++ data := take_overwrite (by omega)
      have used := valid.lastUsed (by simp [split])
      refine ⟨⟨?_, ?_, fun _ => by simp only; omega, ?_⟩, ?_, rfl⟩
      · intro block member
        rw [split, List.modifyLast_concat] at member
        rcases List.mem_append.mp member with old | new
        · exact initSized block old
        · rw [List.mem_singleton.mp new, length_overwrite (by omega), lastSized]
      · simp only
        omega
      · simp only [contents, split, List.modifyLast_concat, List.dropLast_concat, List.getLastD_concat,
          stored, List.length_append, valid.counted]
        omega
      · simp only [contents, split, List.modifyLast_concat, List.dropLast_concat, List.getLastD_concat,
          stored, List.append_assoc]
    · -- the last block is filled and the rest goes to new blocks
      rename_i overflows
      have filledLast : overwrite last writer.cursor (data.take (pool.getDataSize - writer.cursor)) =
          last.take writer.cursor ++ data.take (pool.getDataSize - writer.cursor) :=
        overwrite_to_end (by rw [List.length_take_of_le (by omega)]; omega)
      have linkedSized : ∀ block ∈ writer.blocks.modifyLast
          (overwrite · writer.cursor (data.take (pool.getDataSize - writer.cursor))),
          block.length = pool.getDataSize := by
        intro block member
        rw [split, List.modifyLast_concat] at member
        rcases List.mem_append.mp member with old | new
        · exact initSized block old
        · rw [List.mem_singleton.mp new, filledLast, List.length_append, List.length_take_of_le (by omega),
            List.length_take_of_le (by omega)]
          omega
      obtain ⟨sized, le, pos, contents, count, same⟩ := linkNewBlocks_ok linkedSized written
      have appended : after.contents = writer.contents ++ data := by
        rw [contents, split, List.modifyLast_concat, filledLast, before, List.flatten_append,
          List.flatten_singleton, List.append_assoc, List.append_assoc, List.append_assoc,
          List.take_append_drop]
      refine ⟨⟨sized, le, fun _ => pos, ?_⟩, appended, same⟩
      rw [count, appended, List.length_append, valid.counted]


/-- A valid writer drafts a blob whose blocks hold exactly its contents. -/
theorem draftBlob_contents {blockSize : Nat} {writer : TWriter} (valid : writer.Valid blockSize) :
    (writer.draftBlob.1.forEachBlock blockSize).flatten = writer.contents ∧
      writer.draftBlob.1.numBytes = writer.contents.length := by
  rcases List.eq_nil_or_concat writer.blocks with empty | ⟨init, last, split⟩
  · simp [draftBlob, TBlob.forEachBlock, contents, empty]
  · rw [List.concat_eq_append] at split
    -- every block but the last is full, so taking `blockSize` of it keeps it
    have whole : init.map (·.take blockSize) = init := by
      conv_rhs => rw [← List.map_id init]
      refine List.map_congr_left (fun block member => ?_)
      exact List.take_of_length_le (le_of_eq (valid.sized block (by simp [split, member])))
    have listed : writer.blocks ≠ [] := by simp [split]
    unfold draftBlob
    split
    · contradiction
    · refine ⟨?_, valid.counted⟩
      simp only [TBlob.forEachBlock]
      split
      · contradiction
      · rw [split, List.dropLast_concat, whole, List.getLastD_concat, List.flatten_append,
          List.flatten_singleton, contents_of_split split]

/-- A run of writes that succeeds keeps the writer valid and appends every
piece in order. -/
theorem writeAll_contents {writer after : TWriter} {pool rest : TPool} {pieces : List (List UInt8)}
    (valid : writer.Valid pool.getDataSize) (written : writer.writeAll pool pieces = .ok (rest, after)) :
    after.Valid pool.getDataSize ∧ after.contents = writer.contents ++ pieces.flatten := by
  induction pieces generalizing writer pool with
  | nil =>
      cases written
      simp [valid]
  | cons data pieces ih =>
      obtain ⟨⟨pool', writer'⟩, first, others⟩ := bind_eq_ok written
      obtain ⟨valid', contents', sameSize⟩ := write_contents valid first
      have sameData : pool'.getDataSize = pool.getDataSize := by simp [TPool.getDataSize, sameSize]
      rw [← sameData] at valid'
      obtain ⟨validAfter, contentsAfter⟩ := ih valid' others
      rw [sameData] at validAfter
      exact ⟨validAfter, by rw [contentsAfter, contents', List.flatten_cons, List.append_assoc]⟩


/-- Writes into a new writer that all succeed, and the blob drafted after
them: its blocks hold the pieces in order, its size is their total, every
block but the last is full, and the last holds between 1 and a block of
bytes. -/
theorem writeAll_draftBlob {pool rest : TPool} {pieces : List (List UInt8)} {writer : TWriter}
    (written : ({} : TWriter).writeAll pool pieces = .ok (rest, writer)) :
    (writer.draftBlob.1.forEachBlock pool.getDataSize).flatten = pieces.flatten ∧
      writer.draftBlob.1.numBytes = pieces.flatten.length ∧
      (∀ block ∈ writer.draftBlob.1.blocks, block.length = pool.getDataSize) ∧
      (writer.draftBlob.1.blocks ≠ [] →
        0 < writer.draftBlob.1.lastBlockSize ∧ writer.draftBlob.1.lastBlockSize ≤ pool.getDataSize) := by
  obtain ⟨valid, contents⟩ := writeAll_contents (valid_init _) written
  have initEmpty : ({} : TWriter).contents = [] := by simp [TWriter.contents]
  rw [initEmpty, List.nil_append] at contents
  obtain ⟨blocks, counted⟩ := draftBlob_contents valid
  refine ⟨by rw [blocks, contents], by rw [counted, contents], ?_, ?_⟩
  all_goals
    unfold draftBlob
    split
  · simp
  · exact valid.sized
  · simp
  · rename_i listed
    exact fun _ => ⟨valid.lastUsed (by simp [listed]), valid.cursorLe⟩

/-- A write of 10 bytes and one of 20 into blocks of 16 data bytes: the
second fills the first block and goes on into a block it allocates, so the
blob has two full-size blocks, the last one used for 14 bytes. -/
theorem writeAll_draftBlob_twoPieces :
    ∃ rest writer, ({} : TWriter).writeAll (TPool.create 24 4) [List.replicate 10 1, List.replicate 20 2] =
        .ok (rest, writer) ∧
      (writer.draftBlob.1.forEachBlock (TPool.create 24 4).getDataSize).flatten =
        List.replicate 10 1 ++ List.replicate 20 2 ∧
      writer.draftBlob.1.numBytes = 30 ∧ (∀ block ∈ writer.draftBlob.1.blocks, block.length = 16) ∧
      writer.draftBlob.1.blocks.length = 2 ∧ writer.draftBlob.1.lastBlockSize = 14 := by
  have written : ({} : TWriter).writeAll (TPool.create 24 4) [List.replicate 10 1, List.replicate 20 2] =
      .ok (_, _) := rfl
  have drafted := writeAll_draftBlob written
  exact ⟨_, _, written, by simpa using drafted.1, drafted.2.1, drafted.2.2.1, rfl, rfl⟩

end TWriter

/-! ### Room left in the pool -/

namespace TPool

/-- A successful `AllocList` took its blocks from the free list. -/
theorem allocList_freeCount {pool rest : TPool} {count : Nat} {blocks : List (List UInt8)}
    (allocated : pool.allocList count = .ok (rest, blocks)) :
    count ≤ pool.freeCount ∧ rest.freeCount = pool.freeCount - count := by
  induction count generalizing pool blocks with
  | zero =>
      cases allocated
      simp
  | succ count ih =>
      simp only [allocList] at allocated
      split at allocated
      · cases allocated
      · obtain ⟨⟨rest', blocks'⟩, taken, linked⟩ := bind_eq_ok allocated
        cases linked
        obtain ⟨le, free⟩ := ih taken
        simp only at le free ⊢
        omega

/-- The `(size + block_size - 1) / block_size` blocks `Write` allocates
hold `size` bytes, and that many blocks are free exactly when the free
blocks hold `size` bytes. -/
theorem blocksFor_spec {dataSize : Nat} (positive : 0 < dataSize) (size free : Nat) :
    size ≤ (size + dataSize - 1) / dataSize * dataSize ∧
      ((size + dataSize - 1) / dataSize ≤ free ↔ size ≤ free * dataSize) := by
  have above := Nat.lt_mul_div_succ (size + dataSize - 1) positive
  have bound := Nat.div_le_iff_le_mul_add_pred (a := size + dataSize - 1) (c := free) positive
  rw [Nat.mul_comm dataSize free] at bound
  rw [Nat.mul_add, Nat.mul_one, Nat.mul_comm] at above
  constructor
  · omega
  · rw [bound]
    omega

end TPool

namespace TWriter

theorem length_flatten_of_sized {blocks : List (List UInt8)} {blockSize : Nat}
    (sized : ∀ block ∈ blocks, block.length = blockSize) :
    blocks.flatten.length = blocks.length * blockSize := by
  induction blocks with
  | nil => simp
  | cons block blocks ih =>
      rw [List.flatten_cons, List.length_append, sized block List.mem_cons_self,
        ih (fun other member => sized other (List.mem_cons_of_mem _ member)), List.length_cons, Nat.succ_mul,
        Nat.add_comm]

/-- Every block but the last is full, and the last is used up to the
cursor. -/
theorem length_contents_of_split {writer : TWriter} {blockSize : Nat} (valid : writer.Valid blockSize)
    {init : List (List UInt8)} {last : List UInt8} (split : writer.blocks = init ++ [last]) :
    writer.contents.length = init.length * blockSize + writer.cursor := by
  have lastSized : last.length = blockSize := valid.sized last (by simp [split])
  have initSized : ∀ block ∈ init, block.length = blockSize :=
    fun block member => valid.sized block (by simp [split, member])
  rw [contents_of_split split, List.length_append, length_flatten_of_sized initSized,
    List.length_take_of_le (by rw [lastSized]; exact valid.cursorLe)]

/-- The contents fill the blocks up to the cursor, never past them. -/
theorem length_contents_le {writer : TWriter} {blockSize : Nat} (valid : writer.Valid blockSize) :
    writer.contents.length ≤ writer.blocks.length * blockSize := by
  rcases List.eq_nil_or_concat writer.blocks with empty | ⟨init, last, split⟩
  · simp [contents, empty]
  · rw [List.concat_eq_append] at split
    rw [length_contents_of_split valid split, split, List.length_append, List.length_singleton,
      Nat.add_mul, Nat.one_mul]
    exact Nat.add_le_add_left valid.cursorLe _

/-- `Write` on a writer with no blocks: all the data goes to new blocks. -/
theorem write_of_nil {writer : TWriter} (pool : TPool) (data : List UInt8) (empty : writer.blocks = []) :
    writer.write pool data = linkNewBlocks pool [] data (writer.numBytes + data.length) := by
  simp only [write, empty]

/-- `Write` on a writer with blocks: the data fits after the cursor, or
fills the last block and goes on in new blocks. -/
theorem write_of_ne_nil {writer : TWriter} (pool : TPool) (data : List UInt8) (listed : writer.blocks ≠ []) :
    writer.write pool data =
      if data.length ≤ pool.getDataSize - writer.cursor then
        .ok (pool, { writer with
          blocks := writer.blocks.modifyLast (overwrite · writer.cursor data)
          cursor := writer.cursor + data.length
          numBytes := writer.numBytes + data.length })
      else
        linkNewBlocks pool
          (writer.blocks.modifyLast (overwrite · writer.cursor (data.take (pool.getDataSize - writer.cursor))))
          (data.drop (pool.getDataSize - writer.cursor)) (writer.numBytes + data.length) := by
  unfold write
  split
  · contradiction
  · rfl

theorem length_fillBlocks {blockSize : Nat} {blocks filled : List (List UInt8)} {data : List UInt8}
    {cursor : Nat} (fill : fillBlocks blockSize blocks data = .ok (filled, cursor)) :
    filled.length = blocks.length := by
  induction blocks generalizing data filled with
  | nil => cases fill
  | cons block rest ih =>
      simp only [fillBlocks] at fill
      split at fill
      · obtain ⟨⟨filledRest, cursor'⟩, restFill, linked⟩ := bind_eq_ok fill
        cases linked
        simp [ih restFill]
      · cases fill
        simp

/-- The bytes the writer can still take before the pool runs out: the rest
of its blocks after the cursor, and the free blocks. -/
def room (writer : TWriter) (pool : TPool) : Nat :=
  writer.blocks.length * pool.getDataSize - writer.contents.length + pool.freeCount * pool.getDataSize

/-- With enough free blocks, new blocks for nonempty data are allocated and
linked after `linked`, and the pool has that many fewer. -/
theorem linkNewBlocks_of_le {pool : TPool} (linked : List (List UInt8)) {data : List UInt8}
    (numBytes : Nat) (nonempty : data ≠ []) (enough : data.length ≤ pool.freeCount * pool.getDataSize) :
    ∃ rest writer, linkNewBlocks pool linked data numBytes = .ok (rest, writer) ∧
      writer.blocks.length = linked.length + (data.length + pool.getDataSize - 1) / pool.getDataSize ∧
      rest.freeCount = pool.freeCount - (data.length + pool.getDataSize - 1) / pool.getDataSize := by
  have free := ((TPool.blocksFor_spec pool.getDataSize_pos data.length pool.freeCount).2).mpr enough
  obtain ⟨allocatedPool, blocks, allocated⟩ := TPool.allocList_of_le free
  obtain ⟨count, sized, -⟩ := TPool.allocList_ok allocated
  obtain ⟨-, taken⟩ := TPool.allocList_freeCount allocated
  obtain ⟨init, last, cursor, filled, -⟩ := fillBlocks_ok pool.getDataSize_pos sized count nonempty
  have filledLength := length_fillBlocks filled
  refine ⟨allocatedPool, { blocks := linked ++ (init ++ [last]), cursor, numBytes }, ?_, ?_, taken⟩
  · simp only [linkNewBlocks, allocated, ok_bind, filled]
    rfl
  · rw [List.length_append, filledLength, count]

/-- A write that fits in the room left succeeds, and leaves that much less
room.  With no blocks, only nonempty data can be written. -/
theorem write_ok_of_le_room {writer : TWriter} {pool : TPool} {data : List UInt8}
    (valid : writer.Valid pool.getDataSize) (started : writer.blocks ≠ [] ∨ data ≠ [])
    (fits : data.length ≤ writer.room pool) :
    ∃ rest after, writer.write pool data = .ok (rest, after) ∧
      after.room rest = writer.room pool - data.length := by
  suffices written : ∃ rest after, writer.write pool data = .ok (rest, after) ∧
      after.blocks.length * pool.getDataSize + rest.freeCount * pool.getDataSize =
        writer.blocks.length * pool.getDataSize + pool.freeCount * pool.getDataSize by
    -- the blocks taken from the pool join the writer, and the data fills them
    obtain ⟨rest, after, write, capacity⟩ := written
    obtain ⟨validAfter, appended, sameSize⟩ := write_contents valid write
    have sameData : rest.getDataSize = pool.getDataSize := by simp [TPool.getDataSize, sameSize]
    refine ⟨rest, after, write, ?_⟩
    have used : after.contents.length = writer.contents.length + data.length := by
      rw [appended, List.length_append]
    have filled := length_contents_le valid
    have filledAfter := length_contents_le validAfter
    unfold room at fits ⊢
    rw [sameData, used]
    rw [used] at filledAfter
    -- the products are numbers to `omega`
    generalize after.blocks.length * pool.getDataSize = afterCapacity at *
    generalize writer.blocks.length * pool.getDataSize = beforeCapacity at *
    generalize rest.freeCount * pool.getDataSize = restFree at *
    generalize pool.freeCount * pool.getDataSize = free at *
    omega
  have positive := pool.getDataSize_pos
  rcases List.eq_nil_or_concat writer.blocks with empty | ⟨init, last, split⟩
  · -- no blocks: every byte goes to new blocks
    have nonempty : data ≠ [] := started.resolve_left (by simp [empty])
    have nothing : writer.contents = [] := by simp [contents, empty]
    simp only [room, empty, nothing, List.length_nil, Nat.zero_mul, Nat.zero_sub, Nat.zero_add] at fits
    obtain ⟨rest, after, linked, count, taken⟩ :=
      linkNewBlocks_of_le [] (writer.numBytes + data.length) nonempty fits
    have free := ((TPool.blocksFor_spec positive data.length pool.freeCount).2).mpr fits
    refine ⟨rest, after, by rw [write_of_nil pool data empty, linked], ?_⟩
    rw [count, taken, empty, List.length_nil, Nat.zero_add, Nat.sub_mul, Nat.zero_mul, Nat.zero_add]
    have le := Nat.mul_le_mul_right pool.getDataSize free
    omega
  · rw [List.concat_eq_append] at split
    have used := length_contents_of_split valid split
    have listed : writer.blocks ≠ [] := by simp [split]
    have lastChanged (f : List UInt8 → List UInt8) : (writer.blocks.modifyLast f).length = writer.blocks.length := by
      simp [split, List.modifyLast_concat]
    simp only [room, split, used, List.length_append, List.length_singleton, Nat.add_mul, Nat.one_mul]
      at fits
    by_cases fitsLast : data.length ≤ pool.getDataSize - writer.cursor
    · -- the data fits after the cursor: no block is allocated
      rw [write_of_ne_nil pool data listed, if_pos fitsLast]
      refine ⟨pool, _, rfl, ?_⟩
      rw [lastChanged]
    · -- the rest of the last block is filled and the remaining bytes go to new blocks
      have nonempty : data.drop (pool.getDataSize - writer.cursor) ≠ [] := by
        simp only [ne_eq, List.drop_eq_nil_iff]
        omega
      have enough : (data.drop (pool.getDataSize - writer.cursor)).length ≤
          pool.freeCount * pool.getDataSize := by
        simp only [List.length_drop]
        omega
      obtain ⟨rest, after, linked, count, taken⟩ := linkNewBlocks_of_le
        (writer.blocks.modifyLast (overwrite · writer.cursor (data.take (pool.getDataSize - writer.cursor))))
        (writer.numBytes + data.length) nonempty enough
      have free := ((TPool.blocksFor_spec positive _ pool.freeCount).2).mpr enough
      refine ⟨rest, after, by rw [write_of_ne_nil pool data listed, if_neg fitsLast, linked], ?_⟩
      rw [count, taken, lastChanged, Nat.add_mul, Nat.sub_mul]
      have le := Nat.mul_le_mul_right pool.getDataSize free
      omega

end TWriter

/-- A blob made for a key and a value holds the key and then the value. -/
theorem makeKeyAndValue_contents {key value : List UInt8} {pool rest : TPool} {blob : TBlob}
    (made : makeKeyAndValue key value pool = .ok (rest, blob)) :
    (blob.forEachBlock pool.getDataSize).flatten = key ++ value ∧
      blob.numBytes = key.length + value.length ∧ rest.blockSize = pool.blockSize := by
  obtain ⟨⟨pool', writer⟩, keyWritten, valueStep⟩ := bind_eq_ok made
  obtain ⟨⟨rest', after⟩, valueWritten, drafted⟩ := bind_eq_ok valueStep
  obtain ⟨rfl, rfl⟩ := Prod.mk.inj (Except.ok.inj drafted)
  have initValid : ({} : TWriter).Valid pool.getDataSize := TWriter.valid_init _
  have initEmpty : ({} : TWriter).contents = [] := by simp [TWriter.contents]
  obtain ⟨keyValid, keyContents, keySize⟩ := TWriter.write_contents initValid keyWritten
  have sameData : pool'.getDataSize = pool.getDataSize := by simp [TPool.getDataSize, keySize]
  rw [← sameData] at keyValid
  obtain ⟨valueValid, valueContents, valueSize⟩ := TWriter.write_contents keyValid valueWritten
  rw [sameData] at valueValid
  obtain ⟨blocks, counted⟩ := TWriter.draftBlob_contents valueValid
  refine ⟨?_, ?_, by rw [valueSize, keySize]⟩
  · rw [blocks, valueContents, keyContents, initEmpty, List.nil_append]
  · rw [counted, valueContents, keyContents, initEmpty, List.nil_append, List.length_append]

/-- With a nonempty key and room in the pool for the key and the value, a
message's key and value are made. -/
theorem makeKeyAndValue_ok {key value : List UInt8} {pool : TPool} (keyed : key ≠ [])
    (enough : key.length + value.length ≤ pool.freeCount * pool.getDataSize) :
    ∃ rest blob, makeKeyAndValue key value pool = .ok (rest, blob) := by
  have initValid : ({} : TWriter).Valid pool.getDataSize := TWriter.valid_init _
  have initRoom : ({} : TWriter).room pool = pool.freeCount * pool.getDataSize := by
    simp [TWriter.room, TWriter.contents]
  obtain ⟨pool', writer, keyWritten, keyRoom⟩ :=
    TWriter.write_ok_of_le_room initValid (.inr keyed) (by rw [initRoom]; omega)
  obtain ⟨keyValid, keyContents, keySize⟩ := TWriter.write_contents initValid keyWritten
  have sameData : pool'.getDataSize = pool.getDataSize := by simp [TPool.getDataSize, keySize]
  -- the key's bytes left the writer with a block, and room for the value
  have listed : writer.blocks ≠ [] := by
    intro empty
    simp [TWriter.contents, empty] at keyContents
    exact keyed keyContents
  rw [← sameData] at keyValid
  have valueFits : value.length ≤ writer.room pool' := by
    rw [keyRoom, initRoom]
    omega
  obtain ⟨rest, after, valueWritten, -⟩ := TWriter.write_ok_of_le_room keyValid (.inl listed) valueFits
  refine ⟨rest, after.draftBlob.1, ?_⟩
  simp only [makeKeyAndValue, keyWritten, ok_bind, valueWritten]
  rfl

/-! ### Writing nothing to an empty writer -/

namespace TWriter

/-- With no blocks, writing no bytes allocates no block and takes the data
of the null block it got. -/
theorem write_nothing_to_empty {writer : TWriter} (pool : TPool) (empty : writer.blocks = []) :
    writer.write pool [] = .error nullBlockDereference := by
  have none : ([] : List UInt8).length + pool.getDataSize - 1 < pool.getDataSize := by
    have := pool.getDataSize_pos
    simp only [List.length_nil, Nat.zero_add]
    omega
  simp only [write, empty, linkNewBlocks, Nat.div_eq_of_lt none, TPool.allocList, ok_bind]
  rfl

end TWriter

namespace TPool

/-- `AllocList` throws nothing but `TMemoryCapReached`. -/
theorem allocList_error {pool : TPool} {count : Nat} {e : TCappedError}
    (failed : pool.allocList count = .error e) : e = memoryCapReached := by
  induction count generalizing pool with
  | zero => cases failed
  | succ count ih =>
      simp only [allocList] at failed
      split at failed
      · cases failed
        rfl
      · rcases bind_eq_error failed with taken | ⟨_, _, linked⟩
        · exact ih taken
        · cases linked

end TPool

namespace TWriter

/-- New blocks for nonempty data fail only when the pool runs out. -/
theorem linkNewBlocks_error {pool : TPool} {linked : List (List UInt8)} {data : List UInt8} {numBytes : Nat}
    {e : TCappedError} (nonempty : data ≠ []) (failed : linkNewBlocks pool linked data numBytes = .error e) :
    e = memoryCapReached := by
  unfold linkNewBlocks at failed
  rcases bind_eq_error failed with allocFailed | ⟨⟨allocated, blocks⟩, alloc, filling⟩
  · exact TPool.allocList_error allocFailed
  · -- as many blocks as the data needs were allocated, and filling them succeeds
    obtain ⟨count, sized, -⟩ := TPool.allocList_ok alloc
    obtain ⟨init, last, cursor, filled, -⟩ := fillBlocks_ok pool.getDataSize_pos sized count nonempty
    rcases bind_eq_error filling with fillFailed | ⟨_, _, done⟩
    · rw [filled] at fillFailed
      cases fillFailed
    · cases done

/-- `Write` takes the data of a null block only when it writes nothing to a
writer with no blocks. -/
theorem write_null {writer : TWriter} {pool : TPool} {data : List UInt8}
    (failed : writer.write pool data = .error nullBlockDereference) : writer.blocks = [] ∧ data = [] := by
  by_cases listed : writer.blocks = []
  · refine ⟨listed, ?_⟩
    by_contra nonempty
    rw [write_of_nil pool data listed] at failed
    cases linkNewBlocks_error nonempty failed
  · rw [write_of_ne_nil pool data listed] at failed
    split at failed
    · cases failed
    · rename_i overflows
      have nonempty : data.drop (pool.getDataSize - writer.cursor) ≠ [] := by
        simp only [ne_eq, List.drop_eq_nil_iff]
        omega
      cases linkNewBlocks_error nonempty failed

end TWriter

/-- Making a key and a value takes the data of a null block exactly when
the key is empty. -/
theorem makeKeyAndValue_null_iff {key value : List UInt8} {pool : TPool} :
    makeKeyAndValue key value pool = .error nullBlockDereference ↔ key = [] := by
  constructor
  · intro failed
    rcases bind_eq_error failed with keyFailed | ⟨⟨pool', writer⟩, keyWritten, valueStep⟩
    · exact (TWriter.write_null keyFailed).2
    · -- the key was written, so the writer holds it in a block and the value's write cannot fail so
      rcases bind_eq_error valueStep with valueFailed | ⟨_, _, done⟩
      · obtain ⟨-, keyContents, -⟩ := TWriter.write_contents (TWriter.valid_init _) keyWritten
        have empty := (TWriter.write_null valueFailed).1
        simpa [TWriter.contents, empty] using keyContents.symm
      · cases done
  · rintro rfl
    have first := @TWriter.write_nothing_to_empty {} pool rfl
    simp only [makeKeyAndValue, first]
    rfl

/-- Every message with an empty key takes the data of a null block when its
key and value are made, whatever the value and the pool. -/
theorem makeKeyAndValue_empty_key (value : List UInt8) (pool : TPool) :
    makeKeyAndValue [] value pool = .error nullBlockDereference :=
  makeKeyAndValue_null_iff.mpr rfl

end Dory.Capped
