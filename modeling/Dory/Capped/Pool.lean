/-
Module: Dory.Capped.Pool
Purpose: `TPool` of src/capped/pool.{h,cc} with its blocks by identity.  A
  block is its index in `Storage`; the free list from `FirstFreeBlock` is a
  list of indexes, `TBlock::Link` puts a block at its head and
  `TBlock::Unlink` takes the head; the data areas of the blocks are a memory
  indexed by block.  `Dory.Capped.TPool` only counts the free blocks:
  `abstract` maps this pool to it, and `AllocList` commutes with the map.
  A client whose calls (`Alloc`, `AllocList`, `Free`, `FreeList`) free only
  blocks it holds keeps the free list and its blocks a permutation of all
  the blocks (`Conserved`); `AllocList` takes its blocks from the head of the
  free list or puts back exactly what it took; and `TWriter::Write` on this
  pool, when `AllocList` throws, leaves the pool and the writer's contents
  as they were.  Release builds define `NDEBUG`: the asserts of `DoFree` are
  not checked, and the mutex of a guarded pool only orders the calls.
Trusted boundary: none
Main exports: Linked.TPool, Linked.TPool.allocList_eq, Linked.TPool.abstract_refines,
  Linked.TPoolCall, Linked.Reachable, Linked.Conserved, Linked.reachable_conserved,
  Linked.TWriter, Linked.TWriter.write, Linked.TWriter.write_thrown
-/
import Mathlib
import Dory.Capped.Writer

namespace Dory.Capped

open TCappedError

namespace TPool

/-- The count pool's `AllocList`: enough free blocks are all taken, else
`TMemoryCapReached`. -/
theorem allocList_eq (pool : TPool) (count : Nat) :
    pool.allocList count =
      if count ≤ pool.freeCount then
        .ok ({ pool with freeCount := pool.freeCount - count }, List.replicate count (List.replicate pool.getDataSize 0))
      else .error memoryCapReached := by
  induction count generalizing pool with
  | zero => simp [allocList]
  | succ count ih =>
      by_cases empty : pool.freeCount = 0
      · simp [allocList, empty]
      · simp only [allocList, if_neg empty, ih]
        by_cases enough : count ≤ pool.freeCount - 1
        · rw [if_pos enough, if_pos (by omega)]
          simp only [bind, Except.bind, pure, Except.pure, List.replicate_succ, getDataSize]
          congr 3
          omega
        · rw [if_neg enough, if_neg (by omega)]
          rfl

end TPool

namespace Linked

open scoped List
open Dory.Foundation.Buffer

/-! ### The pool -/

/-- `TPool`: `BlockSize`, at least `sizeof(TBlock)`, `BlockCount`, and the
free list from `FirstFreeBlock`, each block by its index in `Storage`. -/
structure TPool where
  blockSize : Nat
  blockCount : Nat
  firstFreeBlock : List Nat
  holdsBlock : sizeofTBlock ≤ blockSize

namespace TPool

/-- `TPool(block_size, block_count, sync_policy)`: the loop over `Storage`
links block 0 first, so the free list runs down from the last block. -/
def create (blockSize blockCount : Nat) : TPool :=
  { blockSize := max blockSize sizeofTBlock
    blockCount
    firstFreeBlock := (List.range blockCount).foldl (fun firstBlock block => block :: firstBlock) []
    holdsBlock := le_max_right _ _ }

/-- `GetDataSize()`. -/
def getDataSize (pool : TPool) : Nat := pool.blockSize - Capped.TPool.getBlockOverhead

/-- `Alloc()`: the head of the free list, or `TMemoryCapReached`. -/
def alloc (pool : TPool) : TPool × Except TCappedError Nat :=
  match pool.firstFreeBlock with
  | [] => (pool, .error memoryCapReached)
  | block :: rest => ({ pool with firstFreeBlock := rest }, .ok block)

/-- `DoFree(ptr)`: the block linked at the head of the free list. -/
def doFree (pool : TPool) (block : Nat) : TPool :=
  { pool with firstFreeBlock := block :: pool.firstFreeBlock }

/-- `DoFreeList(first_block)`: the blocks unlinked from the head of the list
one at a time, each freed. -/
def doFreeList (pool : TPool) (firstBlock : List Nat) : TPool :=
  firstBlock.foldl doFree pool

/-- The loop of `AllocList`: each block unlinked from the free list is
linked at the head of the result; on running out, the blocks taken so far
go back through `DoFreeList` and `TMemoryCapReached` is thrown. -/
def allocListLoop (pool : TPool) : Nat → List Nat → TPool × Except TCappedError (List Nat)
  | 0, firstBlock => (pool, .ok firstBlock)
  | blockCount + 1, firstBlock =>
      match pool.firstFreeBlock with
      | [] => (if firstBlock ≠ [] then pool.doFreeList firstBlock else pool, .error memoryCapReached)
      | block :: rest => allocListLoop { pool with firstFreeBlock := rest } blockCount (block :: firstBlock)

/-- `AllocList(block_count)`. -/
def allocList (pool : TPool) (blockCount : Nat) : TPool × Except TCappedError (List Nat) :=
  if blockCount ≠ 0 then pool.allocListLoop blockCount [] else (pool, .ok [])

/-- `Free(ptr)`: nothing for a null pointer. -/
def free (pool : TPool) : Option Nat → TPool
  | none => pool
  | some block => pool.doFree block

/-- `FreeList(first_block)`: nothing for an empty list. -/
def freeList (pool : TPool) (firstBlock : List Nat) : TPool :=
  if firstBlock = [] then pool else pool.doFreeList firstBlock

/-- The count of the free list: `Dory.Capped.TPool`. -/
def abstract (pool : TPool) : Capped.TPool := ⟨pool.blockSize, pool.firstFreeBlock.length, pool.holdsBlock⟩

/-! ### What the operations do to the free list -/

/-- Freeing a list puts its blocks at the head of the free list, the last
one first. -/
theorem doFreeList_eq (pool : TPool) (firstBlock : List Nat) :
    pool.doFreeList firstBlock = { pool with firstFreeBlock := firstBlock.reverse ++ pool.firstFreeBlock } := by
  induction firstBlock generalizing pool with
  | nil => rfl
  | cons block rest ih =>
      show doFreeList (pool.doFree block) rest = _
      rw [ih]
      simp [doFree]

/-- The loop takes the head of the free list, or gives back what it took:
the free list ends as it was, with the blocks taken before the loop in
front. -/
theorem allocListLoop_eq (pool : TPool) (count : Nat) (firstBlock : List Nat) :
    pool.allocListLoop count firstBlock =
      if count ≤ pool.firstFreeBlock.length then
        ({ pool with firstFreeBlock := pool.firstFreeBlock.drop count },
          .ok ((pool.firstFreeBlock.take count).reverse ++ firstBlock))
      else ({ pool with firstFreeBlock := firstBlock.reverse ++ pool.firstFreeBlock }, .error memoryCapReached) := by
  induction count generalizing pool firstBlock with
  | zero => simp [allocListLoop]
  | succ count ih =>
      cases free_eq : pool.firstFreeBlock with
      | nil =>
          -- out of blocks: the ones taken go back, in their old order
          by_cases none : firstBlock = []
          · cases pool
            simp_all [allocListLoop]
          · simp [allocListLoop, free_eq, none, doFreeList_eq]
      | cons block rest =>
          simp only [allocListLoop, free_eq, ih, List.length_cons, Nat.add_le_add_iff_right, List.drop_succ_cons,
            List.take_succ_cons, List.reverse_cons, List.append_assoc, List.singleton_append]

/-- `AllocList` takes `count` blocks from the head of the free list, or,
with fewer free, throws and leaves the pool as it was. -/
theorem allocList_eq (pool : TPool) (count : Nat) :
    pool.allocList count =
      if count ≤ pool.firstFreeBlock.length then
        ({ pool with firstFreeBlock := pool.firstFreeBlock.drop count }, .ok (pool.firstFreeBlock.take count).reverse)
      else (pool, .error memoryCapReached) := by
  by_cases zero : count = 0
  · subst zero
    simp [allocList]
  · simp only [allocList, if_pos zero, allocListLoop_eq, List.append_nil, List.reverse_nil, List.nil_append]

/-- A throwing `AllocList` leaves the pool as it was. -/
theorem allocList_error {pool after : TPool} {count : Nat} {e : TCappedError}
    (failed : pool.allocList count = (after, .error e)) : after = pool ∧ e = memoryCapReached := by
  rw [allocList_eq] at failed
  split at failed
  · cases failed
  · cases failed
    exact ⟨rfl, rfl⟩

/-- A successful `AllocList` takes `count` distinct blocks off the free
list. -/
theorem allocList_ok {pool after : TPool} {count : Nat} {blocks : List Nat} (distinct : pool.firstFreeBlock.Nodup)
    (allocated : pool.allocList count = (after, .ok blocks)) :
    blocks.length = count ∧ blocks.Nodup ∧ (blocks ++ after.firstFreeBlock).Perm pool.firstFreeBlock := by
  rw [allocList_eq] at allocated
  split at allocated
  · rename_i enough
    cases allocated
    refine ⟨by simp [enough], List.nodup_reverse.mpr (distinct.sublist (List.take_sublist _ _)), ?_⟩
    calc (pool.firstFreeBlock.take count).reverse ++ pool.firstFreeBlock.drop count
      _ ~ pool.firstFreeBlock.take count ++ pool.firstFreeBlock.drop count := (List.reverse_perm _).append_right _
      _ = pool.firstFreeBlock := List.take_append_drop _ _
  · cases allocated

/-- The count pool is an abstraction of this one: `AllocList` on the count
of the free list takes the same number of blocks. -/
theorem allocList_abstract (pool : TPool) (count : Nat) :
    pool.abstract.allocList count =
      match pool.allocList count with
      | (after, .ok blocks) => .ok (after.abstract, blocks.map fun _ => List.replicate pool.getDataSize 0)
      | (_, .error e) => .error e := by
  rw [Capped.TPool.allocList_eq, allocList_eq]
  have counted : pool.abstract.freeCount = pool.firstFreeBlock.length := rfl
  by_cases enough : count ≤ pool.firstFreeBlock.length
  · have taken : ((pool.firstFreeBlock.take count).reverse.map fun _ => List.replicate pool.getDataSize (0 : UInt8)) =
        List.replicate count (List.replicate pool.getDataSize 0) := by
      simp [List.map_const', Nat.min_eq_left enough]
    rw [if_pos enough, if_pos (counted ▸ enough)]
    dsimp only
    simp only [taken, abstract, List.length_drop]
    rfl
  · rw [if_neg enough, if_neg (counted ▸ enough)]

theorem abstract_create (blockSize blockCount : Nat) :
    (create blockSize blockCount).abstract = Capped.TPool.create blockSize blockCount := by
  simp [create, abstract, Capped.TPool.create]

end TPool

/-! ### A client's calls -/

/-- A call of a client on the pool. -/
inductive TPoolCall where
  | alloc
  | allocList (blockCount : Nat)
  | free (ptr : Option Nat)
  | freeList (firstBlock : List Nat)
deriving DecidableEq, Repr

namespace TPoolCall

/-- The client frees only blocks it holds, each once: `Free` of a held block
or of null, `FreeList` of held blocks. -/
def Allowed (held : List Nat) : TPoolCall → Prop
  | free (some block) => block ∈ held
  | freeList firstBlock => firstBlock.Subperm held
  | _ => True

/-- A call, and the blocks the client holds after it. -/
def run (pool : TPool) (held : List Nat) : TPoolCall → TPool × List Nat
  | alloc =>
      match pool.alloc with
      | (pool, .ok block) => (pool, block :: held)
      | (pool, .error _) => (pool, held)
  | allocList blockCount =>
      match pool.allocList blockCount with
      | (pool, .ok firstBlock) => (pool, firstBlock ++ held)
      | (pool, .error _) => (pool, held)
  | free ptr =>
      (pool.free ptr,
        match ptr with
        | some block => held.erase block
        | none => held)
  | freeList firstBlock => (pool.freeList firstBlock, held.diff firstBlock)

end TPoolCall

/-- The pools, and the blocks the client holds, that calls freeing only held
blocks reach from `TPool(block_size, block_count, sync_policy)`. -/
inductive Reachable (blockSize blockCount : Nat) : TPool × List Nat → Prop
  | create : Reachable blockSize blockCount (TPool.create blockSize blockCount, [])
  | run {pool : TPool} {held : List Nat} {call : TPoolCall} :
      Reachable blockSize blockCount (pool, held) → call.Allowed held →
        Reachable blockSize blockCount (call.run pool held)

/-- The free list and the held blocks are the blocks of `Storage`, each
once. -/
def Conserved (blockCount : Nat) (pool : TPool) (held : List Nat) : Prop :=
  (pool.firstFreeBlock ++ held).Perm (List.range blockCount)

namespace Conserved

variable {blockCount : Nat} {pool : TPool} {held : List Nat}

theorem create (blockSize blockCount : Nat) : Conserved blockCount (TPool.create blockSize blockCount) [] := by
  simp [Conserved, TPool.create, List.reverse_perm]

theorem alloc (conserved : Conserved blockCount pool held) :
    Conserved blockCount (TPoolCall.alloc.run pool held).1 (TPoolCall.alloc.run pool held).2 := by
  cases free_eq : pool.firstFreeBlock with
  | nil => simpa [TPoolCall.run, TPool.alloc, free_eq] using conserved
  | cons block rest =>
      -- the head of the free list moves to the held blocks
      simp only [TPoolCall.run, TPool.alloc, free_eq, Conserved]
      rw [Conserved, free_eq] at conserved
      exact List.perm_middle.trans conserved

theorem allocList (conserved : Conserved blockCount pool held) (count : Nat) :
    Conserved blockCount ((TPoolCall.allocList count).run pool held).1
      ((TPoolCall.allocList count).run pool held).2 := by
  simp only [TPoolCall.run, TPool.allocList_eq]
  by_cases enough : count ≤ pool.firstFreeBlock.length
  · -- the first `count` free blocks move to the held blocks, reversed
    simp only [if_pos enough, Conserved]
    calc pool.firstFreeBlock.drop count ++ ((pool.firstFreeBlock.take count).reverse ++ held)
        _ ~ (pool.firstFreeBlock.take count).reverse ++ pool.firstFreeBlock.drop count ++ held := by
              rw [← List.append_assoc]
              exact List.perm_append_comm.append_right held
        _ ~ pool.firstFreeBlock.take count ++ pool.firstFreeBlock.drop count ++ held :=
              ((List.reverse_perm _).append_right _).append_right held
        _ = pool.firstFreeBlock ++ held := by rw [List.take_append_drop]
        _ ~ List.range blockCount := conserved
  · simpa only [if_neg enough] using conserved

theorem free (conserved : Conserved blockCount pool held) {ptr : Option Nat}
    (allowed : (TPoolCall.free ptr).Allowed held) :
    Conserved blockCount ((TPoolCall.free ptr).run pool held).1 ((TPoolCall.free ptr).run pool held).2 := by
  cases ptr with
  | none => exact conserved
  | some block =>
      -- the block moves from the held blocks to the head of the free list
      have held_eq := List.perm_cons_erase (show block ∈ held from allowed)
      simp only [TPoolCall.run, TPool.free, TPool.doFree, Conserved, List.cons_append]
      exact List.perm_middle.symm.trans ((held_eq.symm.append_left _).trans conserved)

theorem freeList (conserved : Conserved blockCount pool held) {firstBlock : List Nat}
    (allowed : (TPoolCall.freeList firstBlock).Allowed held) :
    Conserved blockCount ((TPoolCall.freeList firstBlock).run pool held).1
      ((TPoolCall.freeList firstBlock).run pool held).2 := by
  have sub : firstBlock.Subperm held := allowed
  have rest := List.subperm_append_diff_self_of_count_le (List.subperm_ext_iff.mp sub)
  by_cases none : firstBlock = []
  · subst none
    simpa [TPoolCall.run, TPool.freeList] using conserved
  · -- the list goes from the held blocks to the head of the free list
    simp only [TPoolCall.run, TPool.freeList, if_neg none, TPool.doFreeList_eq, Conserved]
    calc firstBlock.reverse ++ pool.firstFreeBlock ++ held.diff firstBlock
      _ ~ pool.firstFreeBlock ++ firstBlock.reverse ++ held.diff firstBlock :=
            List.perm_append_comm.append_right _
      _ = pool.firstFreeBlock ++ (firstBlock.reverse ++ held.diff firstBlock) := List.append_assoc _ _ _
      _ ~ pool.firstFreeBlock ++ held :=
            (((List.reverse_perm _).append_right _).trans rest).append_left _
      _ ~ List.range blockCount := conserved

theorem run (conserved : Conserved blockCount pool held) {call : TPoolCall} (allowed : call.Allowed held) :
    Conserved blockCount (call.run pool held).1 (call.run pool held).2 := by
  cases call with
  | alloc => exact conserved.alloc
  | allocList count => exact conserved.allocList count
  | free ptr => exact conserved.free allowed
  | freeList firstBlock => exact conserved.freeList allowed

/-- The facts the invariant gives: the free blocks are `BlockCount` less
the held ones, distinct, inside `Storage`, and none of them held. -/
theorem facts (conserved : Conserved blockCount pool held) :
    pool.firstFreeBlock.length = blockCount - held.length ∧ held.length ≤ blockCount ∧
      pool.firstFreeBlock.Nodup ∧ ∀ block ∈ pool.firstFreeBlock, block < blockCount ∧ block ∉ held := by
  have counted := conserved.length_eq
  have distinct := conserved.nodup_iff.mpr List.nodup_range
  simp only [List.length_append, List.length_range] at counted
  rw [List.nodup_append] at distinct
  refine ⟨by omega, by omega, distinct.1, fun block free => ⟨?_, ?_⟩⟩
  · simpa using conserved.subset (List.mem_append_left held free)
  · exact fun isHeld => distinct.2.2 block free block isHeld rfl

end Conserved

/-- Every reachable pool conserves its blocks: induction on the calls, one
step lemma per call. -/
theorem reachable_conserved {blockSize blockCount : Nat} {state : TPool × List Nat}
    (reachable : Reachable blockSize blockCount state) : Conserved blockCount state.1 state.2 := by
  induction reachable with
  | create => exact Conserved.create blockSize blockCount
  | run _ allowed conserved => exact conserved.run allowed

/-! ### The writer on the pool -/

/-- `TWriter` on this pool: the blocks from `FirstBlock`, `LastBlock` the
last of them, `Cursor` as an offset into its data, and `NumBytes`.  The data
of the blocks is in a memory indexed by block. -/
structure TWriter where
  blocks : List Nat := []
  cursor : Nat := 0
  numBytes : Nat := 0
deriving DecidableEq, Repr

namespace TWriter

/-- The copy loop of `Write` into the allocated blocks, in memory: whole
blocks while more than a block is left, then the rest, and the cursor after
it. -/
def fillBlocks (blockSize : Nat) (memory : Nat → List UInt8) : List Nat → List UInt8 →
    Except TCappedError ((Nat → List UInt8) × Nat)
  | [], _ => .error nullBlockDereference
  | block :: rest, data =>
      if data.length > blockSize then
        fillBlocks blockSize (Function.update memory block (overwrite (memory block) 0 (data.take blockSize))) rest
          (data.drop blockSize)
      else .ok (Function.update memory block (overwrite (memory block) 0 data), data.length)

/-- The part of `Write` after `link` is chosen: `AllocList` for the rest of
the data, which throws before `*link` is assigned, then the new blocks linked
and filled. -/
def linkNewBlocks (writer : TWriter) (pool : TPool) (memory : Nat → List UInt8) (data : List UInt8)
    (numBytes : Nat) : TWriter × TPool × (Nat → List UInt8) × Except TCappedError Unit :=
  let blockSize := pool.getDataSize
  match pool.allocList ((data.length + blockSize - 1) / blockSize) with
  | (pool, .error e) => (writer, pool, memory, .error e)
  | (pool, .ok blocks) =>
      match fillBlocks blockSize memory blocks data with
      | .error e => ({ writer with blocks := writer.blocks ++ blocks }, pool, memory, .error e)
      | .ok (memory, cursor) => ({ blocks := writer.blocks ++ blocks, cursor, numBytes }, pool, memory, .ok ())

/-- `Write(data, size)`: into the last block when the data fits; else the
part that fits copied there first, and new blocks for the rest. -/
def write (writer : TWriter) (pool : TPool) (memory : Nat → List UInt8) (data : List UInt8) :
    TWriter × TPool × (Nat → List UInt8) × Except TCappedError Unit :=
  let blockSize := pool.getDataSize
  match writer.blocks.getLast? with
  | none => writer.linkNewBlocks pool memory data (writer.numBytes + data.length)
  | some lastBlock =>
      let avail := blockSize - writer.cursor
      if data.length ≤ avail then
        ({ writer with cursor := writer.cursor + data.length, numBytes := writer.numBytes + data.length }, pool,
          Function.update memory lastBlock (overwrite (memory lastBlock) writer.cursor data), .ok ())
      else
        let memory := Function.update memory lastBlock (overwrite (memory lastBlock) writer.cursor (data.take avail))
        writer.linkNewBlocks pool memory (data.drop avail) (writer.numBytes + data.length)

/-- The writer of `Dory.Capped` that this one is: each block by its data. -/
def view (writer : TWriter) (memory : Nat → List UInt8) : Capped.TWriter :=
  { blocks := writer.blocks.map memory, cursor := writer.cursor, numBytes := writer.numBytes }

/-- What a writer keeps valid: distinct blocks, each with a data area of the
pool's data size, and the cursor inside the last. -/
structure Valid (pool : TPool) (memory : Nat → List UInt8) (writer : TWriter) : Prop where
  distinct : writer.blocks.Nodup
  sized : ∀ block ∈ writer.blocks, (memory block).length = pool.getDataSize
  cursorLe : writer.cursor ≤ pool.getDataSize

/-- The copy loop throws nothing but the data of a null block. -/
theorem fillBlocks_error {blockSize : Nat} {memory : Nat → List UInt8} {blocks : List Nat} {data : List UInt8}
    {e : TCappedError} (failed : fillBlocks blockSize memory blocks data = .error e) : e = nullBlockDereference := by
  induction blocks generalizing memory data with
  | nil =>
      cases failed
      rfl
  | cons block rest ih =>
      simp only [fillBlocks] at failed
      split at failed
      · exact ih failed
      · cases failed

/-- When `AllocList` throws, the new blocks leave the writer, the pool and
the memory as they were. -/
theorem linkNewBlocks_thrown {writer after : TWriter} {pool pool' : TPool} {memory memory' : Nat → List UInt8}
    {data : List UInt8} {numBytes : Nat}
    (thrown : writer.linkNewBlocks pool memory data numBytes = (after, pool', memory', .error memoryCapReached)) :
    after = writer ∧ pool' = pool ∧ memory' = memory := by
  unfold linkNewBlocks at thrown
  dsimp only at thrown
  split at thrown
  · rename_i allocated
    cases thrown
    exact ⟨rfl, (TPool.allocList_error allocated).1, rfl⟩
  · -- the blocks were allocated, and filling them throws nothing but a null block
    split at thrown
    · rename_i filled
      cases thrown
      cases fillBlocks_error filled
    · cases thrown

/-- Storing past the cursor in the last block keeps the contents. -/
theorem contents_update_last {writer : TWriter} {memory : Nat → List UInt8} {lastBlock : Nat}
    (distinct : writer.blocks.Nodup) (last_eq : writer.blocks.getLast? = some lastBlock)
    (within : writer.cursor ≤ (memory lastBlock).length) (chunk : List UInt8) :
    (writer.view (Function.update memory lastBlock (overwrite (memory lastBlock) writer.cursor chunk))).contents =
      (writer.view memory).contents := by
  obtain ⟨init, split⟩ := List.getLast?_eq_some_iff.mp last_eq
  have fresh : lastBlock ∉ init := by
    rw [split, List.nodup_append] at distinct
    exact fun inInit => distinct.2.2 lastBlock inInit lastBlock (List.mem_singleton_self _) rfl
  have unchanged : init.map (Function.update memory lastBlock (overwrite (memory lastBlock) writer.cursor chunk)) =
      init.map memory :=
    List.map_congr_left fun block member =>
      Function.update_of_ne (fun same => fresh (by rw [← same]; exact member)) _ _
  have updated : (writer.view (Function.update memory lastBlock
      (overwrite (memory lastBlock) writer.cursor chunk))).blocks =
      init.map (Function.update memory lastBlock (overwrite (memory lastBlock) writer.cursor chunk)) ++
        [overwrite (memory lastBlock) writer.cursor chunk] := by
    simp [view, split]
  have original : (writer.view memory).blocks = init.map memory ++ [memory lastBlock] := by
    simp [view, split]
  rw [Capped.TWriter.contents_of_split updated, Capped.TWriter.contents_of_split original]
  simp only [view, unchanged, take_overwrite_of_le within]

/-- A `Write` that throws `TMemoryCapReached` leaves the writer and the pool
as they were, and the writer's contents: only bytes past the cursor were
stored. -/
theorem write_thrown {writer after : TWriter} {pool pool' : TPool} {memory memory' : Nat → List UInt8}
    {data : List UInt8} (valid : writer.Valid pool memory)
    (thrown : writer.write pool memory data = (after, pool', memory', .error memoryCapReached)) :
    after = writer ∧ pool' = pool ∧ (after.view memory').contents = (writer.view memory).contents := by
  unfold write at thrown
  split at thrown
  · obtain ⟨rfl, rfl, rfl⟩ := linkNewBlocks_thrown thrown
    exact ⟨rfl, rfl, rfl⟩
  · rename_i lastBlock last_eq
    dsimp only at thrown
    split at thrown
    · cases thrown
    · -- the part that fits went into the last block, past the cursor
      obtain ⟨same, samePool, sameMemory⟩ := linkNewBlocks_thrown thrown
      have within : writer.cursor ≤ (memory lastBlock).length := by
        rw [valid.sized lastBlock (List.mem_of_getLast? last_eq)]
        exact valid.cursorLe
      rw [same, sameMemory]
      exact ⟨rfl, samePool, contents_update_last valid.distinct last_eq within _⟩

end TWriter

end Linked

end Dory.Capped
