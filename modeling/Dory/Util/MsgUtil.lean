/-
Module: Dory.Util.MsgUtil
Purpose: `WriteKey()` and `WriteValue()` (dory/util/msg_util.{h,cc}): the
  key and the value of a message, read out of its blob with a
  `Capped::TReader`, into a buffer at an offset, the buffer grown to hold
  them but never shrunk, or into memory the caller made room in.  The produce
  request factory serializes every message with them.  On a message whose
  blob is well formed and holds a key and a value (`Stores`),
  each of them writes the key or the value.  Every message `BuildMsgFromDg()`
  makes is such a message, with the key and the value of the datagram it was
  made from: what a client sends is what is written out
  (`writeKey_writeValue_of_built`).  Release builds define `NDEBUG`, so the
  asserts of msg_util.cc are not checked.
Trusted boundary: none
Main exports: getValueSize, writeKey, writeKeyAt, writeValue, writeValueAt,
  Stores, buildMsgFromDg_stores, writeKey_writeValue_of_built
-/
import Dory.Capped.Reader
import Dory.InputDg.Reader

namespace Dory.Util

open Capped InputDg Foundation Foundation.Buffer

/-- `TMsg::GetValueSize()`. -/
def getValueSize (msg : TCreatedMsg) : Nat :=
  msg.keyAndValue.numBytes - msg.keySize

/-- `WriteKey(dst, offset, msg)`: `dst` grown, if it must be, to hold the
key at `offset`, and the key read there from the message's blob.
`blockSize` is the pool's `GetDataSize()`. -/
def writeKey (blockSize : Nat) (dst : List UInt8) (offset : Nat) (msg : TCreatedMsg) :
    Except TCappedError (List UInt8) := do
  let keySize := msg.keySize
  let dst := resize dst (max dst.length (offset + keySize))
  if keySize = 0 then pure dst
  else
    let (key, _) ← (TReader.create msg.keyAndValue).read blockSize keySize
    pure (overwrite dst offset key)

/-- `WriteKey(dst, msg)` of msg_util.h: the key read into the memory at
`dst`, an offset into `buf` that has room for it. -/
def writeKeyAt (blockSize : Nat) (buf : List UInt8) (dst : Nat) (msg : TCreatedMsg) :
    Except TCappedError (List UInt8) := do
  let (key, _) ← (TReader.create msg.keyAndValue).read blockSize msg.keySize
  pure (overwrite buf dst key)

/-- `WriteValue(dst, offset, msg)`: `dst` grown, if it must be, to hold the
value at `offset`, and the value read there, after the key is skipped; the
value's size is returned. -/
def writeValue (blockSize : Nat) (dst : List UInt8) (offset : Nat) (msg : TCreatedMsg) :
    Except TCappedError (Nat × List UInt8) := do
  let valueSize := getValueSize msg
  let dst := resize dst (max dst.length (offset + valueSize))
  if valueSize = 0 then pure (valueSize, dst)
  else
    let reader ← (TReader.create msg.keyAndValue).skip blockSize msg.keySize
    let (value, _) ← reader.read blockSize valueSize
    pure (valueSize, overwrite dst offset value)

/-- `WriteValue(dst, msg)`: the value read into the memory at `dst`, an
offset into `buf` that has room for it. -/
def writeValueAt (blockSize : Nat) (buf : List UInt8) (dst : Nat) (msg : TCreatedMsg) :
    Except TCappedError (List UInt8) := do
  let reader ← (TReader.create msg.keyAndValue).skip blockSize msg.keySize
  let (value, _) ← reader.read blockSize (getValueSize msg)
  pure (overwrite buf dst value)

/-! ### Messages whose blob holds a key and a value -/

/-- A message's blob is well formed and holds `key` and then `value`, and
`KeySize` is the key's size. -/
structure Stores (blockSize : Nat) (msg : TCreatedMsg) (key value : List UInt8) : Prop where
  valid : msg.keyAndValue.Valid blockSize
  keySize : msg.keySize = key.length
  keyAndValue : (msg.keyAndValue.forEachBlock blockSize).flatten = key ++ value

namespace Stores

variable {blockSize : Nat} {msg : TCreatedMsg} {key value : List UInt8}

theorem getValueSize_eq (stores : Stores blockSize msg key value) : getValueSize msg = value.length := by
  rw [getValueSize, stores.valid.counted, stores.keyAndValue, stores.keySize, List.length_append]
  omega

/-- A reader of the message's blob reads the key first. -/
theorem read_key (stores : Stores blockSize msg key value) :
    ∃ after, (TReader.create msg.keyAndValue).read blockSize msg.keySize = .ok (key, after) := by
  obtain ⟨inv, whole⟩ := TReader.inv_create stores.valid
  obtain ⟨after, readOk, -⟩ := inv.read_of_prefix (whole.trans stores.keyAndValue)
  exact ⟨after, stores.keySize ▸ readOk⟩

/-- A reader of the message's blob that skips the key reads the value. -/
theorem read_value (stores : Stores blockSize msg key value) :
    ∃ reader after, (TReader.create msg.keyAndValue).skip blockSize msg.keySize = .ok reader ∧
      reader.read blockSize (getValueSize msg) = .ok (value, after) := by
  obtain ⟨inv, whole⟩ := TReader.inv_create stores.valid
  obtain ⟨reader, skipped, inv', restValue, -⟩ := inv.skip_of_prefix (whole.trans stores.keyAndValue)
  obtain ⟨after, readOk, -⟩ :=
    inv'.read_of_prefix (show reader.rest blockSize = value ++ [] by rw [restValue, List.append_nil])
  exact ⟨reader, after, stores.keySize ▸ skipped, stores.getValueSize_eq ▸ readOk⟩

theorem writeKey_eq (stores : Stores blockSize msg key value) (dst : List UInt8) (offset : Nat) :
    writeKey blockSize dst offset msg = .ok (overwrite (resize dst (max dst.length (offset + key.length))) offset key) := by
  obtain ⟨after, readOk⟩ := stores.read_key
  unfold writeKey
  rw [stores.keySize] at readOk ⊢
  dsimp only
  split_ifs with empty
  · -- an empty key leaves the grown buffer as it is
    rw [List.length_eq_zero_iff.mp empty, overwrite_nil]
    rfl
  · rw [readOk]
    rfl

theorem writeKeyAt_eq (stores : Stores blockSize msg key value) (buf : List UInt8) (dst : Nat) :
    writeKeyAt blockSize buf dst msg = .ok (overwrite buf dst key) := by
  obtain ⟨after, readOk⟩ := stores.read_key
  simp only [writeKeyAt, readOk, ok_bind]
  rfl

theorem writeValue_eq (stores : Stores blockSize msg key value) (dst : List UInt8) (offset : Nat) :
    writeValue blockSize dst offset msg =
      .ok (value.length, overwrite (resize dst (max dst.length (offset + value.length))) offset value) := by
  obtain ⟨reader, after, skipped, readOk⟩ := stores.read_value
  unfold writeValue
  rw [stores.getValueSize_eq] at readOk ⊢
  dsimp only
  split_ifs with empty
  · -- an empty value leaves the grown buffer as it is
    rw [List.length_eq_zero_iff.mp empty, overwrite_nil]
    rfl
  · rw [skipped, ok_bind, readOk]
    rfl

theorem writeValueAt_eq (stores : Stores blockSize msg key value) (buf : List UInt8) (dst : Nat) :
    writeValueAt blockSize buf dst msg = .ok (overwrite buf dst value) := by
  obtain ⟨reader, after, skipped, readOk⟩ := stores.read_value
  simp only [writeValueAt, skipped, readOk, ok_bind]
  rfl

end Stores

/-- A message `BuildMsgFromDg()` makes is the encoding of contents that fit,
and its blob is well formed and holds their key and value. -/
theorem buildMsgFromDg_stores {dg : List UInt8} {pool rest : TPool} {msg : TCreatedMsg}
    (built : buildMsgFromDg dg pool = .ok { msg := some msg, pool := rest, discards := [] }) :
    ∃ contents : TDgContents, contents.Fits ∧ dg = contents.encode ∧
      Stores pool.getDataSize msg contents.key contents.value := by
  obtain ⟨contents, fits, encoded, holds⟩ := buildMsgFromDg_sound built
  refine ⟨contents, fits, encoded, ⟨?_, holds.keySize, holds.keyAndValue⟩⟩
  -- the blob is the one made for the message's key and value
  rcases buildMsgFromDg_cases dg pool with ⟨discard, discarded⟩ | ⟨-, asserted⟩ | ⟨contents', fits', -, created⟩
  · rw [discarded] at built
    cases built
  · rw [asserted] at built
    cases built
  · rw [created] at built
    rcases tryCreateMsg_cases contents'.routing.routingType contents'.routing.msgPartitionKey contents'.timestamp
        contents'.key contents'.value pool fits'.topicNonempty with ⟨rest', blob, made, made'⟩ | noRoom | ⟨null, -⟩
    · rw [made'] at built
      cases built
      exact makeKeyAndValue_valid made
    · rw [noRoom] at built
      cases built
    · rw [null] at built
      cases built

/-- Every message `BuildMsgFromDg()` makes from a datagram is written out
as the datagram's key and value: by `WriteKey()` and `WriteValue()` at any
offset of a buffer, grown to hold them, and into memory with room for
them. -/
theorem writeKey_writeValue_of_built {dg : List UInt8} {pool rest : TPool} {msg : TCreatedMsg}
    (built : buildMsgFromDg dg pool = .ok { msg := some msg, pool := rest, discards := [] }) :
    ∃ contents : TDgContents, dg = contents.encode ∧ ∀ (buf : List UInt8) (offset : Nat),
      writeKey pool.getDataSize buf offset msg =
          .ok (overwrite (resize buf (max buf.length (offset + contents.key.length))) offset contents.key) ∧
        writeValue pool.getDataSize buf offset msg = .ok (contents.value.length,
          overwrite (resize buf (max buf.length (offset + contents.value.length))) offset contents.value) ∧
        writeKeyAt pool.getDataSize buf offset msg = .ok (overwrite buf offset contents.key) ∧
        writeValueAt pool.getDataSize buf offset msg = .ok (overwrite buf offset contents.value) := by
  obtain ⟨contents, -, encoded, stores⟩ := buildMsgFromDg_stores built
  exact ⟨contents, encoded, fun buf offset =>
    ⟨stores.writeKey_eq buf offset, stores.writeValue_eq buf offset, stores.writeKeyAt_eq buf offset,
      stores.writeValueAt_eq buf offset⟩⟩

/-- An AnyPartition datagram with topic `t`, a two-byte key and a
three-byte value, built from a pool of 16-byte blocks. -/
theorem writeKey_writeValue_of_built_anyPartition :
    ∃ rest msg, buildMsgFromDg (⟨.anyPartition, 7, [116], [1, 2], [3, 4, 5]⟩ : TDgContents).encode
        (TPool.create 24 4) = .ok { msg := some msg, pool := rest, discards := [] } ∧
      ∃ contents : TDgContents, (⟨.anyPartition, 7, [116], [1, 2], [3, 4, 5]⟩ : TDgContents).encode =
          contents.encode ∧ ∀ (buf : List UInt8) (offset : Nat),
        writeKey 16 buf offset msg =
            .ok (overwrite (resize buf (max buf.length (offset + contents.key.length))) offset contents.key) ∧
          writeValue 16 buf offset msg = .ok (contents.value.length,
            overwrite (resize buf (max buf.length (offset + contents.value.length))) offset contents.value) ∧
          writeKeyAt 16 buf offset msg = .ok (overwrite buf offset contents.key) ∧
          writeValueAt 16 buf offset msg = .ok (overwrite buf offset contents.value) := by
  have fits : (⟨.anyPartition, 7, [116], [1, 2], [3, 4, 5]⟩ : TDgContents).Fits :=
    ⟨by decide, by decide, by decide, by decide, fun _ routed => by cases routed⟩
  have room : (2 : Nat) + 3 ≤ (TPool.create 24 4).freeCount * (TPool.create 24 4).getDataSize := by decide
  obtain ⟨rest, msg, built, -⟩ := buildMsgFromDg_encode_ok fits (by decide) room
  exact ⟨rest, msg, built, writeKey_writeValue_of_built built⟩

end Dory.Util
