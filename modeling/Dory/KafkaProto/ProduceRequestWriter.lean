/-
Module: Dory.KafkaProto.ProduceRequestWriter
Purpose: `TProduceRequestWriter` and its `TMsgSetWriter`
  (src/dory/kafka_proto/produce/v0/produce_request_writer.{h,cc},
  msg_set_writer.{h,cc}): the writer of a Kafka produce request, version 0.
  It grows the caller's buffer a field group at a time (`resize`), writes
  at its `AtOffset`, reserves the fields it cannot know yet (the sizes and
  counts, a message's size, value length and CRC) and back-patches them when
  the item they describe is closed.  Release builds define `NDEBUG`, so the
  asserts are not checked; the writer's `State` is read only by them and is
  left out.  `writeRequest` is the call sequence of one request: OpenRequest,
  then per topic OpenTopic, per message set OpenMsgSet, AddMsg per message and
  CloseMsgSet, CloseTopic, and CloseRequest.  Its bytes are `encode` of the
  contents: every reserved field ends up holding its value.  A client may
  also open a message, write its value in place, and then shrink it
  (`AdjustValueSize`) or give it up (`RollbackOpenMsg`): `runMsgActions`
  runs such actions, and leaves what `AddMsg` of the kept messages leaves.
Trusted boundary: none
Main exports: TMsgSetWriter, TProduceRequestWriter, writeRequest,
  writeRequest_eq_encode, TMsgAction, runMsgActions, runMsgActions_eq_direct
-/
import Dory.KafkaProto.ProduceRequestFormat

namespace Dory.KafkaProto

open Dory.Foundation.Bytes Dory.Foundation.Buffer Dory.InputDg TProduceRequestConstants

/-- `ComputeMsgMinusValueSize(key_size)`. -/
def computeMsgMinusValueSize (keySize : Nat) : Nat :=
  crcSize + magicByteSize + attributesSize + keyLenSize + keySize + valueLenSize

/-- `ComputeMsgSetItemSize(msg_size)`. -/
def computeMsgSetItemSize (msgSize : Nat) : Nat :=
  msgOffsetSize + msgSizeSize + msgSize

/-! ### The message set writer -/

/-- `TMsgSetWriter`, apart from its buffer, which it shares with the request
writer and which its operations take and return.  `MsgSetItemCount` is only
counted and is left out. -/
structure TMsgSetWriter where
  atOffset : Nat := 0
  msgSetSize : Nat := 0
  firstMsgSetItemOffset : Nat := 0
  currentMsgSetItemOffset : Nat := 0
  currentMsgCrcOffset : Nat := 0
  currentMsgKeyOffset : Nat := 0
  currentMsgValueOffset : Nat := 0
  currentMsgKeySize : Nat := 0
  currentMsgValueSize : Nat := 0
deriving DecidableEq, Repr

namespace TMsgSetWriter

/-- `OpenMsgSet(result_buf, append)`: the messages go after what the buffer
holds, or into a cleared buffer. -/
def openMsgSet (buf : List UInt8) (append : Bool) : TMsgSetWriter × List UInt8 :=
  let buf := if append then buf else []
  ({ atOffset := buf.length, firstMsgSetItemOffset := buf.length }, buf)

/-- `WriteInt*AtOffset` and `WriteDataAtOffset`: store a field at `AtOffset`
and move past it. -/
def writeAtOffset (writer : TMsgSetWriter) (buf field : List UInt8) : TMsgSetWriter × List UInt8 :=
  ({ writer with atOffset := writer.atOffset + field.length }, overwrite buf writer.atOffset field)

/-- `OpenMsg(compression_type, key_size, value_size)`: room for the whole
message set item, its offset, magic byte, attributes and key length written,
its size and CRC fields skipped, and the key and value left for the caller. -/
def openMsg (writer : TMsgSetWriter) (buf : List UInt8) (compressionType : TCompressionType)
    (keySize valueSize : Nat) : TMsgSetWriter × List UInt8 :=
  let msgSize := computeMsgMinusValueSize keySize + valueSize
  let buf := resize buf (buf.length + computeMsgSetItemSize msgSize)
  let writer := { writer with currentMsgSetItemOffset := writer.atOffset }
  let (writer, buf) := writer.writeAtOffset buf (int64Field 0)
  let writer := { writer with atOffset := writer.atOffset + msgSizeSize }
  let writer := { writer with currentMsgCrcOffset := writer.atOffset }
  let writer := { writer with atOffset := writer.atOffset + crcSize }
  let (writer, buf) := writer.writeAtOffset buf [0]
  let (writer, buf) := writer.writeAtOffset buf [UInt8.ofNat (compressionAttr compressionType)]
  let (writer, buf) := writer.writeAtOffset buf (int32Field (lengthOrNull keySize))
  let writer := { writer with currentMsgKeyOffset := writer.atOffset }
  let writer := { writer with atOffset := writer.atOffset + keySize + valueLenSize }
  ({ writer with
      currentMsgValueOffset := writer.atOffset
      currentMsgKeySize := keySize
      currentMsgValueSize := valueSize }, buf)

/-- `CloseMsg()`: the message size and the value length back-patched, and
then the CRC of everything after the CRC field. -/
def closeMsg (writer : TMsgSetWriter) (buf : List UInt8) : TMsgSetWriter × List UInt8 :=
  let msgSize := computeMsgMinusValueSize writer.currentMsgKeySize + writer.currentMsgValueSize
  let buf := overwrite buf (writer.currentMsgSetItemOffset + msgOffsetSize) (int32Field msgSize)
  let buf := overwrite buf (writer.currentMsgKeyOffset + writer.currentMsgKeySize)
    (int32Field (lengthOrNull writer.currentMsgValueSize))
  let crc := crc32 (bytesAt buf (writer.currentMsgCrcOffset + crcSize) (msgSize - crcSize))
  -- `static_cast<int32_t>(crc)` stores the same four bytes
  let buf := overwrite buf writer.currentMsgCrcOffset (int32Field crc.toNat)
  ({ writer with
      atOffset := writer.atOffset + writer.currentMsgValueSize
      msgSetSize := writer.msgSetSize + computeMsgSetItemSize msgSize
      currentMsgSetItemOffset := 0
      currentMsgCrcOffset := 0
      currentMsgKeyOffset := 0
      currentMsgValueOffset := 0
      currentMsgKeySize := 0
      currentMsgValueSize := 0 }, buf)

/-- `AddMsg(compression_type, key_begin, key_end, value_begin, value_end)`:
`OpenMsg`, the key and the value copied in, and `CloseMsg`. -/
def addMsg (writer : TMsgSetWriter) (buf : List UInt8) (compressionType : TCompressionType)
    (key value : List UInt8) : TMsgSetWriter × List UInt8 :=
  let (writer, buf) := writer.openMsg buf compressionType key.length value.length
  let buf := if key.length ≠ 0 then overwrite buf writer.currentMsgKeyOffset key else buf
  let buf := if value.length ≠ 0 then overwrite buf writer.currentMsgValueOffset value else buf
  writer.closeMsg buf

/-- `AdjustValueSize(new_size)`: the value of the open message, at the end
of the buffer, cut or grown to `newSize` bytes.  `AtOffset` stays at the
value; `CloseMsg` moves it past. -/
def adjustValueSize (writer : TMsgSetWriter) (buf : List UInt8) (newSize : Nat) : TMsgSetWriter × List UInt8 :=
  let sizeOfBufMinusValue := buf.length - writer.currentMsgValueSize
  ({ writer with currentMsgValueSize := newSize }, resize buf (sizeOfBufMinusValue + newSize))

/-- `RollbackOpenMsg()`: the buffer cut back to where the open message
started, and no message open.  `MsgSetSize` is only added to by `CloseMsg`,
so it stays. -/
def rollbackOpenMsg (writer : TMsgSetWriter) (buf : List UInt8) : TMsgSetWriter × List UInt8 :=
  ({ writer with
      atOffset := writer.currentMsgSetItemOffset
      currentMsgSetItemOffset := 0
      currentMsgCrcOffset := 0
      currentMsgKeyOffset := 0
      currentMsgValueOffset := 0
      currentMsgKeySize := 0
      currentMsgValueSize := 0 }, resize buf writer.currentMsgSetItemOffset)

/-- `CloseMsgSet()`: the size of the messages written. -/
def closeMsgSet (writer : TMsgSetWriter) : Nat := writer.msgSetSize

end TMsgSetWriter

/-! ### Messages written in place -/

/-- What a client of `TMsgSetWriter` does for one message: `AddMsg`; or
`OpenMsg` with room for a value, the key and the value area written in
place, `AdjustValueSize` to the size the value came out at and `CloseMsg`;
or the same writes undone by `RollbackOpenMsg`.  The last two are
`TProduceRequestFactory::WriteOneMsgSet` (msg_dispatch/produce_request_factory.cc)
compressing a message set into the value area of one message, and giving it
up when it does not compress well or the codec fails.  `area` is what the
value area holds when the client is done with it, its length the room
reserved. -/
inductive TMsgAction where
  | add (msg : TProduceMsgContents)
  | adjusted (compressionType : TCompressionType) (key area : List UInt8) (finalSize : Nat)
  | rolledBack (compressionType : TCompressionType) (key area : List UInt8)
deriving DecidableEq, Repr

namespace TMsgAction

/-- The client's writes into the open message: the key copied when it is
not empty, as `AddMsg` does, and the value area. -/
def fill (writer : TMsgSetWriter) (buf key area : List UInt8) : List UInt8 :=
  let buf := if key.length ≠ 0 then overwrite buf writer.currentMsgKeyOffset key else buf
  overwrite buf writer.currentMsgValueOffset area

/-- One action on the writer and its buffer. -/
def run (writer : TMsgSetWriter) (buf : List UInt8) : TMsgAction → TMsgSetWriter × List UInt8
  | add msg => writer.addMsg buf msg.compressionType msg.key msg.value
  | adjusted compressionType key area finalSize =>
      let (writer, buf) := writer.openMsg buf compressionType key.length area.length
      let (writer, buf) := writer.adjustValueSize (fill writer buf key area) finalSize
      writer.closeMsg buf
  | rolledBack compressionType key area =>
      let (writer, buf) := writer.openMsg buf compressionType key.length area.length
      writer.rollbackOpenMsg (fill writer buf key area)

/-- The message an action leaves in the set: the value of an adjusted one is
its area at its final size. -/
def kept : TMsgAction → Option TProduceMsgContents
  | add msg => some msg
  | adjusted compressionType key area finalSize => some { compressionType, key, value := resize area finalSize }
  | rolledBack .. => none

/-- The bytes of the message an action leaves, if any. -/
def keptBytes (action : TMsgAction) : List UInt8 :=
  match action.kept with
  | some msg => msg.encode
  | none => []

end TMsgAction

/-- The actions for one message set, one after the other. -/
def runMsgActions (start : TMsgSetWriter × List UInt8) (actions : List TMsgAction) : TMsgSetWriter × List UInt8 :=
  actions.foldl (fun state action => action.run state.1 state.2) start

@[simp] theorem runMsgActions_cons (start : TMsgSetWriter × List UInt8) (action : TMsgAction)
    (actions : List TMsgAction) :
    runMsgActions start (action :: actions) = runMsgActions (action.run start.1 start.2) actions := rfl

/-! ### The request writer -/

/-- `TProduceRequestWriter`, with the caller's buffer as `buf`.  The offsets
of the first and current topic and of the first partition are only
assigned, and are left out. -/
structure TProduceRequestWriter where
  buf : List UInt8 := []
  atOffset : Nat := 0
  topicCountOffset : Nat := 0
  currentTopicPartitionCountOffset : Nat := 0
  topicCount : Nat := 0
  currentPartitionOffset : Nat := 0
  partitionCount : Nat := 0
  msgSetWriter : TMsgSetWriter := {}
deriving DecidableEq, Repr

namespace TProduceRequestWriter

/-- `WriteInt*AtOffset` and `WriteDataAtOffset`. -/
def writeAtOffset (writer : TProduceRequestWriter) (field : List UInt8) : TProduceRequestWriter :=
  { writer with
    buf := overwrite writer.buf writer.atOffset field
    atOffset := writer.atOffset + field.length }

/-- `OpenRequest(result_buf, corr_id, client_id_begin, client_id_end,
required_acks, replication_timeout)`: the header up to the topic count,
whose field is skipped, as is the size field. -/
def openRequest (resultBuf : List UInt8) (corrId : Int) (clientId : List UInt8) (requiredAcks : Int)
    (replicationTimeout : Int) : TProduceRequestWriter :=
  let buf := resize resultBuf (requestOrResponseSizeSize + apiKeySize + apiVersionSize +
    correlationIdSize + clientIdLenSize + clientId.length + requiredAcksSize +
    replicationTimeoutSize + topicCountSize)
  let writer : TProduceRequestWriter := { buf, atOffset := requestOrResponseSizeSize }
  let writer := writer.writeAtOffset (int16Field 0)
  let writer := writer.writeAtOffset (int16Field 0)
  let writer := writer.writeAtOffset (int32Field corrId)
  let writer := writer.writeAtOffset (int16Field (lengthOrNull clientId.length))
  let writer := writer.writeAtOffset clientId
  let writer := writer.writeAtOffset (int16Field requiredAcks)
  let writer := writer.writeAtOffset (int32Field replicationTimeout)
  { writer with topicCountOffset := writer.atOffset, atOffset := writer.atOffset + topicCountSize }

/-- `OpenTopic(topic_name_begin, topic_name_end)`. -/
def openTopic (writer : TProduceRequestWriter) (name : List UInt8) : TProduceRequestWriter :=
  let writer := { writer with
    currentPartitionOffset := 0
    partitionCount := 0
    buf := resize writer.buf (writer.buf.length + topicNameLenSize + name.length + partitionCountSize) }
  let writer := writer.writeAtOffset (int16Field (lengthOrNull name.length))
  let writer := writer.writeAtOffset name
  { writer with
    currentTopicPartitionCountOffset := writer.atOffset
    atOffset := writer.atOffset + partitionCountSize }

/-- `OpenMsgSet(partition)`: the partition written, the message set size
skipped, and the message set writer opened to append. -/
def openMsgSet (writer : TProduceRequestWriter) (partition : Int) : TProduceRequestWriter :=
  let writer := { writer with
    buf := resize writer.buf (writer.buf.length + partitionSize + msgSetSizeSize)
    currentPartitionOffset := writer.atOffset }
  let writer := writer.writeAtOffset (int32Field partition)
  let writer := { writer with atOffset := writer.atOffset + msgSetSizeSize }
  let (msgSetWriter, buf) := TMsgSetWriter.openMsgSet writer.buf true
  { writer with msgSetWriter, buf }

/-- `AddMsg(...)`, passed to the message set writer. -/
def addMsg (writer : TProduceRequestWriter) (compressionType : TCompressionType)
    (key value : List UInt8) : TProduceRequestWriter :=
  let (msgSetWriter, buf) := writer.msgSetWriter.addMsg writer.buf compressionType key value
  { writer with msgSetWriter, buf }

/-- `CloseMsgSet()`: the message set size back-patched. -/
def closeMsgSet (writer : TProduceRequestWriter) : TProduceRequestWriter :=
  let msgSetSize := writer.msgSetWriter.closeMsgSet
  { writer with
    atOffset := writer.buf.length
    buf := overwrite writer.buf (writer.currentPartitionOffset + partitionSize) (int32Field msgSetSize)
    partitionCount := writer.partitionCount + 1 }

/-- `CloseTopic()`: the partition count back-patched. -/
def closeTopic (writer : TProduceRequestWriter) : TProduceRequestWriter :=
  { writer with
    buf := overwrite writer.buf writer.currentTopicPartitionCountOffset (int32Field writer.partitionCount)
    topicCount := writer.topicCount + 1 }

/-- `CloseRequest()`: the topic count and then the size field back-patched;
the result is the caller's buffer. -/
def closeRequest (writer : TProduceRequestWriter) : List UInt8 :=
  let buf := overwrite writer.buf writer.topicCountOffset (int32Field writer.topicCount)
  overwrite buf 0 (int32Field (buf.length - requestOrResponseSizeSize))

end TProduceRequestWriter

open TProduceRequestWriter

/-- The messages of one message set, each with `AddMsg`. -/
def writeMsgs (writer : TProduceRequestWriter) (msgs : List TProduceMsgContents) : TProduceRequestWriter :=
  msgs.foldl (fun writer msg => writer.addMsg msg.compressionType msg.key msg.value) writer

/-- One message set: `OpenMsgSet`, its messages, `CloseMsgSet`. -/
def writeMsgSet (writer : TProduceRequestWriter) (msgSet : TMsgSetContents) : TProduceRequestWriter :=
  (writeMsgs (writer.openMsgSet msgSet.partition) msgSet.msgs).closeMsgSet

/-- One topic: `OpenTopic`, its message sets, `CloseTopic`. -/
def writeTopic (writer : TProduceRequestWriter) (topic : TTopicContents) : TProduceRequestWriter :=
  (topic.msgSets.foldl writeMsgSet (writer.openTopic topic.name)).closeTopic

/-- A whole request into the caller's buffer `resultBuf`. -/
def writeRequest (resultBuf : List UInt8) (request : TProduceRequestContents) : List UInt8 :=
  (request.topics.foldl writeTopic
    (openRequest resultBuf request.correlationId request.clientId request.requiredAcks
      request.replicationTimeout)).closeRequest

/-! ### What the writer writes

Each operation is run on a writer whose `AtOffset` is the end of the buffer,
as it is between the operations of `writeRequest`: the field groups it adds
are the bytes of their contents, with every reserved field back-patched. -/

namespace TMsgSetWriter

variable {writer : TMsgSetWriter} {buf : List UInt8}

/-- `OpenMsg` at the end of the buffer: the offset, the magic byte, the
attributes and the key length written, zero bytes for the rest. -/
theorem openMsg_eq (at_ : writer.atOffset = buf.length) (compressionType : TCompressionType) (keySize valueSize : Nat) :
    writer.openMsg buf compressionType keySize valueSize =
      ({ writer with
          atOffset := buf.length + 26 + keySize
          currentMsgSetItemOffset := buf.length
          currentMsgCrcOffset := buf.length + 12
          currentMsgKeyOffset := buf.length + 22
          currentMsgValueOffset := buf.length + 26 + keySize
          currentMsgKeySize := keySize
          currentMsgValueSize := valueSize },
        buf ++ int64Field 0 ++ List.replicate 8 0 ++ [0, UInt8.ofNat (compressionAttr compressionType)] ++
          int32Field (lengthOrNull keySize) ++ List.replicate (keySize + 4 + valueSize) 0) := by
  have grown : resize buf (buf.length + computeMsgSetItemSize (computeMsgMinusValueSize keySize + valueSize)) =
      buf ++ List.replicate 8 0 ++ List.replicate 8 0 ++ [0] ++ [0] ++ List.replicate 4 0 ++
        List.replicate (keySize + 4 + valueSize) 0 := by
    rw [resize_add]
    simp only [computeMsgSetItemSize, computeMsgMinusValueSize, msgOffsetSize, msgSizeSize, crcSize,
      magicByteSize, attributesSize, keyLenSize, valueLenSize, List.append_assoc, List.append_cancel_left_eq]
    rw [← List.replicate_one, ← List.replicate_add, ← List.replicate_add, ← List.replicate_add,
      ← List.replicate_add, ← List.replicate_add]
    congr 1
    omega
  simp only [openMsg, writeAtOffset, at_, grown, length_int64Field, length_int32Field, List.length_singleton,
    msgSizeSize, crcSize, valueLenSize]
  -- the offset, then the magic byte, the attributes and the key length, each over its zero bytes
  rw [overwrite_eq buf (List.replicate 8 0)
      (List.replicate 8 0 ++ [0] ++ [0] ++ List.replicate 4 0 ++ List.replicate (keySize + 4 + valueSize) 0)
      (int64Field 0) (by simp only [List.append_assoc]) rfl (by simp),
    overwrite_eq (buf ++ int64Field 0 ++ List.replicate 8 0) [0]
      ([0] ++ List.replicate 4 0 ++ List.replicate (keySize + 4 + valueSize) 0) [0]
      (by simp only [List.append_assoc]) (by simp) rfl,
    overwrite_eq (buf ++ int64Field 0 ++ List.replicate 8 0 ++ [0]) [0]
      (List.replicate 4 0 ++ List.replicate (keySize + 4 + valueSize) 0) [UInt8.ofNat (compressionAttr compressionType)]
      (by simp only [List.append_assoc]) (by simp) rfl,
    overwrite_eq (buf ++ int64Field 0 ++ List.replicate 8 0 ++ [0] ++ [UInt8.ofNat (compressionAttr compressionType)])
      (List.replicate 4 0) (List.replicate (keySize + 4 + valueSize) 0) (int32Field (lengthOrNull keySize))
      (by simp only [List.append_assoc]) (by simp) (by simp)]
  simp only [List.append_assoc, List.cons_append, List.nil_append, Prod.mk.injEq, and_true]
  congr 1 <;> omega

/-- Copying a field with `memcpy` only when it is not empty stores it. -/
theorem copy_eq (b : List UInt8) (p : Nat) (field : List UInt8) :
    (if field.length ≠ 0 then overwrite b p field else b) = overwrite b p field := by
  split
  · rfl
  · rename_i empty
    rw [List.length_eq_zero_iff.mp (not_not.mp empty), overwrite_nil]

/-- The key and the value stored into the room `OpenMsg` left for them. -/
theorem overwrite_key_value (compressionType : TCompressionType) (key value : List UInt8) :
    overwrite (overwrite (buf ++ int64Field 0 ++ List.replicate 8 0 ++
        [0, UInt8.ofNat (compressionAttr compressionType)] ++ int32Field (lengthOrNull key.length) ++
        List.replicate (key.length + 4 + value.length) 0) (buf.length + 22) key) (buf.length + 26 + key.length) value =
      buf ++ int64Field 0 ++ List.replicate 8 0 ++ [0, UInt8.ofNat (compressionAttr compressionType)] ++
        int32Field (lengthOrNull key.length) ++ key ++ List.replicate 4 0 ++ value := by
  rw [overwrite_eq (buf ++ int64Field 0 ++ List.replicate 8 0 ++ [0, UInt8.ofNat (compressionAttr compressionType)] ++
      int32Field (lengthOrNull key.length)) (List.replicate key.length 0) (List.replicate 4 0 ++ List.replicate value.length 0) key
      (by simp only [List.replicate_add, List.append_assoc]) (by simp) (by simp),
    overwrite_eq (buf ++ int64Field 0 ++ List.replicate 8 0 ++ [0, UInt8.ofNat (compressionAttr compressionType)] ++
      int32Field (lengthOrNull key.length) ++ key ++ List.replicate 4 0) (List.replicate value.length 0) [] value
      (by simp only [List.append_assoc, List.append_nil]) (by simp; omega) (by simp), List.append_nil]

/-- `CloseMsg` on a message opened at the end of `buf` with its key and value
in place: the size, the value length and the CRC of the body back-patched,
the item is the encoded message. -/
theorem closeMsg_eq (msg : TProduceMsgContents) :
    ({ writer with
        atOffset := buf.length + 26 + msg.key.length
        currentMsgSetItemOffset := buf.length
        currentMsgCrcOffset := buf.length + 12
        currentMsgKeyOffset := buf.length + 22
        currentMsgValueOffset := buf.length + 26 + msg.key.length
        currentMsgKeySize := msg.key.length
        currentMsgValueSize := msg.value.length } : TMsgSetWriter).closeMsg
      (buf ++ int64Field 0 ++ List.replicate 8 0 ++ [0, UInt8.ofNat (compressionAttr msg.compressionType)] ++
        int32Field (lengthOrNull msg.key.length) ++ msg.key ++ List.replicate 4 0 ++ msg.value) =
      ({ writer with
          atOffset := buf.length + msg.encode.length
          msgSetSize := writer.msgSetSize + msg.encode.length
          currentMsgSetItemOffset := 0
          currentMsgCrcOffset := 0
          currentMsgKeyOffset := 0
          currentMsgValueOffset := 0
          currentMsgKeySize := 0
          currentMsgValueSize := 0 }, buf ++ msg.encode) := by
  obtain ⟨compressionType, key, value⟩ := msg
  simp only [closeMsg, computeMsgMinusValueSize, crcSize, magicByteSize, attributesSize, keyLenSize, valueLenSize,
    msgOffsetSize]
  have eight : List.replicate 8 (0 : UInt8) = List.replicate 4 0 ++ List.replicate 4 0 := rfl
  rw [overwrite_eq (buf ++ int64Field 0) (List.replicate 4 0)
      (List.replicate 4 0 ++ [0, UInt8.ofNat (compressionAttr compressionType)] ++ int32Field (lengthOrNull key.length) ++
        key ++ List.replicate 4 0 ++ value)
      (int32Field ↑(4 + 1 + 1 + 4 + key.length + 4 + value.length))
      (by simp only [eight, List.append_assoc]) (by simp) (by simp),
    overwrite_eq (buf ++ int64Field 0 ++ int32Field ↑(4 + 1 + 1 + 4 + key.length + 4 + value.length) ++
        List.replicate 4 0 ++ [0, UInt8.ofNat (compressionAttr compressionType)] ++
        int32Field (lengthOrNull key.length) ++ key) (List.replicate 4 0) value
      (int32Field (lengthOrNull value.length))
      (by simp only [List.append_assoc]) (by simp; omega) (by simp)]
  have body : bytesAt (buf ++ int64Field 0 ++ int32Field ↑(4 + 1 + 1 + 4 + key.length + 4 + value.length) ++
        List.replicate 4 0 ++ [0, UInt8.ofNat (compressionAttr compressionType)] ++
        int32Field (lengthOrNull key.length) ++ key ++ int32Field (lengthOrNull value.length) ++ value)
      (buf.length + 12 + 4) (4 + 1 + 1 + 4 + key.length + 4 + value.length - 4) =
      TProduceMsgContents.body ⟨compressionType, key, value⟩ :=
    bytesAt_eq (buf ++ int64Field 0 ++ int32Field ↑(4 + 1 + 1 + 4 + key.length + 4 + value.length) ++
      List.replicate 4 0) _ [] (by simp [TProduceMsgContents.body]) (by simp) (by simp [TProduceMsgContents.body]; omega)
  rw [body, overwrite_eq (buf ++ int64Field 0 ++ int32Field ↑(4 + 1 + 1 + 4 + key.length + 4 + value.length))
      (List.replicate 4 0) (TProduceMsgContents.body ⟨compressionType, key, value⟩)
      (int32Field (crc32 (TProduceMsgContents.body ⟨compressionType, key, value⟩)).toNat)
      (by simp [TProduceMsgContents.body]) (by simp) (by simp)]
  have size : 4 + 1 + 1 + 4 + key.length + 4 + value.length = TProduceMsgContents.msgSize ⟨compressionType, key, value⟩ := by
    simp only [TProduceMsgContents.msgSize, minMsgSize, crcSize, magicByteSize, attributesSize, keyLenSize,
      valueLenSize]
    omega
  rw [size]
  refine Prod.ext ?_ (by simp [TProduceMsgContents.encode])
  simp only [TProduceMsgContents.length_encode, computeMsgSetItemSize, msgOffsetSize, msgSizeSize]
  simp only [← size]
  congr 1
  omega

/-- `AddMsg` at the end of the buffer appends the encoded message. -/
theorem addMsg_eq (at_ : writer.atOffset = buf.length) (msg : TProduceMsgContents) :
    writer.addMsg buf msg.compressionType msg.key msg.value =
      ({ writer with
          atOffset := buf.length + msg.encode.length
          msgSetSize := writer.msgSetSize + msg.encode.length
          currentMsgSetItemOffset := 0
          currentMsgCrcOffset := 0
          currentMsgKeyOffset := 0
          currentMsgValueOffset := 0
          currentMsgKeySize := 0
          currentMsgValueSize := 0 }, buf ++ msg.encode) := by
  simp only [addMsg, openMsg_eq at_, copy_eq]
  rw [overwrite_key_value]
  exact closeMsg_eq msg

/-- `AdjustValueSize` with the value last in the buffer resizes the value. -/
theorem adjustValueSize_eq (pre value : List UInt8) (valueSize : writer.currentMsgValueSize = value.length)
    (newSize : Nat) :
    writer.adjustValueSize (pre ++ value) newSize =
      ({ writer with currentMsgValueSize := newSize }, pre ++ resize value newSize) := by
  simp only [adjustValueSize, valueSize, List.length_append, Nat.add_sub_cancel, resize_append]

/-- `RollbackOpenMsg` of a message opened at the end of `pre` gives `pre`
back. -/
theorem rollbackOpenMsg_eq (pre opened : List UInt8) (itemAt : writer.currentMsgSetItemOffset = pre.length) :
    writer.rollbackOpenMsg (pre ++ opened) =
      ({ writer with
          atOffset := pre.length
          currentMsgSetItemOffset := 0
          currentMsgCrcOffset := 0
          currentMsgKeyOffset := 0
          currentMsgValueOffset := 0
          currentMsgKeySize := 0
          currentMsgValueSize := 0 }, pre) := by
  simp only [rollbackOpenMsg, itemAt, resize_prefix]

end TMsgSetWriter

namespace TMsgAction

open TMsgSetWriter

variable {writer : TMsgSetWriter} {buf : List UInt8}

/-- One action at the end of the buffer appends the bytes of the message it
keeps, and leaves no message open. -/
theorem run_eq (at_ : writer.atOffset = buf.length) (action : TMsgAction) :
    action.run writer buf =
      ({ writer with
          atOffset := buf.length + action.keptBytes.length
          msgSetSize := writer.msgSetSize + action.keptBytes.length
          currentMsgSetItemOffset := 0
          currentMsgCrcOffset := 0
          currentMsgKeyOffset := 0
          currentMsgValueOffset := 0
          currentMsgKeySize := 0
          currentMsgValueSize := 0 }, buf ++ action.keptBytes) := by
  cases action with
  | add msg => exact addMsg_eq at_ msg
  | adjusted compressionType key area finalSize =>
      -- the value area shrinks to the kept value, which `CloseMsg` then closes
      have closed := @closeMsg_eq writer buf ⟨compressionType, key, resize area finalSize⟩
      simp only [length_resize] at closed
      simp only [run, openMsg_eq at_, fill, copy_eq, overwrite_key_value]
      rw [adjustValueSize_eq _ area rfl]
      exact closed
  | rolledBack compressionType key area =>
      -- the whole opened item goes, the writer is back at the end of `buf`
      simp only [run, openMsg_eq at_, fill, copy_eq, overwrite_key_value]
      simp only [List.append_assoc]
      rw [rollbackOpenMsg_eq buf]
      · simp [keptBytes, kept]
      · rfl

/-- The bytes the actions keep, message by message. -/
theorem flatMap_kept_cons (action : TMsgAction) (actions : List TMsgAction) :
    ((action :: actions).filterMap kept).flatMap TProduceMsgContents.encode =
      action.keptBytes ++ (actions.filterMap kept).flatMap TProduceMsgContents.encode := by
  cases kept_eq : action.kept <;> simp [keptBytes, kept_eq]

end TMsgAction

/-- Actions from a writer between messages append the messages they keep,
and leave a writer between messages. -/
theorem runMsgActions_idle (buf : List UInt8) (size first : Nat) (actions : List TMsgAction) :
    runMsgActions ({ atOffset := buf.length, msgSetSize := size, firstMsgSetItemOffset := first }, buf) actions =
      ({ atOffset := (buf ++ (actions.filterMap TMsgAction.kept).flatMap TProduceMsgContents.encode).length
         msgSetSize := size + ((actions.filterMap TMsgAction.kept).flatMap TProduceMsgContents.encode).length
         firstMsgSetItemOffset := first },
        buf ++ (actions.filterMap TMsgAction.kept).flatMap TProduceMsgContents.encode) := by
  -- induction on the actions; each step keeps the writer between messages
  induction actions generalizing buf size with
  | nil => simp [runMsgActions]
  | cons action actions ih =>
      have step := @TMsgAction.run_eq
        { atOffset := buf.length, msgSetSize := size, firstMsgSetItemOffset := first } buf rfl action
      rw [runMsgActions_cons, step, TMsgAction.flatMap_kept_cons]
      have idle := ih (buf ++ action.keptBytes) (size + action.keptBytes.length)
      simp only [List.length_append] at idle
      simp only [List.length_append, idle, List.append_assoc, Nat.add_assoc]

/-- Messages shrunk in place or rolled back leave the message set that
`AddMsg` of the kept messages alone writes: the same writer and the same
bytes, the kept messages' encodings (each with the size and the CRC of its
final contents), and `CloseMsgSet` returns their length. -/
theorem runMsgActions_eq_direct (buf : List UInt8) (append : Bool) (actions : List TMsgAction) :
    runMsgActions (TMsgSetWriter.openMsgSet buf append) actions =
        runMsgActions (TMsgSetWriter.openMsgSet buf append) ((actions.filterMap TMsgAction.kept).map .add) ∧
      (runMsgActions (TMsgSetWriter.openMsgSet buf append) actions).2 =
        (if append then buf else []) ++ (actions.filterMap TMsgAction.kept).flatMap TProduceMsgContents.encode ∧
      (runMsgActions (TMsgSetWriter.openMsgSet buf append) actions).1.closeMsgSet =
        ((actions.filterMap TMsgAction.kept).flatMap TProduceMsgContents.encode).length := by
  have opened : TMsgSetWriter.openMsgSet buf append =
      ({ atOffset := (if append then buf else []).length, msgSetSize := 0,
         firstMsgSetItemOffset := (if append then buf else []).length }, if append then buf else []) := rfl
  have direct : ((actions.filterMap TMsgAction.kept).map .add).filterMap TMsgAction.kept =
      actions.filterMap TMsgAction.kept := by
    simp [List.filterMap_map, Function.comp_def, TMsgAction.kept]
  rw [opened, runMsgActions_idle, runMsgActions_idle, direct]
  simp [TMsgSetWriter.closeMsgSet]

namespace TProduceRequestWriter

/-- The messages of a set, appended one after the other. -/
theorem writeMsgs_eq (w : TProduceRequestWriter) (msgs : List TProduceMsgContents) {size first : Nat}
    (idle : w.msgSetWriter = { atOffset := w.buf.length, msgSetSize := size, firstMsgSetItemOffset := first }) :
    writeMsgs w msgs = { w with
      buf := w.buf ++ msgs.flatMap TProduceMsgContents.encode
      msgSetWriter :=
        { atOffset := (w.buf ++ msgs.flatMap TProduceMsgContents.encode).length
          msgSetSize := size + (msgs.flatMap TProduceMsgContents.encode).length
          firstMsgSetItemOffset := first } } := by
  induction msgs generalizing w size with
  | nil => simp [writeMsgs, ← idle]
  | cons msg msgs ih =>
      have added : w.addMsg msg.compressionType msg.key msg.value = { w with
          buf := w.buf ++ msg.encode
          msgSetWriter :=
            { atOffset := (w.buf ++ msg.encode).length
              msgSetSize := size + msg.encode.length
              firstMsgSetItemOffset := first } } := by
        have stored := TMsgSetWriter.addMsg_eq
          (show ({ atOffset := w.buf.length, msgSetSize := size, firstMsgSetItemOffset := first } :
            TMsgSetWriter).atOffset = w.buf.length from rfl) msg
        simp only [addMsg, idle, stored, List.length_append]
      show writeMsgs (w.addMsg msg.compressionType msg.key msg.value) msgs = _
      rw [ih _ (by rw [added]), added]
      simp only [List.flatMap_cons, List.append_assoc, List.length_append, Nat.add_assoc]

/-- One message set appends its encoding, size field included. -/
theorem writeMsgSet_eq (w : TProduceRequestWriter) (msgSet : TMsgSetContents) (at_ : w.atOffset = w.buf.length) :
    writeMsgSet w msgSet = { w with
      buf := w.buf ++ msgSet.encode
      atOffset := (w.buf ++ msgSet.encode).length
      currentPartitionOffset := w.buf.length
      partitionCount := w.partitionCount + 1
      msgSetWriter :=
        { atOffset := (w.buf ++ msgSet.encode).length
          msgSetSize := msgSet.msgBytes.length
          firstMsgSetItemOffset := w.buf.length + 8 } } := by
  -- `OpenMsgSet`: the partition, then the message set size skipped
  have opened : w.openMsgSet msgSet.partition = { w with
      buf := w.buf ++ int32Field msgSet.partition ++ List.replicate 4 0
      atOffset := w.buf.length + 8
      currentPartitionOffset := w.buf.length
      msgSetWriter := { atOffset := w.buf.length + 8, firstMsgSetItemOffset := w.buf.length + 8 } } := by
    have grown : resize w.buf (w.buf.length + partitionSize + msgSetSizeSize) =
        w.buf ++ List.replicate 4 0 ++ List.replicate 4 0 := by
      rw [Nat.add_assoc, resize_add, List.append_assoc, ← List.replicate_add]
      rfl
    simp only [openMsgSet, writeAtOffset, TMsgSetWriter.openMsgSet, at_, grown, if_true]
    rw [overwrite_eq w.buf (List.replicate 4 0) (List.replicate 4 0) (int32Field msgSet.partition)
      (by simp only [List.append_assoc]) rfl (by simp)]
    simp [msgSetSizeSize]
  have written := writeMsgs_eq (w.openMsgSet msgSet.partition) msgSet.msgs
    (show (w.openMsgSet msgSet.partition).msgSetWriter =
      { atOffset := (w.openMsgSet msgSet.partition).buf.length, msgSetSize := 0,
        firstMsgSetItemOffset := w.buf.length + 8 } by rw [opened]; simp)
  rw [opened] at written
  simp only [writeMsgSet, opened, written, closeMsgSet, TMsgSetWriter.closeMsgSet]
  rw [overwrite_eq (w.buf ++ int32Field msgSet.partition) (List.replicate 4 0)
    (List.flatMap TProduceMsgContents.encode msgSet.msgs) (int32Field ↑(0 + (List.flatMap TProduceMsgContents.encode msgSet.msgs).length))
    (by simp only [List.append_assoc]) (by simp [partitionSize]) (by simp)]
  simp [TMsgSetContents.encode, TMsgSetContents.msgBytes]
  omega

/-- The message sets of a topic, appended one after the other. -/
theorem foldl_writeMsgSet (w : TProduceRequestWriter) (msgSets : List TMsgSetContents)
    (at_ : w.atOffset = w.buf.length) :
    ∃ partitionOffset msgSetWriter, msgSets.foldl writeMsgSet w = { w with
      buf := w.buf ++ msgSets.flatMap TMsgSetContents.encode
      atOffset := (w.buf ++ msgSets.flatMap TMsgSetContents.encode).length
      partitionCount := w.partitionCount + msgSets.length
      currentPartitionOffset := partitionOffset
      msgSetWriter := msgSetWriter } := by
  induction msgSets generalizing w with
  | nil =>
      refine ⟨w.currentPartitionOffset, w.msgSetWriter, ?_⟩
      cases w
      simp_all
  | cons msgSet msgSets ih =>
      obtain ⟨partitionOffset, msgSetWriter, folded⟩ :=
        ih (writeMsgSet w msgSet) (by rw [writeMsgSet_eq w msgSet at_])
      refine ⟨partitionOffset, msgSetWriter, ?_⟩
      rw [List.foldl_cons, folded, writeMsgSet_eq w msgSet at_]
      simp only [List.flatMap_cons, List.append_assoc, List.length_cons]
      congr 1
      omega

/-- One topic appends its encoding, partition count included. -/
theorem writeTopic_eq (w : TProduceRequestWriter) (topic : TTopicContents) (at_ : w.atOffset = w.buf.length) :
    ∃ partitionOffset msgSetWriter, writeTopic w topic = { w with
      buf := w.buf ++ topic.encode
      atOffset := (w.buf ++ topic.encode).length
      currentTopicPartitionCountOffset := w.buf.length + 2 + topic.name.length
      topicCount := w.topicCount + 1
      partitionCount := topic.msgSets.length
      currentPartitionOffset := partitionOffset
      msgSetWriter := msgSetWriter } := by
  -- `OpenTopic`: the name after its length, then the partition count skipped
  have opened : w.openTopic topic.name = { w with
      buf := w.buf ++ int16Field (lengthOrNull topic.name.length) ++ topic.name ++ List.replicate 4 0
      atOffset := w.buf.length + 2 + topic.name.length + 4
      currentTopicPartitionCountOffset := w.buf.length + 2 + topic.name.length
      partitionCount := 0
      currentPartitionOffset := 0 } := by
    have grown : resize w.buf (w.buf.length + topicNameLenSize + topic.name.length + partitionCountSize) =
        w.buf ++ List.replicate 2 0 ++ List.replicate topic.name.length 0 ++ List.replicate 4 0 := by
      rw [Nat.add_assoc, Nat.add_assoc, resize_add, List.append_assoc, List.append_assoc, ← List.replicate_add,
        ← List.replicate_add]
      rfl
    simp only [openTopic, writeAtOffset, at_, grown]
    rw [overwrite_overwrite (by simp) _ _ rfl,
      overwrite_eq w.buf (List.replicate 2 0 ++ List.replicate topic.name.length 0) (List.replicate 4 0)
        (int16Field (lengthOrNull topic.name.length) ++ topic.name) (by simp only [List.append_assoc]) rfl
        (by simp; omega)]
    simp only [partitionCountSize, List.append_assoc, length_int16Field]
  obtain ⟨partitionOffset, msgSetWriter, folded⟩ :=
    foldl_writeMsgSet (w.openTopic topic.name) topic.msgSets (by rw [opened]; simp; omega)
  refine ⟨partitionOffset, msgSetWriter, ?_⟩
  rw [opened] at folded
  simp only [writeTopic, opened, folded, closeTopic]
  rw [overwrite_eq (w.buf ++ int16Field (lengthOrNull topic.name.length) ++ topic.name) (List.replicate 4 0)
    (topic.msgSets.flatMap TMsgSetContents.encode) (int32Field ↑(0 + topic.msgSets.length))
    (by simp only [List.append_assoc]) (by simp; omega) (by simp)]
  simp [TTopicContents.encode]
  omega

/-- The topics of a request, appended one after the other. -/
theorem foldl_writeTopic (w : TProduceRequestWriter) (topics : List TTopicContents)
    (at_ : w.atOffset = w.buf.length) :
    ∃ countOffset partitionCount partitionOffset msgSetWriter, topics.foldl writeTopic w = { w with
      buf := w.buf ++ topics.flatMap TTopicContents.encode
      atOffset := (w.buf ++ topics.flatMap TTopicContents.encode).length
      topicCount := w.topicCount + topics.length
      currentTopicPartitionCountOffset := countOffset
      partitionCount := partitionCount
      currentPartitionOffset := partitionOffset
      msgSetWriter := msgSetWriter } := by
  induction topics generalizing w with
  | nil =>
      refine ⟨w.currentTopicPartitionCountOffset, w.partitionCount, w.currentPartitionOffset, w.msgSetWriter, ?_⟩
      cases w
      simp_all
  | cons topic topics ih =>
      obtain ⟨partitionOffset, msgSetWriter, written⟩ := writeTopic_eq w topic at_
      obtain ⟨countOffset', partitionCount', partitionOffset', msgSetWriter', folded⟩ :=
        ih (writeTopic w topic) (by rw [written])
      refine ⟨countOffset', partitionCount', partitionOffset', msgSetWriter', ?_⟩
      rw [List.foldl_cons, folded, written]
      simp only [List.flatMap_cons, List.append_assoc, List.length_cons]
      congr 1
      omega

/-- The header fields `OpenRequest` writes after the size field. -/
theorem openRequest_eq (resultBuf : List UInt8) (corrId : Int) (clientId : List UInt8)
    (requiredAcks replicationTimeout : Int) :
    openRequest resultBuf corrId clientId requiredAcks replicationTimeout =
      { buf := (resize resultBuf (24 + clientId.length)).take 4 ++
          (int16Field 0 ++ int16Field 0 ++ int32Field corrId ++ int16Field (lengthOrNull clientId.length) ++
            clientId ++ int16Field requiredAcks ++ int32Field replicationTimeout) ++
          (resize resultBuf (24 + clientId.length)).drop (20 + clientId.length)
        atOffset := 24 + clientId.length
        topicCountOffset := 20 + clientId.length } := by
  have size : requestOrResponseSizeSize + apiKeySize + apiVersionSize + correlationIdSize + clientIdLenSize +
      clientId.length + requiredAcksSize + replicationTimeoutSize + topicCountSize = 24 + clientId.length := by
    simp only [requestOrResponseSizeSize, apiKeySize, apiVersionSize, correlationIdSize, clientIdLenSize,
      requiredAcksSize, replicationTimeoutSize, topicCountSize]
    omega
  simp only [openRequest, writeAtOffset, size]
  -- the seven fields follow one another, so they are one field at offset 4
  have within : requestOrResponseSizeSize ≤ (resize resultBuf (24 + clientId.length)).length := by
    simp only [length_resize, requestOrResponseSizeSize]
    omega
  rw [overwrite_overwrite within _ _ rfl, overwrite_overwrite within _ _ (by simp only [List.length_append]; omega),
    overwrite_overwrite within _ _ (by simp only [List.length_append]; omega),
    overwrite_overwrite within _ _ (by simp only [List.length_append]; omega),
    overwrite_overwrite within _ _ (by simp only [List.length_append]; omega),
    overwrite_overwrite within _ _ (by simp only [List.length_append]; omega)]
  have fieldsEnd : 4 + (2 + (2 + (4 + (2 + (clientId.length + (2 + 4)))))) = 20 + clientId.length := by omega
  simp only [overwrite, List.append_assoc, List.length_append, length_int16Field, length_int32Field,
    requestOrResponseSizeSize, topicCountSize, TProduceRequestWriter.mk.injEq, fieldsEnd, true_and, and_true]
  omega

end TProduceRequestWriter

/-- The writer's bytes are the encoding of the request, whatever the
caller's buffer held. -/
theorem writeRequest_eq_encode (resultBuf : List UInt8) (request : TProduceRequestContents) :
    writeRequest resultBuf request = request.encode := by
  obtain ⟨correlationId, clientId, requiredAcks, replicationTimeout, topics⟩ := request
  have startLength : (resize resultBuf (24 + clientId.length)).length = 24 + clientId.length :=
    length_resize _ _
  have sizeField : ((resize resultBuf (24 + clientId.length)).take 4).length = 4 := by simp; omega
  have countField : ((resize resultBuf (24 + clientId.length)).drop (20 + clientId.length)).length = 4 := by
    simp; omega
  obtain ⟨countOffset, partitionCount, partitionOffset, msgSetWriter, folded⟩ :=
    foldl_writeTopic (openRequest resultBuf correlationId clientId requiredAcks replicationTimeout) topics
      (by rw [openRequest_eq]; simp; omega)
  rw [openRequest_eq] at folded
  simp only [writeRequest, openRequest_eq, folded, closeRequest]
  -- the topic count, then the size of everything after the size field
  rw [overwrite_eq ((resize resultBuf (24 + clientId.length)).take 4 ++
      (int16Field 0 ++ int16Field 0 ++ int32Field correlationId ++ int16Field (lengthOrNull clientId.length) ++
        clientId ++ int16Field requiredAcks ++ int32Field replicationTimeout))
      ((resize resultBuf (24 + clientId.length)).drop (20 + clientId.length))
      (topics.flatMap TTopicContents.encode) (int32Field ↑(0 + topics.length))
      (by simp only [List.append_assoc]) (by simp; omega) (by simp [countField])]
  simp only [List.append_assoc]
  rw [overwrite_front ((resize resultBuf (24 + clientId.length)).take 4) _ _ (by simp [sizeField])]
  simp only [TProduceRequestContents.encode, TProduceRequestContents.body, List.length_append,
    sizeField, Nat.zero_add, requestOrResponseSizeSize, List.append_assoc]
  congr 2
  push_cast
  omega

end Dory.KafkaProto
