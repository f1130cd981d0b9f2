/-
Module: Dory.KafkaProto.ProduceRequestReader
Purpose: `TProduceRequestReader` and its `TMsgSetReader`
  (src/dory/kafka_proto/produce/v0/produce_request_reader.{h,cc},
  msg_set_reader.{h,cc}): the lazy reader of a Kafka produce request,
  version 0, which walks the topics of the request, the message set of each
  partition and the messages of a set one at a time.  Pointers are offsets
  from the request's `Begin` (`Int`: the signed sizes read from the wire can
  move them before it).  Release builds define `NDEBUG`, so the asserts are
  not checked; a read of a byte outside the request buffer is
  `readOutsideBuffer`.  The message set reader gets its size as a `size_t`,
  and `Begin + size` wraps around the flat 64-bit address space: from a
  buffer away from the ends of that space it lands at `Begin` plus the size
  read back as a signed 64-bit number.
  Every end the outer reader computes is checked against `End`, but no start
  against `Begin`: a negative message set size puts the next partition
  before the current one, where `InitCurrentPartition` reads its size field.
Trusted boundary: none
Main exports: TCompressionType, TProduceRequestError, TMsgSetReader,
  TProduceRequestReader, setRequest, nextTopic, nextMsgSetInTopic,
  nextMsgInMsgSet, nextMsgSetInTopic_reads_before_request
-/
import Dory.KafkaProto.MetadataResponseReader

namespace Dory.KafkaProto

open Dory.Foundation Dory.Foundation.Bytes

/-- `Compress::TCompressionType`. -/
inductive TCompressionType where
  | none
  | gzip
  | snappy
  | lz4
deriving DecidableEq, Repr

namespace TProduceRequestConstants

def apiKeySize : Nat := 2
def apiVersionSize : Nat := 2
def correlationIdSize : Nat := 4
def clientIdLenSize : Nat := 2
def requiredAcksSize : Nat := 2
def replicationTimeoutSize : Nat := 4
def topicCountSize : Nat := 4
def topicNameLenSize : Nat := 2
def partitionCountSize : Nat := 4
def partitionSize : Nat := 4
def msgSetSizeSize : Nat := 4
def msgOffsetSize : Nat := 8
def msgSizeSize : Nat := 4
def crcSize : Nat := 4
def magicByteSize : Nat := 1
def attributesSize : Nat := 1
def keyLenSize : Nat := 4
def valueLenSize : Nat := 4

/-- `MIN_MSG_SIZE`: a message with an empty key and an empty value. -/
def minMsgSize : Nat := crcSize + magicByteSize + attributesSize + keyLenSize + valueLenSize

/-- The attributes byte of each compression type. -/
def compressionAttr : TCompressionType → Nat
  | .none => 0
  | .gzip => 1
  | .snappy => 2
  | .lz4 => 3

end TProduceRequestConstants

open TProduceRequestConstants

/-- What reading a produce request can throw: the eight `TBadProduceRequest`
errors of the request reader, the five `TBadMsgSet` errors of the message set
reader, `TBadRequestOrResponseSize` from `GetRequestOrResponseSize`, the
`std::range_error` of walking past the end, and a read the source makes
outside the request buffer. -/
inductive TProduceRequestError where
  | badRequestSize
  | requestTruncated
  | badApiKey
  | badApiVersion
  | badClientIdLen
  | badTopicCount
  | badTopicNameLen
  | badPartitionCount
  | msgSetTruncated
  | badMsgSize
  | badMsgKeySize
  | badMsgValueSize
  | unknownCompressionType
  | badRequestOrResponseSize
  | rangeError
  | readOutsideBuffer
deriving DecidableEq, Repr

open TProduceRequestError

/-! ### The message set reader -/

/-- `TMsgSetReader`.  `CurrentMsg` and the key and value pointers are `none`
when null; `Begin` and `End` only meet the asserts when null. -/
structure TMsgSetReader where
  beginPos : Int := 0
  endPos : Int := 0
  currentMsg : Option Int := none
  currentMsgSize : Int := 0
  currentMsgCrcOk : Bool := false
  currentMsgKeyBegin : Option Int := none
  currentMsgKeyEnd : Option Int := none
  currentMsgValueBegin : Option Int := none
  currentMsgValueEnd : Option Int := none
deriving DecidableEq, Repr

namespace TMsgSetReader

/-- `SetMsgSet(msg_set, msg_set_size)`. -/
def setMsgSet (msgSet : Int) (msgSetSize : Nat) : TMsgSetReader :=
  { beginPos := msgSet, endPos := msgSet + toSigned 8 msgSetSize }

section Read

variable (buf : List UInt8)

/-- `InitCurrentMsg()` for the message at `msg`: its size, then the CRC over
the rest of it, and only when the CRC matches the key and value lengths. -/
def initCurrentMsg (reader : TMsgSetReader) (msg : Int) : Except TProduceRequestError TMsgSetReader :=
  let msgSizeField := msg + msgOffsetSize
  let msgStart := msgSizeField + msgSizeSize
  if msgStart > reader.endPos then .error msgSetTruncated
  else match readSignedAt? buf msgSizeField msgSizeSize with
    | none => .error readOutsideBuffer
    | some msgSize =>
        if msgSize < minMsgSize then .error badMsgSize
        else if msgStart + msgSize > reader.endPos then .error msgSetTruncated
        else match bytesAt? buf (msgStart + crcSize) (msgSize - crcSize).toNat,
            readUnsignedAt? buf msgStart crcSize with
          | some checked, some expectedCrc =>
              let reader := { reader with currentMsg := some msg, currentMsgSize := msgSize }
              if (crc32 checked).toNat = expectedCrc then
                let keyLenField := msgStart + crcSize + magicByteSize + attributesSize
                match readSignedAt? buf keyLenField keyLenSize with
                | none => .error readOutsideBuffer
                | some keySize =>
                    let keySize := TProduceResponseReader.nullAsEmpty keySize
                    if keySize < 0 ∨ minMsgSize + keySize > msgSize then .error badMsgKeySize
                    else
                      let keyBegin := keyLenField + keyLenSize
                      let keyEnd := keyBegin + keySize
                      match readSignedAt? buf keyEnd valueLenSize with
                      | none => .error readOutsideBuffer
                      | some valueSize =>
                          let valueSize := TProduceResponseReader.nullAsEmpty valueSize
                          -- the sum is `int` arithmetic
                          if valueSize < 0 ∨ wrapSigned 4 (minMsgSize + keySize + valueSize) ≠ msgSize then
                            .error badMsgValueSize
                          else .ok { reader with
                            currentMsgCrcOk := true
                            currentMsgKeyBegin := some keyBegin
                            currentMsgKeyEnd := some keyEnd
                            currentMsgValueBegin := some (keyEnd + valueLenSize)
                            currentMsgValueEnd := some (keyEnd + valueLenSize + valueSize) }
              else .ok { reader with
                currentMsgCrcOk := false
                currentMsgKeyBegin := none
                currentMsgKeyEnd := none
                currentMsgValueBegin := none
                currentMsgValueEnd := none }
          | _, _ => .error readOutsideBuffer

/-- `FirstMsg()`. -/
def firstMsg (reader : TMsgSetReader) : Except TProduceRequestError (Bool × TMsgSetReader) :=
  if reader.beginPos < reader.endPos then do
    let reader ← reader.initCurrentMsg buf reader.beginPos
    pure (true, reader)
  else pure (false, { reader with currentMsg := some reader.beginPos })

/-- `NextMsg()`: the next message starts after the offset, size and body of
this one, a sum of `int32_t`s. -/
def nextMsg (reader : TMsgSetReader) : Except TProduceRequestError (Bool × TMsgSetReader) :=
  match reader.currentMsg with
  | none => reader.firstMsg buf
  | some msg =>
      if msg ≥ reader.endPos then .error rangeError
      else
        let next := msg + wrapSigned 4 (msgOffsetSize + msgSizeSize + reader.currentMsgSize)
        if next > reader.endPos then .error msgSetTruncated
        else if next < reader.endPos then do
          let reader ← reader.initCurrentMsg buf next
          pure (true, reader)
        else pure (false, { reader with
          currentMsg := some next
          currentMsgSize := 0
          currentMsgCrcOk := false
          currentMsgKeyBegin := none
          currentMsgKeyEnd := none
          currentMsgValueBegin := none
          currentMsgValueEnd := none })

/-- `GetCurrentMsgCompressionType()`: the attributes byte of the current
message. -/
def getCurrentMsgCompressionType (reader : TMsgSetReader) :
    Except TProduceRequestError TCompressionType :=
  match reader.currentMsg with
  | none => .error readOutsideBuffer
  | some msg =>
      match readUnsignedAt? buf (msg + msgOffsetSize + msgSizeSize + crcSize + magicByteSize) 1 with
      | none => .error readOutsideBuffer
      | some 0 => .ok .none
      | some 1 => .ok .gzip
      | some 2 => .ok .snappy
      | some 3 => .ok .lz4
      | some _ => .error unknownCompressionType

/-- The bytes from one of the reader's pointers to another, as a
`std::string` built from them holds them: `none` when they leave the buffer,
and empty between null pointers. -/
def pointedBytes (first last : Option Int) : Option (List UInt8) :=
  match first, last with
  | some first, some last => bytesAt? buf first (last - first).toNat
  | _, _ => some []

/-- The bytes of `[GetCurrentMsgKeyBegin(), GetCurrentMsgKeyEnd())`. -/
def getCurrentMsgKey (reader : TMsgSetReader) : Option (List UInt8) :=
  pointedBytes buf reader.currentMsgKeyBegin reader.currentMsgKeyEnd

/-- The bytes of `[GetCurrentMsgValueBegin(), GetCurrentMsgValueEnd())`. -/
def getCurrentMsgValue (reader : TMsgSetReader) : Option (List UInt8) :=
  pointedBytes buf reader.currentMsgValueBegin reader.currentMsgValueEnd

end Read

end TMsgSetReader

/-! ### The request reader -/

/-- `TProduceRequestReader`.  `buf` is the request buffer
`[Begin, Begin + request_size)`; the defaults are `Clear()`, with the null
pointers at offset 0 (the source only asserts on them). -/
structure TProduceRequestReader where
  buf : List UInt8 := []
  endPos : Int := 0
  clientIdLen : Int := 0
  numTopics : Int := 0
  currentTopicIndex : Int := -1
  currentTopicBegin : Int := 0
  currentTopicNameEnd : Int := 0
  numPartitionsInTopic : Int := 0
  currentPartitionIndexInTopic : Int := -1
  currentPartitionBegin : Int := 0
  partitionMsgSetBegin : Int := 0
  partitionMsgSetEnd : Int := 0
  msgSetReader : TMsgSetReader := {}
deriving DecidableEq, Repr

namespace TProduceRequestReader

/-- `MinSize()`: the header with an empty client ID and the topic count. -/
def minSize : Nat :=
  requestOrResponseSizeSize + apiKeySize + apiVersionSize + correlationIdSize + clientIdLenSize +
    requiredAcksSize + replicationTimeoutSize + topicCountSize

def clientIdLenOffset : Nat :=
  requestOrResponseSizeSize + apiKeySize + apiVersionSize + correlationIdSize

/-- `GetClientIdBegin()`. -/
def clientIdBegin : Nat := clientIdLenOffset + clientIdLenSize

/-- `SetRequest(request, request_size)`.  The size field is read before
anything is checked against `request_size`. -/
def setRequest (request : List UInt8) : Except TProduceRequestError TProduceRequestReader :=
  if request.length < requestOrResponseSizeSize then .error readOutsideBuffer
  else match getRequestOrResponseSize request with
    | .error _ => .error badRequestOrResponseSize
    | .ok size =>
        if size < minSize then .error badRequestSize
        else if request.length < size then .error requestTruncated
        else if readSigned request requestOrResponseSizeSize apiKeySize ≠ 0 then .error badApiKey
        else if readSigned request (requestOrResponseSizeSize + apiKeySize) apiVersionSize ≠ 0 then
          .error badApiVersion
        else
          let clientIdLen :=
            TProduceResponseReader.nullAsEmpty (readSigned request clientIdLenOffset clientIdLenSize)
          if clientIdLen < 0 then .error badClientIdLen
          else if (size : Int) < minSize + clientIdLen then .error badRequestSize
          else
            let requiredAcksOffset := clientIdBegin + clientIdLen.toNat
            let numTopics := readSigned request
              (requiredAcksOffset + requiredAcksSize + replicationTimeoutSize) topicCountSize
            if numTopics < 0 then .error badTopicCount
            else .ok { buf := request, endPos := size, clientIdLen, numTopics }

section Fields

variable (reader : TProduceRequestReader)

/-- `GetCorrelationId()`. -/
def getCorrelationId : Int :=
  readSigned reader.buf (requestOrResponseSizeSize + apiKeySize + apiVersionSize) correlationIdSize

/-- The bytes of `[GetClientIdBegin(), GetClientIdEnd())`. -/
def getClientId : List UInt8 :=
  bytesAt reader.buf clientIdBegin reader.clientIdLen.toNat

/-- `GetRequiredAcks()`. -/
def getRequiredAcks : Int :=
  readSigned reader.buf (clientIdBegin + reader.clientIdLen.toNat) requiredAcksSize

/-- `GetReplicationTimeout()`. -/
def getReplicationTimeout : Int :=
  readSigned reader.buf (clientIdBegin + reader.clientIdLen.toNat + requiredAcksSize)
    replicationTimeoutSize

/-- The bytes of `[GetCurrentTopicNameBegin(), GetCurrentTopicNameEnd())`. -/
def getCurrentTopicName : List UInt8 :=
  bytesAt reader.buf (reader.currentTopicBegin + topicNameLenSize).toNat
    (reader.currentTopicNameEnd - reader.currentTopicBegin - topicNameLenSize).toNat

/-- `GetPartitionOfCurrentMsgSet()`. -/
def getPartitionOfCurrentMsgSet : Option Int :=
  readSignedAt? reader.buf reader.currentPartitionBegin partitionSize

end Fields

/-- `InitCurrentTopic()`: the name length and the partition count of the
topic at `CurrentTopicBegin`, each field's end checked against `End`. -/
def initCurrentTopic (reader : TProduceRequestReader) :
    Except TProduceRequestError TProduceRequestReader :=
  if reader.currentTopicBegin + topicNameLenSize > reader.endPos then .error requestTruncated
  else match readSignedAt? reader.buf reader.currentTopicBegin topicNameLenSize with
    | none => .error readOutsideBuffer
    | some nameLen =>
        let nameLen := TProduceResponseReader.nullAsEmpty nameLen
        if nameLen < 0 then .error badTopicNameLen
        else
          let nameEnd := reader.currentTopicBegin + topicNameLenSize + nameLen
          if nameEnd + partitionCountSize > reader.endPos then .error requestTruncated
          else match readSignedAt? reader.buf nameEnd partitionCountSize with
            | none => .error readOutsideBuffer
            | some numPartitions =>
                if numPartitions < 0 then .error badPartitionCount
                else .ok { reader with
                  currentTopicNameEnd := nameEnd
                  numPartitionsInTopic := numPartitions
                  currentPartitionIndexInTopic := -1
                  currentPartitionBegin := 0
                  partitionMsgSetBegin := 0
                  partitionMsgSetEnd := 0 }

/-- `InitCurrentPartition()`: the message set of the partition at
`CurrentPartitionBegin`.  Its end is checked against `End`, not against its
start, and the message set reader gets the size cast to `size_t`. -/
def initCurrentPartition (reader : TProduceRequestReader) :
    Except TProduceRequestError TProduceRequestReader :=
  let msgSetBegin := reader.currentPartitionBegin + partitionSize + msgSetSizeSize
  if msgSetBegin > reader.endPos then .error requestTruncated
  else match readSignedAt? reader.buf (reader.currentPartitionBegin + partitionSize) msgSetSizeSize with
    | none => .error readOutsideBuffer
    | some msgSetSize =>
        let msgSetEnd := msgSetBegin + msgSetSize
        if msgSetEnd > reader.endPos then .error requestTruncated
        else .ok { reader with
          partitionMsgSetBegin := msgSetBegin
          partitionMsgSetEnd := msgSetEnd
          msgSetReader := TMsgSetReader.setMsgSet msgSetBegin (toSize msgSetSize) }

/-- `FirstTopic()`. -/
def firstTopic (reader : TProduceRequestReader) :
    Except TProduceRequestError (Bool × TProduceRequestReader) :=
  let reader := { reader with
    currentTopicIndex := 0
    currentTopicBegin := clientIdBegin + reader.clientIdLen + requiredAcksSize +
      replicationTimeoutSize + topicCountSize }
  if 0 < reader.numTopics then do
    let reader ← reader.initCurrentTopic
    pure (true, reader)
  else pure (false, reader)

/-- `FirstMsgSetInTopic()`. -/
def firstMsgSetInTopic (reader : TProduceRequestReader) :
    Except TProduceRequestError (Bool × TProduceRequestReader) :=
  let reader := { reader with
    currentPartitionIndexInTopic := 0
    currentPartitionBegin := reader.currentTopicNameEnd + partitionCountSize }
  if 0 < reader.numPartitionsInTopic then do
    let reader ← reader.initCurrentPartition
    pure (true, reader)
  else pure (false, reader)

/-- `NextMsgSetInTopic()`: the next partition starts where the current
message set ends. -/
def nextMsgSetInTopic (reader : TProduceRequestReader) :
    Except TProduceRequestError (Bool × TProduceRequestReader) :=
  if reader.currentPartitionIndexInTopic < 0 then reader.firstMsgSetInTopic
  else if reader.currentPartitionIndexInTopic ≥ reader.numPartitionsInTopic then .error rangeError
  else
    let reader := { reader with
      currentPartitionBegin := reader.partitionMsgSetEnd
      currentPartitionIndexInTopic := reader.currentPartitionIndexInTopic + 1 }
    if reader.currentPartitionIndexInTopic < reader.numPartitionsInTopic then do
      let reader ← reader.initCurrentPartition
      pure (true, reader)
    else pure (false, { reader with msgSetReader := {} })

/-! ### What each step can do -/

section Steps

variable {reader next : TProduceRequestReader}

/-- What a successful `InitCurrentPartition()` changes: the bounds of the
message set and its reader. -/
theorem initCurrentPartition_ok (initialized : reader.initCurrentPartition = .ok next) :
    ∃ msgSetSize, readSignedAt? reader.buf (reader.currentPartitionBegin + partitionSize) msgSetSizeSize =
        some msgSetSize ∧
      next = { reader with
        partitionMsgSetBegin := reader.currentPartitionBegin + partitionSize + msgSetSizeSize
        partitionMsgSetEnd := reader.currentPartitionBegin + partitionSize + msgSetSizeSize + msgSetSize
        msgSetReader := TMsgSetReader.setMsgSet
          (reader.currentPartitionBegin + partitionSize + msgSetSizeSize) (toSize msgSetSize) } := by
  unfold initCurrentPartition at initialized
  dsimp only at initialized
  split at initialized
  · cases initialized
  split at initialized
  · cases initialized
  rename_i msgSetSize read
  split at initialized
  · cases initialized
  cases initialized
  exact ⟨msgSetSize, read, rfl⟩

/-- A message set found by `NextMsgSetInTopic()` comes after the previous
one and before the partition count; nothing else of the topic moves. -/
theorem nextMsgSetInTopic_advances (advanced : reader.nextMsgSetInTopic = .ok (true, next)) :
    reader.currentPartitionIndexInTopic < next.currentPartitionIndexInTopic ∧
      next.currentPartitionIndexInTopic < next.numPartitionsInTopic ∧
      next.numPartitionsInTopic = reader.numPartitionsInTopic ∧ next.buf = reader.buf ∧
      next.endPos = reader.endPos := by
  unfold nextMsgSetInTopic firstMsgSetInTopic at advanced
  dsimp only at advanced
  split at advanced
  · -- the first message set of the topic
    rename_i before
    split at advanced
    · rename_i some
      obtain ⟨reader', initialized, found⟩ := bind_eq_ok advanced
      cases found
      obtain ⟨msgSetSize, -, rfl⟩ := initCurrentPartition_ok initialized
      exact ⟨before, some, rfl, rfl, rfl⟩
    · cases advanced
  split at advanced
  · cases advanced
  split at advanced
  · rename_i within
    obtain ⟨reader', initialized, found⟩ := bind_eq_ok advanced
    cases found
    obtain ⟨msgSetSize, -, rfl⟩ := initCurrentPartition_ok initialized
    exact ⟨by simp, within, rfl, rfl, rfl⟩
  · cases advanced

end Steps

/-- The loop `while (not_at_end) not_at_end = NextMsgSetInTopic();` of
`NextTopic()`, which skips the message sets the caller left unread. -/
def skipMsgSetsLoop (reader : TProduceRequestReader) :
    Except TProduceRequestError TProduceRequestReader :=
  match _moved : reader.nextMsgSetInTopic with
  | .error e => .error e
  | .ok (true, after) => skipMsgSetsLoop after
  | .ok (false, after) => .ok after
termination_by (reader.numPartitionsInTopic - reader.currentPartitionIndexInTopic).toNat
decreasing_by
  obtain ⟨forward, below, count, -⟩ := nextMsgSetInTopic_advances _moved
  omega

/-- `NextTopic()`: the partitions left in the current topic are skipped, and
the next topic starts where the next partition of this one would. -/
def nextTopic (reader : TProduceRequestReader) :
    Except TProduceRequestError (Bool × TProduceRequestReader) :=
  if reader.currentTopicIndex < 0 then reader.firstTopic
  else if reader.currentTopicIndex ≥ reader.numTopics then .error rangeError
  else do
    let (notAtEnd, reader) ← if reader.currentPartitionIndexInTopic = -1 then reader.firstMsgSetInTopic
      else pure (decide (reader.currentPartitionIndexInTopic < reader.numPartitionsInTopic), reader)
    let reader ← if notAtEnd then reader.skipMsgSetsLoop else pure reader
    let reader := { reader with
      currentTopicBegin := reader.currentPartitionBegin
      currentTopicIndex := reader.currentTopicIndex + 1 }
    if reader.currentTopicIndex < reader.numTopics then do
      let reader ← reader.initCurrentTopic
      pure (true, reader)
    else pure (false, reader)

/-- `FirstMsgInMsgSet()`. -/
def firstMsgInMsgSet (reader : TProduceRequestReader) :
    Except TProduceRequestError (Bool × TProduceRequestReader) := do
  let (found, msgSetReader) ← reader.msgSetReader.firstMsg reader.buf
  pure (found, { reader with msgSetReader })

/-- `NextMsgInMsgSet()`. -/
def nextMsgInMsgSet (reader : TProduceRequestReader) :
    Except TProduceRequestError (Bool × TProduceRequestReader) := do
  let (found, msgSetReader) ← reader.msgSetReader.nextMsg reader.buf
  pure (found, { reader with msgSetReader })

/-! ### A message set of negative size -/

section NegativeMsgSet

variable {reader first next : TProduceRequestReader}

/-- A request accepted by `SetRequest()` starts before its first topic, with
an end past its header. -/
theorem setRequest_ok {request : List UInt8} (set : setRequest request = .ok reader) :
    reader.currentTopicIndex = -1 ∧ (minSize : Int) ≤ reader.endPos := by
  unfold setRequest at set
  split at set
  · cases set
  split at set
  · cases set
  rename_i size sized
  split at set
  · cases set
  rename_i long
  -- the checks of the header throw, or keep the end at `size`
  split at set
  · cases set
  split at set
  · cases set
  split at set
  · cases set
  dsimp only at set
  split at set
  · cases set
  split at set
  · cases set
  split at set
  · cases set
  cases set
  exact ⟨rfl, by simp only; omega⟩

/-- What a successful `InitCurrentTopic()` changes: the name end, the
partition count, and the partition walk, reset. -/
theorem initCurrentTopic_ok (initialized : reader.initCurrentTopic = .ok next) :
    ∃ nameEnd numPartitions, next = { reader with
      currentTopicNameEnd := nameEnd
      numPartitionsInTopic := numPartitions
      currentPartitionIndexInTopic := -1
      currentPartitionBegin := 0
      partitionMsgSetBegin := 0
      partitionMsgSetEnd := 0 } := by
  unfold initCurrentTopic at initialized
  -- every branch but the last throws
  split at initialized
  · cases initialized
  split at initialized
  · cases initialized
  dsimp only at initialized
  split at initialized
  · cases initialized
  split at initialized
  · cases initialized
  split at initialized
  · cases initialized
  split at initialized
  · cases initialized
  cases initialized
  exact ⟨_, _, rfl⟩

/-- The first topic found from the start has its partition walk reset and
keeps the end. -/
theorem nextTopic_first (start : reader.currentTopicIndex = -1)
    (advanced : reader.nextTopic = .ok (true, next)) :
    next.currentPartitionIndexInTopic = -1 ∧ next.endPos = reader.endPos := by
  unfold nextTopic at advanced
  rw [if_pos (by omega)] at advanced
  unfold firstTopic at advanced
  dsimp only at advanced
  split at advanced
  · obtain ⟨reader', initialized, found⟩ := bind_eq_ok advanced
    cases found
    obtain ⟨nameEnd, numPartitions, rfl⟩ := initCurrentTopic_ok initialized
    exact ⟨rfl, rfl⟩
  · cases advanced

/-- `InitCurrentPartition()` at a partition whose size field starts before the
request reads that field outside the buffer: only the end of the partition
header is checked against `End`. -/
theorem initCurrentPartition_of_neg (before : reader.currentPartitionBegin + partitionSize < 0)
    (past : (minSize : Int) ≤ reader.endPos) :
    reader.initCurrentPartition = .error readOutsideBuffer := by
  have header : (minSize : Int) = 24 := rfl
  unfold initCurrentPartition
  dsimp only
  rw [if_neg (by simp only [partitionSize, msgSetSizeSize] at before ⊢; omega),
    readSignedAt?_of_neg before]

/-- After a message set whose size field is negative enough to end it before
the request, `NextMsgSetInTopic()` starts the next partition there and reads
its message set size outside the request. -/
theorem nextMsgSetInTopic_reads_before_request {request : List UInt8}
    (set : setRequest request = .ok reader) (topic : reader.nextTopic = .ok (true, first))
    (partition : first.nextMsgSetInTopic = .ok (true, next))
    (another : next.currentPartitionIndexInTopic + 1 < next.numPartitionsInTopic)
    (before : next.partitionMsgSetEnd + partitionSize < 0) :
    next.nextMsgSetInTopic = .error readOutsideBuffer := by
  obtain ⟨start, long⟩ := setRequest_ok set
  obtain ⟨fresh, sameEnd⟩ := nextTopic_first start topic
  obtain ⟨forward, -, -, -, sameEnd'⟩ := nextMsgSetInTopic_advances partition
  -- a partition follows, so `NextMsgSetInTopic()` initializes it at the set's end
  unfold nextMsgSetInTopic
  rw [if_neg (by omega), if_neg (by omega)]
  dsimp only
  rw [if_pos another, initCurrentPartition_of_neg before (by rw [sameEnd', sameEnd]; exact long)]
  rfl

/-- Thirty-nine bytes: size field 35, API key and version 0, correlation ID 0,
an empty client ID, required acks 1, timeout 0, one topic "t" with two
partitions, the first of which declares a message set of -1000 bytes
(`0xFFFFFC18`) and is where the request ends. -/
def negativeMsgSetRequest : List UInt8 :=
  [0, 0, 0, 35, 0, 0, 0, 0, 0, 0, 0, 0, 0, 0, 0, 1, 0, 0, 0, 0, 0, 0, 0, 1,
   0, 1, 116, 0, 0, 0, 2, 0, 0, 0, 0, 0xFF, 0xFF, 0xFC, 0x18]

set_option maxRecDepth 20000 in
theorem nextMsgSetInTopic_reads_before_negativeMsgSetRequest :
    ∃ reader first next, setRequest negativeMsgSetRequest = .ok reader ∧
      reader.nextTopic = .ok (true, first) ∧ first.nextMsgSetInTopic = .ok (true, next) ∧
      next.nextMsgSetInTopic = .error readOutsideBuffer := by
  let reader : TProduceRequestReader :=
    { buf := negativeMsgSetRequest, endPos := 39, numTopics := 1 }
  let first : TProduceRequestReader :=
    { reader with
      currentTopicIndex := 0
      currentTopicBegin := 24
      currentTopicNameEnd := 27
      numPartitionsInTopic := 2 }
  let next : TProduceRequestReader :=
    { first with
      currentPartitionIndexInTopic := 0
      currentPartitionBegin := 31
      partitionMsgSetBegin := 39
      partitionMsgSetEnd := -961
      msgSetReader := { beginPos := 39, endPos := -961 } }
  have set : setRequest negativeMsgSetRequest = .ok reader := by decide
  have topic : reader.nextTopic = .ok (true, first) := by decide
  have partition : first.nextMsgSetInTopic = .ok (true, next) := by decide
  exact ⟨reader, first, next, set, topic, partition,
    nextMsgSetInTopic_reads_before_request set topic partition (by decide) (by decide)⟩

end NegativeMsgSet

end TProduceRequestReader

end Dory.KafkaProto
