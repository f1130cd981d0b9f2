/-
Module: Dory.KafkaProto.ProduceResponseReader
Purpose: `TProduceResponseReader` (src/dory/kafka_proto/produce/v0/
  produce_response_reader.{h,cc}), the lazy reader of a Kafka produce
  response, version 0.  `SetResponse` checks the header; `NextTopic` and
  `NextPartitionInTopic` walk the topic and partition entries one at a time
  and check each against `End` only when they reach it, so a malformed
  response is found part way through.  Pointers are offsets from `Begin`
  (`Int`, since the source's arithmetic can move them before it); the
  `int32_t` products that advance them wrap around (`wrapSigned 4`).  Every
  way the source can throw is an error of the model: the five
  `TBadProduceResponse` errors, `TBadRequestOrResponseSize` from
  `GetRequestOrResponseSize`, and the `std::range_error` of walking past the
  end; a read whose position lies outside the buffer is undefined behaviour
  in the source and `readOutsideBuffer` here.  Each successful step moves its
  index forward and below its count, which is why every walk ends.  Release
  builds define `NDEBUG`, so the reader's asserts are not checked.
Trusted boundary: none
Main exports: TProduceResponseError, TProduceResponseReader, setResponse,
  getCorrelationId, nextTopic, nextPartitionInTopic, getCurrentTopicName,
  getCurrentPartitionNumber, getCurrentPartitionErrorCode,
  setResponse_of_short, nextTopic_advances, nextPartitionInTopic_advances
-/
import Dory.Foundation.Bytes

namespace Dory.KafkaProto

open Dory.Foundation.Bytes

/-- `REQUEST_OR_RESPONSE_SIZE_SIZE`: the size field that starts every request
and response. -/
def requestOrResponseSizeSize : Nat := 4

namespace TProduceResponseConstants

def correlationIdSize : Nat := 4
def topicCountSize : Nat := 4
def topicNameLenSize : Nat := 2
def partitionCountSize : Nat := 4
def partitionSize : Nat := 4
def errorCodeSize : Nat := 2
def offsetSize : Nat := 8

end TProduceResponseConstants

open TProduceResponseConstants

/-- What reading a produce response can throw.  The first five are the
`TBadProduceResponse` errors of the reader; `badRequestOrResponseSize` is
`TBadRequestOrResponseSize` and `rangeError` the `std::range_error` of
iterating past the end, neither of which is a `TBadProduceResponse`;
`readOutsideBuffer` is a read the source makes outside the response buffer. -/
inductive TProduceResponseError where
  | shortResponse
  | responseTruncated
  | badTopicCount
  | badTopicNameLength
  | badPartitionCount
  | badRequestOrResponseSize
  | rangeError
  | readOutsideBuffer
deriving DecidableEq, Repr

namespace TProduceResponseError

/-- Whether the error derives from `TBadProduceResponse`, the class the
connector catches. -/
def isBadProduceResponse : TProduceResponseError → Bool
  | shortResponse | responseTruncated | badTopicCount | badTopicNameLength
  | badPartitionCount => true
  | badRequestOrResponseSize | rangeError | readOutsideBuffer => false

end TProduceResponseError

open TProduceResponseError

/-- `GetRequestOrResponseSize`: the size field plus its own size, or
`TBadRequestOrResponseSize` when the field is negative. -/
def getRequestOrResponseSize (buf : List UInt8) : Except TProduceResponseError Nat :=
  let sizeField := readSigned buf 0 4
  if sizeField < 0 then .error badRequestOrResponseSize
  else .ok (sizeField.toNat + requestOrResponseSizeSize)

/-- The reader's state.  Positions are offsets from `Begin`; `buf` is the
response buffer `[Begin, Begin + response_size)`.  The defaults are
`Clear()`, with the null pointers at offset 0 (the source only asserts on
them). -/
structure TProduceResponseReader where
  buf : List UInt8 := []
  endPos : Int := 0
  numTopics : Int := 0
  currentTopicIndex : Int := -1
  currentTopicBegin : Int := 0
  currentTopicNameEnd : Int := 0
  numPartitionsInTopic : Int := 0
  currentPartitionIndexInTopic : Int := -1
deriving DecidableEq, Repr

namespace TProduceResponseReader

/-- `MinSize()`: size field, correlation ID and topic count. -/
def minSize : Nat :=
  requestOrResponseSizeSize + correlationIdSize + topicCountSize

/-- The size of one partition entry: partition, error code and offset. -/
def partitionEntrySize : Int :=
  partitionSize + errorCodeSize + offsetSize

/-- `SetResponse(response, response_size)`. -/
def setResponse (response : List UInt8) : Except TProduceResponseError TProduceResponseReader :=
  if response.length < minSize then .error shortResponse
  else match getRequestOrResponseSize response with
    | .error e => .error e
    | .ok size =>
        if response.length < size then .error responseTruncated
        else
          let numTopics := readSigned response (requestOrResponseSizeSize + correlationIdSize) 4
          if numTopics < 0 then .error badTopicCount
          else .ok { buf := response, endPos := size, numTopics }

/-- `GetCorrelationId()`. -/
def getCorrelationId (reader : TProduceResponseReader) : Int :=
  readSigned reader.buf requestOrResponseSizeSize 4

/-- A topic name length of `-1`, the protocol's null string, read as an
empty name. -/
def nullAsEmpty (nameLen : Int) : Int :=
  if nameLen = -1 then 0 else nameLen

/-- `InitCurrentTopic()`: the name length and the partition count of the
topic at `CurrentTopicBegin`.  Only the end of each field is checked against
`End`; its start is where the pointer arithmetic put it. -/
def initCurrentTopic (reader : TProduceResponseReader) :
    Except TProduceResponseError TProduceResponseReader :=
  if reader.currentTopicBegin + topicNameLenSize > reader.endPos then .error responseTruncated
  else match readSignedAt? reader.buf reader.currentTopicBegin 2 with
    | none => .error readOutsideBuffer
    | some nameLen =>
        let nameLen := nullAsEmpty nameLen
        if nameLen < 0 then .error badTopicNameLength
        else
          let nameEnd := reader.currentTopicBegin + topicNameLenSize + nameLen
          if nameEnd + partitionCountSize > reader.endPos then .error responseTruncated
          else match readSignedAt? reader.buf nameEnd 4 with
            | none => .error readOutsideBuffer
            | some numPartitions =>
                if numPartitions < 0 then .error badPartitionCount
                else .ok { reader with
                  currentTopicNameEnd := nameEnd
                  numPartitionsInTopic := numPartitions
                  currentPartitionIndexInTopic := -1 }

/-- `FirstTopic()`. -/
def firstTopic (reader : TProduceResponseReader) :
    Except TProduceResponseError (Bool × TProduceResponseReader) :=
  if reader.numTopics < 1 then .ok (false, reader)
  else match initCurrentTopic { reader with
      currentTopicIndex := 0
      currentTopicBegin := requestOrResponseSizeSize + correlationIdSize + topicCountSize } with
    | .error e => .error e
    | .ok reader => .ok (true, reader)

/-- `NextTopic()`.  The next topic starts after the partition entries of this
one, whose total size is an `int32_t` product. -/
def nextTopic (reader : TProduceResponseReader) :
    Except TProduceResponseError (Bool × TProduceResponseReader) :=
  if reader.currentTopicIndex < 0 then firstTopic reader
  else if reader.currentTopicIndex ≥ reader.numTopics then .error rangeError
  else if reader.currentTopicIndex + 1 < reader.numTopics then
    match initCurrentTopic { reader with
        currentTopicIndex := reader.currentTopicIndex + 1
        currentTopicBegin := reader.currentTopicNameEnd + partitionCountSize +
          wrapSigned 4 (reader.numPartitionsInTopic * partitionEntrySize) } with
    | .error e => .error e
    | .ok reader => .ok (true, reader)
  else .ok (false, { reader with
    currentTopicIndex := reader.currentTopicIndex + 1
    currentTopicBegin := 0
    currentTopicNameEnd := 0
    numPartitionsInTopic := 0
    currentPartitionIndexInTopic := 0 })

/-- The bytes of `[GetCurrentTopicNameBegin(), GetCurrentTopicNameEnd())`. -/
def getCurrentTopicName (reader : TProduceResponseReader) : List UInt8 :=
  bytesAt reader.buf (reader.currentTopicBegin + topicNameLenSize).toNat
    (reader.currentTopicNameEnd - reader.currentTopicBegin - topicNameLenSize).toNat

/-- `GetPartitionStart(index)`. -/
def getPartitionStart (reader : TProduceResponseReader) (index : Int) : Int :=
  reader.currentTopicNameEnd + partitionCountSize + wrapSigned 4 (index * partitionEntrySize)

/-- `InitCurrentPartition()`: the current partition entry ends within `End`. -/
def initCurrentPartition (reader : TProduceResponseReader) : Bool :=
  reader.getPartitionStart (reader.currentPartitionIndexInTopic + 1) ≤ reader.endPos

/-- `FirstPartitionInTopic()`. -/
def firstPartitionInTopic (reader : TProduceResponseReader) :
    Except TProduceResponseError (Bool × TProduceResponseReader) :=
  if reader.numPartitionsInTopic < 1 then .ok (false, reader)
  else
    let reader := { reader with currentPartitionIndexInTopic := 0 }
    if reader.initCurrentPartition then .ok (true, reader) else .error responseTruncated

/-- `NextPartitionInTopic()`. -/
def nextPartitionInTopic (reader : TProduceResponseReader) :
    Except TProduceResponseError (Bool × TProduceResponseReader) :=
  if reader.currentPartitionIndexInTopic < 0 then firstPartitionInTopic reader
  else if reader.currentPartitionIndexInTopic ≥ reader.numPartitionsInTopic then .error rangeError
  else if reader.currentPartitionIndexInTopic + 1 < reader.numPartitionsInTopic then
    let reader := { reader with
      currentPartitionIndexInTopic := reader.currentPartitionIndexInTopic + 1 }
    if reader.initCurrentPartition then .ok (true, reader) else .error responseTruncated
  else .ok (false, { reader with
    currentPartitionIndexInTopic := reader.currentPartitionIndexInTopic + 1 })

/-- `GetCurrentPartitionNumber()`. -/
def getCurrentPartitionNumber (reader : TProduceResponseReader) : Option Int :=
  readSignedAt? reader.buf (reader.getPartitionStart reader.currentPartitionIndexInTopic) 4

/-- `GetCurrentPartitionErrorCode()`. -/
def getCurrentPartitionErrorCode (reader : TProduceResponseReader) : Option Int :=
  readSignedAt? reader.buf
    (reader.getPartitionStart reader.currentPartitionIndexInTopic + partitionSize) 2

/-! ### What each step can do -/

section Steps

variable {reader next : TProduceResponseReader} {more : Bool}

/-- A response shorter than its header throws `TShortResponse`, whatever its
bytes. -/
theorem setResponse_of_short {response : List UInt8} (short : response.length < minSize) :
    setResponse response = .error shortResponse := by
  simp [setResponse, short]

/-- What a successful `InitCurrentTopic()` changes: the name end, a
nonnegative partition count, and the partition index, reset. -/
theorem initCurrentTopic_ok (initialized : reader.initCurrentTopic = .ok next) :
    ∃ nameEnd numPartitions, 0 ≤ numPartitions ∧
      next = { reader with
        currentTopicNameEnd := nameEnd
        numPartitionsInTopic := numPartitions
        currentPartitionIndexInTopic := -1 } := by
  unfold initCurrentTopic at initialized
  -- every branch but the last throws
  split at initialized
  · cases initialized
  split at initialized
  · cases initialized
  dsimp only at initialized
  split at initialized
  · cases initialized
  split at initialized
  · cases initialized
  split at initialized
  · cases initialized
  split at initialized
  · cases initialized
  rename_i nonneg
  cases initialized
  exact ⟨_, _, Int.not_lt.mp nonneg, rfl⟩

/-- A topic found by `NextTopic()` comes after the previous one and before
the topic count, and starts with its partition index reset. -/
theorem nextTopic_advances (advanced : reader.nextTopic = .ok (true, next)) :
    next.numTopics = reader.numTopics ∧ reader.currentTopicIndex < next.currentTopicIndex ∧
      next.currentTopicIndex < next.numTopics ∧ next.currentPartitionIndexInTopic = -1 := by
  unfold nextTopic at advanced
  split at advanced
  · -- the first topic
    rename_i before
    unfold firstTopic at advanced
    split at advanced
    · cases advanced
    rename_i some
    split at advanced
    · cases advanced
    rename_i initialized
    cases advanced
    obtain ⟨nameEnd, numPartitions, -, rfl⟩ := initCurrentTopic_ok initialized
    exact ⟨rfl, by simpa using before, by simp only at some ⊢; omega, rfl⟩
  split at advanced
  · cases advanced
  split at advanced
  · rename_i notPast within
    split at advanced
    · cases advanced
    rename_i initialized
    cases advanced
    obtain ⟨nameEnd, numPartitions, -, rfl⟩ := initCurrentTopic_ok initialized
    exact ⟨rfl, by simp, by simpa using within, rfl⟩
  · cases advanced

/-- `NextPartitionInTopic()` moves nothing but the partition index. -/
theorem nextPartitionInTopic_frame (advanced : reader.nextPartitionInTopic = .ok (more, next)) :
    next = { reader with currentPartitionIndexInTopic := next.currentPartitionIndexInTopic } := by
  unfold nextPartitionInTopic firstPartitionInTopic at advanced
  dsimp only at advanced
  split at advanced
  · split at advanced
    · cases advanced
      rfl
    split at advanced
    · cases advanced
      rfl
    · cases advanced
  split at advanced
  · cases advanced
  split at advanced
  · split at advanced
    · cases advanced
      rfl
    · cases advanced
  · cases advanced
    rfl

/-- A partition found by `NextPartitionInTopic()` comes after the previous
one and before the partition count. -/
theorem nextPartitionInTopic_advances (advanced : reader.nextPartitionInTopic = .ok (true, next)) :
    reader.currentPartitionIndexInTopic < next.currentPartitionIndexInTopic ∧
      next.currentPartitionIndexInTopic < next.numPartitionsInTopic := by
  unfold nextPartitionInTopic firstPartitionInTopic at advanced
  dsimp only at advanced
  split at advanced
  · rename_i before
    split at advanced
    · cases advanced
    rename_i some
    split at advanced
    · cases advanced
      exact ⟨before, by simp only at some ⊢; omega⟩
    · cases advanced
  split at advanced
  · cases advanced
  split at advanced
  · rename_i notPast within
    split at advanced
    · cases advanced
      exact ⟨by simp, within⟩
    · cases advanced
  · cases advanced

/-- The measure that bounds the topic walk goes down at each topic. -/
theorem nextTopic_remaining_lt (advanced : reader.nextTopic = .ok (true, next)) :
    (next.numTopics - next.currentTopicIndex).toNat <
      (reader.numTopics - reader.currentTopicIndex).toNat := by
  obtain ⟨count, forward, below, -⟩ := nextTopic_advances advanced
  omega

/-- The measure that bounds the partition walk goes down at each partition. -/
theorem nextPartitionInTopic_remaining_lt (advanced : reader.nextPartitionInTopic = .ok (true, next)) :
    (next.numPartitionsInTopic - next.currentPartitionIndexInTopic).toNat <
      (reader.numPartitionsInTopic - reader.currentPartitionIndexInTopic).toNat := by
  obtain ⟨forward, below⟩ := nextPartitionInTopic_advances advanced
  have count : next.numPartitionsInTopic = reader.numPartitionsInTopic := by
    rw [nextPartitionInTopic_frame advanced]
  omega

/-- A response accepted by `SetResponse()` starts before its first topic,
with an end past its size field. -/
theorem setResponse_ok {response : List UInt8} (set : setResponse response = .ok reader) :
    reader.currentTopicIndex = -1 ∧ (requestOrResponseSizeSize : Int) ≤ reader.endPos := by
  unfold setResponse at set
  split at set
  · cases set
  rename_i long
  split at set
  · cases set
  rename_i size sized
  split at set
  · cases set
  rename_i fits
  dsimp only at set
  split at set
  · cases set
  cases set
  have atLeast : requestOrResponseSizeSize ≤ size := by
    unfold getRequestOrResponseSize at sized
    dsimp only at sized
    split at sized
    · cases sized
    · cases sized
      omega
  exact ⟨rfl, by simp only; omega⟩

/-- The first topic found from the start has index 0 and keeps the end. -/
theorem nextTopic_first (start : reader.currentTopicIndex = -1)
    (advanced : reader.nextTopic = .ok (true, next)) :
    next.currentTopicIndex = 0 ∧ next.endPos = reader.endPos ∧ next.numTopics = reader.numTopics ∧
      next.buf = reader.buf := by
  unfold nextTopic at advanced
  rw [if_pos (by omega)] at advanced
  unfold firstTopic at advanced
  split at advanced
  · cases advanced
  split at advanced
  · cases advanced
  rename_i initialized
  cases advanced
  obtain ⟨nameEnd, numPartitions, -, rfl⟩ := initCurrentTopic_ok initialized
  exact ⟨rfl, rfl, rfl, rfl⟩

/-- `InitCurrentTopic()` at a topic start before the buffer reads its name
length outside the buffer: only the field's end is checked against `End`. -/
theorem initCurrentTopic_of_neg (before : reader.currentTopicBegin < 0)
    (past : (requestOrResponseSizeSize : Int) ≤ reader.endPos) :
    reader.initCurrentTopic = .error readOutsideBuffer := by
  unfold initCurrentTopic
  rw [if_neg (by simp only [topicNameLenSize, requestOrResponseSizeSize] at past ⊢; omega),
    readSignedAt?_of_neg before]

/-- After a first topic whose partition count makes the `int32_t` size of its
partition entries wrap below zero, `NextTopic()` puts the next topic before
the start of the response and reads there. -/
theorem nextTopic_reads_before_response {response : List UInt8}
    (set : setResponse response = .ok reader) (first : reader.nextTopic = .ok (true, next))
    (another : 1 < reader.numTopics)
    (wraps : next.currentTopicNameEnd + partitionCountSize +
      wrapSigned 4 (next.numPartitionsInTopic * partitionEntrySize) < 0) :
    next.nextTopic = .error readOutsideBuffer := by
  obtain ⟨start, long⟩ := setResponse_ok set
  obtain ⟨index, sameEnd, sameCount, -⟩ := nextTopic_first start first
  -- the second topic is not the last, so `NextTopic()` initializes it
  unfold nextTopic
  rw [if_neg (by omega), if_neg (by omega), if_pos (by omega),
    initCurrentTopic_of_neg wraps (by rw [sameEnd]; exact long)]

/-- Nineteen bytes: size field 15, correlation ID 0, two topics, and a first
topic "t" that declares 153391690 partitions (`0x0924924A`), whose entries
take 14 times that many bytes: -2147483636 as an `int32_t`. -/
def wrappingResponse : List UInt8 :=
  [0, 0, 0, 15, 0, 0, 0, 0, 0, 0, 0, 2, 0, 1, 116, 0x09, 0x24, 0x92, 0x4A]

set_option maxRecDepth 20000 in
theorem nextTopic_reads_before_wrappingResponse :
    ∃ reader next, setResponse wrappingResponse = .ok reader ∧ reader.nextTopic = .ok (true, next) ∧
      next.nextTopic = .error readOutsideBuffer := by
  have set : setResponse wrappingResponse = .ok { buf := wrappingResponse, endPos := 19, numTopics := 2 } := by
    decide
  have first : ({ buf := wrappingResponse, endPos := 19, numTopics := 2 } : TProduceResponseReader).nextTopic =
      .ok (true,
        { buf := wrappingResponse, endPos := 19, numTopics := 2, currentTopicIndex := 0,
          currentTopicBegin := 12, currentTopicNameEnd := 15, numPartitionsInTopic := 153391690 }) := by
    decide
  exact ⟨_, _, set, first, nextTopic_reads_before_response set first (by decide) (by decide)⟩

end Steps

end TProduceResponseReader

end Dory.KafkaProto
