/-
Module: Dory.KafkaProto.MetadataResponseReader
Purpose: `TMetadataResponseReader` (src/dory/kafka_proto/metadata/v0/
  metadata_response_reader.{h,cc}) and the field layout it shares with the
  writer (metadata_response_fields.h): the lazy reader of a Kafka metadata
  response, version 0.  It walks five nested lists (brokers; topics; the
  partitions of a topic; the replicas and then the caught up replicas of a
  partition) with one counter and one offset per level, and `Next*` of an
  outer level first skips whatever the caller left unread below it.
  Offsets and lengths are `size_t`: every sum and difference is taken modulo
  2^64 (`sizeAdd`, `sizeSub`), and so is the `static_cast<size_t>` of a
  string length read as `int16_t` (`toSize`).  Pointers the reader returns
  are offsets from `Buf` on the flat address space, wrapping the same way.
  Release builds define `NDEBUG`, so the source's asserts are not checked;
  `Base::Die` on a bad `switch` value is `invalidSwitchValue`, and a read of
  a byte outside the buffer (undefined behaviour) is `readOutsideBuffer`.
  The `while` loops of the `SkipRemaining*` functions are recursions that
  end because every `Next*` call either enters its list or counts it down.
  A string length of -1 wraps to 2^64 - 1, passes the `< 1` check, and the
  item size computed from it wraps back to a small number: the reader then
  returns a host or topic name range that ends before it begins.
Trusted boundary: none
Main exports: TMetadataResponseError, TMetadataResponseReader, nextBroker,
  nextTopic, nextPartitionInTopic, nextReplicaInPartition,
  nextCaughtUpReplicaInPartition, skipRemainingBrokers, skipRemainingTopics,
  skipRemainingPartitions, skipRemainingReplicas,
  skipRemainingCaughtUpReplicas, KeepsTopics, KeepsPartitions,
  nextBroker_reverses_null_host
-/
import Dory.KafkaProto.ProduceResponseReader
import Dory.Foundation.Buffer
import Dory.Foundation.Simulation

namespace Dory.KafkaProto

open Dory.Foundation Dory.Foundation.Bytes

/-! ### `size_t` arithmetic -/

/-- A `size_t` after an operation whose exact result is `value`: the value
modulo 2^64. -/
def toSize (value : Int) : Nat := ofSigned 8 value

/-- `a + b` on `size_t`. -/
def sizeAdd (a b : Nat) : Nat := toSize (a + b)

/-- `a - b` on `size_t`. -/
def sizeSub (a b : Nat) : Nat := toSize ((a : Int) - b)

theorem toSize_natCast {value : Nat} (fits : value < 2 ^ 64) : toSize value = value :=
  ofSigned_natCast fits

theorem toSize_of_nonneg {value : Int} (nonneg : 0 ≤ value) (fits : value < 2 ^ 64) :
    toSize value = value.toNat := by
  obtain ⟨n, rfl⟩ := Int.eq_ofNat_of_zero_le nonneg
  rw [toSize_natCast (by exact_mod_cast fits), Int.toNat_natCast]

theorem sizeSub_of_le {a b : Nat} (le : b ≤ a) (fits : a < 2 ^ 64) : sizeSub a b = a - b := by
  rw [sizeSub, ← Int.natCast_sub le, toSize_natCast (by omega)]

/-! ### The field layout -/

namespace TMetadataResponseFields

def stringSizeFieldSize : Nat := 2
def correlationIdSize : Nat := 4
def brokerCountSize : Nat := 4
def brokerNodeIdSize : Nat := 4
def brokerHostLengthSize : Nat := stringSizeFieldSize
def brokerPortSize : Nat := 4

/-- `BrokerListItemSize(broker_host_length)`. -/
def brokerListItemSize (brokerHostLength : Nat) : Nat :=
  sizeAdd (sizeAdd (brokerNodeIdSize + brokerHostLengthSize) brokerHostLength) brokerPortSize

def topicCountSize : Nat := 4
def topicErrorCodeSize : Nat := 2
def topicNameLengthSize : Nat := stringSizeFieldSize
def partitionCountSize : Nat := 4
def partitionErrorCodeSize : Nat := 2
def partitionIdSize : Nat := 4
def leaderNodeIdSize : Nat := 4
def replicaCountSize : Nat := 4
def replicaNodeIdSize : Nat := 4
def caughtUpReplicaCountSize : Nat := 4
def caughtUpReplicaNodeIdSize : Nat := 4

def responseSizeOffset : Nat := 0
def correlationIdOffset : Nat := responseSizeOffset + requestOrResponseSizeSize
def brokerCountOffset : Nat := correlationIdOffset + correlationIdSize
def brokerListOffset : Nat := brokerCountOffset + brokerCountSize

def relBrokerNodeIdOffset : Nat := 0
def relBrokerHostLengthOffset : Nat := relBrokerNodeIdOffset + brokerNodeIdSize
def relBrokerHostOffset : Nat := relBrokerHostLengthOffset + brokerHostLengthSize

/-- `RelBrokerPortOffset(broker_host_length)`. -/
def relBrokerPortOffset (brokerHostLength : Nat) : Nat :=
  sizeAdd relBrokerHostOffset brokerHostLength

def relTopicCountOffset : Nat := 0
def relTopicErrorCodeOffset : Nat := 0
def relTopicNameLengthOffset : Nat := relTopicErrorCodeOffset + topicErrorCodeSize
def relTopicNameOffset : Nat := relTopicNameLengthOffset + topicNameLengthSize

/-- `RelPartitionCountOffset(topic_name_length)`. -/
def relPartitionCountOffset (topicNameLength : Nat) : Nat :=
  sizeAdd relTopicNameOffset topicNameLength

def relPartitionErrorCodeOffset : Nat := 0
def relPartitionIdOffset : Nat := relPartitionErrorCodeOffset + partitionErrorCodeSize
def relLeaderNodeIdOffset : Nat := relPartitionIdOffset + partitionIdSize
def relReplicaCountOffset : Nat := relLeaderNodeIdOffset + leaderNodeIdSize

/-- `EMPTY_STRING_LENGTH`, written for an empty string. -/
def emptyStringLength : Int := -1

end TMetadataResponseFields

open TMetadataResponseFields

/-! ### The reader -/

/-- What reading a metadata response can throw: the fourteen
`TBadMetadataResponse` errors of the reader, a read of a byte outside the
buffer, and `Base::Die` on a `switch` value no case names. -/
inductive TMetadataResponseError where
  | negativeBrokerCount
  | incompleteMetadataResponse
  | badBrokerHostLen
  | negativeBrokerNodeId
  | badBrokerPort
  | negativeTopicCount
  | badTopicNameLen
  | negativePartitionCount
  | negativePartitionId
  | invalidLeaderNodeId
  | negativePartitionReplicaCount
  | negativeReplicaNodeId
  | negativePartitionCaughtUpReplicaCount
  | negativeCaughtUpReplicaNodeId
  | readOutsideBuffer
  | invalidSwitchValue
deriving DecidableEq, Repr

open TMetadataResponseError

/-- `ReadInt16FromHeader` (`width` 2) and `ReadInt32FromHeader` (`width` 4) of
the field at offset `pos` from `Buf`. -/
def readIntFromHeader (width : Nat) (buf : List UInt8) (pos : Nat) :
    Except TMetadataResponseError Int :=
  match readSignedAt? buf pos width with
  | none => .error readOutsideBuffer
  | some value => .ok value

def readInt16FromHeader (buf : List UInt8) (pos : Nat) : Except TMetadataResponseError Int :=
  readIntFromHeader 2 buf pos

def readInt32FromHeader (buf : List UInt8) (pos : Nat) : Except TMetadataResponseError Int :=
  readIntFromHeader 4 buf pos

/-- `TMetadataResponseReader::TState`. -/
inductive TMetadataResponseReader.TState where
  | initial
  | inBrokerList
  | inTopicList
  | inPartitionList
  | inReplicaList
  | inCaughtUpReplicaList
deriving DecidableEq, Repr

/-- The enumerator's value, which the source compares with `<` and `<=`. -/
def TMetadataResponseReader.TState.toNat : TMetadataResponseReader.TState → Nat
  | initial => 0
  | inBrokerList => 1
  | inTopicList => 2
  | inPartitionList => 3
  | inReplicaList => 4
  | inCaughtUpReplicaList => 5

/-- The reader's state; `buf` is `[Buf, Buf + BufSize)`, and the defaults are
the constructor's. -/
structure TMetadataResponseReader where
  buf : List UInt8
  state : TMetadataResponseReader.TState := .initial
  brokersLeft : Nat := 0
  currentBrokerOffset : Nat := 0
  currentBrokerHostLength : Nat := 0
  topicsLeft : Nat := 0
  currentTopicOffset : Nat := 0
  currentTopicNameLength : Nat := 0
  partitionsLeftInTopic : Nat := 0
  currentPartitionOffset : Nat := 0
  replicasLeftInPartition : Nat := 0
  currentReplicaOffset : Nat := 0
  caughtUpReplicasLeftInPartition : Nat := 0
  currentCaughtUpReplicaOffset : Nat := 0
deriving DecidableEq, Repr

namespace TMetadataResponseReader

/-- `BufSize`. -/
def bufSize (reader : TMetadataResponseReader) : Nat := reader.buf.length

/-- `MinSize()`: size field, correlation ID, broker count and topic count. -/
def minSize : Nat :=
  requestOrResponseSizeSize + correlationIdSize + brokerCountSize + topicCountSize

/-- `BrokerSize(host_length)`. -/
def brokerSize (hostLength : Nat) : Nat :=
  sizeAdd (relBrokerPortOffset hostLength) brokerPortSize

/-! #### Getters -/

/-- The `int32_t` count at `pos` cast to `size_t`, or `negative` when it is
below zero: the body the count getters share. -/
def readCount (buf : List UInt8) (pos : Nat) (negative : TMetadataResponseError) :
    Except TMetadataResponseError Nat := do
  let count ← readInt32FromHeader buf pos
  if count < 0 then throw negative else pure (toSize count)

/-- The `int32_t` ID at `pos`, or `negative` when it is below zero: the body
the node ID and partition ID getters share. -/
def readId (buf : List UInt8) (pos : Nat) (negative : TMetadataResponseError) :
    Except TMetadataResponseError Int := do
  let id ← readInt32FromHeader buf pos
  if id < 0 then throw negative else pure id

section Getters

variable (reader : TMetadataResponseReader)

/-- `GetCorrelationId()`. -/
def getCorrelationId : Except TMetadataResponseError Int :=
  readInt32FromHeader reader.buf correlationIdOffset

/-- `GetBrokerCount()`. -/
def getBrokerCount : Except TMetadataResponseError Nat :=
  readCount reader.buf brokerCountOffset negativeBrokerCount

/-- `GetCurrentBrokerNodeId()`. -/
def getCurrentBrokerNodeId : Except TMetadataResponseError Int :=
  readId reader.buf (sizeAdd reader.currentBrokerOffset relBrokerNodeIdOffset) negativeBrokerNodeId

/-- `GetCurrentBrokerHostBegin()`, as an offset from `Buf`. -/
def getCurrentBrokerHostBegin : Nat :=
  sizeAdd reader.currentBrokerOffset relBrokerHostOffset

/-- `GetCurrentBrokerHostEnd()`, as an offset from `Buf`. -/
def getCurrentBrokerHostEnd : Nat :=
  sizeAdd reader.getCurrentBrokerHostBegin reader.currentBrokerHostLength

/-- `GetCurrentBrokerPort()`: a TCP port is a 16-bit unsigned value. -/
def getCurrentBrokerPort : Except TMetadataResponseError Int := do
  let port ← readInt32FromHeader reader.buf
    (sizeAdd reader.currentBrokerOffset (relBrokerPortOffset reader.currentBrokerHostLength))
  -- 65535 is `std::numeric_limits<uint16_t>::max()`
  if port < 0 ∨ port > 65535 then throw badBrokerPort else pure port

/-- `GetTopicCount()`: the count after the last broker, which must fit in the
space left. -/
def getTopicCount : Except TMetadataResponseError Nat :=
  if sizeSub reader.bufSize reader.currentBrokerOffset < topicCountSize then
    .error incompleteMetadataResponse
  else readCount reader.buf (sizeAdd reader.currentBrokerOffset relTopicCountOffset) negativeTopicCount

/-- `GetCurrentTopicErrorCode()`. -/
def getCurrentTopicErrorCode : Except TMetadataResponseError Int :=
  readInt16FromHeader reader.buf (sizeAdd reader.currentTopicOffset relTopicErrorCodeOffset)

/-- `GetCurrentTopicNameBegin()`, as an offset from `Buf`. -/
def getCurrentTopicNameBegin : Nat :=
  sizeAdd reader.currentTopicOffset relTopicNameOffset

/-- `GetCurrentTopicNameEnd()`, as an offset from `Buf`. -/
def getCurrentTopicNameEnd : Nat :=
  sizeAdd reader.getCurrentTopicNameBegin reader.currentTopicNameLength

/-- `GetCurrentTopicPartitionCount()`. -/
def getCurrentTopicPartitionCount : Except TMetadataResponseError Nat :=
  readCount reader.buf
    (sizeAdd reader.currentTopicOffset (relPartitionCountOffset reader.currentTopicNameLength))
    negativePartitionCount

/-- `GetCurrentPartitionErrorCode()`. -/
def getCurrentPartitionErrorCode : Except TMetadataResponseError Int :=
  readInt16FromHeader reader.buf (sizeAdd reader.currentPartitionOffset relPartitionErrorCodeOffset)

/-- `GetCurrentPartitionId()`. -/
def getCurrentPartitionId : Except TMetadataResponseError Int :=
  readId reader.buf (sizeAdd reader.currentPartitionOffset relPartitionIdOffset) negativePartitionId

/-- `GetCurrentPartitionLeaderId()`: -1 means that an election is in progress,
so only values below it are errors. -/
def getCurrentPartitionLeaderId : Except TMetadataResponseError Int := do
  let id ← readInt32FromHeader reader.buf (sizeAdd reader.currentPartitionOffset relLeaderNodeIdOffset)
  if id < -1 then throw invalidLeaderNodeId else pure id

/-- `GetCurrentPartitionReplicaCount()`. -/
def getCurrentPartitionReplicaCount : Except TMetadataResponseError Nat :=
  readCount reader.buf (sizeAdd reader.currentPartitionOffset relReplicaCountOffset)
    negativePartitionReplicaCount

/-- `GetCurrentReplicaNodeId()`. -/
def getCurrentReplicaNodeId : Except TMetadataResponseError Int :=
  readId reader.buf reader.currentReplicaOffset negativeReplicaNodeId

/-- `GetCurrentPartitionCaughtUpReplicaCount()`: the count after the last
replica, which must fit in the space left. -/
def getCurrentPartitionCaughtUpReplicaCount : Except TMetadataResponseError Nat :=
  if sizeSub reader.bufSize reader.currentReplicaOffset < caughtUpReplicaCountSize then
    .error incompleteMetadataResponse
  else readCount reader.buf reader.currentReplicaOffset negativePartitionCaughtUpReplicaCount

/-- `GetCurrentCaughtUpReplicaNodeId()`. -/
def getCurrentCaughtUpReplicaNodeId : Except TMetadataResponseError Int :=
  readId reader.buf reader.currentCaughtUpReplicaOffset negativeCaughtUpReplicaNodeId

end Getters

/-! #### `ClearStateVariables` and the `Init*` checks -/

section Clear

variable (reader : TMetadataResponseReader)

def clearBrokerVariables : TMetadataResponseReader :=
  { reader with brokersLeft := 0, currentBrokerOffset := 0, currentBrokerHostLength := 0 }

def clearTopicVariables : TMetadataResponseReader :=
  { reader with topicsLeft := 0, currentTopicOffset := 0, currentTopicNameLength := 0 }

def clearPartitionVariables : TMetadataResponseReader :=
  { reader with partitionsLeftInTopic := 0, currentPartitionOffset := 0 }

def clearReplicaVariables : TMetadataResponseReader :=
  { reader with replicasLeftInPartition := 0, currentReplicaOffset := 0 }

def clearCaughtUpReplicaVariables : TMetadataResponseReader :=
  { reader with caughtUpReplicasLeftInPartition := 0, currentCaughtUpReplicaOffset := 0 }

/-- `ClearStateVariables()`: clear every level below the current one; each
case of the source's `switch` falls through to the next. -/
def clearStateVariables : TMetadataResponseReader :=
  match reader.state with
  | .initial =>
      reader.clearBrokerVariables.clearTopicVariables.clearPartitionVariables.clearReplicaVariables
        |>.clearCaughtUpReplicaVariables
  | .inBrokerList =>
      reader.clearTopicVariables.clearPartitionVariables.clearReplicaVariables
        |>.clearCaughtUpReplicaVariables
  | .inTopicList =>
      reader.clearPartitionVariables.clearReplicaVariables.clearCaughtUpReplicaVariables
  | .inPartitionList => reader.clearReplicaVariables.clearCaughtUpReplicaVariables
  | .inReplicaList => reader.clearCaughtUpReplicaVariables
  | .inCaughtUpReplicaList => reader

end Clear

/-- `InitBroker()` and `InitTopic()`: with items left, the item at `offset`
must hold the `int16_t` string length at `lengthOffset`; the length, cast to
`size_t`, must be at least 1, and the item, `itemSize length` bytes, must fit
in the space left.  Whether an item is there, and its string length (0 when
none is left). -/
def initNamedItem (buf : List UInt8) (left offset lengthOffset lengthSize : Nat)
    (itemSize : Nat → Nat) (badLength : TMetadataResponseError) :
    Except TMetadataResponseError (Bool × Nat) :=
  if left = 0 then .ok (false, 0)
  else
    let space := sizeSub buf.length offset
    if space < lengthOffset + lengthSize then .error incompleteMetadataResponse
    else do
      let length ← readInt16FromHeader buf (sizeAdd offset lengthOffset)
      let length := toSize length
      if length < 1 then throw badLength
      else if space < itemSize length then throw incompleteMetadataResponse
      else pure (true, length)

/-- `InitPartition()`, `InitReplica()` and `InitCaughtUpReplica()`: with
items left, the item at `offset` must have `itemSize` bytes of space. -/
def initItem (buf : List UInt8) (left offset itemSize : Nat) : Except TMetadataResponseError Bool :=
  if left = 0 then .ok false
  else if sizeSub buf.length offset < itemSize then .error incompleteMetadataResponse
  else .ok true

section Init

variable (reader : TMetadataResponseReader)

/-- `InitBroker()`. -/
def initBroker : Except TMetadataResponseError (Bool × TMetadataResponseReader) := do
  let (found, length) ← initNamedItem reader.buf reader.brokersLeft reader.currentBrokerOffset
    relBrokerHostLengthOffset brokerHostLengthSize brokerSize badBrokerHostLen
  pure (found, { reader with currentBrokerHostLength := length })

/-- `InitTopic()`. -/
def initTopic : Except TMetadataResponseError (Bool × TMetadataResponseReader) := do
  let (found, length) ← initNamedItem reader.buf reader.topicsLeft reader.currentTopicOffset
    relTopicNameLengthOffset topicNameLengthSize
    (fun length => sizeAdd (relPartitionCountOffset length) partitionCountSize) badTopicNameLen
  pure (found, { reader with currentTopicNameLength := length })

/-- `InitPartition()`. -/
def initPartition : Except TMetadataResponseError (Bool × TMetadataResponseReader) := do
  let found ← initItem reader.buf reader.partitionsLeftInTopic reader.currentPartitionOffset
    (relReplicaCountOffset + replicaCountSize)
  pure (found, reader)

/-- `InitReplica()`. -/
def initReplica : Except TMetadataResponseError (Bool × TMetadataResponseReader) := do
  let found ← initItem reader.buf reader.replicasLeftInPartition reader.currentReplicaOffset
    replicaNodeIdSize
  pure (found, reader)

/-- `InitCaughtUpReplica()`. -/
def initCaughtUpReplica : Except TMetadataResponseError (Bool × TMetadataResponseReader) := do
  let found ← initItem reader.buf reader.caughtUpReplicasLeftInPartition
    reader.currentCaughtUpReplicaOffset caughtUpReplicaNodeIdSize
  pure (found, reader)

end Init

section InitLemmas

variable {reader after : TMetadataResponseReader} {found : Bool}

theorem initBroker_eq (init : reader.initBroker = .ok (found, after)) :
    ∃ length, after = { reader with currentBrokerHostLength := length } := by
  simp only [initBroker, bind, Except.bind] at init
  split at init
  · cases init
  · cases init
    exact ⟨_, rfl⟩

theorem initTopic_eq (init : reader.initTopic = .ok (found, after)) :
    ∃ length, after = { reader with currentTopicNameLength := length } := by
  simp only [initTopic, bind, Except.bind] at init
  split at init
  · cases init
  · cases init
    exact ⟨_, rfl⟩

theorem initPartition_eq (init : reader.initPartition = .ok (found, after)) : after = reader := by
  simp only [initPartition, bind, Except.bind] at init
  split at init
  · cases init
  · cases init
    rfl

theorem initReplica_eq (init : reader.initReplica = .ok (found, after)) : after = reader := by
  simp only [initReplica, bind, Except.bind] at init
  split at init
  · cases init
  · cases init
    rfl

theorem initCaughtUpReplica_eq (init : reader.initCaughtUpReplica = .ok (found, after)) :
    after = reader := by
  simp only [initCaughtUpReplica, bind, Except.bind] at init
  split at init
  · cases init
  · cases init
    rfl

end InitLemmas

/-- The measure of a `while (left) Next();` loop: a call either enters the
list (`first`), after which it is in it (`¬first'`), or counts it down. -/
theorem countdown_lex {first first' : Prop} [Decidable first] [Decidable first'] {left left' : Nat}
    (entered : ¬first') (progress : first ∨ left' < left) :
    Prod.Lex (· < ·) (· < ·) (if first' then (1 : Nat) else 0, left') (if first then 1 else 0, left) := by
  rw [Prod.lex_def, if_neg entered]
  by_cases starting : first
  · simp [starting]
  · simp only [starting, if_false, lt_self_iff_false, true_and, false_or]
    exact progress.resolve_left starting

/-! #### Brokers -/

section Brokers

variable (reader : TMetadataResponseReader)

/-- `FirstBroker()`. -/
def firstBroker : Except TMetadataResponseError (Bool × TMetadataResponseReader) :=
  if reader.bufSize < minSize then .error incompleteMetadataResponse
  else do
    let reader := { reader with state := .inBrokerList }
    let count ← reader.getBrokerCount
    initBroker (clearStateVariables
      { reader with brokersLeft := count, currentBrokerOffset := brokerListOffset })

/-- `NextBroker()`; `BrokersLeft` is asserted nonzero in the list. -/
def nextBroker : Except TMetadataResponseError (Bool × TMetadataResponseReader) :=
  if reader.state = .initial then reader.firstBroker
  else
    initBroker { reader with
      brokersLeft := reader.brokersLeft - 1
      currentBrokerOffset := sizeAdd reader.currentBrokerOffset (brokerSize reader.currentBrokerHostLength) }

end Brokers

theorem nextBroker_progress {reader after : TMetadataResponseReader} {found : Bool}
    (moved : reader.nextBroker = .ok (found, after)) :
    after.state ≠ .initial ∧ (reader.state = .initial ∨ after.brokersLeft < reader.brokersLeft) ∨
      reader.brokersLeft = 0 := by
  unfold nextBroker at moved
  split at moved
  · rename_i starting
    simp only [firstBroker, bind, Except.bind] at moved
    split at moved
    · cases moved
    · split at moved
      · cases moved
      · obtain ⟨length, rfl⟩ := initBroker_eq moved
        exact .inl ⟨by simp [clearStateVariables, clearTopicVariables, clearPartitionVariables,
          clearReplicaVariables, clearCaughtUpReplicaVariables], .inl starting⟩
  · rename_i listed
    obtain ⟨length, rfl⟩ := initBroker_eq moved
    by_cases none : reader.brokersLeft = 0
    · exact .inr none
    · exact .inl ⟨listed, .inr (by simp only; omega)⟩

/-- The loop `while (BrokersLeft) NextBroker();` of `SkipRemainingBrokers()`. -/
def skipBrokersLoop (reader : TMetadataResponseReader) :
    Except TMetadataResponseError TMetadataResponseReader :=
  if _left : reader.brokersLeft = 0 then .ok reader
  else
    match _moved : reader.nextBroker with
    | .error e => .error e
    | .ok (_, after) => skipBrokersLoop after
termination_by (if reader.state = .initial then 1 else 0, reader.brokersLeft)
decreasing_by
  rcases nextBroker_progress _moved with ⟨listed, progress⟩ | none
  · exact countdown_lex listed progress
  · exact absurd none _left

/-- `SkipRemainingBrokers()`. -/
def skipRemainingBrokers (reader : TMetadataResponseReader) :
    Except TMetadataResponseError TMetadataResponseReader :=
  if reader.state = .initial then do
    let (found, reader) ← reader.firstBroker
    if found then reader.skipBrokersLoop else pure reader
  else reader.skipBrokersLoop

/-! #### What the operations below the topic list keep -/

/-- `after` has the buffer and the current topic of `reader`. -/
structure KeepsTopics (reader after : TMetadataResponseReader) : Prop where
  buf : after.buf = reader.buf
  topicsLeft : after.topicsLeft = reader.topicsLeft
  currentTopicOffset : after.currentTopicOffset = reader.currentTopicOffset
  currentTopicNameLength : after.currentTopicNameLength = reader.currentTopicNameLength

/-- `after` has the buffer, the current topic and the current partition of
`reader`. -/
structure KeepsPartitions (reader after : TMetadataResponseReader) : Prop
    extends KeepsTopics reader after where
  partitionsLeftInTopic : after.partitionsLeftInTopic = reader.partitionsLeftInTopic
  currentPartitionOffset : after.currentPartitionOffset = reader.currentPartitionOffset

theorem KeepsTopics.refl (reader : TMetadataResponseReader) : KeepsTopics reader reader :=
  ⟨rfl, rfl, rfl, rfl⟩

theorem KeepsTopics.trans {a b c : TMetadataResponseReader} (first : KeepsTopics a b)
    (second : KeepsTopics b c) : KeepsTopics a c :=
  ⟨second.buf.trans first.buf, second.topicsLeft.trans first.topicsLeft,
    second.currentTopicOffset.trans first.currentTopicOffset,
    second.currentTopicNameLength.trans first.currentTopicNameLength⟩

theorem KeepsPartitions.refl (reader : TMetadataResponseReader) : KeepsPartitions reader reader :=
  ⟨KeepsTopics.refl reader, rfl, rfl⟩

theorem KeepsPartitions.trans {a b c : TMetadataResponseReader} (first : KeepsPartitions a b)
    (second : KeepsPartitions b c) : KeepsPartitions a c :=
  ⟨first.toKeepsTopics.trans second.toKeepsTopics,
    second.partitionsLeftInTopic.trans first.partitionsLeftInTopic,
    second.currentPartitionOffset.trans first.currentPartitionOffset⟩

/-! #### Replicas -/

section Replicas

variable (reader : TMetadataResponseReader)

/-- `FirstReplicaInPartition()`. -/
def firstReplicaInPartition : Except TMetadataResponseError (Bool × TMetadataResponseReader) := do
  let count ← reader.getCurrentPartitionReplicaCount
  initReplica (clearStateVariables { reader with
    replicasLeftInPartition := count
    state := .inReplicaList
    currentReplicaOffset :=
      sizeAdd (sizeAdd reader.currentPartitionOffset relReplicaCountOffset) replicaCountSize })

/-- `NextReplicaInPartition()`; `ReplicasLeftInPartition` is asserted nonzero
in the list. -/
def nextReplicaInPartition : Except TMetadataResponseError (Bool × TMetadataResponseReader) :=
  if reader.state = .inPartitionList then reader.firstReplicaInPartition
  else
    initReplica { reader with
      replicasLeftInPartition := reader.replicasLeftInPartition - 1
      currentReplicaOffset := sizeAdd reader.currentReplicaOffset replicaNodeIdSize }

end Replicas

section ReplicaLemmas

variable {reader after : TMetadataResponseReader} {found : Bool}

theorem firstReplicaInPartition_keeps (first : reader.firstReplicaInPartition = .ok (found, after)) :
    KeepsPartitions reader after ∧ after.state = .inReplicaList := by
  simp only [firstReplicaInPartition, bind, Except.bind] at first
  split at first
  · cases first
  · rw [initReplica_eq first]
    exact ⟨⟨⟨rfl, rfl, rfl, rfl⟩, rfl, rfl⟩, rfl⟩

theorem nextReplicaInPartition_keeps (moved : reader.nextReplicaInPartition = .ok (found, after)) :
    KeepsPartitions reader after := by
  unfold nextReplicaInPartition at moved
  split at moved
  · exact (firstReplicaInPartition_keeps moved).1
  · rw [initReplica_eq moved]
    exact ⟨⟨rfl, rfl, rfl, rfl⟩, rfl, rfl⟩

theorem nextReplicaInPartition_progress (moved : reader.nextReplicaInPartition = .ok (found, after)) :
    after.state ≠ .inPartitionList ∧
        (reader.state = .inPartitionList ∨ after.replicasLeftInPartition < reader.replicasLeftInPartition) ∨
      reader.replicasLeftInPartition = 0 := by
  unfold nextReplicaInPartition at moved
  split at moved
  · rename_i starting
    rw [(firstReplicaInPartition_keeps moved).2]
    exact .inl ⟨by decide, .inl starting⟩
  · rename_i listed
    rw [initReplica_eq moved]
    by_cases none : reader.replicasLeftInPartition = 0
    · exact .inr none
    · exact .inl ⟨listed, .inr (by simp only; omega)⟩

end ReplicaLemmas

/-- The loop `while (ReplicasLeftInPartition) NextReplicaInPartition();` of
`SkipRemainingReplicas()`. -/
def skipReplicasLoop (reader : TMetadataResponseReader) :
    Except TMetadataResponseError TMetadataResponseReader :=
  if _left : reader.replicasLeftInPartition = 0 then .ok reader
  else
    match _moved : reader.nextReplicaInPartition with
    | .error e => .error e
    | .ok (_, after) => skipReplicasLoop after
termination_by (if reader.state = .inPartitionList then 1 else 0, reader.replicasLeftInPartition)
decreasing_by
  rcases nextReplicaInPartition_progress _moved with ⟨listed, progress⟩ | none
  · exact countdown_lex listed progress
  · exact absurd none _left

/-- `SkipRemainingReplicas()`. -/
def skipRemainingReplicas (reader : TMetadataResponseReader) :
    Except TMetadataResponseError TMetadataResponseReader :=
  if reader.state = .inPartitionList then do
    let (found, reader) ← reader.firstReplicaInPartition
    if found then reader.skipReplicasLoop else pure reader
  else reader.skipReplicasLoop

theorem skipReplicasLoop_keeps {reader after : TMetadataResponseReader}
    (skipped : reader.skipReplicasLoop = .ok after) : KeepsPartitions reader after := by
  induction reader using skipReplicasLoop.induct with
  | case1 reader none =>
      rw [skipReplicasLoop, dif_pos none] at skipped
      cases skipped
      exact KeepsPartitions.refl _
  | case2 reader left e moved =>
      rw [skipReplicasLoop, dif_neg left] at skipped
      split at skipped <;> simp_all
  | case3 reader left found next moved ih =>
      rw [skipReplicasLoop, dif_neg left] at skipped
      split at skipped
      · simp_all
      · rename_i found' next' moved'
        rw [moved] at moved'
        cases moved'
        exact (nextReplicaInPartition_keeps moved).trans (ih skipped)

theorem skipRemainingReplicas_keeps {reader after : TMetadataResponseReader}
    (skipped : reader.skipRemainingReplicas = .ok after) : KeepsPartitions reader after := by
  unfold skipRemainingReplicas at skipped
  split at skipped
  · simp only [bind, Except.bind] at skipped
    split at skipped
    · cases skipped
    · rename_i first
      have keeps := (firstReplicaInPartition_keeps first).1
      split at skipped
      · exact keeps.trans (skipReplicasLoop_keeps skipped)
      · cases skipped
        exact keeps
  · exact skipReplicasLoop_keeps skipped

/-! #### Caught up replicas -/

section CaughtUpReplicas

variable (reader : TMetadataResponseReader)

/-- `FirstCaughtUpReplicaInPartition()`: the replicas the caller left unread
are skipped first. -/
def firstCaughtUpReplicaInPartition :
    Except TMetadataResponseError (Bool × TMetadataResponseReader) := do
  let reader ← (if reader.state.toNat ≤ TState.inReplicaList.toNat then reader.skipRemainingReplicas
    else pure reader)
  let count ← reader.getCurrentPartitionCaughtUpReplicaCount
  initCaughtUpReplica (clearStateVariables { reader with
    caughtUpReplicasLeftInPartition := count
    state := .inCaughtUpReplicaList
    currentCaughtUpReplicaOffset := sizeAdd reader.currentReplicaOffset caughtUpReplicaCountSize })

/-- `NextCaughtUpReplicaInPartition()`; `CaughtUpReplicasLeftInPartition` is
asserted nonzero in the list. -/
def nextCaughtUpReplicaInPartition :
    Except TMetadataResponseError (Bool × TMetadataResponseReader) :=
  if reader.state.toNat < TState.inCaughtUpReplicaList.toNat then
    reader.firstCaughtUpReplicaInPartition
  else
    initCaughtUpReplica { reader with
      caughtUpReplicasLeftInPartition := reader.caughtUpReplicasLeftInPartition - 1
      currentCaughtUpReplicaOffset :=
        sizeAdd reader.currentCaughtUpReplicaOffset caughtUpReplicaNodeIdSize }

end CaughtUpReplicas

section CaughtUpReplicaLemmas

variable {reader after : TMetadataResponseReader} {found : Bool}

theorem firstCaughtUpReplicaInPartition_keeps
    (first : reader.firstCaughtUpReplicaInPartition = .ok (found, after)) :
    KeepsPartitions reader after ∧ after.state = .inCaughtUpReplicaList := by
  unfold firstCaughtUpReplicaInPartition at first
  obtain ⟨skipped, skip, rest⟩ := bind_eq_ok first
  obtain ⟨count, -, init⟩ := bind_eq_ok rest
  -- the replicas skipped first keep the partition, and so does the rest
  have skippedKeeps : KeepsPartitions reader skipped := by
    split at skip
    · exact skipRemainingReplicas_keeps skip
    · cases skip
      exact KeepsPartitions.refl reader
  rw [initCaughtUpReplica_eq init]
  exact ⟨skippedKeeps.trans ⟨⟨rfl, rfl, rfl, rfl⟩, rfl, rfl⟩, rfl⟩

theorem nextCaughtUpReplicaInPartition_keeps
    (moved : reader.nextCaughtUpReplicaInPartition = .ok (found, after)) :
    KeepsPartitions reader after := by
  unfold nextCaughtUpReplicaInPartition at moved
  split at moved
  · exact (firstCaughtUpReplicaInPartition_keeps moved).1
  · rw [initCaughtUpReplica_eq moved]
    exact ⟨⟨rfl, rfl, rfl, rfl⟩, rfl, rfl⟩

theorem nextCaughtUpReplicaInPartition_progress
    (moved : reader.nextCaughtUpReplicaInPartition = .ok (found, after)) :
    ¬after.state.toNat < TState.inCaughtUpReplicaList.toNat ∧
        (reader.state.toNat < TState.inCaughtUpReplicaList.toNat ∨
          after.caughtUpReplicasLeftInPartition < reader.caughtUpReplicasLeftInPartition) ∨
      reader.caughtUpReplicasLeftInPartition = 0 := by
  unfold nextCaughtUpReplicaInPartition at moved
  split at moved
  · rename_i starting
    rw [(firstCaughtUpReplicaInPartition_keeps moved).2]
    exact .inl ⟨by decide, .inl starting⟩
  · rename_i listed
    rw [initCaughtUpReplica_eq moved]
    by_cases none : reader.caughtUpReplicasLeftInPartition = 0
    · exact .inr none
    · exact .inl ⟨listed, .inr (by simp only; omega)⟩

end CaughtUpReplicaLemmas

/-- The loop `while (CaughtUpReplicasLeftInPartition)
NextCaughtUpReplicaInPartition();` of `SkipRemainingCaughtUpReplicas()`. -/
def skipCaughtUpReplicasLoop (reader : TMetadataResponseReader) :
    Except TMetadataResponseError TMetadataResponseReader :=
  if _left : reader.caughtUpReplicasLeftInPartition = 0 then .ok reader
  else
    match _moved : reader.nextCaughtUpReplicaInPartition with
    | .error e => .error e
    | .ok (_, after) => skipCaughtUpReplicasLoop after
termination_by (if reader.state.toNat < TState.inCaughtUpReplicaList.toNat then 1 else 0,
  reader.caughtUpReplicasLeftInPartition)
decreasing_by
  rcases nextCaughtUpReplicaInPartition_progress _moved with ⟨listed, progress⟩ | none
  · exact countdown_lex listed progress
  · exact absurd none _left

/-- `SkipRemainingCaughtUpReplicas()`. -/
def skipRemainingCaughtUpReplicas (reader : TMetadataResponseReader) :
    Except TMetadataResponseError TMetadataResponseReader :=
  if reader.state = .inReplicaList then do
    let (found, reader) ← reader.firstCaughtUpReplicaInPartition
    if found then reader.skipCaughtUpReplicasLoop else pure reader
  else reader.skipCaughtUpReplicasLoop

theorem skipCaughtUpReplicasLoop_keeps {reader after : TMetadataResponseReader}
    (skipped : reader.skipCaughtUpReplicasLoop = .ok after) : KeepsPartitions reader after := by
  induction reader using skipCaughtUpReplicasLoop.induct with
  | case1 reader none =>
      rw [skipCaughtUpReplicasLoop, dif_pos none] at skipped
      cases skipped
      exact KeepsPartitions.refl _
  | case2 reader left e moved =>
      rw [skipCaughtUpReplicasLoop, dif_neg left] at skipped
      split at skipped <;> simp_all
  | case3 reader left found next moved ih =>
      rw [skipCaughtUpReplicasLoop, dif_neg left] at skipped
      split at skipped
      · simp_all
      · rename_i found' next' moved'
        rw [moved] at moved'
        cases moved'
        exact (nextCaughtUpReplicaInPartition_keeps moved).trans (ih skipped)

theorem skipRemainingCaughtUpReplicas_keeps {reader after : TMetadataResponseReader}
    (skipped : reader.skipRemainingCaughtUpReplicas = .ok after) : KeepsPartitions reader after := by
  unfold skipRemainingCaughtUpReplicas at skipped
  split at skipped
  · simp only [bind, Except.bind] at skipped
    split at skipped
    · cases skipped
    · rename_i first
      have keeps := (firstCaughtUpReplicaInPartition_keeps first).1
      split at skipped
      · exact keeps.trans (skipCaughtUpReplicasLoop_keeps skipped)
      · cases skipped
        exact keeps
  · exact skipCaughtUpReplicasLoop_keeps skipped

/-! #### Partitions -/

section Partitions

variable (reader : TMetadataResponseReader)

/-- `FirstPartitionInTopic()`. -/
def firstPartitionInTopic : Except TMetadataResponseError (Bool × TMetadataResponseReader) := do
  let count ← reader.getCurrentTopicPartitionCount
  initPartition (clearStateVariables { reader with
    partitionsLeftInTopic := count
    state := .inPartitionList
    currentPartitionOffset := sizeAdd
      (sizeAdd reader.currentTopicOffset (relPartitionCountOffset reader.currentTopicNameLength))
      partitionCountSize })

/-- The `switch` of `NextPartitionInTopic()`: finish the current partition's
lists, the replica list falling through to the caught up replica list; a
state no case names is `Base::Die`. -/
def finishPartition : Except TMetadataResponseError TMetadataResponseReader :=
  match reader.state with
  | .inPartitionList | .inReplicaList => do
      let reader ← reader.skipRemainingReplicas
      reader.skipRemainingCaughtUpReplicas
  | .inCaughtUpReplicaList => reader.skipRemainingCaughtUpReplicas
  | .initial | .inBrokerList | .inTopicList => .error invalidSwitchValue

/-- `NextPartitionInTopic()`; `PartitionsLeftInTopic` is asserted nonzero in
the list. -/
def nextPartitionInTopic : Except TMetadataResponseError (Bool × TMetadataResponseReader) :=
  if reader.state = .inTopicList then reader.firstPartitionInTopic
  else do
    let reader ← reader.finishPartition
    initPartition { reader with
      state := .inPartitionList
      partitionsLeftInTopic := reader.partitionsLeftInTopic - 1
      currentPartitionOffset := reader.currentCaughtUpReplicaOffset }

end Partitions

section PartitionLemmas

variable {reader after : TMetadataResponseReader} {found : Bool}

theorem firstPartitionInTopic_keeps (first : reader.firstPartitionInTopic = .ok (found, after)) :
    KeepsTopics reader after ∧ after.state = .inPartitionList := by
  simp only [firstPartitionInTopic, bind, Except.bind] at first
  split at first
  · cases first
  · rw [initPartition_eq first]
    exact ⟨⟨rfl, rfl, rfl, rfl⟩, rfl⟩

theorem finishPartition_keeps (finished : reader.finishPartition = .ok after) :
    KeepsPartitions reader after := by
  unfold finishPartition at finished
  split at finished
  · simp only [bind, Except.bind] at finished
    split at finished
    · cases finished
    · exact (skipRemainingReplicas_keeps ‹_›).trans (skipRemainingCaughtUpReplicas_keeps finished)
  · simp only [bind, Except.bind] at finished
    split at finished
    · cases finished
    · exact (skipRemainingReplicas_keeps ‹_›).trans (skipRemainingCaughtUpReplicas_keeps finished)
  · exact skipRemainingCaughtUpReplicas_keeps finished
  all_goals cases finished

/-- The next partition starts where the current one's lists end. -/
theorem nextPartitionInTopic_of_listed (listed : reader.state ≠ .inTopicList) :
    reader.nextPartitionInTopic = (do
      let reader ← reader.finishPartition
      initPartition { reader with
        state := .inPartitionList
        partitionsLeftInTopic := reader.partitionsLeftInTopic - 1
        currentPartitionOffset := reader.currentCaughtUpReplicaOffset }) := by
  rw [nextPartitionInTopic, if_neg listed]

theorem nextPartitionInTopic_keeps (moved : reader.nextPartitionInTopic = .ok (found, after)) :
    KeepsTopics reader after := by
  unfold nextPartitionInTopic at moved
  split at moved
  · exact (firstPartitionInTopic_keeps moved).1
  · obtain ⟨finished, finish, init⟩ := bind_eq_ok moved
    rw [initPartition_eq init]
    exact (finishPartition_keeps finish).toKeepsTopics.trans ⟨rfl, rfl, rfl, rfl⟩

theorem nextPartitionInTopic_progress (moved : reader.nextPartitionInTopic = .ok (found, after)) :
    after.state ≠ .inTopicList ∧
        (reader.state = .inTopicList ∨ after.partitionsLeftInTopic < reader.partitionsLeftInTopic) ∨
      reader.partitionsLeftInTopic = 0 := by
  unfold nextPartitionInTopic at moved
  split at moved
  · rename_i starting
    rw [(firstPartitionInTopic_keeps moved).2]
    exact .inl ⟨by decide, .inl starting⟩
  · obtain ⟨finished, finish, init⟩ := bind_eq_ok moved
    have same := (finishPartition_keeps finish).partitionsLeftInTopic
    rw [initPartition_eq init]
    by_cases none : reader.partitionsLeftInTopic = 0
    · exact .inr none
    · exact .inl ⟨by simp, .inr (by simp only; omega)⟩

end PartitionLemmas

/-- The loop `while (PartitionsLeftInTopic) NextPartitionInTopic();` of
`SkipRemainingPartitions()`. -/
def skipPartitionsLoop (reader : TMetadataResponseReader) :
    Except TMetadataResponseError TMetadataResponseReader :=
  if _left : reader.partitionsLeftInTopic = 0 then .ok reader
  else
    match _moved : reader.nextPartitionInTopic with
    | .error e => .error e
    | .ok (_, after) => skipPartitionsLoop after
termination_by (if reader.state = .inTopicList then 1 else 0, reader.partitionsLeftInTopic)
decreasing_by
  rcases nextPartitionInTopic_progress _moved with ⟨listed, progress⟩ | none
  · exact countdown_lex listed progress
  · exact absurd none _left

/-- `SkipRemainingPartitions()`. -/
def skipRemainingPartitions (reader : TMetadataResponseReader) :
    Except TMetadataResponseError TMetadataResponseReader :=
  if reader.state = .inTopicList then do
    let (found, reader) ← reader.firstPartitionInTopic
    if found then reader.skipPartitionsLoop else pure reader
  else reader.skipPartitionsLoop

theorem skipPartitionsLoop_keeps {reader after : TMetadataResponseReader}
    (skipped : reader.skipPartitionsLoop = .ok after) : KeepsTopics reader after := by
  induction reader using skipPartitionsLoop.induct with
  | case1 reader none =>
      rw [skipPartitionsLoop, dif_pos none] at skipped
      cases skipped
      exact KeepsTopics.refl _
  | case2 reader left e moved =>
      rw [skipPartitionsLoop, dif_neg left] at skipped
      split at skipped <;> simp_all
  | case3 reader left found next moved ih =>
      rw [skipPartitionsLoop, dif_neg left] at skipped
      split at skipped
      · simp_all
      · rename_i found' next' moved'
        rw [moved] at moved'
        cases moved'
        exact (nextPartitionInTopic_keeps moved).trans (ih skipped)

theorem skipRemainingPartitions_keeps {reader after : TMetadataResponseReader}
    (skipped : reader.skipRemainingPartitions = .ok after) : KeepsTopics reader after := by
  unfold skipRemainingPartitions at skipped
  split at skipped
  · simp only [bind, Except.bind] at skipped
    split at skipped
    · cases skipped
    · rename_i first
      have keeps := (firstPartitionInTopic_keeps first).1
      split at skipped
      · exact keeps.trans (skipPartitionsLoop_keeps skipped)
      · cases skipped
        exact keeps
  · exact skipPartitionsLoop_keeps skipped

/-! #### Topics -/

section Topics

variable (reader : TMetadataResponseReader)

/-- `FirstTopic()`: the brokers the caller left unread are skipped first. -/
def firstTopic : Except TMetadataResponseError (Bool × TMetadataResponseReader) := do
  let reader ← (if reader.state.toNat ≤ TState.inBrokerList.toNat then reader.skipRemainingBrokers
    else pure reader)
  let count ← reader.getTopicCount
  initTopic (clearStateVariables { reader with
    topicsLeft := count
    state := .inTopicList
    currentTopicOffset := sizeAdd reader.currentBrokerOffset topicCountSize })

/-- `NextTopic()`: the next topic starts where the current one's partitions
end; `TopicsLeft` is asserted nonzero in the list. -/
def nextTopic : Except TMetadataResponseError (Bool × TMetadataResponseReader) :=
  if reader.state.toNat ≤ TState.inBrokerList.toNat then reader.firstTopic
  else do
    let reader ← reader.skipRemainingPartitions
    initTopic { reader with
      state := .inTopicList
      topicsLeft := reader.topicsLeft - 1
      currentTopicOffset := reader.currentPartitionOffset }

end Topics

theorem firstTopic_state {reader after : TMetadataResponseReader} {found : Bool}
    (first : reader.firstTopic = .ok (found, after)) : after.state = .inTopicList := by
  unfold firstTopic at first
  obtain ⟨skipped, -, rest⟩ := bind_eq_ok first
  obtain ⟨count, -, init⟩ := bind_eq_ok rest
  obtain ⟨length, rfl⟩ := initTopic_eq init
  rfl

/-- Once the broker list is read to its end, `NextTopic()` has no broker left
to skip and reads the topic count where the brokers end. -/
theorem nextTopic_of_brokers_read {reader : TMetadataResponseReader}
    (listed : reader.state = .inBrokerList) (read : reader.brokersLeft = 0) :
    reader.nextTopic = (do
      let count ← reader.getTopicCount
      initTopic (clearStateVariables { reader with
        topicsLeft := count
        state := .inTopicList
        currentTopicOffset := sizeAdd reader.currentBrokerOffset topicCountSize })) := by
  have below : reader.state.toNat ≤ TState.inBrokerList.toNat := by rw [listed]
  have started : reader.state ≠ .initial := by rw [listed]; decide
  rw [nextTopic, if_pos below, firstTopic, if_pos below, skipRemainingBrokers, if_neg started,
    skipBrokersLoop, dif_pos read]
  rfl

theorem nextTopic_progress {reader after : TMetadataResponseReader} {found : Bool}
    (moved : reader.nextTopic = .ok (found, after)) :
    ¬after.state.toNat ≤ TState.inBrokerList.toNat ∧
        (reader.state.toNat ≤ TState.inBrokerList.toNat ∨ after.topicsLeft < reader.topicsLeft) ∨
      reader.topicsLeft = 0 := by
  unfold nextTopic at moved
  split at moved
  · rename_i starting
    rw [firstTopic_state moved]
    exact .inl ⟨by decide, .inl starting⟩
  · obtain ⟨skipped, skip, init⟩ := bind_eq_ok moved
    have same := (skipRemainingPartitions_keeps skip).topicsLeft
    obtain ⟨length, rfl⟩ := initTopic_eq init
    by_cases none : reader.topicsLeft = 0
    · exact .inr none
    · exact .inl ⟨by simp [TState.toNat], .inr (by simp only; omega)⟩

/-- Once the current topic's partition list is read to its end, `NextTopic()`
has no partition left to skip and moves to where the partitions end. -/
theorem nextTopic_of_partitions_read {reader : TMetadataResponseReader}
    (listed : reader.state = .inPartitionList) (read : reader.partitionsLeftInTopic = 0) :
    reader.nextTopic = initTopic { reader with
      state := .inTopicList
      topicsLeft := reader.topicsLeft - 1
      currentTopicOffset := reader.currentPartitionOffset } := by
  have above : ¬reader.state.toNat ≤ TState.inBrokerList.toNat := by rw [listed]; decide
  have started : reader.state ≠ .inTopicList := by rw [listed]; decide
  rw [nextTopic, if_neg above, skipRemainingPartitions, if_neg started, skipPartitionsLoop,
    dif_pos read]
  rfl

/-- The loop `while (TopicsLeft) NextTopic();` of `SkipRemainingTopics()`. -/
def skipTopicsLoop (reader : TMetadataResponseReader) :
    Except TMetadataResponseError TMetadataResponseReader :=
  if _left : reader.topicsLeft = 0 then .ok reader
  else
    match _moved : reader.nextTopic with
    | .error e => .error e
    | .ok (_, after) => skipTopicsLoop after
termination_by (if reader.state.toNat ≤ TState.inBrokerList.toNat then 1 else 0, reader.topicsLeft)
decreasing_by
  rcases nextTopic_progress _moved with ⟨listed, progress⟩ | none
  · exact countdown_lex listed progress
  · exact absurd none _left

/-- `SkipRemainingTopics()`. -/
def skipRemainingTopics (reader : TMetadataResponseReader) :
    Except TMetadataResponseError TMetadataResponseReader :=
  if reader.state = .inBrokerList then do
    let (found, reader) ← reader.firstTopic
    if found then reader.skipTopicsLoop else pure reader
  else reader.skipTopicsLoop

/-! #### A null string length -/

/-- A field inside the buffer reads as its value. -/
theorem readIntFromHeader_of_le {width : Nat} {buf : List UInt8} {pos : Nat}
    (inside : pos + width ≤ buf.length) :
    readIntFromHeader width buf pos = .ok (readSigned buf pos width) := by
  rw [readIntFromHeader, readSignedAt?_of_le (Int.natCast_nonneg pos) (by exact_mod_cast inside),
    Int.toNat_natCast]

/-- A positive count field, cast to `size_t`, is a positive count. -/
theorem readCount_of_pos {buf : List UInt8} {pos : Nat} (negative : TMetadataResponseError)
    (inside : pos + 4 ≤ buf.length) (positive : 0 < readSigned buf pos 4) :
    readCount buf pos negative = .ok (readSigned buf pos 4).toNat ∧ 0 < (readSigned buf pos 4).toNat := by
  have below : readSigned buf pos 4 < 2 ^ 31 := readSigned_upper (by decide) buf pos
  simp only [readCount, readInt32FromHeader, readIntFromHeader_of_le inside, ok_bind]
  rw [if_neg (by omega), toSize_of_nonneg (by omega) (by omega)]
  exact ⟨rfl, by omega⟩

/-- The null string's length passes `InitBroker()`: cast to `size_t` it is
2^64 - 1, not below 1, and the broker's size computed from it wraps around
to 9 bytes. -/
theorem brokerSize_null : brokerSize (toSize (-1)) = 9 := by decide

/-- A broker whose host length field is -1, the protocol's null string, is
accepted by the first `NextBroker()` of any buffer of 21 bytes or more with a
positive broker count, and the host range `[GetCurrentBrokerHostBegin(),
GetCurrentBrokerHostEnd())` it then gives ends one byte before it begins. -/
theorem nextBroker_reverses_null_host (buf : List UInt8) (long : 21 ≤ buf.length)
    (fits : buf.length < 2 ^ 64) (brokers : 0 < readSigned buf 8 4)
    (nullHost : readSigned buf 16 2 = -1) :
    ∃ reader, ({ buf } : TMetadataResponseReader).nextBroker = .ok (true, reader) ∧
      reader.getCurrentBrokerHostEnd + 1 = reader.getCurrentBrokerHostBegin := by
  obtain ⟨count, positive⟩ := readCount_of_pos negativeBrokerCount (by omega) brokers
  have space : sizeSub buf.length 12 = buf.length - 12 := sizeSub_of_le (by omega) fits
  have hostLength : readInt16FromHeader buf 16 = .ok (-1) := by
    rw [readInt16FromHeader, readIntFromHeader_of_le (by omega), nullHost]
  refine ⟨{ buf := buf
            state := .inBrokerList
            brokersLeft := (readSigned buf 8 4).toNat
            currentBrokerOffset := 12
            currentBrokerHostLength := toSize (-1) }, ?_, ?_⟩
  rotate_left
  · show sizeAdd (sizeAdd 12 relBrokerHostOffset) (toSize (-1)) + 1 = sizeAdd 12 relBrokerHostOffset
    decide
  -- the header passes, the broker count is positive, and the broker fits
  have notShort : ¬buf.length < minSize := by
    simp only [minSize, requestOrResponseSizeSize, correlationIdSize, brokerCountSize, topicCountSize]
    omega
  simp only [nextBroker, firstBroker, bufSize, if_pos, getBrokerCount, brokerCountOffset,
    correlationIdOffset, responseSizeOffset, requestOrResponseSizeSize, correlationIdSize, count,
    if_neg notShort, ok_bind]
  simp only [clearStateVariables, clearTopicVariables, clearPartitionVariables, clearReplicaVariables,
    clearCaughtUpReplicaVariables, initBroker, initNamedItem, brokerListOffset, brokerCountSize,
    correlationIdOffset, responseSizeOffset, requestOrResponseSizeSize, correlationIdSize,
    brokerCountOffset, relBrokerHostLengthOffset, relBrokerNodeIdOffset, brokerNodeIdSize,
    brokerHostLengthSize, stringSizeFieldSize, space, Nat.reduceAdd, show sizeAdd 12 4 = 16 by decide,
    hostLength, ok_bind, brokerSize_null]
  rw [if_neg (by omega), if_neg (by omega), if_neg (by decide), if_neg (by omega)]
  rfl

/-- Twenty-one bytes: size field 17, correlation ID 0, one broker with node
ID 0, host length -1 and port 0. -/
def nullHostResponse : List UInt8 :=
  [0, 0, 0, 17, 0, 0, 0, 0, 0, 0, 0, 1, 0, 0, 0, 0, 0xFF, 0xFF, 0, 0, 0]

theorem nextBroker_reverses_nullHostResponse :
    ∃ reader, ({ buf := nullHostResponse } : TMetadataResponseReader).nextBroker = .ok (true, reader) ∧
      reader.getCurrentBrokerHostEnd + 1 = reader.getCurrentBrokerHostBegin :=
  nextBroker_reverses_null_host nullHostResponse (by decide) (by decide) (by decide) (by decide)

end TMetadataResponseReader

end Dory.KafkaProto
