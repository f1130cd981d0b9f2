/-
Module: Dory.InputDg.Reader
Purpose: How the server turns a datagram into a message: `BuildMsgFromDg`
  (input_dg_util.cc), the per-routing-type dispatch on the API version
  (any_partition_util.cc, partition_key_util.cc), the two version 0 readers
  (`TV0InputDgReader::BuildMsg`), and the message they make
  (`TryCreate*Msg` of input_dg_common.cc, `TMsg`'s constructor and
  `MakeKeyAndValue` of msg.cc, over the capped pool).  The datagram is the
  list of its bytes, positions are offsets into it, and a read of a byte
  outside it is the fault `readOutsideDg`.  An `assert()` is a check whose
  failure is the fault `assertionFailure`, as a debug build runs it.  What
  the anomaly tracker records is returned with the result.
Trusted boundary: none
Main exports: readIntFromHeader, TDiscard, TCreatedMsg, TBuildResult,
  createMsg, tryCreateMsg, readTopicToValue, AnyPartition.V0.buildMsg,
  PartitionKey.V0.buildMsg, buildVersionedMsgFromDg, buildMsgFromDg,
  buildMsgFromDg_cases, buildMsgFromDg_encode_ok, buildMsgFromDg_sound
-/
import Dory.InputDg.Format
import Dory.Capped.Writer

namespace Dory.InputDg

open Dory.Foundation Dory.Foundation.Bytes Dory.Foundation.Buffer Dory.Capped

/-! ### Reading the datagram -/

/-- `ReadInt16FromHeader`, `ReadInt32FromHeader` and `ReadInt64FromHeader`
(field_access.h) at an offset of the datagram. -/
def readIntFromHeader (width : Nat) (dg : List UInt8) (pos : Nat) : Except TInputDgFault Int :=
  match readSignedAt? dg pos width with
  | none => .error .readOutsideDg
  | some value => .ok value

/-- The `count` bytes of the datagram from `pos` on, which the message's
constructor copies. -/
def readBytes (dg : List UInt8) (pos count : Nat) : Except TInputDgFault (List UInt8) :=
  if pos + count ≤ dg.length then .ok (bytesAt dg pos count) else .error .readOutsideDg

theorem readIntFromHeader_of_le {dg : List UInt8} {pos width : Nat} (inside : pos + width ≤ dg.length) :
    readIntFromHeader width dg pos = .ok (readSigned dg pos width) := by
  simp [readIntFromHeader, readSignedAt?_of_le (Int.natCast_nonneg pos) (by exact_mod_cast inside)]

theorem readBytes_of_le {dg : List UInt8} {pos count : Nat} (inside : pos + count ≤ dg.length) :
    readBytes dg pos count = .ok (bytesAt dg pos count) := by
  simp [readBytes, inside]

/-! ### Discards and messages -/

/-- What `TAnomalyTracker` records of a discarded datagram: the datagram,
with the API key or version it did not support, or the message there was
no room for. -/
inductive TDiscard where
  | malformedMsg (dg : List UInt8)
  | unsupportedApiKey (dg : List UInt8) (apiKey : Int)
  | unsupportedMsgVersion (dg : List UInt8) (apiVersion : Int)
  | noMem (timestamp : Int) (topic key value : List UInt8)
deriving DecidableEq, Repr

/-- A message as `TMsg`'s constructor makes it: routing type, partition key
(0 for AnyPartition), the client's timestamp, the topic, the blob holding
the key and then the value, and the key's size. -/
structure TCreatedMsg where
  routingType : TRoutingType
  partitionKey : Int
  timestamp : Int
  topic : List UInt8
  keyAndValue : TBlob
  keySize : Nat
deriving DecidableEq, Repr

/-- What `BuildMsgFromDg` ends with: the message it made (none for a
discarded datagram), the pool, and the discards the anomaly tracker
recorded. -/
structure TBuildResult where
  msg : Option TCreatedMsg
  pool : TPool
  discards : List TDiscard

/-- `DiscardMalformedMsg(msg_begin, msg_size, ...)` and the null message
returned after it. -/
def discardMalformedMsg (dg : List UInt8) (pool : TPool) : TBuildResult :=
  { msg := none, pool, discards := [.malformedMsg dg] }

/-- `TMsg::CreateAnyPartitionMsg`, `TMsg::CreatePartitionKeyMsg` and the
constructor: the key and the value go into a blob from the pool, and the
constructor asserts that the blob holds them all. -/
def createMsg (routingType : TRoutingType) (partitionKey timestamp : Int) (topic key value : List UInt8)
    (pool : TPool) : Except TInputDgFault (TPool × TCreatedMsg) :=
  match makeKeyAndValue key value pool with
  | .error .memoryCapReached => .error .memoryCapReached
  | .error .nullBlockDereference => .error .nullBlockDereference
  | .ok (pool, blob) => do
      checkAssert (blob.numBytes = key.length + value.length)
      pure (pool, { routingType, partitionKey, timestamp, topic, keyAndValue := blob, keySize := key.length })

/-- `TryCreateAnyPartitionMsg` and `TryCreatePartitionKeyMsg`: make the
message, and when the pool has no room (`TMemoryCapReached`, after which
the pool has its blocks back) record the discard instead. -/
def tryCreateMsg (routingType : TRoutingType) (partitionKey timestamp : Int) (topic key value : List UInt8)
    (pool : TPool) : Except TInputDgFault TBuildResult := do
  checkAssert (0 < topic.length)
  match createMsg routingType partitionKey timestamp topic key value pool with
  | .ok (pool, msg) => pure { msg := some msg, pool, discards := [] }
  | .error .memoryCapReached => pure { msg := none, pool, discards := [.noMem timestamp topic key value] }
  | .error fault => .error fault

/-- `TryCreateAnyPartitionMsg(timestamp, topic, key, value, ...)`. -/
def tryCreateAnyPartitionMsg (timestamp : Int) (topic key value : List UInt8) (pool : TPool) :
    Except TInputDgFault TBuildResult :=
  tryCreateMsg .anyPartition 0 timestamp topic key value pool

/-- `TryCreatePartitionKeyMsg(partition_key, timestamp, topic, key, value, ...)`. -/
def tryCreatePartitionKeyMsg (partitionKey timestamp : Int) (topic key value : List UInt8) (pool : TPool) :
    Except TInputDgFault TBuildResult :=
  tryCreateMsg .partitionKey partitionKey timestamp topic key value pool

/-! ### The version 0 readers -/

/-- The fields after the flags (and a PartitionKey datagram's partition
key). -/
structure TV0Tail where
  topic : List UInt8
  timestamp : Int
  key : List UInt8
  value : List UInt8
deriving DecidableEq, Repr

/-- The part both `TV0InputDgReader::BuildMsg` read alike, with the field
sizes of their own constants: the topic size (positive) and the topic, the
timestamp, the key size (not negative) and the key, and the value size and
the value, which must end at `DataEnd`.  Each field is read only after
`DataEnd - pos` was found to hold it; `none` is a malformed datagram. -/
def readTopicToValue (topicSzFieldSize tsFieldSize keySzFieldSize valueSzFieldSize : Nat)
    (dg : List UInt8) (pos dataEnd : Nat) : Except TInputDgFault (Option TV0Tail) :=
  if (dataEnd : Int) - pos < topicSzFieldSize then pure none else do
  let topicSz ← readIntFromHeader 2 dg pos
  if topicSz ≤ 0 then pure none else
  let pos := pos + topicSzFieldSize
  if (dataEnd : Int) - pos < topicSz then pure none else do
  let topic ← readBytes dg pos topicSz.toNat
  let pos := pos + topicSz.toNat
  if (dataEnd : Int) - pos < tsFieldSize then pure none else do
  let ts ← readIntFromHeader 8 dg pos
  let pos := pos + tsFieldSize
  if (dataEnd : Int) - pos < keySzFieldSize then pure none else do
  let keySz ← readIntFromHeader 4 dg pos
  if keySz < 0 then pure none else
  let pos := pos + keySzFieldSize
  if (dataEnd : Int) - pos < keySz then pure none else do
  let key ← readBytes dg pos keySz.toNat
  let pos := pos + keySz.toNat
  if (dataEnd : Int) - pos < valueSzFieldSize then pure none else do
  let valueSz ← readIntFromHeader 4 dg pos
  if valueSz < 0 then pure none else
  let pos := pos + valueSzFieldSize
  if (dataEnd : Int) - pos ≠ valueSz then pure none else do
  let value ← readBytes dg pos valueSz.toNat
  pure (some { topic, timestamp := ts, key, value })

namespace AnyPartition.V0

/-- `TV0InputDgReader::BuildMsg()` of any_partition/v0, with the asserts of
the reader's constructor: the flags must be 0, the rest is
`readTopicToValue`, and a malformed datagram is discarded whole. -/
def buildMsg (dg : List UInt8) (dataBegin dataEnd : Nat) (pool : TPool) :
    Except TInputDgFault TBuildResult := do
  checkAssert (0 < dataBegin)
  checkAssert (dataBegin ≤ dataEnd)
  let discard := discardMalformedMsg (dg.take dataEnd) pool
  let pos := dataBegin
  if (dataEnd : Int) - pos < inputDgAnyPV0FlagsFieldSize then pure discard else do
  let flags ← readIntFromHeader 2 dg pos
  if flags ≠ 0 then pure discard else do
  let pos := pos + inputDgAnyPV0FlagsFieldSize
  let tail ← readTopicToValue inputDgAnyPV0TopicSzFieldSize inputDgAnyPV0TsFieldSize
    inputDgAnyPV0KeySzFieldSize inputDgAnyPV0ValueSzFieldSize dg pos dataEnd
  match tail with
  | none => pure discard
  | some tail => tryCreateAnyPartitionMsg tail.timestamp tail.topic tail.key tail.value pool

end AnyPartition.V0

namespace PartitionKey.V0

/-- `TV0InputDgReader::BuildMsg()` of partition_key/v0: as the AnyPartition
reader, with the partition key read after the flags. -/
def buildMsg (dg : List UInt8) (dataBegin dataEnd : Nat) (pool : TPool) :
    Except TInputDgFault TBuildResult := do
  checkAssert (0 < dataBegin)
  checkAssert (dataBegin ≤ dataEnd)
  let discard := discardMalformedMsg (dg.take dataEnd) pool
  let pos := dataBegin
  if (dataEnd : Int) - pos < inputDgPKeyV0FlagsFieldSize then pure discard else do
  let flags ← readIntFromHeader 2 dg pos
  if flags ≠ 0 then pure discard else do
  let pos := pos + inputDgPKeyV0FlagsFieldSize
  if (dataEnd : Int) - pos < inputDgPKeyV0PartitionKeyFieldSize then pure discard else do
  let partitionKey ← readIntFromHeader 4 dg pos
  let pos := pos + inputDgPKeyV0PartitionKeyFieldSize
  let tail ← readTopicToValue inputDgPKeyV0TopicSzFieldSize inputDgPKeyV0TsFieldSize
    inputDgPKeyV0KeySzFieldSize inputDgPKeyV0ValueSzFieldSize dg pos dataEnd
  match tail with
  | none => pure discard
  | some tail => tryCreatePartitionKeyMsg partitionKey tail.timestamp tail.topic tail.key tail.value pool

end PartitionKey.V0

/-! ### Dispatch -/

/-- `BuildAnyPartitionMsgFromDg` and `BuildPartitionKeyMsgFromDg`: assert
that the versioned part starts after the header and is not empty, then
read version 0 with the routing type's V0 reader and discard any other
version. -/
def buildVersionedMsgFromDg (buildV0 : List UInt8 → Nat → Nat → TPool → Except TInputDgFault TBuildResult)
    (dg : List UInt8) (apiVersion : Int) (versionedPartBegin versionedPartEnd : Nat) (pool : TPool) :
    Except TInputDgFault TBuildResult := do
  checkAssert (0 < versionedPartBegin)
  checkAssert (versionedPartBegin < versionedPartEnd)
  if apiVersion = 0 then buildV0 dg versionedPartBegin versionedPartEnd pool
  else pure { msg := none, pool, discards := [.unsupportedMsgVersion dg apiVersion] }

/-- `AnyPartition::BuildAnyPartitionMsgFromDg(...)`. -/
def AnyPartition.buildAnyPartitionMsgFromDg (dg : List UInt8) (apiVersion : Int)
    (versionedPartBegin versionedPartEnd : Nat) (pool : TPool) : Except TInputDgFault TBuildResult :=
  buildVersionedMsgFromDg AnyPartition.V0.buildMsg dg apiVersion versionedPartBegin versionedPartEnd pool

/-- `PartitionKey::BuildPartitionKeyMsgFromDg(...)`. -/
def PartitionKey.buildPartitionKeyMsgFromDg (dg : List UInt8) (apiVersion : Int)
    (versionedPartBegin versionedPartEnd : Nat) (pool : TPool) : Except TInputDgFault TBuildResult :=
  buildVersionedMsgFromDg PartitionKey.V0.buildMsg dg apiVersion versionedPartBegin versionedPartEnd pool

/-- `InputDg::BuildMsgFromDg(dg, dg_size, ...)`: a datagram shorter than the
header, or whose size field is negative or not its size, is malformed;
otherwise the API key picks the routing type, and an unknown one is
discarded. -/
def buildMsgFromDg (dg : List UInt8) (pool : TPool) : Except TInputDgFault TBuildResult :=
  let fixedPartSize := inputDgSzFieldSize + inputDgApiKeyFieldSize + inputDgApiVersionFieldSize
  if dg.length < fixedPartSize then pure (discardMalformedMsg dg pool) else do
  let sz ← readIntFromHeader 4 dg 0
  if sz < 0 ∨ sz.toNat ≠ dg.length then pure (discardMalformedMsg dg pool) else do
  let apiKey ← readIntFromHeader 2 dg inputDgSzFieldSize
  let keyPartSize := inputDgSzFieldSize + inputDgApiKeyFieldSize
  let apiVersion ← readIntFromHeader 2 dg keyPartSize
  let versionedPartBegin := fixedPartSize
  let versionedPartEnd := versionedPartBegin + (dg.length - fixedPartSize)
  if apiKey = 256 then
    AnyPartition.buildAnyPartitionMsgFromDg dg apiVersion versionedPartBegin versionedPartEnd pool
  else if apiKey = 257 then
    PartitionKey.buildPartitionKeyMsgFromDg dg apiVersion versionedPartBegin versionedPartEnd pool
  else pure { msg := none, pool, discards := [.unsupportedApiKey dg apiKey] }

/-! ### Reading fields the writers stored -/

section Fields

variable {dg rest : List UInt8} {pos : Nat}

/-- A field stored in front of the bytes after an offset reads back. -/
theorem readIntFromHeader_of_suffix {width : Nat} (positive : 0 < width) {value : Int}
    (lower : -2 ^ (8 * width - 1) ≤ value) (upper : value < 2 ^ (8 * width - 1))
    (at_ : SuffixAt dg pos (beBytes width (ofSigned width value) ++ rest)) :
    readIntFromHeader width dg pos = .ok value := by
  simp [readIntFromHeader, at_.readSignedAt? positive lower upper]

theorem readBytes_of_suffix {field : List UInt8} (at_ : SuffixAt dg pos (field ++ rest)) :
    readBytes dg pos field.length = .ok field := by
  have inside : pos + field.length ≤ dg.length := by
    have total := at_.length_eq
    simp only [List.length_append] at total
    omega
  rw [readBytes_of_le inside, at_.bytesAt]

end Fields

/-! ### The tail of a version 0 datagram -/

namespace TV0Tail

/-- The sizes a tail's fields were read from: a topic of 1 to `INT16_MAX`
bytes, an int64 timestamp, and a key and a value shorter than 2^31 bytes. -/
structure Fits (tail : TV0Tail) : Prop where
  topicNonempty : 0 < tail.topic.length
  topicFits : tail.topic.length ≤ int16Max
  timestampFits : -2 ^ 63 ≤ tail.timestamp ∧ tail.timestamp < 2 ^ 63
  keyFits : tail.key.length < 2 ^ 31
  valueFits : tail.value.length < 2 ^ 31

/-- The bytes of the tail. -/
def bytes (tail : TV0Tail) : List UInt8 := tailBytes tail.topic tail.timestamp tail.key tail.value

/-- The contents a tail carries with a routing. -/
def contents (tail : TV0Tail) (routing : TDgRouting) : TDgContents :=
  { routing, timestamp := tail.timestamp, topic := tail.topic, key := tail.key, value := tail.value }

end TV0Tail

/-- Sizes read one after another and a value that runs to the end of the
datagram: the bytes from the first field on are the tail those reads
give. -/
theorem suffixAt_tailBytes_of_reads {dg : List UInt8} {pos : Nat} {topicSz keySz valueSz : Int}
    (topicSzEq : readSigned dg pos 2 = topicSz) (topicSzPos : 0 < topicSz)
    (keySzEq : readSigned dg (pos + 2 + topicSz.toNat + 8) 4 = keySz) (keySzPos : 0 ≤ keySz)
    (valueSzEq : readSigned dg (pos + 2 + topicSz.toNat + 8 + 4 + keySz.toNat) 4 = valueSz)
    (valueSzPos : 0 ≤ valueSz)
    (valueEnd : pos + 2 + topicSz.toNat + 8 + 4 + keySz.toNat + 4 + valueSz.toNat = dg.length) :
    SuffixAt dg pos (tailBytes (bytesAt dg (pos + 2) topicSz.toNat) (readSigned dg (pos + 2 + topicSz.toNat) 8)
      (bytesAt dg (pos + 2 + topicSz.toNat + 8 + 4) keySz.toNat)
      (bytesAt dg (pos + 2 + topicSz.toNat + 8 + 4 + keySz.toNat + 4) valueSz.toNat)) := by
  have topicLength : (bytesAt dg (pos + 2) topicSz.toNat).length = topicSz.toNat := length_bytesAt (by omega)
  have keyLength : (bytesAt dg (pos + 2 + topicSz.toNat + 8 + 4) keySz.toNat).length = keySz.toNat :=
    length_bytesAt (by omega)
  have valueLength : (bytesAt dg (pos + 2 + topicSz.toNat + 8 + 4 + keySz.toNat + 4) valueSz.toNat).length =
      valueSz.toNat := length_bytesAt (by omega)
  -- the value runs to the end; walk back over the fields before it
  have valueAt : SuffixAt dg (pos + 2 + topicSz.toNat + 8 + 4 + keySz.toNat + 4)
      (bytesAt dg (pos + 2 + topicSz.toNat + 8 + 4 + keySz.toNat + 4) valueSz.toNat) := by
    rw [bytesAt, List.take_of_length_le (by simp only [List.length_drop]; omega)]
    exact SuffixAt.of_le (by omega)
  have topicSzAt := valueAt.prepend_read.prepend_bytes.prepend_read.prepend_read.prepend_bytes.prepend_read
  rw [topicSzEq, keySzEq, valueSzEq] at topicSzAt
  simp only [tailBytes, int16Field, int32Field, int64Field, topicLength, keyLength, valueLength,
    Int.toNat_of_nonneg topicSzPos.le, Int.toNat_of_nonneg keySzPos, Int.toNat_of_nonneg valueSzPos,
    List.append_assoc]
  exact topicSzAt

/-- Every read of the tail stays inside the datagram, and a tail it returns
is the bytes from its offset to the end, with sizes that fit. -/
theorem readTopicToValue_cases (dg : List UInt8) (pos : Nat) :
    ∃ result, readTopicToValue 2 8 4 4 dg pos dg.length = .ok result ∧
      ∀ tail, result = some tail → SuffixAt dg pos tail.bytes ∧ tail.Fits := by
  unfold readTopicToValue
  -- each check either discards, or lets the next field be read inside the datagram
  split
  · exact ⟨none, rfl, by simp⟩
  rename_i topicSzRoom
  rw [readIntFromHeader_of_le (by omega), ok_bind]
  split
  · exact ⟨none, rfl, by simp⟩
  rename_i topicSzPos
  dsimp only
  split
  · exact ⟨none, rfl, by simp⟩
  rename_i topicRoom
  rw [readBytes_of_le (by omega), ok_bind]
  split
  · exact ⟨none, rfl, by simp⟩
  rename_i tsRoom
  rw [readIntFromHeader_of_le (by omega), ok_bind]
  split
  · exact ⟨none, rfl, by simp⟩
  rename_i keySzRoom
  rw [readIntFromHeader_of_le (by omega), ok_bind]
  split
  · exact ⟨none, rfl, by simp⟩
  rename_i keySzPos
  split
  · exact ⟨none, rfl, by simp⟩
  rename_i keyRoom
  rw [readBytes_of_le (by omega), ok_bind]
  split
  · exact ⟨none, rfl, by simp⟩
  rename_i valueSzRoom
  rw [readIntFromHeader_of_le (by omega), ok_bind]
  split
  · exact ⟨none, rfl, by simp⟩
  rename_i valueSzPos
  split
  · exact ⟨none, rfl, by simp⟩
  rename_i valueExact
  rw [readBytes_of_le (by omega), ok_bind]
  refine ⟨_, rfl, ?_⟩
  rintro tail ⟨⟩
  generalize topicSzEq : readSigned dg pos 2 = topicSz at *
  generalize tsEq : readSigned dg (pos + 2 + topicSz.toNat) 8 = ts at *
  generalize keySzEq : readSigned dg (pos + 2 + topicSz.toNat + 8) 4 = keySz at *
  generalize valueSzEq : readSigned dg (pos + 2 + topicSz.toNat + 8 + 4 + keySz.toNat) 4 = valueSz at *
  -- the sizes are the lengths of what was read, and in the range of their fields
  have topicUpper := readSigned_upper (show 0 < 2 by decide) dg pos
  have tsLower := readSigned_lower (show 0 < 8 by decide) dg (pos + 2 + topicSz.toNat)
  have tsUpper := readSigned_upper (show 0 < 8 by decide) dg (pos + 2 + topicSz.toNat)
  have keyUpper := readSigned_upper (show 0 < 4 by decide) dg (pos + 2 + topicSz.toNat + 8)
  have valueUpper := readSigned_upper (show 0 < 4 by decide) dg (pos + 2 + topicSz.toNat + 8 + 4 + keySz.toNat)
  rw [topicSzEq] at topicUpper
  rw [tsEq] at tsLower tsUpper
  rw [keySzEq] at keyUpper
  rw [valueSzEq] at valueUpper
  norm_num at topicUpper tsLower tsUpper keyUpper valueUpper
  have at_ := suffixAt_tailBytes_of_reads topicSzEq (by omega) keySzEq (by omega) valueSzEq (by omega)
    (by omega)
  rw [tsEq] at at_
  refine ⟨at_, ⟨?_, ?_, ⟨tsLower, tsUpper⟩, ?_, ?_⟩⟩
  all_goals
    simp only [int16Max]
    rw [length_bytesAt (by omega)]
    omega

/-- The tail of fields that fit, running to the end of the datagram, is
read back. -/
theorem readTopicToValue_of_tailBytes {dg : List UInt8} {pos : Nat} {tail : TV0Tail} (fits : tail.Fits)
    (at_ : SuffixAt dg pos tail.bytes) :
    readTopicToValue 2 8 4 4 dg pos dg.length = .ok (some tail) := by
  obtain ⟨topic, timestamp, key, value⟩ := tail
  obtain ⟨topicNonempty, topicFits, ⟨tsLower, tsUpper⟩, keyFits, valueFits⟩ := fits
  simp only [int16Max] at topicNonempty topicFits keyFits valueFits tsLower tsUpper
  have total := at_.length_eq
  simp only [TV0Tail.bytes, length_tailBytes] at total
  simp only [TV0Tail.bytes, tailBytes, int16Field, int32Field, int64Field, List.append_assoc] at at_
  -- the offset moves over the fields one by one
  have topicAt := at_.skip
  rw [length_beBytes] at topicAt
  have tsAt := topicAt.skip
  have keySzAt := tsAt.skip
  rw [length_beBytes] at keySzAt
  have keyAt := keySzAt.skip
  rw [length_beBytes] at keyAt
  have valueSzAt := keyAt.skip
  have valueAt := valueSzAt.skip
  rw [length_beBytes] at valueAt
  have readTopicSz := readIntFromHeader_of_suffix (by decide) (by norm_num) (by norm_num; omega) at_
  have readTopic := readBytes_of_suffix topicAt
  have readTs := readIntFromHeader_of_suffix (by decide) tsLower tsUpper tsAt
  have readKeySz := readIntFromHeader_of_suffix (by decide) (by norm_num) (by norm_num; omega) keySzAt
  have readKey := readBytes_of_suffix keyAt
  have readValueSz := readIntFromHeader_of_suffix (by decide) (by norm_num) (by norm_num; omega) valueSzAt
  have readValue := readBytes_of_suffix (valueAt.congr (List.append_nil value).symm)
  -- every check passes, since the sizes are the lengths that follow
  unfold readTopicToValue
  rw [if_neg (by omega), readTopicSz, ok_bind, if_neg (by omega)]
  dsimp only
  rw [if_neg (by omega), Int.toNat_natCast, readTopic, ok_bind, if_neg (by omega), readTs, ok_bind,
    if_neg (by omega), readKeySz, ok_bind, if_neg (by omega)]
  rw [if_neg (by omega), Int.toNat_natCast, readKey, ok_bind, if_neg (by omega), readValueSz, ok_bind,
    if_neg (by omega)]
  rw [if_neg (by omega), Int.toNat_natCast, readValue, ok_bind]
  rfl

/-! ### Making the message -/

/-- With the key and value made, the message is made from them. -/
theorem tryCreateMsg_of_made (routingType : TRoutingType) (partitionKey timestamp : Int)
    {topic key value : List UInt8} {pool rest : TPool} {blob : TBlob}
    (made : makeKeyAndValue key value pool = .ok (rest, blob)) (named : 0 < topic.length) :
    tryCreateMsg routingType partitionKey timestamp topic key value pool =
      .ok { msg := some { routingType, partitionKey, timestamp, topic, keyAndValue := blob,
                          keySize := key.length },
            pool := rest, discards := [] } := by
  -- the blob holds the key and the value, so the constructor's assert holds
  obtain ⟨-, counted, -⟩ := makeKeyAndValue_contents made
  unfold tryCreateMsg createMsg
  rw [checkAssert_of_true named, ok_bind]
  simp only [made, checkAssert_of_true counted, ok_bind]
  rfl

/-- What making a message can end in: the message, with the blob made for
its key and value; a discard when the pool has no room, with the pool as it
was; or, for an empty key only, the null block of `MakeKeyAndValue`. -/
theorem tryCreateMsg_cases (routingType : TRoutingType) (partitionKey timestamp : Int)
    {topic : List UInt8} (key value : List UInt8) (pool : TPool) (named : 0 < topic.length) :
    (∃ rest blob, makeKeyAndValue key value pool = .ok (rest, blob) ∧
      tryCreateMsg routingType partitionKey timestamp topic key value pool =
        .ok { msg := some { routingType, partitionKey, timestamp, topic, keyAndValue := blob,
                            keySize := key.length },
              pool := rest, discards := [] }) ∨
    tryCreateMsg routingType partitionKey timestamp topic key value pool =
      .ok { msg := none, pool, discards := [.noMem timestamp topic key value] } ∨
    (tryCreateMsg routingType partitionKey timestamp topic key value pool = .error .nullBlockDereference ∧
      key = []) := by
  cases made : makeKeyAndValue key value pool with
  | ok result =>
      obtain ⟨rest, blob⟩ := result
      exact .inl ⟨rest, blob, rfl, tryCreateMsg_of_made routingType partitionKey timestamp made named⟩
  | error e =>
      unfold tryCreateMsg createMsg
      rw [checkAssert_of_true named, ok_bind, made]
      cases e with
      | memoryCapReached => exact .inr (.inl rfl)
      | nullBlockDereference => exact .inr (.inr ⟨rfl, makeKeyAndValue_null_iff.mp made⟩)

/-! ### The version 0 readers and the dispatch -/

namespace AnyPartition.V0

/-- Every datagram the AnyPartition reader is given from offset 8 on is
discarded whole, or has flags 0 and a tail that fits, which goes to
`TryCreateAnyPartitionMsg`. -/
theorem buildMsg_cases (dg : List UInt8) (pool : TPool) (long : 8 ≤ dg.length) :
    buildMsg dg 8 dg.length pool = .ok (discardMalformedMsg dg pool) ∨
      ∃ tail : TV0Tail, SuffixAt dg 8 (int16Field 0 ++ tail.bytes) ∧ tail.Fits ∧
        buildMsg dg 8 dg.length pool = tryCreateAnyPartitionMsg tail.timestamp tail.topic tail.key tail.value pool := by
  generalize built : buildMsg dg 8 dg.length pool = result
  unfold buildMsg at built
  rw [checkAssert_of_true (by decide), ok_bind, checkAssert_of_true long, ok_bind, List.take_length] at built
  unfold inputDgAnyPV0FlagsFieldSize inputDgAnyPV0TopicSzFieldSize inputDgAnyPV0TsFieldSize
    inputDgAnyPV0KeySzFieldSize inputDgAnyPV0ValueSzFieldSize at built
  dsimp only at built
  split at built
  · exact .inl built.symm
  rename_i flagsRoom
  rw [readIntFromHeader_of_le (by omega), ok_bind] at built
  split at built
  · exact .inl built.symm
  rename_i flagsZero
  obtain ⟨tailRead, read, spec⟩ := readTopicToValue_cases dg (8 + 2)
  rw [read, ok_bind] at built
  cases tailRead with
  | none => exact .inl built.symm
  | some tail =>
      obtain ⟨at_, fits⟩ := spec tail rfl
      have flagsAt := at_.prepend_read
      rw [show readSigned dg 8 2 = 0 by simpa using flagsZero] at flagsAt
      exact .inr ⟨tail, flagsAt, fits, built.symm⟩

/-- A datagram with flags 0 and a tail that fits goes to
`TryCreateAnyPartitionMsg`. -/
theorem buildMsg_of_suffix {dg : List UInt8} {tail : TV0Tail} (pool : TPool) (fits : tail.Fits)
    (at_ : SuffixAt dg 8 (int16Field 0 ++ tail.bytes)) :
    buildMsg dg 8 dg.length pool = tryCreateAnyPartitionMsg tail.timestamp tail.topic tail.key tail.value pool := by
  have total := at_.length_eq
  simp only [List.length_append, length_int16Field, TV0Tail.bytes, length_tailBytes] at total
  have readFlags := readIntFromHeader_of_suffix (by decide) (by decide) (by decide) at_
  have tailAt := at_.skip
  rw [length_int16Field] at tailAt
  unfold buildMsg
  rw [checkAssert_of_true (by decide), ok_bind, checkAssert_of_true (by omega), ok_bind]
  unfold inputDgAnyPV0FlagsFieldSize inputDgAnyPV0TopicSzFieldSize inputDgAnyPV0TsFieldSize
    inputDgAnyPV0KeySzFieldSize inputDgAnyPV0ValueSzFieldSize
  dsimp only
  have flagsRoom : ¬ ((dg.length : Int) - (8 : Nat) < (2 : Nat)) := by omega
  rw [if_neg flagsRoom, readFlags, ok_bind, if_neg (by decide), readTopicToValue_of_tailBytes fits tailAt,
    ok_bind]

end AnyPartition.V0

namespace PartitionKey.V0

/-- Every datagram the PartitionKey reader is given from offset 8 on is
discarded whole, or has flags 0, a partition key and a tail that fits, which
go to `TryCreatePartitionKeyMsg`. -/
theorem buildMsg_cases (dg : List UInt8) (pool : TPool) (long : 8 ≤ dg.length) :
    buildMsg dg 8 dg.length pool = .ok (discardMalformedMsg dg pool) ∨
      ∃ partitionKey, ∃ tail : TV0Tail, (-2 ^ 31 ≤ partitionKey ∧ partitionKey < 2 ^ 31) ∧
        SuffixAt dg 8 (int16Field 0 ++ int32Field partitionKey ++ tail.bytes) ∧ tail.Fits ∧
        buildMsg dg 8 dg.length pool =
          tryCreatePartitionKeyMsg partitionKey tail.timestamp tail.topic tail.key tail.value pool := by
  generalize built : buildMsg dg 8 dg.length pool = result
  unfold buildMsg at built
  rw [checkAssert_of_true (by decide), ok_bind, checkAssert_of_true long, ok_bind, List.take_length] at built
  unfold inputDgPKeyV0FlagsFieldSize inputDgPKeyV0PartitionKeyFieldSize inputDgPKeyV0TopicSzFieldSize
    inputDgPKeyV0TsFieldSize inputDgPKeyV0KeySzFieldSize inputDgPKeyV0ValueSzFieldSize at built
  dsimp only at built
  split at built
  · exact .inl built.symm
  rename_i flagsRoom
  rw [readIntFromHeader_of_le (by omega), ok_bind] at built
  split at built
  · exact .inl built.symm
  rename_i flagsZero
  split at built
  · exact .inl built.symm
  rename_i partitionKeyRoom
  rw [readIntFromHeader_of_le (by omega), ok_bind] at built
  obtain ⟨tailRead, read, spec⟩ := readTopicToValue_cases dg (8 + 2 + 4)
  rw [read, ok_bind] at built
  cases tailRead with
  | none => exact .inl built.symm
  | some tail =>
      obtain ⟨at_, fits⟩ := spec tail rfl
      have flagsAt := at_.prepend_read.prepend_read
      rw [show readSigned dg 8 2 = 0 by simpa using flagsZero] at flagsAt
      have lower := readSigned_lower (show 0 < 4 by decide) dg (8 + 2)
      have upper := readSigned_upper (show 0 < 4 by decide) dg (8 + 2)
      norm_num at lower upper
      refine .inr ⟨readSigned dg (8 + 2) 4, tail, ⟨lower, upper⟩, ?_, fits, built.symm⟩
      rw [List.append_assoc]
      exact flagsAt

/-- A datagram with flags 0, a partition key and a tail that fits goes to
`TryCreatePartitionKeyMsg`. -/
theorem buildMsg_of_suffix {dg : List UInt8} {partitionKey : Int} {tail : TV0Tail} (pool : TPool)
    (keyFits : -2 ^ 31 ≤ partitionKey ∧ partitionKey < 2 ^ 31) (fits : tail.Fits)
    (at_ : SuffixAt dg 8 (int16Field 0 ++ int32Field partitionKey ++ tail.bytes)) :
    buildMsg dg 8 dg.length pool =
      tryCreatePartitionKeyMsg partitionKey tail.timestamp tail.topic tail.key tail.value pool := by
  have total := at_.length_eq
  simp only [List.length_append, length_int16Field, length_int32Field, TV0Tail.bytes, length_tailBytes] at total
  rw [List.append_assoc] at at_
  have readFlags := readIntFromHeader_of_suffix (by decide) (by decide) (by decide) at_
  have keyAt := at_.skip
  rw [length_int16Field] at keyAt
  have readKey := readIntFromHeader_of_suffix (by decide) (by norm_num; omega) (by norm_num; omega) keyAt
  have tailAt := keyAt.skip
  rw [length_int32Field] at tailAt
  unfold buildMsg
  rw [checkAssert_of_true (by decide), ok_bind, checkAssert_of_true (by omega), ok_bind]
  unfold inputDgPKeyV0FlagsFieldSize inputDgPKeyV0PartitionKeyFieldSize inputDgPKeyV0TopicSzFieldSize
    inputDgPKeyV0TsFieldSize inputDgPKeyV0KeySzFieldSize inputDgPKeyV0ValueSzFieldSize
  dsimp only
  have flagsRoom : ¬ ((dg.length : Int) - (8 : Nat) < (2 : Nat)) := by omega
  have keyRoom : ¬ ((dg.length : Int) - (8 + 2 : Nat) < (4 : Nat)) := by omega
  rw [if_neg flagsRoom, readFlags, ok_bind, if_neg (by decide), if_neg keyRoom, readKey, ok_bind,
    readTopicToValue_of_tailBytes fits tailAt, ok_bind]

end PartitionKey.V0

/-- The asserts on the versioned part fail exactly when it is empty;
otherwise version 0 goes to the V0 reader and any other is discarded. -/
theorem buildVersionedMsgFromDg_cases
    (buildV0 : List UInt8 → Nat → Nat → TPool → Except TInputDgFault TBuildResult)
    (dg : List UInt8) (apiVersion : Int) (pool : TPool) (long : 8 ≤ dg.length) :
    (dg.length = 8 ∧ buildVersionedMsgFromDg buildV0 dg apiVersion 8 dg.length pool = .error .assertionFailure) ∨
    (apiVersion = 0 ∧ buildVersionedMsgFromDg buildV0 dg apiVersion 8 dg.length pool = buildV0 dg 8 dg.length pool) ∨
    buildVersionedMsgFromDg buildV0 dg apiVersion 8 dg.length pool =
      .ok { msg := none, pool, discards := [.unsupportedMsgVersion dg apiVersion] } := by
  unfold buildVersionedMsgFromDg
  rw [checkAssert_of_true (by decide), ok_bind]
  by_cases body : 8 < dg.length
  · rw [checkAssert_of_true body, ok_bind]
    by_cases version : apiVersion = 0
    · exact .inr (.inl ⟨version, if_pos version⟩)
    · exact .inr (.inr (if_neg version))
  · exact .inl ⟨by omega, by simp [checkAssert, body]; rfl⟩

/-- With version 0 and a versioned part that is not empty, the V0 reader
reads it. -/
theorem buildVersionedMsgFromDg_of_zero
    (buildV0 : List UInt8 → Nat → Nat → TPool → Except TInputDgFault TBuildResult)
    {dg : List UInt8} (pool : TPool) (body : 8 < dg.length) :
    buildVersionedMsgFromDg buildV0 dg 0 8 dg.length pool = buildV0 dg 8 dg.length pool := by
  unfold buildVersionedMsgFromDg
  rw [checkAssert_of_true (by decide), ok_bind, checkAssert_of_true body, ok_bind, if_pos rfl]

/-- A datagram whose header was read as its own size, an API key and
version 0, and whose rest is flags 0, the routing's fields and a tail that
runs to the end, is the encoding of those contents. -/
theorem eq_encode_of_suffix {dg : List UInt8} {routing : TDgRouting} {tail : TV0Tail}
    (size : readSigned dg 0 4 = dg.length) (apiKey : readSigned dg 4 2 = routing.apiKey)
    (version : readSigned dg 6 2 = 0) (at_ : SuffixAt dg 8 (int16Field 0 ++ routing.routingFields ++ tail.bytes)) :
    dg = (tail.contents routing).encode := by
  have total := at_.length_eq
  have overhead := routing.length_routingFields
  simp only [List.length_append, length_int16Field, TV0Tail.bytes, length_tailBytes] at total
  -- the three header fields in front of the flags
  have headerAt := (show SuffixAt dg (0 + 4 + 2 + 2) _ from at_).prepend_read.prepend_read.prepend_read
  rw [size, show (0 + 4 : Nat) = 4 from rfl, apiKey, show (0 + 4 + 2 : Nat) = 6 from rfl, version] at headerAt
  rw [headerAt.eq_of_zero]
  have msgSize : (dg.length : Int) = ((tail.contents routing).msgSize : Nat) := by
    simp only [TDgContents.msgSize, TV0Tail.contents]
    omega
  rw [msgSize]
  simp only [TDgContents.encode, TV0Tail.contents, int32Field, int16Field, TV0Tail.bytes, List.append_assoc]

/-- The contents read from a datagram fit: the tail's sizes fit, the size
field held the datagram's length, and a partition key was an int32. -/
theorem TV0Tail.contents_fits {tail : TV0Tail} {routing : TDgRouting} {dg : List UInt8} (fits : tail.Fits)
    (encoded : dg = (tail.contents routing).encode) (size : readSigned dg 0 4 = dg.length)
    (keyFits : ∀ key, routing = .partitionKey key → -2 ^ 31 ≤ key ∧ key < 2 ^ 31) :
    (tail.contents routing).Fits := by
  have upper := readSigned_upper (show 0 < 4 by decide) dg 0
  rw [size] at upper
  have length := length_encode (tail.contents routing)
  rw [← encoded] at length
  norm_num at upper
  exact ⟨fits.topicNonempty, fits.topicFits, by simp only [int32Max]; omega, fits.timestampFits, keyFits⟩

/-- A datagram only a header long that names a routing type: its size field
says 8 bytes, its API key is 256 or 257, and nothing follows. -/
def EmptyBody (dg : List UInt8) : Prop :=
  dg.length = 8 ∧ readSigned dg 0 4 = 8 ∧ (readSigned dg 4 2 = 256 ∨ readSigned dg 4 2 = 257)

instance (dg : List UInt8) : Decidable (EmptyBody dg) :=
  inferInstanceAs (Decidable (_ ∧ _ ∧ (_ ∨ _)))

/-- Every datagram is discarded with one discard recorded and the pool
unchanged, or fails the assert on an empty versioned part, or is the
encoding of contents that fit and goes on to have its message made. -/
theorem buildMsgFromDg_cases (dg : List UInt8) (pool : TPool) :
    (∃ discard, buildMsgFromDg dg pool = .ok { msg := none, pool, discards := [discard] }) ∨
    (EmptyBody dg ∧ buildMsgFromDg dg pool = .error .assertionFailure) ∨
    (∃ contents : TDgContents, contents.Fits ∧ dg = contents.encode ∧
      buildMsgFromDg dg pool = tryCreateMsg contents.routing.routingType contents.routing.msgPartitionKey
        contents.timestamp contents.topic contents.key contents.value pool) := by
  generalize built : buildMsgFromDg dg pool = result
  unfold buildMsgFromDg inputDgSzFieldSize inputDgApiKeyFieldSize inputDgApiVersionFieldSize at built
  dsimp only at built
  split at built
  · exact .inl ⟨_, built.symm⟩
  rename_i long
  rw [readIntFromHeader_of_le (by omega), ok_bind] at built
  split at built
  · exact .inl ⟨_, built.symm⟩
  rename_i sized
  rw [readIntFromHeader_of_le (by omega), ok_bind, readIntFromHeader_of_le (by omega), ok_bind,
    show 4 + 2 + 2 + (dg.length - (4 + 2 + 2)) = dg.length by omega, show (4 + 2 + 2 : Nat) = 8 from rfl,
    show (4 + 2 : Nat) = 6 from rfl] at built
  have size : readSigned dg 0 4 = dg.length := by omega
  split at built
  · -- an AnyPartition datagram
    rename_i anyKey
    rcases buildVersionedMsgFromDg_cases _ dg _ pool (by omega) with ⟨empty, asserted⟩ | ⟨version, read⟩ | unsupported
    · exact .inr (.inl ⟨⟨empty, by omega, .inl anyKey⟩, by rw [← built, AnyPartition.buildAnyPartitionMsgFromDg, asserted]⟩)
    · rw [AnyPartition.buildAnyPartitionMsgFromDg, read] at built
      rcases AnyPartition.V0.buildMsg_cases dg pool (by omega) with discarded | ⟨tail, at_, fits, created⟩
      · exact .inl ⟨_, by rw [← built, discarded]; rfl⟩
      · have encoded := eq_encode_of_suffix size (show _ = TDgRouting.anyPartition.apiKey from anyKey) version
          (by simpa [TDgRouting.routingFields] using at_)
        refine .inr (.inr ⟨tail.contents .anyPartition, tail.contents_fits fits encoded size (by simp), encoded, ?_⟩)
        rw [← built, created]
        rfl
    · exact .inl ⟨_, by rw [← built, AnyPartition.buildAnyPartitionMsgFromDg, unsupported]⟩
  split at built
  · -- a PartitionKey datagram
    rename_i pkeyKey
    rcases buildVersionedMsgFromDg_cases _ dg _ pool (by omega) with ⟨empty, asserted⟩ | ⟨version, read⟩ | unsupported
    · exact .inr (.inl ⟨⟨empty, by omega, .inr pkeyKey⟩, by rw [← built, PartitionKey.buildPartitionKeyMsgFromDg, asserted]⟩)
    · rw [PartitionKey.buildPartitionKeyMsgFromDg, read] at built
      rcases PartitionKey.V0.buildMsg_cases dg pool (by omega) with discarded | ⟨partitionKey, tail, keyFits, at_, fits, created⟩
      · exact .inl ⟨_, by rw [← built, discarded]; rfl⟩
      · have encoded := eq_encode_of_suffix size
          (show _ = (TDgRouting.partitionKey partitionKey).apiKey from pkeyKey) version at_
        refine .inr (.inr ⟨tail.contents (.partitionKey partitionKey), tail.contents_fits fits encoded size ?_, encoded, ?_⟩)
        · rintro key ⟨⟩
          exact keyFits
        · rw [← built, created]
          rfl
    · exact .inl ⟨_, by rw [← built, PartitionKey.buildPartitionKeyMsgFromDg, unsupported]⟩
  · exact .inl ⟨_, built.symm⟩

/-- The encoding of contents that fit is read back, and goes on to have its
message made from those contents. -/
theorem buildMsgFromDg_encode {contents : TDgContents} (fits : contents.Fits) (pool : TPool) :
    buildMsgFromDg contents.encode pool =
      tryCreateMsg contents.routing.routingType contents.routing.msgPartitionKey contents.timestamp
        contents.topic contents.key contents.value pool := by
  obtain ⟨routing, timestamp, topic, key, value⟩ := contents
  have total := length_encode ⟨routing, timestamp, topic, key, value⟩
  have overhead := routing.length_routingFields
  have sizeFits := fits.sizeFits
  simp only [TDgContents.msgSize, int32Max] at total sizeFits
  have tailFits : (⟨topic, timestamp, key, value⟩ : TV0Tail).Fits :=
    ⟨fits.topicNonempty, fits.topicFits, fits.timestampFits, by simp only; omega, by simp only; omega⟩
  -- the header fields, one after another
  have sizeAt : SuffixAt (TDgContents.encode ⟨routing, timestamp, topic, key, value⟩) 0
      (int32Field (TDgContents.msgSize ⟨routing, timestamp, topic, key, value⟩) ++
        (int16Field routing.apiKey ++ (int16Field 0 ++
          (int16Field 0 ++ routing.routingFields ++ (⟨topic, timestamp, key, value⟩ : TV0Tail).bytes)))) :=
    (SuffixAt.start _).congr (by simp only [TDgContents.encode, TV0Tail.bytes, List.append_assoc])
  generalize TDgContents.encode ⟨routing, timestamp, topic, key, value⟩ = dg at sizeAt total
  have apiKeyAt : SuffixAt dg 4 _ := sizeAt.skip
  have versionAt : SuffixAt dg 6 _ := apiKeyAt.skip
  have flagsAt : SuffixAt dg 8 _ := versionAt.skip
  have apiKeyRange : -2 ^ (8 * 2 - 1) ≤ routing.apiKey ∧ routing.apiKey < 2 ^ (8 * 2 - 1) := by
    cases routing <;> simp only [TDgRouting.apiKey] <;> decide
  have readSize := readIntFromHeader_of_suffix (by decide) (by norm_num) (by norm_num [TDgContents.msgSize]; omega)
    sizeAt
  have readApiKey := readIntFromHeader_of_suffix (by decide) apiKeyRange.1 apiKeyRange.2 apiKeyAt
  have readVersion := readIntFromHeader_of_suffix (by decide) (by decide) (by decide) versionAt
  unfold buildMsgFromDg inputDgSzFieldSize inputDgApiKeyFieldSize inputDgApiVersionFieldSize
  dsimp only
  rw [show 4 + 2 + 2 + (dg.length - (4 + 2 + 2)) = dg.length by omega, show (4 + 2 + 2 : Nat) = 8 from rfl,
    show (4 + 2 : Nat) = 6 from rfl, if_neg (by omega), readSize, ok_bind]
  rw [if_neg (by simp only [TDgContents.msgSize]; omega), readApiKey, ok_bind, readVersion, ok_bind]
  cases routing with
  | anyPartition =>
      rw [if_pos (show TDgRouting.anyPartition.apiKey = 256 from rfl), AnyPartition.buildAnyPartitionMsgFromDg, buildVersionedMsgFromDg_of_zero _ pool (by omega),
        AnyPartition.V0.buildMsg_of_suffix pool tailFits (by simpa [TDgRouting.routingFields] using flagsAt)]
      rfl
  | partitionKey partitionKey =>
      rw [if_neg (show (TDgRouting.partitionKey partitionKey).apiKey ≠ 256 by simp [TDgRouting.apiKey]),
        if_pos (show (TDgRouting.partitionKey partitionKey).apiKey = 257 from rfl),
        PartitionKey.buildPartitionKeyMsgFromDg,
        buildVersionedMsgFromDg_of_zero _ pool (by omega),
        PartitionKey.V0.buildMsg_of_suffix pool (fits.partitionKeyFits partitionKey rfl) tailFits flagsAt]
      rfl

/-! ### What the input path does with every datagram -/

/-- A datagram only a header long is taken to the AnyPartition or
PartitionKey path, whose assert on a nonempty versioned part fails. -/
theorem buildMsgFromDg_asserts_on_empty_body {dg : List UInt8} (pool : TPool) (empty : EmptyBody dg) :
    buildMsgFromDg dg pool = .error .assertionFailure := by
  obtain ⟨eight, size, keyed⟩ := empty
  have asserted (buildV0 : List UInt8 → Nat → Nat → TPool → Except TInputDgFault TBuildResult)
      (apiVersion : Int) : buildVersionedMsgFromDg buildV0 dg apiVersion 8 8 pool = .error .assertionFailure := by
    unfold buildVersionedMsgFromDg
    rw [checkAssert_of_true (by decide), ok_bind]
    rfl
  unfold buildMsgFromDg inputDgSzFieldSize inputDgApiKeyFieldSize inputDgApiVersionFieldSize
  dsimp only
  rw [eight, if_neg (by decide), readIntFromHeader_of_le (by omega), ok_bind, size, if_neg (by decide),
    readIntFromHeader_of_le (by omega), ok_bind, readIntFromHeader_of_le (by omega), ok_bind]
  rcases keyed with anyKey | pkeyKey
  · rw [anyKey, if_pos rfl, AnyPartition.buildAnyPartitionMsgFromDg]
    exact asserted _ _
  · rw [pkeyKey, if_neg (by decide), if_pos rfl, PartitionKey.buildPartitionKeyMsgFromDg]
    exact asserted _ _

/-- The header of an AnyPartition datagram and nothing after it. -/
def emptyBodyDg : List UInt8 := [0, 0, 0, 8, 1, 0, 0, 0]

theorem buildMsgFromDg_asserts_on_emptyBodyDg :
    EmptyBody emptyBodyDg ∧ buildMsgFromDg emptyBodyDg (TPool.create 24 4) = .error .assertionFailure :=
  ⟨by decide, buildMsgFromDg_asserts_on_empty_body (TPool.create 24 4) (by decide)⟩

/-- `BuildMsgFromDg` on any datagram never reads outside it and never lets
`TMemoryCapReached` out: it makes a message, or records exactly one discard
and leaves the pool as it was, or fails the assert on an empty versioned
part, or takes the null block for the well-formed datagram of an empty
key. -/
theorem buildMsgFromDg_outcomes (dg : List UInt8) (pool : TPool) :
    (∃ rest msg, buildMsgFromDg dg pool = .ok { msg := some msg, pool := rest, discards := [] }) ∨
    (∃ discard, buildMsgFromDg dg pool = .ok { msg := none, pool, discards := [discard] }) ∨
    (EmptyBody dg ∧ buildMsgFromDg dg pool = .error .assertionFailure) ∨
    (∃ contents : TDgContents, contents.Fits ∧ dg = contents.encode ∧ contents.key = [] ∧
      buildMsgFromDg dg pool = .error .nullBlockDereference) := by
  rcases buildMsgFromDg_cases dg pool with discarded | asserted | ⟨contents, fits, encoded, built⟩
  · exact .inr (.inl discarded)
  · exact .inr (.inr (.inl asserted))
  · rw [built]
    rcases tryCreateMsg_cases contents.routing.routingType contents.routing.msgPartitionKey contents.timestamp
        contents.key contents.value pool fits.topicNonempty with ⟨rest, blob, -, created⟩ | noRoom | ⟨null, empty⟩
    · exact .inl ⟨rest, _, created⟩
    · exact .inr (.inl ⟨_, noRoom⟩)
    · exact .inr (.inr (.inr ⟨contents, fits, encoded, empty, null⟩))

/-! ### The reader against the format -/

/-- A message holds a datagram's contents: its routing type, partition key,
timestamp and topic, and a blob whose blocks hold the key and then the
value, with the key's size. -/
structure TCreatedMsg.Holds (msg : TCreatedMsg) (contents : TDgContents) (dataSize : Nat) : Prop where
  routingType : msg.routingType = contents.routing.routingType
  partitionKey : msg.partitionKey = contents.routing.msgPartitionKey
  timestamp : msg.timestamp = contents.timestamp
  topic : msg.topic = contents.topic
  keySize : msg.keySize = contents.key.length
  keyAndValue : (msg.keyAndValue.forEachBlock dataSize).flatten = contents.key ++ contents.value

/-- A message made from a datagram's contents holds them. -/
theorem tryCreateMsg_holds {contents : TDgContents} {pool rest : TPool} {msg : TCreatedMsg}
    (made : tryCreateMsg contents.routing.routingType contents.routing.msgPartitionKey contents.timestamp
      contents.topic contents.key contents.value pool = .ok { msg := some msg, pool := rest, discards := [] })
    (named : 0 < contents.topic.length) :
    msg.Holds contents pool.getDataSize := by
  rcases tryCreateMsg_cases contents.routing.routingType contents.routing.msgPartitionKey contents.timestamp
      contents.key contents.value pool named with ⟨rest', blob, keyAndValue, created⟩ | noRoom | ⟨null, -⟩
  · rw [created] at made
    cases made
    exact ⟨rfl, rfl, rfl, rfl, rfl, (makeKeyAndValue_contents keyAndValue).1⟩
  · rw [noRoom] at made
    cases made
  · rw [null] at made
    cases made

/-- The encoding of contents that fit, with a key that is not empty and room
in the pool for the key and the value, becomes a message that holds those
contents. -/
theorem buildMsgFromDg_encode_ok {contents : TDgContents} {pool : TPool} (fits : contents.Fits)
    (keyed : contents.key ≠ [])
    (room : contents.key.length + contents.value.length ≤ pool.freeCount * pool.getDataSize) :
    ∃ rest msg, buildMsgFromDg contents.encode pool = .ok { msg := some msg, pool := rest, discards := [] } ∧
      msg.Holds contents pool.getDataSize := by
  obtain ⟨rest, blob, made⟩ := makeKeyAndValue_ok keyed room
  have created := tryCreateMsg_of_made contents.routing.routingType contents.routing.msgPartitionKey
    contents.timestamp made fits.topicNonempty
  exact ⟨rest, _, by rw [buildMsgFromDg_encode fits]; exact created, tryCreateMsg_holds created fits.topicNonempty⟩

/-- What `BuildMsgFromDg` makes a message from is the encoding of contents
that fit, and the message holds them. -/
theorem buildMsgFromDg_sound {dg : List UInt8} {pool rest : TPool} {msg : TCreatedMsg}
    (built : buildMsgFromDg dg pool = .ok { msg := some msg, pool := rest, discards := [] }) :
    ∃ contents : TDgContents, contents.Fits ∧ dg = contents.encode ∧ msg.Holds contents pool.getDataSize := by
  rcases buildMsgFromDg_cases dg pool with ⟨discard, discarded⟩ | ⟨-, asserted⟩ | ⟨contents, fits, encoded, created⟩
  · rw [discarded] at built
    cases built
  · rw [asserted] at built
    cases built
  · rw [created] at built
    exact ⟨contents, fits, encoded, tryCreateMsg_holds built fits.topicNonempty⟩

end Dory.InputDg
