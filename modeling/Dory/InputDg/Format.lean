/-
Module: Dory.InputDg.Format
Purpose: The input datagram format of src/dory/input_dg, version 0, for both
  routing types: the field sizes of input_dg_constants.h and of the two
  v0_input_dg_constants.h, what a datagram carries (`TDgContents`), and the
  bytes that carry it (`encode`).  A datagram is its size, the API key (256
  for AnyPartition, 257 for PartitionKey), the API version 0, the flags 0, a
  PartitionKey datagram's partition key, the topic after its int16 size, the
  timestamp, and the key and the value after their int32 sizes.  `Fits` says
  what the contents must satisfy for those fields to hold them and for
  `BuildMsgFromDg` to take the topic.  The writers of the client library and
  the reader of the server are both checked against `encode`.  An `assert()`
  of the writers or of the reader is the fault `assertionFailure`, as a debug
  build runs it.
Trusted boundary: none
Main exports: TInputDgFault, int16Field, int32Field, int64Field, TDgRouting,
  TDgContents, TDgContents.msgSize, TDgContents.Fits, tailBytes,
  TDgContents.encode, length_encode
-/
import Dory.Msg
import Dory.Foundation.Buffer

namespace Dory.InputDg

open Dory.Foundation.Bytes

/-! ### Field sizes -/

/-- `INPUT_DG_SZ_FIELD_SIZE`. -/
def inputDgSzFieldSize : Nat := 4

/-- `INPUT_DG_API_KEY_FIELD_SIZE`. -/
def inputDgApiKeyFieldSize : Nat := 2

/-- `INPUT_DG_API_VERSION_FIELD_SIZE`. -/
def inputDgApiVersionFieldSize : Nat := 2

/-- `INPUT_DG_ANY_P_V0_FLAGS_FIELD_SIZE`. -/
def inputDgAnyPV0FlagsFieldSize : Nat := 2

/-- `INPUT_DG_ANY_P_V0_TOPIC_SZ_FIELD_SIZE`. -/
def inputDgAnyPV0TopicSzFieldSize : Nat := 2

/-- `INPUT_DG_ANY_P_V0_TS_FIELD_SIZE`. -/
def inputDgAnyPV0TsFieldSize : Nat := 8

/-- `INPUT_DG_ANY_P_V0_KEY_SZ_FIELD_SIZE`. -/
def inputDgAnyPV0KeySzFieldSize : Nat := 4

/-- `INPUT_DG_ANY_P_V0_VALUE_SZ_FIELD_SIZE`. -/
def inputDgAnyPV0ValueSzFieldSize : Nat := 4

/-- `INPUT_DG_P_KEY_V0_FLAGS_FIELD_SIZE`. -/
def inputDgPKeyV0FlagsFieldSize : Nat := 2

/-- `INPUT_DG_P_KEY_V0_PARTITION_KEY_FIELD_SIZE`. -/
def inputDgPKeyV0PartitionKeyFieldSize : Nat := 4

/-- `INPUT_DG_P_KEY_V0_TOPIC_SZ_FIELD_SIZE`. -/
def inputDgPKeyV0TopicSzFieldSize : Nat := 2

/-- `INPUT_DG_P_KEY_V0_TS_FIELD_SIZE`. -/
def inputDgPKeyV0TsFieldSize : Nat := 8

/-- `INPUT_DG_P_KEY_V0_KEY_SZ_FIELD_SIZE`. -/
def inputDgPKeyV0KeySzFieldSize : Nat := 4

/-- `INPUT_DG_P_KEY_V0_VALUE_SZ_FIELD_SIZE`. -/
def inputDgPKeyV0ValueSzFieldSize : Nat := 4

/-- `get_msg_overhead()` of any_partition/v0/v0_write_msg.c: the bytes of
an AnyPartition datagram besides its topic, key and value. -/
def inputDgAnyPV0MsgOverhead : Nat :=
  inputDgSzFieldSize + inputDgApiKeyFieldSize + inputDgApiVersionFieldSize + inputDgAnyPV0FlagsFieldSize +
    inputDgAnyPV0TopicSzFieldSize + inputDgAnyPV0TsFieldSize + inputDgAnyPV0KeySzFieldSize +
    inputDgAnyPV0ValueSzFieldSize

/-- `get_msg_overhead()` of partition_key/v0/v0_write_msg.c. -/
def inputDgPKeyV0MsgOverhead : Nat :=
  inputDgSzFieldSize + inputDgApiKeyFieldSize + inputDgApiVersionFieldSize + inputDgPKeyV0FlagsFieldSize +
    inputDgPKeyV0PartitionKeyFieldSize + inputDgPKeyV0TopicSzFieldSize + inputDgPKeyV0TsFieldSize +
    inputDgPKeyV0KeySzFieldSize + inputDgPKeyV0ValueSzFieldSize

/-- `INT16_MAX`. -/
def int16Max : Nat := 32767

/-- `INT32_MAX`. -/
def int32Max : Nat := 2147483647

/-! ### Faults -/

/-- What the input path can run into besides a result: a read of a byte
outside the datagram, an `assert()` whose condition is false (`abort()` in a
debug build), the `TMemoryCapReached` the capped pool throws (caught where a
message is made), and taking the data of a null block in `TWriter::Write`
(undefined behaviour). -/
inductive TInputDgFault where
  | readOutsideDg
  | assertionFailure
  | memoryCapReached
  | nullBlockDereference
deriving DecidableEq, Repr

/-- `assert(condition)`, as a debug build runs it. -/
def checkAssert (condition : Prop) [Decidable condition] : Except TInputDgFault Unit :=
  if condition then pure () else .error .assertionFailure

@[simp] theorem checkAssert_of_true {condition : Prop} [Decidable condition] (holds : condition) :
    checkAssert condition = .ok () := by
  rw [checkAssert, if_pos holds]
  rfl

/-! ### Fields as the writers store them -/

/-- The bytes `WriteInt16ToHeader` stores for `value` (field_access.h):
big-endian two's complement.  A cast to `int16_t` before the call stores the
same bytes, so the writers' casts need no step of their own. -/
def int16Field (value : Int) : List UInt8 := beBytes 2 (ofSigned 2 value)

/-- The bytes `WriteInt32ToHeader` stores for `value`. -/
def int32Field (value : Int) : List UInt8 := beBytes 4 (ofSigned 4 value)

/-- The bytes `WriteInt64ToHeader` stores for `value`. -/
def int64Field (value : Int) : List UInt8 := beBytes 8 (ofSigned 8 value)

@[simp] theorem length_int16Field (value : Int) : (int16Field value).length = 2 := length_beBytes _ _

@[simp] theorem length_int32Field (value : Int) : (int32Field value).length = 4 := length_beBytes _ _

@[simp] theorem length_int64Field (value : Int) : (int64Field value).length = 8 := length_beBytes _ _

/-! ### What a datagram carries -/

/-- How a datagram asks for its message to be routed: to any partition, or
by a partition key. -/
inductive TDgRouting where
  | anyPartition
  | partitionKey (partitionKey : Int)
deriving DecidableEq, Repr

namespace TDgRouting

/-- The API key of the datagram. -/
def apiKey : TDgRouting → Int
  | anyPartition => 256
  | partitionKey _ => 257

/-- The fields between the flags and the topic: a PartitionKey datagram's
partition key. -/
def routingFields : TDgRouting → List UInt8
  | anyPartition => []
  | partitionKey key => int32Field key

/-- The bytes of a datagram besides its topic, key and value. -/
def msgOverhead : TDgRouting → Nat
  | anyPartition => inputDgAnyPV0MsgOverhead
  | partitionKey _ => inputDgPKeyV0MsgOverhead

/-- The routing type a message of this routing gets. -/
def routingType : TDgRouting → TRoutingType
  | anyPartition => .anyPartition
  | partitionKey _ => .partitionKey

/-- The partition key the message records: `TMsg::CreateAnyPartitionMsg`
passes 0. -/
def msgPartitionKey : TDgRouting → Int
  | anyPartition => 0
  | partitionKey key => key

@[simp] theorem length_routingFields (routing : TDgRouting) :
    routing.routingFields.length + 28 = routing.msgOverhead := by
  cases routing <;> rfl

end TDgRouting

/-- What a version 0 datagram carries. -/
structure TDgContents where
  routing : TDgRouting
  timestamp : Int
  topic : List UInt8
  key : List UInt8
  value : List UInt8
deriving DecidableEq, Repr

namespace TDgContents

/-- The size of the datagram, which its size field holds. -/
def msgSize (contents : TDgContents) : Nat :=
  contents.routing.msgOverhead + contents.topic.length + contents.key.length + contents.value.length

/-- The contents a datagram can carry and `BuildMsgFromDg` takes: a topic
that is not empty and fits its int16 size field, a datagram whose size fits
the int32 size field, an int64 timestamp and an int32 partition key. -/
structure Fits (contents : TDgContents) : Prop where
  topicNonempty : 0 < contents.topic.length
  topicFits : contents.topic.length ≤ int16Max
  sizeFits : contents.msgSize ≤ int32Max
  timestampFits : -2 ^ 63 ≤ contents.timestamp ∧ contents.timestamp < 2 ^ 63
  partitionKeyFits : ∀ key, contents.routing = .partitionKey key → -2 ^ 31 ≤ key ∧ key < 2 ^ 31

end TDgContents

/-- The fields both routing types end with: the topic after its size, the
timestamp, and the key and the value after their sizes. -/
def tailBytes (topic : List UInt8) (timestamp : Int) (key value : List UInt8) : List UInt8 :=
  int16Field topic.length ++ topic ++ int64Field timestamp ++ int32Field key.length ++ key ++
    int32Field value.length ++ value

/-- The bytes of a datagram: size, API key, API version 0, flags 0, the
routing's own fields, and the tail. -/
def TDgContents.encode (contents : TDgContents) : List UInt8 :=
  int32Field contents.msgSize ++ int16Field contents.routing.apiKey ++ int16Field 0 ++ int16Field 0 ++
    contents.routing.routingFields ++
    tailBytes contents.topic contents.timestamp contents.key contents.value

@[simp] theorem length_tailBytes (topic : List UInt8) (timestamp : Int) (key value : List UInt8) :
    (tailBytes topic timestamp key value).length = 18 + topic.length + key.length + value.length := by
  simp only [tailBytes, List.length_append, length_int16Field, length_int64Field, length_int32Field]
  omega

/-- A datagram is as long as its size field says. -/
theorem length_encode (contents : TDgContents) : contents.encode.length = contents.msgSize := by
  have overhead := contents.routing.length_routingFields
  simp only [TDgContents.encode, TDgContents.msgSize, List.length_append, length_int32Field,
    length_int16Field, length_tailBytes]
  omega

end Dory.InputDg
