/-
Module: Dory.KafkaProto.ProduceRequestFormat
Purpose: The bytes of a Kafka produce request, version 0, as
  `TProduceRequestWriter` lays them out and `TProduceRequestReader` walks
  them: what a request carries (`TProduceRequestContents`: the header values
  and the topics, each with its message sets, each with its messages), and
  the bytes that carry it (`encode`).  A request is its size, API key and
  version 0, the correlation ID, the client ID after its int16 length, the
  required acks, the timeout and the topics after their count.  A topic is
  its name after an int16 length and its message sets after their count; a
  message set is its partition, its size, and its messages; a message is its
  offset 0, its size, the CRC-32 of the rest, the magic byte 0, the
  attributes byte of its compression type, and the key and the value after
  their int32 lengths.  An empty string's length is stored as -1.  `Fits`
  says what the contents must satisfy for every field to hold its value.
Trusted boundary: none
Main exports: lengthOrNull, TProduceMsgContents, TMsgSetContents,
  TTopicContents, TProduceRequestContents, TProduceRequestContents.Fits,
  TProduceRequestContents.encode
-/
import Dory.KafkaProto.ProduceRequestReader
import Dory.InputDg.Format

namespace Dory.KafkaProto

open Dory.Foundation.Bytes Dory.InputDg TProduceRequestConstants

/-- A length as the writers store it (`len ? len : -1`): -1 for an empty
string. -/
def lengthOrNull (length : Nat) : Int := if length = 0 then -1 else length

/-- One message of a message set. -/
structure TProduceMsgContents where
  compressionType : TCompressionType
  key : List UInt8
  value : List UInt8
deriving DecidableEq, Repr

/-- One message set: the partition it is for and its messages. -/
structure TMsgSetContents where
  partition : Int
  msgs : List TProduceMsgContents
deriving DecidableEq, Repr

/-- One topic: its name and its message sets. -/
structure TTopicContents where
  name : List UInt8
  msgSets : List TMsgSetContents
deriving DecidableEq, Repr

/-- What a produce request carries. -/
structure TProduceRequestContents where
  correlationId : Int
  clientId : List UInt8
  requiredAcks : Int
  replicationTimeout : Int
  topics : List TTopicContents
deriving DecidableEq, Repr

namespace TProduceMsgContents

variable (msg : TProduceMsgContents)

/-- The bytes the CRC covers: magic byte, attributes, key and value. -/
def body : List UInt8 :=
  [0, UInt8.ofNat (compressionAttr msg.compressionType)] ++ int32Field (lengthOrNull msg.key.length) ++
    msg.key ++ int32Field (lengthOrNull msg.value.length) ++ msg.value

/-- `msg_size`: the CRC and the body. -/
def msgSize : Nat := minMsgSize + msg.key.length + msg.value.length

/-- A message set item: offset, size, CRC and body. -/
def encode : List UInt8 :=
  int64Field 0 ++ int32Field msg.msgSize ++ int32Field (crc32 msg.body).toNat ++ msg.body

@[simp] theorem length_body : msg.body.length + crcSize = msg.msgSize := by
  simp only [body, msgSize, minMsgSize, crcSize, magicByteSize, attributesSize, keyLenSize, valueLenSize,
    List.length_append, List.length_cons, List.length_nil, length_int32Field]
  omega

@[simp] theorem length_encode : msg.encode.length = msgOffsetSize + msgSizeSize + msg.msgSize := by
  have bodyLength := msg.length_body
  simp only [encode, List.length_append, length_int64Field, length_int32Field, msgOffsetSize,
    msgSizeSize, crcSize] at bodyLength ⊢
  omega

end TProduceMsgContents

namespace TMsgSetContents

variable (msgSet : TMsgSetContents)

/-- The messages of the set, back to back. -/
def msgBytes : List UInt8 := msgSet.msgs.flatMap TProduceMsgContents.encode

/-- The partition, the message set size, and the messages. -/
def encode : List UInt8 :=
  int32Field msgSet.partition ++ int32Field msgSet.msgBytes.length ++ msgSet.msgBytes

end TMsgSetContents

namespace TTopicContents

variable (topic : TTopicContents)

/-- The name after its length, and the message sets after their count. -/
def encode : List UInt8 :=
  int16Field (lengthOrNull topic.name.length) ++ topic.name ++ int32Field topic.msgSets.length ++
    topic.msgSets.flatMap TMsgSetContents.encode

end TTopicContents

namespace TProduceRequestContents

variable (request : TProduceRequestContents)

/-- Everything after the size field. -/
def body : List UInt8 :=
  int16Field 0 ++ int16Field 0 ++ int32Field request.correlationId ++
    int16Field (lengthOrNull request.clientId.length) ++ request.clientId ++
    int16Field request.requiredAcks ++ int32Field request.replicationTimeout ++
    int32Field request.topics.length ++ request.topics.flatMap TTopicContents.encode

/-- The request: the size of the rest, and the rest. -/
def encode : List UInt8 := int32Field request.body.length ++ request.body

/-- The contents whose fields hold their values: the header values of their
C++ types, a client ID and topic names of at most `INT16_MAX` bytes, int32
partitions, and a request whose size field holds its size. -/
structure Fits : Prop where
  correlationId : -2 ^ 31 ≤ request.correlationId ∧ request.correlationId < 2 ^ 31
  clientId : request.clientId.length ≤ int16Max
  requiredAcks : -2 ^ 15 ≤ request.requiredAcks ∧ request.requiredAcks < 2 ^ 15
  replicationTimeout : -2 ^ 31 ≤ request.replicationTimeout ∧ request.replicationTimeout < 2 ^ 31
  names : ∀ topic ∈ request.topics, topic.name.length ≤ int16Max
  partitions : ∀ topic ∈ request.topics, ∀ msgSet ∈ topic.msgSets,
    -2 ^ 31 ≤ msgSet.partition ∧ msgSet.partition < 2 ^ 31
  size : request.body.length ≤ int32Max

end TProduceRequestContents

end Dory.KafkaProto
