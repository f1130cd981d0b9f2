/-
Module: Dory.KafkaProto.MetadataRequest
Purpose: The Kafka metadata request, version 0
  (src/dory/kafka_proto/metadata/v0/metadata_request_fields.h,
  metadata_request_writer.{h,cc}, metadata_request_reader.{h,cc}).  A request
  asks for the metadata of one topic or of all topics: its size, API key 3,
  API version 0, the correlation ID, an empty client ID (length -1), and a
  topic list that is empty or holds one topic name after its int16 length
  (`TMetadataRequest.encode`).  `WriteHeader` stores the fields in its own
  order, the topic count last; the writers size the caller's vector, or
  hand back two `iovec`s, and place the topic after the header.  The
  reader's constructor checks the fixed fields and the sizes and throws on
  the first that is wrong.  Release builds define `NDEBUG`: the writers'
  requirement of a topic of 1 to `INT16_MAX` bytes and the reader's
  requirement that the size field announce `request_size` are asserts, and
  are not checked.
Trusted boundary: none
Main exports: TMetadataRequestFields, TMetadataRequest, TMetadataRequest.encode,
  TMetadataRequest.Fits, TMetadataRequestWriter.writeHeader,
  TMetadataRequestWriter.writeSingleTopicRequest,
  TMetadataRequestWriter.writeAllTopicsRequest, TMetadataRequestError,
  TMetadataRequestReader.create, TMetadataRequestReader.request
-/
import Dory.InputDg.Format
import Dory.Foundation.Simulation

namespace Dory.KafkaProto

open Dory.Foundation Dory.Foundation.Bytes Dory.Foundation.Buffer Dory.InputDg

/-! ### Fields -/

/-! metadata_request_fields.h. -/

namespace TMetadataRequestFields

def requestSizeSize : Nat := 4
def apiKeySize : Nat := 2
def apiVersionSize : Nat := 2
def correlationIdSize : Nat := 4
def clientIdLengthSize : Nat := 2
def topicCountSize : Nat := 4
def topicNameLengthSize : Nat := 2

def requestSizeOffset : Nat := 0
def apiKeyOffset : Nat := requestSizeOffset + requestSizeSize
def apiVersionOffset : Nat := apiKeyOffset + apiKeySize
def correlationIdOffset : Nat := apiVersionOffset + apiVersionSize
def clientIdLengthOffset : Nat := correlationIdOffset + correlationIdSize
def topicCountOffset : Nat := clientIdLengthOffset + clientIdLengthSize
def topicNameLengthOffset : Nat := topicCountOffset + topicCountSize

def apiKey : Int := 3
def apiVersion : Int := 0

/-- `EMPTY_STRING_LENGTH`: the client ID is always sent empty. -/
def emptyStringLength : Int := -1

theorem requestSizeSize_eq : requestSizeSize = 4 := rfl
theorem requestSizeOffset_eq : requestSizeOffset = 0 := rfl
theorem apiKeyOffset_eq : apiKeyOffset = 4 := rfl
theorem apiVersionOffset_eq : apiVersionOffset = 6 := rfl
theorem correlationIdOffset_eq : correlationIdOffset = 8 := rfl
theorem clientIdLengthOffset_eq : clientIdLengthOffset = 12 := rfl
theorem topicCountOffset_eq : topicCountOffset = 14 := rfl
theorem topicNameLengthOffset_eq : topicNameLengthOffset = 18 := rfl

end TMetadataRequestFields

open TMetadataRequestFields

/-! ### What a request carries -/

/-- A metadata request: its correlation ID, and the one topic it asks about,
or none for all topics. -/
structure TMetadataRequest where
  correlationId : Int
  topic : Option (List UInt8)
deriving DecidableEq, Repr

namespace TMetadataRequest

variable (request : TMetadataRequest)

/-- The fields every request has after its size. -/
def fixedFields : List UInt8 :=
  int16Field apiKey ++ int16Field apiVersion ++ int32Field request.correlationId ++
    int16Field emptyStringLength

/-- The topic list: its count, and the one topic's name after its length. -/
def topicList : List UInt8 :=
  match request.topic with
  | none => int32Field 0
  | some topic => int32Field 1 ++ int16Field topic.length ++ topic

/-- Everything after the size field. -/
def body : List UInt8 := request.fixedFields ++ request.topicList

/-- The request: the size of the rest, and the rest. -/
def encode : List UInt8 := int32Field request.body.length ++ request.body

/-- The requests whose fields hold their values: an `int32_t` correlation ID,
and a topic of 1 to `INT16_MAX` bytes (a reader takes an empty name for no
topic). -/
structure Fits : Prop where
  correlationId : -2 ^ 31 ≤ request.correlationId ∧ request.correlationId < 2 ^ 31
  topic : ∀ topic ∈ request.topic, 1 ≤ topic.length ∧ topic.length ≤ int16Max

@[simp] theorem length_fixedFields : request.fixedFields.length = 10 := by
  simp [fixedFields]

theorem length_body_of_some {topic : List UInt8} (some : request.topic = some topic) :
    request.body.length = 16 + topic.length := by
  simp only [body, topicList, some, List.length_append, length_fixedFields, length_int32Field,
    length_int16Field]
  omega

theorem length_body_of_none (none : request.topic = none) : request.body.length = 14 := by
  simp [body, topicList, none]

/-- A single topic request field by field: the header up to the topic count,
and then the topic name after its length. -/
theorem encode_of_some (correlationId : Int) (topic : List UInt8) :
    encode ⟨correlationId, some topic⟩ =
      int32Field (16 + topic.length) ++ fixedFields ⟨correlationId, none⟩ ++ int32Field 1 ++
        (int16Field topic.length ++ topic) := by
  rw [encode, length_body_of_some _ rfl]
  simp [body, topicList, fixedFields]

/-- An all topics request field by field. -/
theorem encode_of_none (correlationId : Int) :
    encode ⟨correlationId, none⟩ =
      int32Field 14 ++ fixedFields ⟨correlationId, none⟩ ++ int32Field 0 ++ [] := by
  rw [encode, length_body_of_none _ rfl]
  simp [body, topicList, fixedFields]

end TMetadataRequest

/-! ### The writer -/

namespace TMetadataRequestWriter

/-- `NUM_SINGLE_TOPIC_HEADER_BYTES`: everything but the topic name. -/
def numSingleTopicHeaderBytes : Nat := topicNameLengthOffset + topicNameLengthSize

/-- `NUM_ALL_TOPICS_HEADER_BYTES`: an all topics request has no topic name
length. -/
def numAllTopicsHeaderBytes : Nat := topicNameLengthOffset

theorem numSingleTopicHeaderBytes_eq : numSingleTopicHeaderBytes = 20 := rfl
theorem numAllTopicsHeaderBytes_eq : numAllTopicsHeaderBytes = 18 := rfl

/-- `WriteHeader(header_buf, topic_size, correlation_id)`.  A `topic_size`
of 0 writes the shorter header of an all topics request.  The size is a
`size_t` cast to `int32_t` and the topic size a `size_t` cast to `int16_t`:
both keep the low bits, as the fields do; that the topic size is at most
`INT16_MAX` is only asserted. -/
def writeHeader (headerBuf : List UInt8) (topicSize : Nat) (correlationId : Int) : List UInt8 :=
  let sizeField := if topicSize ≠ 0 then topicSize + numSingleTopicHeaderBytes - requestSizeSize
    else numAllTopicsHeaderBytes - requestSizeSize
  let buf := overwrite headerBuf requestSizeOffset (int32Field sizeField)
  let buf := overwrite buf apiKeyOffset (int16Field apiKey)
  let buf := overwrite buf apiVersionOffset (int16Field apiVersion)
  let buf := overwrite buf correlationIdOffset (int32Field correlationId)
  let buf := overwrite buf clientIdLengthOffset (int16Field emptyStringLength)
  let topicCount : Int := if topicSize ≠ 0 then 1 else 0
  let buf := if topicSize ≠ 0 then overwrite buf topicNameLengthOffset (int16Field topicSize) else buf
  overwrite buf topicCountOffset (int32Field topicCount)

/-- `WriteSingleTopicRequest(result, topic_begin, topic_end, correlation_id)`:
the vector is resized to the request, and the topic copied after the
header; that the topic is not empty is only asserted. -/
def writeSingleTopicRequest (result topic : List UInt8) (correlationId : Int) : List UInt8 :=
  let result := resize result (numSingleTopicHeaderBytes + topic.length)
  let result := writeHeader result topic.length correlationId
  overwrite result numSingleTopicHeaderBytes topic

/-- `WriteAllTopicsRequest(result, correlation_id)`. -/
def writeAllTopicsRequest (result : List UInt8) (correlationId : Int) : List UInt8 :=
  writeHeader (resize result numAllTopicsHeaderBytes) 0 correlationId

/-- `WriteSingleTopicRequest(header_iov, body_iov, header_buf, topic_begin,
topic_end, correlation_id)`: the header is written into `header_buf`, and the
two `iovec`s are its first `NUM_SINGLE_TOPIC_HEADER_BYTES` bytes and the
topic, in place.  The caller's buffer must have room for the header. -/
def writeSingleTopicRequestIov (headerBuf topic : List UInt8) (correlationId : Int) :
    List UInt8 × List UInt8 :=
  ((writeHeader headerBuf topic.length correlationId).take numSingleTopicHeaderBytes, topic)

/-- `WriteAllTopicsRequest(iov, header_buf, correlation_id)`. -/
def writeAllTopicsRequestIov (headerBuf : List UInt8) (correlationId : Int) : List UInt8 :=
  (writeHeader headerBuf 0 correlationId).take numAllTopicsHeaderBytes

/-! #### What the header writer leaves -/

/-- The five fields up to the topic count are stored back to back from the
start. -/
theorem writeHeader_front (buf : List UInt8) (sizeField : Nat) (correlationId : Int) :
    overwrite (overwrite (overwrite (overwrite (overwrite buf requestSizeOffset (int32Field sizeField))
        apiKeyOffset (int16Field apiKey)) apiVersionOffset (int16Field apiVersion))
        correlationIdOffset (int32Field correlationId)) clientIdLengthOffset (int16Field emptyStringLength) =
      int32Field sizeField ++ TMetadataRequest.fixedFields ⟨correlationId, none⟩ ++ buf.drop 14 := by
  simp only [requestSizeOffset_eq, apiKeyOffset_eq, apiVersionOffset_eq, correlationIdOffset_eq,
    clientIdLengthOffset_eq]
  rw [overwrite_overwrite (Nat.zero_le _) _ _ (by simp), overwrite_overwrite (Nat.zero_le _) _ _ (by simp),
    overwrite_overwrite (Nat.zero_le _) _ _ (by simp), overwrite_overwrite (Nat.zero_le _) _ _ (by simp),
    overwrite_zero]
  simp [TMetadataRequest.fixedFields]

/-- The header of a single topic request replaces the first
`NUM_SINGLE_TOPIC_HEADER_BYTES` bytes of a buffer that has room for it. -/
theorem writeHeader_of_ne_zero {buf : List UInt8} {topicSize : Nat} (nonzero : topicSize ≠ 0)
    (room : numSingleTopicHeaderBytes ≤ buf.length) (correlationId : Int) :
    writeHeader buf topicSize correlationId =
      int32Field (topicSize + 16) ++ TMetadataRequest.fixedFields ⟨correlationId, none⟩ ++ int32Field 1 ++
        int16Field topicSize ++ buf.drop numSingleTopicHeaderBytes := by
  rw [numSingleTopicHeaderBytes_eq] at room ⊢
  have front := writeHeader_front buf (topicSize + 16) correlationId
  simp only [writeHeader, if_pos nonzero, numSingleTopicHeaderBytes_eq, requestSizeSize_eq,
    show topicSize + 20 - 4 = topicSize + 16 by omega, front]
  have frontLength :
      (int32Field ((topicSize + 16 : Nat) : Int) ++ TMetadataRequest.fixedFields ⟨correlationId, none⟩).length =
        14 := by simp
  -- past the first fourteen bytes, the topic count goes where the topic name
  -- length did not
  rw [topicNameLengthOffset_eq, topicCountOffset_eq, overwrite_append_of_ge (by omega),
    overwrite_append_of_ge (by omega), frontLength, overwrite_zero]
  have restLength : 6 ≤ (buf.drop 14).length := by simp; omega
  simp [overwrite, List.length_take_of_le (show 4 ≤ (buf.drop 14).length by omega), List.drop_drop]

/-- The header of an all topics request replaces the first
`NUM_ALL_TOPICS_HEADER_BYTES` bytes of a buffer; its fields are stored from
the start without a gap, so a shorter buffer grows to hold them. -/
theorem writeHeader_zero (buf : List UInt8) (correlationId : Int) :
    writeHeader buf 0 correlationId =
      int32Field 14 ++ TMetadataRequest.fixedFields ⟨correlationId, none⟩ ++ int32Field 0 ++
        buf.drop numAllTopicsHeaderBytes := by
  simp only [writeHeader, ne_eq, not_true_eq_false, if_false, numAllTopicsHeaderBytes_eq,
    requestSizeSize_eq, show 18 - 4 = 14 by rfl, writeHeader_front]
  have frontLength :
      (int32Field ((14 : Nat) : Int) ++ TMetadataRequest.fixedFields ⟨correlationId, none⟩).length = 14 := by
    simp
  rw [topicCountOffset_eq, overwrite_append_of_ge (by omega), frontLength, overwrite_zero]
  simp [List.drop_drop]

/-! #### The writers' requests -/

theorem length_singleTopicHeader (topicSize : Nat) (correlationId : Int) :
    (int32Field ((topicSize : Int) + 16) ++ TMetadataRequest.fixedFields ⟨correlationId, none⟩ ++
      int32Field 1 ++ int16Field topicSize).length = numSingleTopicHeaderBytes := by
  simp [numSingleTopicHeaderBytes_eq]

/-- The vector a single topic request is written to holds the request of
that topic, whatever it held before. -/
theorem writeSingleTopicRequest_eq (result : List UInt8) {topic : List UInt8} (nonempty : topic ≠ [])
    (correlationId : Int) :
    writeSingleTopicRequest result topic correlationId = TMetadataRequest.encode ⟨correlationId, some topic⟩ := by
  have sized := length_resize result (numSingleTopicHeaderBytes + topic.length)
  have header := writeHeader_of_ne_zero (List.length_pos_iff.mpr nonempty).ne'
    (show numSingleTopicHeaderBytes ≤ (resize result (numSingleTopicHeaderBytes + topic.length)).length by
      omega) correlationId
  have headerLength := length_singleTopicHeader topic.length correlationId
  simp only [writeSingleTopicRequest, header]
  -- the topic fills the bytes after the header exactly
  rw [overwrite_append_of_ge (le_of_eq headerLength), headerLength, Nat.sub_self, overwrite_zero,
    List.drop_eq_nil_of_le (by simp), TMetadataRequest.encode, TMetadataRequest.length_body_of_some _ rfl]
  simp [TMetadataRequest.body, TMetadataRequest.topicList, TMetadataRequest.fixedFields, Int.add_comm]

/-- The vector an all topics request is written to holds that request. -/
theorem writeAllTopicsRequest_eq (result : List UInt8) (correlationId : Int) :
    writeAllTopicsRequest result correlationId = TMetadataRequest.encode ⟨correlationId, none⟩ := by
  rw [writeAllTopicsRequest, writeHeader_zero]
  simp [TMetadataRequest.encode, TMetadataRequest.body, TMetadataRequest.topicList,
    TMetadataRequest.fixedFields]

/-- With an empty topic, the single topic writer writes an all topics
request and leaves two more bytes after it, where the topic name length
would have been: the request's size field no longer frames the vector. -/
theorem writeSingleTopicRequest_nil (result : List UInt8) (correlationId : Int) :
    writeSingleTopicRequest result [] correlationId =
      TMetadataRequest.encode ⟨correlationId, none⟩ ++
        (resize result numSingleTopicHeaderBytes).drop numAllTopicsHeaderBytes := by
  rw [writeSingleTopicRequest, List.length_nil, Nat.add_zero, overwrite_nil, writeHeader_zero,
    TMetadataRequest.encode_of_none]
  simp

/-- The two `iovec`s of a single topic request, sent one after the other,
are the bytes of the vector writer. -/
theorem writeSingleTopicRequestIov_eq {headerBuf topic : List UInt8} (nonempty : topic ≠ [])
    (room : numSingleTopicHeaderBytes ≤ headerBuf.length) (correlationId : Int) :
    (writeSingleTopicRequestIov headerBuf topic correlationId).1 ++
        (writeSingleTopicRequestIov headerBuf topic correlationId).2 =
      TMetadataRequest.encode ⟨correlationId, some topic⟩ := by
  have header := writeHeader_of_ne_zero (List.length_pos_iff.mpr nonempty).ne' room correlationId
  rw [writeSingleTopicRequestIov, header, List.take_left' (length_singleTopicHeader _ _),
    TMetadataRequest.encode, TMetadataRequest.length_body_of_some _ rfl]
  simp [TMetadataRequest.body, TMetadataRequest.topicList, TMetadataRequest.fixedFields, Int.add_comm]

/-- The `iovec` of an all topics request holds that request. -/
theorem writeAllTopicsRequestIov_eq (headerBuf : List UInt8) (correlationId : Int) :
    writeAllTopicsRequestIov headerBuf correlationId = TMetadataRequest.encode ⟨correlationId, none⟩ := by
  rw [writeAllTopicsRequestIov, writeHeader_zero, List.take_left' (by simp [numAllTopicsHeaderBytes_eq]),
    TMetadataRequest.encode_of_none]
  simp

end TMetadataRequestWriter

/-! ### The reader -/

/-- What constructing a `TMetadataRequestReader` can throw: the errors of its
constructor and of `RequestSize`, and a read of a byte outside the request.
(`TRequestTruncated` is declared but never thrown.) -/
inductive TMetadataRequestError where
  /-- `TBadRequestSize`: "Invalid Kafka metadata request size". -/
  | badRequestSize
  /-- `TBadTopicCount`: "Invalid topic count in Kafka metadata request". -/
  | badTopicCount
  /-- `TWrongRequestType`: "Expected Kafka metadata request but got some other
  request type". -/
  | wrongRequestType
  /-- `TBadApiVersion`: "Unsupported API version in Kafka metadata request". -/
  | badApiVersion
  /-- `TBadClientIdLength`: "Bad client ID length in Kafka metadata request". -/
  | badClientIdLength
  /-- `TBadTopicSize`: "Invalid topic size in Kafka metadata request". -/
  | badTopicSize
  | readOutsideBuffer
deriving DecidableEq, Repr

open TMetadataRequestError

/-- `TMetadataRequestReader`: `Begin`, as the `request_size` bytes the
constructor was given, and `AllTopics`.  `End` is only compared with
`request_size` in an assert, and is left out. -/
structure TMetadataRequestReader where
  buf : List UInt8
  allTopics : Bool
deriving DecidableEq, Repr

namespace TMetadataRequestReader

/-- `ReadInt16FromHeader` (`width` 2) and `ReadInt32FromHeader` (`width` 4)
of the field at offset `pos` of the request. -/
def readHeaderInt (width : Nat) (request : List UInt8) (pos : Nat) : Except TMetadataRequestError Int :=
  match readSignedAt? request pos width with
  | none => .error readOutsideBuffer
  | some value => .ok value

/-- `MinSize()`: an all topics request. -/
def minSize : Nat := topicNameLengthOffset

/-- `SingleTopicHeaderSize()`. -/
def singleTopicHeaderSize : Nat := topicNameLengthOffset + topicNameLengthSize

/-- `BytesNeededToGetRequestSize()`. -/
def bytesNeededToGetRequestSize : Nat := requestSizeSize

@[simp] theorem minSize_eq : minSize = 18 := rfl
@[simp] theorem singleTopicHeaderSize_eq : singleTopicHeaderSize = 20 := rfl

/-- `RequestSize(request_begin)`: the size field and the field itself; a
negative size field is refused. -/
def requestSize (requestBegin : List UInt8) : Except TMetadataRequestError Nat := do
  let sizeField ← readHeaderInt 4 requestBegin requestSizeOffset
  throwIf (sizeField < 0) badRequestSize
  pure (sizeField.toNat + requestSizeSize)

/-- The constructor `TMetadataRequestReader(request, request_size)`, given
the `request_size` bytes at `request`.  The initializer of `End` calls
`RequestSize`, which may throw; whether `End` is `request_size` bytes on is
only asserted. -/
def create (request : List UInt8) : Except TMetadataRequestError TMetadataRequestReader := do
  let _ ← requestSize request
  throwIf (request.length < minSize) badRequestSize
  let apiKeyField ← readHeaderInt 2 request apiKeyOffset
  throwIf (apiKeyField ≠ apiKey) wrongRequestType
  let apiVersionField ← readHeaderInt 2 request apiVersionOffset
  throwIf (apiVersionField ≠ apiVersion) badApiVersion
  -- the client ID is always sent empty
  let clientIdLength ← readHeaderInt 2 request clientIdLengthOffset
  throwIf (clientIdLength ≠ emptyStringLength) badClientIdLength
  let topicCount ← readHeaderInt 4 request topicCountOffset
  throwIf (topicCount ≠ 0 ∧ topicCount ≠ 1) badTopicCount
  let allTopics := decide (topicCount = 0)
  if allTopics then
    throwIf (request.length ≠ minSize) badRequestSize
  else
    throwIf (request.length < singleTopicHeaderSize) badRequestSize
    let topicSize ← readHeaderInt 2 request topicNameLengthOffset
    -- the empty string is taken not to be a valid topic name
    throwIf (topicSize < 1) badTopicSize
    throwIf (topicSize.toNat + singleTopicHeaderSize ≠ request.length) badRequestSize
  pure { buf := request, allTopics }

section Getters

variable (reader : TMetadataRequestReader)

/-- `GetCorrelationId()`. -/
def getCorrelationId : Except TMetadataRequestError Int :=
  readHeaderInt 4 reader.buf correlationIdOffset

/-- `IsAllTopics()`. -/
def isAllTopics : Bool := reader.allTopics

/-- `GetTopicBegin()`, as an offset from `Begin`; none for the null pointer of
an all topics request. -/
def getTopicBegin : Option Nat :=
  if reader.allTopics then none else some singleTopicHeaderSize

/-- `GetTopicEnd()`: the topic size field read again. -/
def getTopicEnd : Except TMetadataRequestError (Option Int) :=
  if reader.allTopics then pure none
  else do
    let topicSize ← readHeaderInt 2 reader.buf topicNameLengthOffset
    pure (some (singleTopicHeaderSize + topicSize))

/-- The request a caller reads from the reader, as the mock Kafka server's
`ValidateMetadataRequest` does: the correlation ID, and the topic from
`GetTopicBegin()` to `GetTopicEnd()` unless it is an all topics request. -/
def request : Except TMetadataRequestError TMetadataRequest := do
  let correlationId ← reader.getCorrelationId
  let topicEnd ← reader.getTopicEnd
  match reader.getTopicBegin, topicEnd with
  | some topicBegin, some topicEnd =>
      pure { correlationId, topic := some (bytesAt reader.buf topicBegin (topicEnd - topicBegin).toNat) }
  | _, _ => pure { correlationId, topic := none }

end Getters

/-! #### What the constructor accepts -/

/-- What the constructor finds in a request it accepts: every check passes,
and the topic count says which kind of request it is. -/
structure Accepted (bytes : List UInt8) (allTopics : Bool) : Prop where
  framed : ∃ size, requestSize bytes = .ok size
  long : minSize ≤ bytes.length
  key : readHeaderInt 2 bytes apiKeyOffset = .ok apiKey
  version : readHeaderInt 2 bytes apiVersionOffset = .ok apiVersion
  emptyClientId : readHeaderInt 2 bytes clientIdLengthOffset = .ok emptyStringLength
  count : readHeaderInt 4 bytes topicCountOffset = .ok (if allTopics then 0 else 1)
  sized : if allTopics then bytes.length = minSize
    else ∃ topicSize, readHeaderInt 2 bytes topicNameLengthOffset = .ok topicSize ∧ 1 ≤ topicSize ∧
      topicSize.toNat + singleTopicHeaderSize = bytes.length

theorem create_eq_ok_iff {bytes : List UInt8} {reader : TMetadataRequestReader} :
    create bytes = .ok reader ↔ reader.buf = bytes ∧ Accepted bytes reader.allTopics := by
  constructor
  · intro created
    obtain ⟨size, framed, rest⟩ := bind_eq_ok created
    obtain ⟨_, long, rest⟩ := bind_eq_ok rest
    obtain ⟨key, keyRead, rest⟩ := bind_eq_ok rest
    obtain ⟨_, keyOk, rest⟩ := bind_eq_ok rest
    obtain ⟨version, versionRead, rest⟩ := bind_eq_ok rest
    obtain ⟨_, versionOk, rest⟩ := bind_eq_ok rest
    obtain ⟨clientId, clientIdRead, rest⟩ := bind_eq_ok rest
    obtain ⟨_, clientIdOk, rest⟩ := bind_eq_ok rest
    obtain ⟨count, countRead, rest⟩ := bind_eq_ok rest
    obtain ⟨_, countOk, rest⟩ := bind_eq_ok rest
    simp only [throwIf_eq_ok, not_lt, not_not, ne_eq, not_and] at long keyOk versionOk clientIdOk countOk
    have accepted := fun (count : readHeaderInt 4 bytes topicCountOffset = .ok (if reader.allTopics then 0 else 1))
      sized => Accepted.mk ⟨_, framed⟩ long (keyOk ▸ keyRead) (versionOk ▸ versionRead) (clientIdOk ▸ clientIdRead)
        count sized
    dsimp only at rest
    split at rest
    · rename_i all
      obtain ⟨_, exact, done⟩ := bind_eq_ok rest
      cases done
      simp only [decide_eq_true_eq] at all
      subst all
      simp only [throwIf_eq_ok, not_not] at exact
      exact ⟨rfl, accepted (by simpa using countRead) (by simpa using exact)⟩
    · rename_i single
      obtain ⟨_, longer, rest⟩ := bind_eq_ok rest
      obtain ⟨topicSize, topicSizeRead, rest⟩ := bind_eq_ok rest
      obtain ⟨_, nonempty, rest⟩ := bind_eq_ok rest
      obtain ⟨_, exact, done⟩ := bind_eq_ok rest
      cases done
      simp only [decide_eq_true_eq] at single
      have one : count = 1 := countOk single
      subst one
      simp only [throwIf_eq_ok, not_lt, not_not] at nonempty exact
      exact ⟨rfl, accepted (by simpa using countRead) (by simpa using ⟨topicSize, topicSizeRead, nonempty, exact⟩)⟩
  · rintro ⟨same, ⟨⟨size, framed⟩, long, key, version, emptyClientId, count, sized⟩⟩
    obtain ⟨buf, allTopics⟩ := reader
    simp only at same count sized
    subst same
    have passes : ¬buf.length < minSize := by omega
    simp only [create, framed, key, version, emptyClientId, count, ok_bind, throwIf_of_not _ passes]
    cases allTopics with
    | true =>
        simp only [if_true] at sized
        simp [sized, throwIf, ok_bind]
    | false =>
        obtain ⟨topicSize, topicSizeRead, nonempty, exact⟩ := sized
        have longer : ¬buf.length < singleTopicHeaderSize := by omega
        simp [topicSizeRead, ok_bind, ← exact, throwIf, Int.not_lt.mpr nonempty]

theorem readHeaderInt_of_suffix {bytes rest : List UInt8} {pos width : Nat} (positive : 0 < width)
    {value : Int} (lower : -2 ^ (8 * width - 1) ≤ value) (upper : value < 2 ^ (8 * width - 1))
    (at_ : SuffixAt bytes pos (beBytes width (ofSigned width value) ++ rest)) :
    readHeaderInt width bytes pos = .ok value := by
  rw [readHeaderInt, at_.readSignedAt? positive lower upper]

/-- The fields of a request up to its topic count, read back. -/
theorem reads_of_header {bytes rest : List UInt8} {size correlationId count : Int}
    (layout : bytes = int32Field size ++ TMetadataRequest.fixedFields ⟨correlationId, none⟩ ++
      int32Field count ++ rest)
    (sizeFits : 0 ≤ size ∧ size < 2 ^ 31) (fits : -2 ^ 31 ≤ correlationId ∧ correlationId < 2 ^ 31)
    (countFits : 0 ≤ count ∧ count < 2 ^ 31) :
    requestSize bytes = .ok (size.toNat + 4) ∧ readHeaderInt 2 bytes apiKeyOffset = .ok apiKey ∧
      readHeaderInt 2 bytes apiVersionOffset = .ok apiVersion ∧
      readHeaderInt 4 bytes correlationIdOffset = .ok correlationId ∧
      readHeaderInt 2 bytes clientIdLengthOffset = .ok emptyStringLength ∧
      readHeaderInt 4 bytes topicCountOffset = .ok count := by
  have at0 : SuffixAt bytes 0 (int32Field size ++ (int16Field apiKey ++ (int16Field apiVersion ++
      (int32Field correlationId ++ (int16Field emptyStringLength ++ (int32Field count ++ rest)))))) :=
    ⟨[], by simp [layout, TMetadataRequest.fixedFields], rfl⟩
  have at4 := at0.skipBy (length_int32Field _)
  have at6 := at4.skipBy (length_int16Field _)
  have at8 := at6.skipBy (length_int16Field _)
  have at12 := at8.skipBy (length_int32Field _)
  have at14 := at12.skipBy (length_int16Field _)
  have sizeRead := readHeaderInt_of_suffix (by decide) (by omega) (by omega) at0
  refine ⟨?_, readHeaderInt_of_suffix (by decide) (by decide) (by decide) at4,
    readHeaderInt_of_suffix (by decide) (by decide) (by decide) at6,
    readHeaderInt_of_suffix (by decide) (by omega) (by omega) at8,
    readHeaderInt_of_suffix (by decide) (by decide) (by decide) at12,
    readHeaderInt_of_suffix (by decide) (by omega) (by omega) at14⟩
  simp [requestSize, requestSizeOffset_eq, requestSizeSize_eq, sizeRead, ok_bind, throwIf, Int.not_lt.mpr sizeFits.1]

/-- A field read inside the request is stored in front of what follows it. -/
theorem suffixAt_of_read {bytes rest : List UInt8} {pos width : Nat} {value : Int}
    (read : readHeaderInt width bytes pos = .ok value) (after : SuffixAt bytes (pos + width) rest) :
    SuffixAt bytes pos (beBytes width (ofSigned width value) ++ rest) := by
  have inside := after.le_length
  rw [readHeaderInt, readSignedAt?_of_le (Int.natCast_nonneg _) (by exact_mod_cast inside), Int.toNat_natCast]
    at read
  cases read
  exact after.prepend_read

/-- The fields up to the topic count, read back, are the bytes in front of
the rest. -/
theorem header_of_reads {bytes rest : List UInt8} {size correlationId count : Int}
    (sizeRead : readHeaderInt 4 bytes requestSizeOffset = .ok size)
    (key : readHeaderInt 2 bytes apiKeyOffset = .ok apiKey)
    (version : readHeaderInt 2 bytes apiVersionOffset = .ok apiVersion)
    (correlationIdRead : readHeaderInt 4 bytes correlationIdOffset = .ok correlationId)
    (emptyClientId : readHeaderInt 2 bytes clientIdLengthOffset = .ok emptyStringLength)
    (countRead : readHeaderInt 4 bytes topicCountOffset = .ok count)
    (after : SuffixAt bytes 18 rest) :
    bytes = int32Field size ++ TMetadataRequest.fixedFields ⟨correlationId, none⟩ ++ int32Field count ++ rest := by
  have at14 := suffixAt_of_read countRead after
  have at12 := suffixAt_of_read emptyClientId at14
  have at8 := suffixAt_of_read correlationIdRead at12
  have at6 := suffixAt_of_read version at8
  have at4 := suffixAt_of_read key at6
  have at0 := suffixAt_of_read sizeRead at4
  rw [at0.eq_of_zero]
  simp [int32Field, int16Field, TMetadataRequest.fixedFields]

/-- What a caller reads from a request the constructor accepted: the
correlation ID, and for a single topic request every byte after the
header. -/
theorem request_of_accepted {bytes : List UInt8} {allTopics : Bool} (accepted : Accepted bytes allTopics) :
    ∃ correlationId, readHeaderInt 4 bytes correlationIdOffset = .ok correlationId ∧
      (⟨bytes, allTopics⟩ : TMetadataRequestReader).request =
        .ok ⟨correlationId, if allTopics then none else some (bytes.drop singleTopicHeaderSize)⟩ := by
  have long := accepted.long
  have correlationIdRead : readHeaderInt 4 bytes correlationIdOffset =
      .ok (readSigned bytes correlationIdOffset 4) := by
    rw [readHeaderInt, readSignedAt?_of_le (Int.natCast_nonneg _)
      (by rw [correlationIdOffset_eq]; simp at long; omega),
      Int.toNat_natCast]
  refine ⟨_, correlationIdRead, ?_⟩
  cases allTopics with
  | true =>
      simp [request, getCorrelationId, correlationIdRead, getTopicEnd, getTopicBegin]
  | false =>
      obtain ⟨topicSize, topicSizeRead, nonempty, exact⟩ := accepted.sized
      have topicBytes : bytesAt bytes singleTopicHeaderSize topicSize.toNat = bytes.drop singleTopicHeaderSize := by
        rw [bytesAt, List.take_of_length_le (by rw [List.length_drop]; omega)]
      have topicLength : (↑singleTopicHeaderSize + topicSize - ↑singleTopicHeaderSize).toNat = topicSize.toNat := by
        omega
      simp only [request, getCorrelationId, correlationIdRead, getTopicEnd, getTopicBegin, ok_bind, topicSizeRead,
        Bool.false_eq_true, if_false, pure_bind, topicLength, topicBytes]
      rfl

/-- A field read is a value of its width. -/
theorem readHeaderInt_bounds {bytes : List UInt8} {pos width : Nat} (positive : 0 < width) {value : Int}
    (read : readHeaderInt width bytes pos = .ok value) :
    -2 ^ (8 * width - 1) ≤ value ∧ value < 2 ^ (8 * width - 1) := by
  unfold readHeaderInt at read
  split at read
  · cases read
  · rename_i fieldRead
    cases read
    unfold readSignedAt? at fieldRead
    split at fieldRead
    · cases fieldRead
      exact ⟨readSigned_lower positive _ _, readSigned_upper positive _ _⟩
    · cases fieldRead

/-- `RequestSize` of a request whose size field reads `size`. -/
theorem requestSize_eq_ok {bytes : List UInt8} {total : Nat} (sized : requestSize bytes = .ok total) :
    ∃ size, readHeaderInt 4 bytes requestSizeOffset = .ok size ∧ 0 ≤ size ∧ size.toNat + 4 = total := by
  obtain ⟨size, sizeRead, rest⟩ := bind_eq_ok sized
  obtain ⟨_, nonneg, done⟩ := bind_eq_ok rest
  cases done
  exact ⟨size, sizeRead, by simpa using nonneg, rfl⟩

/-- The fields of a request whose fields hold their values read back: it
is accepted, with its correlation ID. -/
theorem accepted_encode {request : TMetadataRequest} (fits : request.Fits) :
    Accepted request.encode request.topic.isNone ∧
      readHeaderInt 4 request.encode correlationIdOffset = .ok request.correlationId := by
  obtain ⟨correlationId, topic⟩ := request
  cases topic with
  | none =>
      have layout := TMetadataRequest.encode_of_none correlationId
      obtain ⟨framed, key, version, correlationIdRead, emptyClientId, count⟩ :=
        reads_of_header layout (by decide) fits.correlationId (by decide)
      exact ⟨⟨⟨_, framed⟩, by simp [layout], key, version, emptyClientId, count, by simp [layout]⟩,
        correlationIdRead⟩
  | some topic =>
      obtain ⟨nonempty, short⟩ := fits.topic topic rfl
      have bound : topic.length < 2 ^ 15 := by simp [int16Max] at short; omega
      have layout := TMetadataRequest.encode_of_some correlationId topic
      obtain ⟨framed, key, version, correlationIdRead, emptyClientId, count⟩ :=
        reads_of_header layout ⟨by omega, by omega⟩ fits.correlationId (by decide)
      have at18 : SuffixAt (TMetadataRequest.encode ⟨correlationId, some topic⟩) 18
          (int16Field topic.length ++ topic) := ⟨_, layout, by simp⟩
      have topicSizeRead := readHeaderInt_of_suffix (by decide) (by omega) (by omega) at18
      have length : (TMetadataRequest.encode ⟨correlationId, some topic⟩).length = 20 + topic.length := by
        simp [layout]; omega
      exact ⟨⟨⟨_, framed⟩, by rw [length, minSize_eq]; omega, key, version, emptyClientId, count,
        ⟨topic.length, topicSizeRead, by omega, by simp [length]; omega⟩⟩, correlationIdRead⟩

/-- The reader accepts every request whose fields hold their values, and its
caller reads back that request. -/
theorem create_encode {request : TMetadataRequest} (fits : request.Fits) :
    ∃ reader, create request.encode = .ok reader ∧ reader.request = .ok request := by
  obtain ⟨accepted, correlationIdRead⟩ := accepted_encode fits
  obtain ⟨correlationId, read, requested⟩ := request_of_accepted accepted
  rw [correlationIdRead] at read
  cases read
  refine ⟨⟨request.encode, request.topic.isNone⟩, create_eq_ok_iff.mpr ⟨rfl, accepted⟩, ?_⟩
  rw [requested]
  obtain ⟨correlationId, topic⟩ := request
  cases topic with
  | none => rfl
  | some topic =>
      have header : (int32Field (16 + topic.length) ++ TMetadataRequest.fixedFields ⟨correlationId, none⟩ ++
          int32Field 1 ++ int16Field topic.length).length = singleTopicHeaderSize := by simp
      simp only [TMetadataRequest.encode_of_some, ← List.append_assoc, List.drop_left' header]
      rfl

/-- Every request the reader accepts whose size field announces the bytes
it was given is a request whose fields hold their values, and its caller
reads back that request. -/
theorem create_sound {bytes : List UInt8} {reader : TMetadataRequestReader} (created : create bytes = .ok reader)
    (framed : requestSize bytes = .ok bytes.length) :
    ∃ request, reader.request = .ok request ∧ request.Fits ∧ bytes = request.encode := by
  obtain ⟨buf, allTopics⟩ := reader
  obtain ⟨same, accepted⟩ := create_eq_ok_iff.mp created
  simp only at same
  subst same
  obtain ⟨correlationId, correlationIdRead, requested⟩ := request_of_accepted accepted
  obtain ⟨size, sizeRead, nonneg, total⟩ := requestSize_eq_ok framed
  have correlationIdFits := readHeaderInt_bounds (by decide) correlationIdRead
  -- the bytes are the fields the reads found, up to the topic count and after it
  cases allTopics with
  | true =>
      have length : buf.length = 18 := by simpa using accepted.sized
      have atEnd : SuffixAt buf 18 [] :=
        (SuffixAt.of_le (by omega)).congr (List.drop_eq_nil_of_le (by omega))
      have layout := header_of_reads sizeRead accepted.key accepted.version correlationIdRead
        accepted.emptyClientId accepted.count atEnd
      refine ⟨_, requested, ⟨correlationIdFits, by simp⟩, ?_⟩
      have size14 : size = 14 := by omega
      simpa [TMetadataRequest.encode_of_none, size14] using layout
  | false =>
      obtain ⟨topicSize, topicSizeRead, nonempty, exact⟩ := accepted.sized
      have topicSizeFits := readHeaderInt_bounds (by decide) topicSizeRead
      have atTopic := suffixAt_of_read topicSizeRead
        (SuffixAt.of_le (show topicNameLengthOffset + 2 ≤ buf.length by
          rw [topicNameLengthOffset_eq]; simp at exact; omega))
      have layout := header_of_reads sizeRead accepted.key accepted.version correlationIdRead
        accepted.emptyClientId accepted.count atTopic
      have topicLength : (buf.drop singleTopicHeaderSize).length = topicSize.toNat := by
        rw [List.length_drop]; omega
      refine ⟨_, requested, ⟨correlationIdFits, ?_⟩, ?_⟩
      · intro topic member
        simp only [Bool.false_eq_true, if_false, Option.mem_def, Option.some.injEq] at member
        subst member
        rw [topicLength]
        simp only [int16Max]
        omega
      · simp only [Bool.false_eq_true, if_false]
        rw [TMetadataRequest.encode_of_some, topicLength]
        have sizeEq : (16 : Int) + topicSize.toNat = size := by simp at exact; omega
        rw [sizeEq, Int.toNat_of_nonneg (by omega)]
        exact layout

/-- The request for topic `t` with correlation ID 7, as bytes. -/
theorem create_sound_of_topic :
    create [0, 0, 0, 17, 0, 3, 0, 0, 0, 0, 0, 7, 255, 255, 0, 0, 0, 1, 0, 1, 116] =
        .ok ⟨[0, 0, 0, 17, 0, 3, 0, 0, 0, 0, 0, 7, 255, 255, 0, 0, 0, 1, 0, 1, 116], false⟩ ∧
      requestSize [0, 0, 0, 17, 0, 3, 0, 0, 0, 0, 0, 7, 255, 255, 0, 0, 0, 1, 0, 1, 116] = .ok 21 ∧
      ∃ request, TMetadataRequestReader.request
          ⟨[0, 0, 0, 17, 0, 3, 0, 0, 0, 0, 0, 7, 255, 255, 0, 0, 0, 1, 0, 1, 116], false⟩ = .ok request ∧
        request.Fits ∧ [0, 0, 0, 17, 0, 3, 0, 0, 0, 0, 0, 7, 255, 255, 0, 0, 0, 1, 0, 1, 116] = request.encode := by
  have created : create [0, 0, 0, 17, 0, 3, 0, 0, 0, 0, 0, 7, 255, 255, 0, 0, 0, 1, 0, 1, 116] =
      .ok ⟨[0, 0, 0, 17, 0, 3, 0, 0, 0, 0, 0, 7, 255, 255, 0, 0, 0, 1, 0, 1, 116], false⟩ := by decide
  have framed : requestSize [0, 0, 0, 17, 0, 3, 0, 0, 0, 0, 0, 7, 255, 255, 0, 0, 0, 1, 0, 1, 116] = .ok 21 := by
    decide
  exact ⟨created, framed, create_sound created framed⟩

/-- A topic the reader hands out has 1 to `INT16_MAX` bytes. -/
theorem request_topic_fits {bytes : List UInt8} {reader : TMetadataRequestReader} {request : TMetadataRequest}
    (created : create bytes = .ok reader) (read : reader.request = .ok request) :
    ∀ topic ∈ request.topic, 1 ≤ topic.length ∧ topic.length ≤ int16Max := by
  obtain ⟨buf, allTopics⟩ := reader
  obtain ⟨same, accepted⟩ := create_eq_ok_iff.mp created
  simp only at same
  subst same
  obtain ⟨correlationId, -, requested⟩ := request_of_accepted accepted
  rw [requested] at read
  cases read
  intro topic member
  cases allTopics with
  | true => simp at member
  | false =>
      simp only [Bool.false_eq_true, if_false, Option.mem_def, Option.some.injEq] at member
      subst member
      obtain ⟨topicSize, topicSizeRead, nonempty, exact⟩ := accepted.sized
      have topicSizeFits := readHeaderInt_bounds (by decide) topicSizeRead
      simp only [List.length_drop, singleTopicHeaderSize_eq, int16Max] at exact ⊢
      omega

end TMetadataRequestReader

open TMetadataRequestReader TMetadataRequestWriter

/-! ### The writer and the reader -/

/-- A single topic request the writer makes is read back as that topic
exactly when the topic has 1 to `INT16_MAX` bytes, which the writer only
asserts: an empty topic leaves two stray bytes after an all topics request,
and a longer one does not fit its length field. -/
theorem create_writeSingleTopicRequest_iff (result topic : List UInt8) {correlationId : Int}
    (fits : -2 ^ 31 ≤ correlationId ∧ correlationId < 2 ^ 31) :
    (∃ reader, create (writeSingleTopicRequest result topic correlationId) = .ok reader ∧
        reader.request = .ok ⟨correlationId, some topic⟩) ↔
      1 ≤ topic.length ∧ topic.length ≤ int16Max := by
  constructor
  · rintro ⟨reader, created, read⟩
    exact request_topic_fits created read topic rfl
  · rintro ⟨nonempty, short⟩
    rw [writeSingleTopicRequest_eq result (List.ne_nil_of_length_pos nonempty)]
    exact create_encode ⟨fits, fun topic' member => by cases member; exact ⟨nonempty, short⟩⟩

/-- The reader refuses what the single topic writer makes of an empty topic,
as a request of the wrong size. -/
theorem create_writeSingleTopicRequest_nil (result : List UInt8) {correlationId : Int}
    (fits : -2 ^ 31 ≤ correlationId ∧ correlationId < 2 ^ 31) :
    create (writeSingleTopicRequest result [] correlationId) = .error badRequestSize := by
  have layout : writeSingleTopicRequest result [] correlationId =
      int32Field 14 ++ TMetadataRequest.fixedFields ⟨correlationId, none⟩ ++ int32Field 0 ++
        (resize result numSingleTopicHeaderBytes).drop numAllTopicsHeaderBytes := by
    rw [writeSingleTopicRequest_nil, TMetadataRequest.encode_of_none, List.append_nil]
  obtain ⟨framed, key, version, -, emptyClientId, count⟩ := reads_of_header layout (by decide) fits (by decide)
  -- the topic count says all topics, and the two stray bytes make the size wrong
  have length : (writeSingleTopicRequest result [] correlationId).length = 20 := by
    rw [layout]
    simp [numSingleTopicHeaderBytes_eq, numAllTopicsHeaderBytes_eq]
  simp [create, framed, key, version, emptyClientId, count, throwIf, length, ok_bind]

/-- What the reader makes of the writers' requests: an all topics request,
from the vector or from the `iovec`, reads back as all topics; a single
topic request from the vector reads back as its topic exactly when the topic
has 1 to `INT16_MAX` bytes, and an empty topic is refused; and the two
`iovec`s of a single topic request, sent in turn, read back as its topic
when the topic has 1 to `INT16_MAX` bytes and the header buffer has room. -/
theorem metadataRequest_writers_read_back (result headerBuf topic : List UInt8) {correlationId : Int}
    (fits : -2 ^ 31 ≤ correlationId ∧ correlationId < 2 ^ 31) :
    (∃ reader, create (writeAllTopicsRequest result correlationId) = .ok reader ∧
        reader.request = .ok ⟨correlationId, none⟩) ∧
      (∃ reader, create (writeAllTopicsRequestIov headerBuf correlationId) = .ok reader ∧
        reader.request = .ok ⟨correlationId, none⟩) ∧
      ((∃ reader, create (writeSingleTopicRequest result topic correlationId) = .ok reader ∧
          reader.request = .ok ⟨correlationId, some topic⟩) ↔
        1 ≤ topic.length ∧ topic.length ≤ int16Max) ∧
      (topic = [] → create (writeSingleTopicRequest result topic correlationId) = .error badRequestSize) ∧
      (1 ≤ topic.length ∧ topic.length ≤ int16Max → numSingleTopicHeaderBytes ≤ headerBuf.length →
        ∃ reader, create ((writeSingleTopicRequestIov headerBuf topic correlationId).1 ++
            (writeSingleTopicRequestIov headerBuf topic correlationId).2) = .ok reader ∧
          reader.request = .ok ⟨correlationId, some topic⟩) := by
  have allTopics : (⟨correlationId, none⟩ : TMetadataRequest).Fits := ⟨fits, fun _ member => by cases member⟩
  refine ⟨?_, ?_, create_writeSingleTopicRequest_iff result topic fits, ?_, ?_⟩
  · rw [writeAllTopicsRequest_eq]
    exact create_encode allTopics
  · rw [writeAllTopicsRequestIov_eq]
    exact create_encode allTopics
  · rintro rfl
    exact create_writeSingleTopicRequest_nil result fits
  · rintro ⟨nonempty, short⟩ room
    rw [writeSingleTopicRequestIov_eq (List.ne_nil_of_length_pos nonempty) room]
    exact create_encode ⟨fits, fun topic' member => by cases member; exact ⟨nonempty, short⟩⟩

/-- The writers' requests with correlation ID 7, the topic `t`, and buffers
that held nothing and twenty zero bytes. -/
theorem metadataRequest_writers_read_back_of_topic :
    (-2 ^ 31 ≤ (7 : Int) ∧ (7 : Int) < 2 ^ 31) ∧
      ((∃ reader, create (writeAllTopicsRequest [] 7) = .ok reader ∧ reader.request = .ok ⟨7, none⟩) ∧
        (∃ reader, create (writeAllTopicsRequestIov (List.replicate 20 0) 7) = .ok reader ∧
          reader.request = .ok ⟨7, none⟩) ∧
        ((∃ reader, create (writeSingleTopicRequest [] [116] 7) = .ok reader ∧
            reader.request = .ok ⟨7, some [116]⟩) ↔
          1 ≤ ([116] : List UInt8).length ∧ ([116] : List UInt8).length ≤ int16Max) ∧
        (([116] : List UInt8) = [] → create (writeSingleTopicRequest [] [116] 7) = .error badRequestSize) ∧
        (1 ≤ ([116] : List UInt8).length ∧ ([116] : List UInt8).length ≤ int16Max →
          numSingleTopicHeaderBytes ≤ (List.replicate 20 0).length →
          ∃ reader, create ((writeSingleTopicRequestIov (List.replicate 20 0) [116] 7).1 ++
              (writeSingleTopicRequestIov (List.replicate 20 0) [116] 7).2) = .ok reader ∧
            reader.request = .ok ⟨7, some [116]⟩)) :=
  have fits : -2 ^ 31 ≤ (7 : Int) ∧ (7 : Int) < 2 ^ 31 := by decide
  ⟨fits, metadataRequest_writers_read_back [] (List.replicate 20 0) [116] fits⟩

end Dory.KafkaProto
