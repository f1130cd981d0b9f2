/-
Module: Dory.KafkaProto.ProduceRequestRoundTrip
Purpose: A client of `TProduceRequestReader` that reads a whole request the
  way the request tests do (SetRequest, the header getters, and the loops
  `while (NextTopic())`, `while (NextMsgSetInTopic())` and
  `while (NextMsgInMsgSet())`), and the round trip: the bytes
  `TProduceRequestWriter` writes for contents whose fields hold their values
  read back as the same contents, every CRC matching.  Each loop level has
  a predicate saying where the next item starts (`NextAt`, `SetsAt`,
  `TopicsAt`); one step lemma per level reads an encoded item there and
  re-establishes the predicate past it, and the loops follow by induction on
  the items.  The round trip needs topic names of at most `INT16_MAX`
  bytes: `OpenTopic()` stores a longer length through
  `static_cast<int16_t>`, and the reader refuses what it reads there.
Trusted boundary: none
Main exports: readMsgs, readMsgSets, readTopics, readRequest,
  readRequest_encode, readRequest_writeRequest, readRequest_of_long_name
-/
import Dory.KafkaProto.ProduceRequestWriter

namespace Dory.KafkaProto

open Dory.Foundation Dory.Foundation.Bytes Dory.Foundation.Buffer Dory.InputDg TProduceRequestConstants
  TProduceRequestError

/-! ### A client of the reader -/

namespace TProduceRequestReader

/-- The current message as a client reads it: `CurrentMsgCrcIsOk()`, and the
compression type, the key and the value. -/
def readCurrentMsg (reader : TProduceRequestReader) : Except TProduceRequestError (Bool × TProduceMsgContents) :=
  match reader.msgSetReader.getCurrentMsgCompressionType reader.buf,
      reader.msgSetReader.getCurrentMsgKey reader.buf, reader.msgSetReader.getCurrentMsgValue reader.buf with
  | .error e, _, _ => .error e
  | .ok compressionType, some key, some value =>
      .ok (reader.msgSetReader.currentMsgCrcOk, { compressionType, key, value })
  | .ok _, _, _ => .error readOutsideBuffer

/-- `while (reader.NextMsgInMsgSet())`: the messages of the current message
set, whether each CRC matched, and the reader after the loop; `none` when
`fuel` rounds do not reach the end. -/
def readMsgs : Nat → TProduceRequestReader →
    Option (Except TProduceRequestError (List TProduceMsgContents × Bool × TProduceRequestReader))
  | 0, _ => none
  | fuel + 1, reader =>
      match reader.nextMsgInMsgSet with
      | .error e => some (.error e)
      | .ok (false, reader) => some (.ok ([], true, reader))
      | .ok (true, reader) =>
          match reader.readCurrentMsg with
          | .error e => some (.error e)
          | .ok (crcOk, msg) =>
              (readMsgs fuel reader).map
                (Except.map fun (msgs, allOk, reader) => (msg :: msgs, crcOk && allOk, reader))

/-- `while (reader.NextMsgSetInTopic())`: the partition and the messages of
each message set of the current topic. -/
def readMsgSets : Nat → TProduceRequestReader →
    Option (Except TProduceRequestError (List TMsgSetContents × Bool × TProduceRequestReader))
  | 0, _ => none
  | fuel + 1, reader =>
      match reader.nextMsgSetInTopic with
      | .error e => some (.error e)
      | .ok (false, reader) => some (.ok ([], true, reader))
      | .ok (true, reader) =>
          match reader.getPartitionOfCurrentMsgSet with
          | none => some (.error readOutsideBuffer)
          | some partition =>
              match readMsgs fuel reader with
              | none => none
              | some (.error e) => some (.error e)
              | some (.ok (msgs, msgsOk, reader)) =>
                  (readMsgSets fuel reader).map
                    (Except.map fun (msgSets, allOk, reader) =>
                      ({ partition, msgs } :: msgSets, msgsOk && allOk, reader))

/-- `while (reader.NextTopic())`: the name and the message sets of each
topic. -/
def readTopics : Nat → TProduceRequestReader →
    Option (Except TProduceRequestError (List TTopicContents × Bool × TProduceRequestReader))
  | 0, _ => none
  | fuel + 1, reader =>
      match reader.nextTopic with
      | .error e => some (.error e)
      | .ok (false, reader) => some (.ok ([], true, reader))
      | .ok (true, reader) =>
          match readMsgSets fuel reader with
          | none => none
          | some (.error e) => some (.error e)
          | some (.ok (msgSets, msgSetsOk, after)) =>
              (readTopics fuel after).map
                (Except.map fun (topics, allOk, after) =>
                  ({ name := reader.getCurrentTopicName, msgSets } :: topics, msgSetsOk && allOk, after))

end TProduceRequestReader

open TProduceRequestReader

/-- A whole request: `SetRequest`, the header getters and the topics, and
whether every CRC matched. -/
def readRequest (fuel : Nat) (request : List UInt8) :
    Option (Except TProduceRequestError (TProduceRequestContents × Bool)) :=
  match setRequest request with
  | .error e => some (.error e)
  | .ok reader =>
      (readTopics fuel reader).map (Except.map fun (topics, allOk, _) =>
        ({ correlationId := reader.getCorrelationId
           clientId := reader.getClientId
           requiredAcks := reader.getRequiredAcks
           replicationTimeout := reader.getReplicationTimeout
           topics }, allOk))

/-! ### The encodings, field by field -/

/-- A length the writers store, read back as the reader reads it: `-1` is an
empty string. -/
theorem nullAsEmpty_lengthOrNull (length : Nat) :
    TProduceResponseReader.nullAsEmpty (lengthOrNull length) = length := by
  unfold TProduceResponseReader.nullAsEmpty lengthOrNull
  by_cases empty : length = 0
  · simp [empty]
  · have notNull : (length : Int) ≠ -1 := by omega
    simp [empty, notNull]

/-- Items whose encodings are never empty are fewer than the bytes of their
encodings: a count the writer stores is bounded by the bytes after it. -/
theorem length_le_length_flatMap {α β : Type} {f : α → List β} (nonempty : ∀ item, 0 < (f item).length)
    (items : List α) : items.length ≤ (items.flatMap f).length :=
  calc items.length = (items.map fun item => (f item).length).length := (List.length_map _).symm
    _ ≤ (items.map fun item => (f item).length).sum :=
        List.length_le_sum_of_one_le _ fun length mem => by
          obtain ⟨item, -, rfl⟩ := List.mem_map.mp mem
          exact nonempty item
    _ = (items.flatMap f).length := by rw [List.length_flatMap]

/-- A length the writers store holds its value in a signed field wide enough
for the length. -/
theorem lengthOrNull_fits {width length : Nat} (short : length < 2 ^ (8 * width - 1)) :
    -2 ^ (8 * width - 1) ≤ lengthOrNull length ∧ lengthOrNull length < 2 ^ (8 * width - 1) := by
  have cast : (length : Int) < 2 ^ (8 * width - 1) := by exact_mod_cast short
  have positive : (0 : Int) < 2 ^ (8 * width - 1) := by positivity
  unfold lengthOrNull
  constructor <;> split_ifs <;> omega

namespace TProduceMsgContents

/-- A message's bytes, field by field. -/
theorem encode_fields (msg : TProduceMsgContents) :
    msg.encode = int64Field 0 ++ (int32Field msg.msgSize ++ (int32Field (crc32 msg.body).toNat ++
      ([0, UInt8.ofNat (compressionAttr msg.compressionType)] ++ (int32Field (lengthOrNull msg.key.length) ++
        (msg.key ++ (int32Field (lengthOrNull msg.value.length) ++ msg.value)))))) := by
  simp only [encode, body, List.append_assoc]

/-- Every field of a message the writer wrote reads back at the offset
`InitCurrentMsg()` and the getters compute for it. -/
theorem reads_encode {buf rest : List UInt8} {pos : Nat} {msg : TProduceMsgContents}
    (at_ : SuffixAt buf pos (msg.encode ++ rest)) (small : msg.encode.length ≤ int32Max) :
    readSignedAt? buf (↑pos + ↑msgOffsetSize) msgSizeSize = some ↑msg.msgSize ∧
      readUnsignedAt? buf (↑pos + ↑msgOffsetSize + ↑msgSizeSize) crcSize = some (crc32 msg.body).toNat ∧
      bytesAt? buf (↑pos + ↑msgOffsetSize + ↑msgSizeSize + ↑crcSize)
        ((msg.msgSize : Int) - (crcSize : Int)).toNat = some msg.body ∧
      readUnsignedAt? buf (↑pos + ↑msgOffsetSize + ↑msgSizeSize + ↑crcSize + ↑magicByteSize) 1 =
        some (compressionAttr msg.compressionType) ∧
      readSignedAt? buf (↑pos + ↑msgOffsetSize + ↑msgSizeSize + ↑crcSize + ↑magicByteSize + ↑attributesSize)
        keyLenSize = some (lengthOrNull msg.key.length) ∧
      bytesAt? buf (↑pos + 22) msg.key.length = some msg.key ∧
      readSignedAt? buf (↑pos + ↑msgOffsetSize + ↑msgSizeSize + ↑crcSize + ↑magicByteSize + ↑attributesSize +
        ↑keyLenSize + ↑msg.key.length) valueLenSize = some (lengthOrNull msg.value.length) ∧
      bytesAt? buf (↑pos + 26 + ↑msg.key.length) msg.value.length = some msg.value := by
  have length := msg.length_encode
  have lengths := msg.length_body
  simp only [TProduceMsgContents.body, List.length_append, List.length_cons, List.length_nil,
    length_int32Field] at lengths
  simp only [msgOffsetSize, msgSizeSize, crcSize, int32Max] at length lengths small
  rw [msg.encode_fields] at at_
  simp only [List.append_assoc] at at_
  -- the fields one after the other, from the size on
  have atSize := at_.skipBy (length_int64Field _)
  have atCrc := atSize.skipBy (length_int32Field _)
  have atBody := atCrc.skipBy (length_int32Field _)
  have atAttr : SuffixAt buf (pos + 8 + 4 + 4 + 1)
      (beBytes 1 (compressionAttr msg.compressionType) ++ (int32Field (lengthOrNull msg.key.length) ++
        (msg.key ++ (int32Field (lengthOrNull msg.value.length) ++ (msg.value ++ rest))))) :=
    (atBody.congr (rfl : _ = [(0 : UInt8)] ++ (beBytes 1 (compressionAttr msg.compressionType) ++
      (int32Field (lengthOrNull msg.key.length) ++ (msg.key ++ (int32Field (lengthOrNull msg.value.length) ++
        (msg.value ++ rest))))))).skipBy rfl
  have atKeyLen := atBody.skipBy
    (show [(0 : UInt8), UInt8.ofNat (compressionAttr msg.compressionType)].length = 2 from rfl)
  have atKey := atKeyLen.skipBy (length_int32Field _)
  have atValueLen := atKey.skip
  have atValue := atValueLen.skipBy (length_int32Field _)
  have keyLenFits := lengthOrNull_fits (show msg.key.length < 2 ^ (8 * 4 - 1) by omega)
  have valueLenFits := lengthOrNull_fits (show msg.value.length < 2 ^ (8 * 4 - 1) by omega)
  refine ⟨?size, ?crc, ?body, ?attr, ?keyLen, ?key, ?valueLen, ?value⟩
  case size =>
    rw [show (↑pos + ↑msgOffsetSize : Int) = ↑(pos + 8) by simp [msgOffsetSize], show msgSizeSize = 4 from rfl]
    exact atSize.readSignedAt? (by decide) (by omega) (by omega)
  case crc =>
    have crcFits : (crc32 msg.body).toNat < 2 ^ (8 * 4) := UInt32.toNat_lt_size _
    rw [int32Field, ofSigned_natCast crcFits] at atCrc
    rw [show (↑pos + ↑msgOffsetSize + ↑msgSizeSize : Int) = ↑(pos + 8 + 4) by simp [msgOffsetSize, msgSizeSize],
      show crcSize = 4 from rfl]
    exact atCrc.readUnsignedAt? crcFits
  case body =>
    have atBody' : SuffixAt buf (pos + 8 + 4 + 4) (msg.body ++ rest) :=
      atBody.congr (by simp only [TProduceMsgContents.body, List.append_assoc])
    rw [show (↑pos + ↑msgOffsetSize + ↑msgSizeSize + ↑crcSize : Int) = ↑(pos + 8 + 4 + 4) by
        simp [msgOffsetSize, msgSizeSize, crcSize],
      show ((msg.msgSize : Int) - (crcSize : Int)).toNat = msg.body.length by
        have bodyLength := msg.length_body
        simp only [crcSize] at bodyLength ⊢
        omega]
    exact atBody'.bytesAt?
  case attr =>
    rw [show (↑pos + ↑msgOffsetSize + ↑msgSizeSize + ↑crcSize + ↑magicByteSize : Int) = ↑(pos + 8 + 4 + 4 + 1) by
      simp [msgOffsetSize, msgSizeSize, crcSize, magicByteSize]]
    exact atAttr.readUnsignedAt? (by cases msg.compressionType <;> decide)
  case keyLen =>
    rw [show (↑pos + ↑msgOffsetSize + ↑msgSizeSize + ↑crcSize + ↑magicByteSize + ↑attributesSize : Int) =
        ↑(pos + 8 + 4 + 4 + 2) by simp [msgOffsetSize, msgSizeSize, crcSize, magicByteSize, attributesSize]; ring,
      show keyLenSize = 4 from rfl]
    exact atKeyLen.readSignedAt? (by decide) keyLenFits.1 keyLenFits.2
  case key =>
    rw [show (↑pos + 22 : Int) = ↑(pos + 8 + 4 + 4 + 2 + 4) by push_cast; ring]
    exact atKey.bytesAt?
  case valueLen =>
    rw [show (↑pos + ↑msgOffsetSize + ↑msgSizeSize + ↑crcSize + ↑magicByteSize + ↑attributesSize + ↑keyLenSize +
        ↑msg.key.length : Int) = ↑(pos + 8 + 4 + 4 + 2 + 4 + msg.key.length) by
          simp [msgOffsetSize, msgSizeSize, crcSize, magicByteSize, attributesSize, keyLenSize]; ring,
      show valueLenSize = 4 from rfl]
    exact atValueLen.readSignedAt? (by decide) valueLenFits.1 valueLenFits.2
  case value =>
    rw [show (↑pos + 26 + ↑msg.key.length : Int) = ↑(pos + 8 + 4 + 4 + 2 + 4 + msg.key.length + 4) by
      push_cast; ring]
    exact atValue.bytesAt?

end TProduceMsgContents

namespace TMsgSetContents

theorem length_encode (msgSet : TMsgSetContents) : msgSet.encode.length = 8 + msgSet.msgBytes.length := by
  simp only [encode, List.length_append, length_int32Field]

end TMsgSetContents

namespace TTopicContents

variable (topic : TTopicContents)

theorem length_encode : topic.encode.length =
    2 + topic.name.length + 4 + (topic.msgSets.flatMap TMsgSetContents.encode).length := by
  simp only [encode, List.length_append, length_int16Field, length_int32Field]

/-- A topic's bytes, field by field, in front of what follows them. -/
theorem suffixAt_fields {buf rest : List UInt8} {pos : Nat} (at_ : SuffixAt buf pos (topic.encode ++ rest)) :
    SuffixAt buf pos (int16Field (lengthOrNull topic.name.length) ++ (topic.name ++
      (int32Field topic.msgSets.length ++ (topic.msgSets.flatMap TMsgSetContents.encode ++ rest)))) :=
  at_.congr (by simp only [encode, List.append_assoc])

end TTopicContents

/-! ### Messages -/

namespace TMsgSetReader

/-- Where the next `NextMsg()` looks for a message: the start of the set
before the first call, else past the current message. -/
def NextAt (reader : TMsgSetReader) (pos : Int) : Prop :=
  (reader.currentMsg = none ∧ reader.beginPos = pos) ∨
    ∃ msg, reader.currentMsg = some msg ∧ msg < reader.endPos ∧
      msg + wrapSigned 4 (msgOffsetSize + msgSizeSize + reader.currentMsgSize) = pos

section Step

variable {buf : List UInt8} {reader : TMsgSetReader} {pos : Int}

/-- Before the end of the set, `NextMsg()` reads the message at the
position. -/
theorem nextMsg_of_lt (at_ : reader.NextAt pos) (before : pos < reader.endPos) :
    reader.nextMsg buf = (do let reader ← reader.initCurrentMsg buf pos; pure (true, reader)) := by
  rcases at_ with ⟨first, rfl⟩ | ⟨msg, current, inside, rfl⟩
  · simp only [nextMsg, first, firstMsg, if_pos before]
  · simp only [nextMsg, current, if_neg (Int.not_le.mpr inside), if_neg (Int.not_lt.mpr before.le),
      if_pos before]

/-- At the end of the set, `NextMsg()` says there is no more. -/
theorem nextMsg_of_eq (at_ : reader.NextAt pos) (atEnd : pos = reader.endPos) :
    ∃ after, reader.nextMsg buf = .ok (false, after) := by
  rcases at_ with ⟨first, rfl⟩ | ⟨msg, current, inside, rfl⟩
  · exact ⟨_, by simp only [nextMsg, first, firstMsg, atEnd, lt_irrefl, if_false]; rfl⟩
  · exact ⟨_, by simp only [nextMsg, current, if_neg (Int.not_le.mpr inside), atEnd, lt_irrefl, if_false]; rfl⟩

end Step

/-- The reader at the message `msg` that starts at `pos`, its CRC matched:
what `InitCurrentMsg()` makes of a message the writer wrote. -/
def atMsg (reader : TMsgSetReader) (pos : Nat) (msg : TProduceMsgContents) : TMsgSetReader :=
  { reader with
    currentMsg := some pos
    currentMsgSize := msg.msgSize
    currentMsgCrcOk := true
    currentMsgKeyBegin := some (pos + 22)
    currentMsgKeyEnd := some (pos + 22 + msg.key.length)
    currentMsgValueBegin := some (pos + 26 + msg.key.length)
    currentMsgValueEnd := some (pos + 26 + msg.key.length + msg.value.length) }

section Msg

variable {buf rest : List UInt8} {pos : Nat} {msg : TProduceMsgContents} (reader : TMsgSetReader)

theorem initCurrentMsg_encode (at_ : SuffixAt buf pos (msg.encode ++ rest))
    (inside : (pos : Int) + msg.encode.length ≤ reader.endPos) (small : msg.encode.length ≤ int32Max) :
    reader.initCurrentMsg buf pos = .ok (reader.atMsg pos msg) := by
  obtain ⟨sizeRead, crcRead, bodyRead, -, keyLenRead, -, valueLenRead, -⟩ := msg.reads_encode at_ small
  have length := msg.length_encode
  have lengths := msg.length_body
  simp only [TProduceMsgContents.body, List.length_append, List.length_cons, List.length_nil,
    length_int32Field] at lengths
  simp only [msgOffsetSize, msgSizeSize, crcSize, int32Max] at length lengths small
  have sizeEq : msg.msgSize = minMsgSize + msg.key.length + msg.value.length := rfl
  have minSize : minMsgSize = 14 := rfl
  -- each check of the source passes, in the order it makes them
  unfold initCurrentMsg
  dsimp only
  rw [if_neg (by simp only [msgOffsetSize, msgSizeSize] at inside ⊢; omega), sizeRead]
  dsimp only
  rw [if_neg (by omega), if_neg (by simp only [msgOffsetSize, msgSizeSize] at inside ⊢; omega), bodyRead, crcRead]
  dsimp only
  rw [if_pos rfl, keyLenRead]
  dsimp only
  rw [nullAsEmpty_lengthOrNull, if_neg (by omega), valueLenRead]
  dsimp only
  have wrapped : wrapSigned 4 (↑minMsgSize + ↑msg.key.length + ↑msg.value.length) = ↑msg.msgSize := by
    rw [wrapSigned_of_range (by decide) (by omega) (by omega), sizeEq]
    push_cast
    rfl
  rw [nullAsEmpty_lengthOrNull, wrapped, if_neg (by omega)]
  -- the pointers, as offsets past the message's start
  have keyBegin : (↑pos + ↑msgOffsetSize + ↑msgSizeSize + ↑crcSize + ↑magicByteSize + ↑attributesSize + ↑keyLenSize :
      Int) = ↑pos + 22 := by
    simp only [msgOffsetSize, msgSizeSize, crcSize, magicByteSize, attributesSize, keyLenSize]
    push_cast
    ring
  rw [keyBegin, show ((valueLenSize : Nat) : Int) = 4 from rfl, atMsg]
  congr 3 <;> ring

/-- The reader at a message the writer wrote hands out its compression type,
key and value. -/
theorem atMsg_fields (at_ : SuffixAt buf pos (msg.encode ++ rest)) (small : msg.encode.length ≤ int32Max) :
    (reader.atMsg pos msg).getCurrentMsgCompressionType buf = .ok msg.compressionType ∧
      (reader.atMsg pos msg).getCurrentMsgKey buf = some msg.key ∧
      (reader.atMsg pos msg).getCurrentMsgValue buf = some msg.value := by
  obtain ⟨-, -, -, attrRead, -, keyRead, -, valueRead⟩ := msg.reads_encode at_ small
  refine ⟨?_, ?_, ?_⟩
  · simp only [getCurrentMsgCompressionType, atMsg, attrRead]
    generalize msg.compressionType = compressionType
    cases compressionType <;> rfl
  · simp only [getCurrentMsgKey, atMsg, pointedBytes]
    rwa [show (↑pos + 22 + ↑msg.key.length - (↑pos + 22) : Int).toNat = msg.key.length by omega]
  · simp only [getCurrentMsgValue, atMsg, pointedBytes]
    rwa [show (↑pos + 26 + ↑msg.key.length + ↑msg.value.length - (↑pos + 26 + ↑msg.key.length) : Int).toNat =
        msg.value.length by omega]

end Msg

/-- The messages `msgs` are the rest of the reader's message set: they start
where the next `NextMsg()` looks and end where the set ends, and `rest`
follows them in the buffer. -/
structure MsgsAt (buf : List UInt8) (reader : TMsgSetReader) (pos : Nat) (msgs : List TProduceMsgContents)
    (rest : List UInt8) : Prop where
  next : reader.NextAt pos
  suffix : SuffixAt buf pos (msgs.flatMap TProduceMsgContents.encode ++ rest)
  ends : reader.endPos = pos + (msgs.flatMap TProduceMsgContents.encode).length
  small : (msgs.flatMap TProduceMsgContents.encode).length ≤ int32Max

section Walk

variable {buf rest : List UInt8} {reader : TMsgSetReader} {pos : Nat}

/-- The first message of the rest of the set, in front of the others. -/
theorem MsgsAt.head {msg : TProduceMsgContents} {msgs : List TProduceMsgContents}
    (at_ : reader.MsgsAt buf pos (msg :: msgs) rest) :
    SuffixAt buf pos (msg.encode ++ (msgs.flatMap TProduceMsgContents.encode ++ rest)) ∧
      msg.encode.length ≤ int32Max := by
  have small := at_.small
  simp only [List.flatMap_cons, List.length_append, int32Max] at small
  exact ⟨at_.suffix.congr (by rw [List.flatMap_cons, List.append_assoc]), by simp only [int32Max]; omega⟩

/-- `NextMsg()` reads the next message the writer wrote, and the rest of the
set follows it. -/
theorem MsgsAt.nextMsg_cons {msg : TProduceMsgContents} {msgs : List TProduceMsgContents}
    (at_ : reader.MsgsAt buf pos (msg :: msgs) rest) :
    reader.nextMsg buf = .ok (true, reader.atMsg pos msg) ∧
      (reader.atMsg pos msg).MsgsAt buf (pos + msg.encode.length) msgs rest := by
  obtain ⟨suffix, short⟩ := at_.head
  have length := msg.length_encode
  have ends := at_.ends
  have small := at_.small
  simp only [List.flatMap_cons, List.length_append] at ends small
  simp only [msgOffsetSize, msgSizeSize, int32Max] at length small
  refine ⟨?_, ⟨?_, suffix.skip, by rw [atMsg, ends]; push_cast; ring, by simp only [int32Max]; omega⟩⟩
  · rw [nextMsg_of_lt at_.next (by rw [ends]; omega), initCurrentMsg_encode reader suffix (by rw [ends]; omega) short]
    rfl
  · -- the next message starts past this one's offset, size and body
    refine .inr ⟨pos, rfl, by simp only [atMsg]; rw [ends]; omega, ?_⟩
    simp only [atMsg, msgOffsetSize, msgSizeSize]
    rw [show ((8 : Nat) : Int) + ((4 : Nat) : Int) + (msg.msgSize : Int) = ((8 + 4 + msg.msgSize : Nat) : Int) by
        push_cast; ring,
      wrapSigned_of_range (by decide) (by omega) (by omega), length]
    push_cast
    ring

/-- At the end of the set, `NextMsg()` says there is no more. -/
theorem MsgsAt.nextMsg_nil (at_ : reader.MsgsAt buf pos [] rest) : ∃ after, reader.nextMsg buf = .ok (false, after) :=
  nextMsg_of_eq at_.next (by rw [at_.ends]; simp)

end Walk

end TMsgSetReader

namespace TProduceRequestReader

/-- `while (NextMsgInMsgSet())` reads every message the writer wrote into the
set, each CRC matching.  By induction on the messages. -/
theorem readMsgs_encode {reader : TProduceRequestReader} {pos : Nat} {msgs : List TProduceMsgContents}
    {rest : List UInt8} (at_ : reader.msgSetReader.MsgsAt reader.buf pos msgs rest) {fuel : Nat}
    (enough : (msgs.flatMap TProduceMsgContents.encode).length < fuel) :
    ∃ msgSetReader, readMsgs fuel reader = some (.ok (msgs, true, { reader with msgSetReader })) := by
  induction msgs generalizing reader pos fuel with
  | nil =>
      obtain ⟨fuel, rfl⟩ : ∃ rounds, fuel = rounds + 1 := ⟨fuel - 1, by omega⟩
      obtain ⟨after, ended⟩ := at_.nextMsg_nil
      exact ⟨after, by simp only [readMsgs, nextMsgInMsgSet, ended, ok_bind, pure, Except.pure]⟩
  | cons msg msgs ih =>
      obtain ⟨found, next⟩ := at_.nextMsg_cons
      obtain ⟨suffix, short⟩ := at_.head
      obtain ⟨compressionType, key, value⟩ := reader.msgSetReader.atMsg_fields suffix short
      have length := msg.length_encode
      simp only [List.flatMap_cons, List.length_append, msgOffsetSize, msgSizeSize] at enough length
      obtain ⟨fuel, rfl⟩ : ∃ rounds, fuel = rounds + 1 := ⟨fuel - 1, by omega⟩
      -- the rest of the set, from the reader at this message
      let reader' : TProduceRequestReader := { reader with msgSetReader := reader.msgSetReader.atMsg pos msg }
      have next' : reader'.msgSetReader.MsgsAt reader'.buf (pos + msg.encode.length) msgs rest := next
      have enough' : (msgs.flatMap TProduceMsgContents.encode).length < fuel := by omega
      obtain ⟨after, ran⟩ := ih next' enough'
      refine ⟨after, ?_⟩
      simp only [readMsgs, nextMsgInMsgSet, found, ok_bind, pure, Except.pure]
      simp only [readCurrentMsg, compressionType, key, value]
      rw [ran]
      rfl

/-! ### Message sets -/

/-- The reader at the message set `msgSet` that starts at `pos`, as the
`index`th partition of its topic: what `InitCurrentPartition()` makes of a
message set the writer wrote. -/
def atMsgSet (reader : TProduceRequestReader) (index : Int) (pos : Nat) (msgSet : TMsgSetContents) :
    TProduceRequestReader :=
  { reader with
    currentPartitionIndexInTopic := index
    currentPartitionBegin := pos
    partitionMsgSetBegin := pos + 8
    partitionMsgSetEnd := pos + 8 + msgSet.msgBytes.length
    msgSetReader := TMsgSetReader.setMsgSet (pos + 8) msgSet.msgBytes.length }

theorem initCurrentPartition_encode {reader : TProduceRequestReader} {pos : Nat} {msgSet : TMsgSetContents}
    {rest : List UInt8} (at_ : SuffixAt reader.buf pos (msgSet.encode ++ rest))
    (begin : reader.currentPartitionBegin = pos) (inside : pos + msgSet.encode.length ≤ reader.endPos)
    (small : msgSet.encode.length ≤ int32Max) :
    reader.initCurrentPartition = .ok (reader.atMsgSet reader.currentPartitionIndexInTopic pos msgSet) := by
  have length := msgSet.length_encode
  simp only [int32Max] at small
  have sizeRead : readSignedAt? reader.buf (reader.currentPartitionBegin + ↑partitionSize) msgSetSizeSize =
      some ↑msgSet.msgBytes.length := by
    have atSize := (at_.congr (by rw [TMsgSetContents.encode, List.append_assoc, List.append_assoc])).skipBy
      (length_int32Field _)
    rw [begin, show (↑pos + ↑partitionSize : Int) = ↑(pos + 4) by simp [partitionSize],
      show msgSetSizeSize = 4 from rfl]
    exact atSize.readSignedAt? (by decide) (by omega) (by omega)
  unfold initCurrentPartition
  dsimp only
  rw [if_neg (by simp only [begin, partitionSize, msgSetSizeSize]; omega), sizeRead]
  dsimp only
  have setBegin : (↑pos + ↑partitionSize + ↑msgSetSizeSize : Int) = ↑pos + 8 := by
    simp only [partitionSize, msgSetSizeSize]
    push_cast
    ring
  rw [if_neg (by simp only [begin, partitionSize, msgSetSizeSize]; omega),
    toSize_natCast (by omega), begin, setBegin, atMsgSet]

/-- The message sets `msgSets` are the rest of the current topic: they start
where the next `NextMsgSetInTopic()` looks, with as many partitions left to
walk, and `rest` follows them in the request. -/
structure SetsAt (reader : TProduceRequestReader) (pos : Nat) (msgSets : List TMsgSetContents)
    (rest : List UInt8) : Prop where
  next : (reader.currentPartitionIndexInTopic = -1 ∧ reader.currentTopicNameEnd + partitionCountSize = pos ∧
      reader.numPartitionsInTopic = msgSets.length) ∨
    (0 ≤ reader.currentPartitionIndexInTopic ∧ reader.partitionMsgSetEnd = pos ∧
      reader.numPartitionsInTopic = reader.currentPartitionIndexInTopic + 1 + msgSets.length)
  suffix : SuffixAt reader.buf pos (msgSets.flatMap TMsgSetContents.encode ++ rest)
  inside : pos + (msgSets.flatMap TMsgSetContents.encode).length ≤ reader.endPos
  small : (msgSets.flatMap TMsgSetContents.encode).length ≤ int32Max
  partitions : ∀ msgSet ∈ msgSets, -2 ^ 31 ≤ msgSet.partition ∧ msgSet.partition < 2 ^ 31

/-- The walk over a topic's partitions has ended at `pos`, in the request
and at the topic `reader` is at. -/
structure WalkedTopic (after reader : TProduceRequestReader) (pos : Nat) : Prop where
  buf : after.buf = reader.buf
  endPos : after.endPos = reader.endPos
  numTopics : after.numTopics = reader.numTopics
  currentTopicIndex : after.currentTopicIndex = reader.currentTopicIndex
  begin : after.currentPartitionBegin = pos
  walked : 0 ≤ after.currentPartitionIndexInTopic ∧ after.numPartitionsInTopic ≤ after.currentPartitionIndexInTopic

section Sets

variable {reader : TProduceRequestReader} {pos : Nat} {rest : List UInt8}

/-- `NextMsgSetInTopic()` finds the next message set the writer wrote, as the
next partition of the topic. -/
theorem SetsAt.nextMsgSetInTopic_cons {msgSet : TMsgSetContents} {msgSets : List TMsgSetContents}
    (at_ : reader.SetsAt pos (msgSet :: msgSets) rest) :
    ∃ index, reader.nextMsgSetInTopic = .ok (true, reader.atMsgSet index pos msgSet) ∧ 0 ≤ index ∧
      reader.numPartitionsInTopic = index + 1 + msgSets.length := by
  have suffix : SuffixAt reader.buf pos (msgSet.encode ++ (msgSets.flatMap TMsgSetContents.encode ++ rest)) :=
    at_.suffix.congr (by rw [List.flatMap_cons, List.append_assoc])
  have inside := at_.inside
  have small := at_.small
  simp only [List.flatMap_cons, List.length_append] at inside small
  have within : ↑pos + ↑msgSet.encode.length ≤ reader.endPos := by push_cast at inside ⊢; omega
  have short : msgSet.encode.length ≤ int32Max := by omega
  rcases at_.next with ⟨first, nameEnd, count⟩ | ⟨started, setEnd, count⟩
  · -- the first partition of the topic starts after the partition count
    let reader' : TProduceRequestReader := { reader with
      currentPartitionIndexInTopic := 0
      currentPartitionBegin := reader.currentTopicNameEnd + partitionCountSize }
    have initialized := initCurrentPartition_encode (show SuffixAt reader'.buf pos _ from suffix) nameEnd within short
    refine ⟨0, ?_, le_refl 0, by rw [count]; simp; omega⟩
    unfold nextMsgSetInTopic firstMsgSetInTopic
    rw [if_pos (by rw [first]; decide)]
    dsimp only
    rw [if_pos (by rw [count]; simp), initialized]
    rfl
  · -- a later partition starts where the message set before it ends
    let reader' : TProduceRequestReader := { reader with
      currentPartitionBegin := reader.partitionMsgSetEnd
      currentPartitionIndexInTopic := reader.currentPartitionIndexInTopic + 1 }
    have initialized := initCurrentPartition_encode (show SuffixAt reader'.buf pos _ from suffix) setEnd within short
    refine ⟨reader.currentPartitionIndexInTopic + 1, ?_, by omega, by rw [count]; simp; omega⟩
    unfold nextMsgSetInTopic
    rw [if_neg (by omega), if_neg (by rw [count]; simp; omega)]
    dsimp only
    rw [if_pos (by rw [count]; simp), initialized]
    rfl

/-- Past the last message set of the topic, `NextMsgSetInTopic()` says there
is no more, and the walk over the partitions has ended where the sets end. -/
theorem SetsAt.nextMsgSetInTopic_nil (at_ : reader.SetsAt pos [] rest) :
    ∃ after, reader.nextMsgSetInTopic = .ok (false, after) ∧ after.WalkedTopic reader pos := by
  rcases at_.next with ⟨first, nameEnd, count⟩ | ⟨started, setEnd, count⟩
  · refine ⟨{ reader with
      currentPartitionIndexInTopic := 0
      currentPartitionBegin := reader.currentTopicNameEnd + partitionCountSize }, ?_,
      ⟨rfl, rfl, rfl, rfl, nameEnd, by simp [count]⟩⟩
    unfold nextMsgSetInTopic firstMsgSetInTopic
    rw [if_pos (by rw [first]; decide)]
    dsimp only
    rw [if_neg (by rw [count]; simp)]
    rfl
  · refine ⟨{ reader with
      currentPartitionBegin := reader.partitionMsgSetEnd
      currentPartitionIndexInTopic := reader.currentPartitionIndexInTopic + 1
      msgSetReader := {} }, ?_, ⟨rfl, rfl, rfl, rfl, setEnd, by simp only [count]; simp; omega⟩⟩
    unfold nextMsgSetInTopic
    rw [if_neg (by omega), if_neg (by rw [count]; simp)]
    dsimp only
    rw [if_neg (by rw [count]; simp)]
    rfl

/-- The message set reader of a message set the writer wrote holds its
messages, and the partition is read back. -/
theorem SetsAt.atMsgSet_msgs {msgSet : TMsgSetContents} {msgSets : List TMsgSetContents}
    (at_ : reader.SetsAt pos (msgSet :: msgSets) rest) (index : Int) :
    (reader.atMsgSet index pos msgSet).getPartitionOfCurrentMsgSet = some msgSet.partition ∧
      (reader.atMsgSet index pos msgSet).msgSetReader.MsgsAt (reader.atMsgSet index pos msgSet).buf (pos + 8)
        msgSet.msgs (msgSets.flatMap TMsgSetContents.encode ++ rest) := by
  have suffix : SuffixAt reader.buf pos (int32Field msgSet.partition ++ (int32Field msgSet.msgBytes.length ++
      (msgSet.msgs.flatMap TProduceMsgContents.encode ++ (msgSets.flatMap TMsgSetContents.encode ++ rest)))) :=
    at_.suffix.congr (by simp only [List.flatMap_cons, TMsgSetContents.encode, TMsgSetContents.msgBytes,
      List.append_assoc])
  have small := at_.small
  simp only [List.flatMap_cons, List.length_append, TMsgSetContents.encode, length_int32Field, int32Max,
    TMsgSetContents.msgBytes] at small
  obtain ⟨lower, upper⟩ := at_.partitions msgSet List.mem_cons_self
  refine ⟨suffix.readSignedAt? (by decide) lower upper,
    ⟨.inl ⟨rfl, by simp [atMsgSet, TMsgSetReader.setMsgSet]⟩, ?_, ?_, by simp only [int32Max]; omega⟩⟩
  · exact (suffix.skipBy (length_int32Field _)).skipBy (length_int32Field _)
  · simp only [atMsgSet, TMsgSetReader.setMsgSet, TMsgSetContents.msgBytes]
    rw [toSigned, if_pos (by omega)]
    push_cast
    ring

end Sets

/-- `while (NextMsgSetInTopic())` reads every message set the writer wrote
into the topic, with its partition and its messages, and ends the walk over
the partitions where the sets end.  By induction on the message sets. -/
theorem readMsgSets_encode {reader : TProduceRequestReader} {pos : Nat} {msgSets : List TMsgSetContents}
    {rest : List UInt8} (at_ : reader.SetsAt pos msgSets rest) {fuel : Nat}
    (enough : (msgSets.flatMap TMsgSetContents.encode).length < fuel) :
    ∃ after, readMsgSets fuel reader = some (.ok (msgSets, true, after)) ∧
      after.WalkedTopic reader (pos + (msgSets.flatMap TMsgSetContents.encode).length) := by
  induction msgSets generalizing reader pos fuel with
  | nil =>
      obtain ⟨fuel, rfl⟩ : ∃ rounds, fuel = rounds + 1 := ⟨fuel - 1, by omega⟩
      obtain ⟨after, ended, walked⟩ := at_.nextMsgSetInTopic_nil
      exact ⟨after, by simp only [readMsgSets, ended], by simpa using walked⟩
  | cons msgSet msgSets ih =>
      obtain ⟨index, found, started, count⟩ := at_.nextMsgSetInTopic_cons
      obtain ⟨partitionRead, msgsAt⟩ := at_.atMsgSet_msgs index
      have length := msgSet.length_encode
      simp only [List.flatMap_cons, List.length_append] at enough
      obtain ⟨fuel, rfl⟩ : ∃ rounds, fuel = rounds + 1 := ⟨fuel - 1, by omega⟩
      -- the messages of the set, then the sets after it
      obtain ⟨msgSetReader, msgsRead⟩ := readMsgs_encode msgsAt
        (show (msgSet.msgs.flatMap TProduceMsgContents.encode).length < fuel by
          simp only [TMsgSetContents.msgBytes] at length
          omega)
      let read : TProduceRequestReader := { reader.atMsgSet index pos msgSet with msgSetReader }
      have setsAt : read.SetsAt (pos + msgSet.encode.length) msgSets rest := by
        have inside := at_.inside
        have small := at_.small
        simp only [List.flatMap_cons, List.length_append] at inside small
        refine ⟨.inr ⟨started, ?_, count⟩, at_.suffix.congr (by rw [List.flatMap_cons, List.append_assoc]) |>.skip,
          ?_, by omega, fun other mem => at_.partitions other (List.mem_cons_of_mem msgSet mem)⟩
        · show (↑pos + 8 + ↑msgSet.msgBytes.length : Int) = ↑(pos + msgSet.encode.length)
          rw [length]
          push_cast
          ring
        · show ↑(pos + msgSet.encode.length) + ↑(msgSets.flatMap TMsgSetContents.encode).length ≤ reader.endPos
          push_cast at inside ⊢
          omega
      have enough' : (msgSets.flatMap TMsgSetContents.encode).length < fuel := by omega
      obtain ⟨after, ran, walked⟩ := ih setsAt enough'
      have ran' : readMsgSets fuel { reader.atMsgSet index pos msgSet with msgSetReader } =
          some (.ok (msgSets, true, after)) := ran
      refine ⟨after, ?_, ⟨walked.buf, walked.endPos, walked.numTopics, walked.currentTopicIndex,
        by rw [walked.begin, List.flatMap_cons, List.length_append, Nat.add_assoc], walked.walked⟩⟩
      simp only [readMsgSets, found, partitionRead, msgsRead, ran']
      rfl

/-! ### Topics -/

/-- The reader at the topic `topic` that starts at `pos`, as the `index`th
topic of the request: what `InitCurrentTopic()` makes of a topic the writer
wrote, with the walk over its partitions not started. -/
def atTopic (reader : TProduceRequestReader) (index : Int) (pos : Nat) (topic : TTopicContents) :
    TProduceRequestReader :=
  { reader with
    currentTopicIndex := index
    currentTopicBegin := pos
    currentTopicNameEnd := pos + 2 + topic.name.length
    numPartitionsInTopic := topic.msgSets.length
    currentPartitionIndexInTopic := -1
    currentPartitionBegin := 0
    partitionMsgSetBegin := 0
    partitionMsgSetEnd := 0 }

section Topic

variable {reader : TProduceRequestReader} {pos : Nat} {topic : TTopicContents} {rest : List UInt8}

theorem initCurrentTopic_encode (at_ : SuffixAt reader.buf pos (topic.encode ++ rest))
    (begin : reader.currentTopicBegin = pos) (inside : pos + topic.encode.length ≤ reader.endPos)
    (named : topic.name.length ≤ int16Max) (small : topic.encode.length ≤ int32Max) :
    reader.initCurrentTopic = .ok (reader.atTopic reader.currentTopicIndex pos topic) := by
  have length := topic.length_encode
  have count : topic.msgSets.length ≤ (topic.msgSets.flatMap TMsgSetContents.encode).length :=
    length_le_length_flatMap (fun msgSet => by simp [TMsgSetContents.encode]) topic.msgSets
  simp only [int32Max, int16Max] at small named
  have suffix := topic.suffixAt_fields at_
  have nameLenRead : readSignedAt? reader.buf reader.currentTopicBegin topicNameLenSize =
      some (lengthOrNull topic.name.length) := by
    have nameLenFits := lengthOrNull_fits (show topic.name.length < 2 ^ (8 * 2 - 1) by omega)
    rw [begin, show topicNameLenSize = 2 from rfl]
    exact suffix.readSignedAt? (by decide) nameLenFits.1 nameLenFits.2
  have countRead : readSignedAt? reader.buf (reader.currentTopicBegin + ↑topicNameLenSize + ↑topic.name.length)
      partitionCountSize = some ↑topic.msgSets.length := by
    rw [begin, show (↑pos + ↑topicNameLenSize + ↑topic.name.length : Int) = ↑(pos + 2 + topic.name.length) by
        simp [topicNameLenSize],
      show partitionCountSize = 4 from rfl]
    exact ((suffix.skipBy (length_int16Field _)).skip).readSignedAt? (by decide) (by omega) (by omega)
  unfold initCurrentTopic
  rw [if_neg (by simp only [begin, topicNameLenSize]; omega), nameLenRead]
  dsimp only
  rw [nullAsEmpty_lengthOrNull, if_neg (by omega),
    if_neg (by simp only [begin, topicNameLenSize, partitionCountSize]; omega), countRead]
  dsimp only
  rw [if_neg (by omega), atTopic, begin, show ((topicNameLenSize : Nat) : Int) = 2 from rfl]

/-- A topic name longer than `INT16_MAX` bytes has a length field that reads
back negative, and `InitCurrentTopic()` refuses it: `OpenTopic()` stores the
length through `static_cast<int16_t>`, which wraps it.  (A length of
`2^16 - 1` wraps to -1 and reads as an empty name instead.) -/
theorem initCurrentTopic_of_long_name (at_ : SuffixAt reader.buf pos (topic.encode ++ rest))
    (begin : reader.currentTopicBegin = pos) (inside : pos + topicNameLenSize ≤ reader.endPos)
    (long : int16Max < topic.name.length) (short : topic.name.length + 1 < 2 ^ 16) :
    reader.initCurrentTopic = .error badTopicNameLen := by
  simp only [int16Max] at long
  -- the stored bytes are those of the length less 2^16
  have wrapped : int16Field (lengthOrNull topic.name.length) =
      beBytes 2 (ofSigned 2 ((topic.name.length : Int) - 2 ^ 16)) := by
    rw [int16Field, lengthOrNull, if_neg (by omega), ofSigned, ofSigned, Int.sub_emod_right]
  have nameLenRead : readSignedAt? reader.buf reader.currentTopicBegin topicNameLenSize =
      some ((topic.name.length : Int) - 2 ^ 16) := by
    have suffix := topic.suffixAt_fields at_
    rw [wrapped] at suffix
    rw [begin, show topicNameLenSize = 2 from rfl]
    exact suffix.readSignedAt? (by decide) (by omega) (by omega)
  unfold initCurrentTopic
  rw [if_neg (by rw [begin]; omega), nameLenRead]
  dsimp only
  rw [TProduceResponseReader.nullAsEmpty, if_neg (show (topic.name.length : Int) - 2 ^ 16 ≠ -1 by omega),
    if_pos (show (topic.name.length : Int) - 2 ^ 16 < 0 by omega)]

/-- The reader at a topic the writer wrote reads back its name, and its
message sets follow the partition count. -/
theorem atTopic_sets (at_ : SuffixAt reader.buf pos (topic.encode ++ rest))
    (inside : pos + topic.encode.length ≤ reader.endPos) (small : topic.encode.length ≤ int32Max)
    (partitions : ∀ msgSet ∈ topic.msgSets, -2 ^ 31 ≤ msgSet.partition ∧ msgSet.partition < 2 ^ 31) (index : Int) :
    (reader.atTopic index pos topic).getCurrentTopicName = topic.name ∧
      (reader.atTopic index pos topic).SetsAt (pos + 2 + topic.name.length + 4) topic.msgSets rest := by
  have length := topic.length_encode
  have atName := (topic.suffixAt_fields at_).skipBy (length_int16Field _)
  refine ⟨?_, ⟨.inl ⟨rfl, by simp only [atTopic, partitionCountSize]; push_cast; ring, rfl⟩,
    (atName.skip.skipBy (length_int32Field _)), ?_, by omega, partitions⟩⟩
  · simp only [getCurrentTopicName, atTopic, topicNameLenSize]
    rw [show (↑pos + 2 + ↑topic.name.length - ↑pos - ↑(2 : Nat) : Int).toNat = topic.name.length by omega,
      show (↑pos + ↑(2 : Nat) : Int).toNat = pos + 2 by omega]
    exact atName.bytesAt
  · show ↑(pos + 2 + topic.name.length + 4) + ↑(topic.msgSets.flatMap TMsgSetContents.encode).length ≤ reader.endPos
    push_cast at inside ⊢
    omega

end Topic

/-- The topics `topics` are the rest of the request: they start where the
next `NextTopic()` looks, with as many topics left, after a walk over the
partitions of the topic before that has ended. -/
structure TopicsAt (reader : TProduceRequestReader) (pos : Nat) (topics : List TTopicContents) : Prop where
  next : (reader.currentTopicIndex = -1 ∧
      (clientIdBegin : Int) + reader.clientIdLen + requiredAcksSize + replicationTimeoutSize + topicCountSize = pos ∧
      reader.numTopics = topics.length) ∨
    (0 ≤ reader.currentTopicIndex ∧ reader.currentPartitionBegin = pos ∧ 0 ≤ reader.currentPartitionIndexInTopic ∧
      reader.numPartitionsInTopic ≤ reader.currentPartitionIndexInTopic ∧
      reader.numTopics = reader.currentTopicIndex + 1 + topics.length)
  suffix : SuffixAt reader.buf pos (topics.flatMap TTopicContents.encode)
  ends : reader.endPos = pos + (topics.flatMap TTopicContents.encode).length
  small : (topics.flatMap TTopicContents.encode).length ≤ int32Max
  names : ∀ topic ∈ topics, topic.name.length ≤ int16Max
  partitions : ∀ topic ∈ topics, ∀ msgSet ∈ topic.msgSets, -2 ^ 31 ≤ msgSet.partition ∧ msgSet.partition < 2 ^ 31

section Topics

variable {reader : TProduceRequestReader} {pos : Nat}

/-- `NextTopic()` after a walk over the partitions of the topic before:
it moves past that topic and reads the next one. -/
theorem nextTopic_of_walked (started : 0 ≤ reader.currentTopicIndex)
    (walking : 0 ≤ reader.currentPartitionIndexInTopic)
    (walked : reader.numPartitionsInTopic ≤ reader.currentPartitionIndexInTopic)
    (more : reader.currentTopicIndex < reader.numTopics) :
    reader.nextTopic = if reader.currentTopicIndex + 1 < reader.numTopics then do
        let reader ← { reader with
          currentTopicBegin := reader.currentPartitionBegin
          currentTopicIndex := reader.currentTopicIndex + 1 }.initCurrentTopic
        pure (true, reader)
      else pure (false, { reader with
        currentTopicBegin := reader.currentPartitionBegin
        currentTopicIndex := reader.currentTopicIndex + 1 }) := by
  unfold nextTopic
  rw [if_neg (by omega), if_neg (by omega)]
  simp only [if_neg (show reader.currentPartitionIndexInTopic ≠ -1 by omega), pure, Except.pure, ok_bind,
    decide_eq_false (show ¬reader.currentPartitionIndexInTopic < reader.numPartitionsInTopic by omega),
    Bool.false_eq_true, if_false]

/-- `NextTopic()` finds the next topic the writer wrote. -/
theorem TopicsAt.nextTopic_cons {topic : TTopicContents} {topics : List TTopicContents}
    (at_ : reader.TopicsAt pos (topic :: topics)) :
    ∃ index, reader.nextTopic = .ok (true, reader.atTopic index pos topic) ∧ 0 ≤ index ∧
      reader.numTopics = index + 1 + topics.length := by
  have suffix : SuffixAt reader.buf pos (topic.encode ++ topics.flatMap TTopicContents.encode) :=
    at_.suffix.congr (by rw [List.flatMap_cons])
  have ends := at_.ends
  have small := at_.small
  simp only [List.flatMap_cons, List.length_append] at ends small
  have inside : ↑pos + ↑topic.encode.length ≤ reader.endPos := by rw [ends]; push_cast; omega
  have named := at_.names topic List.mem_cons_self
  have short : topic.encode.length ≤ int32Max := by omega
  rcases at_.next with ⟨first, topicsBegin, count⟩ | ⟨started, begin, walking, walked, count⟩
  · let reader' : TProduceRequestReader := { reader with
      currentTopicIndex := 0
      currentTopicBegin := clientIdBegin + reader.clientIdLen + requiredAcksSize + replicationTimeoutSize +
        topicCountSize }
    have initialized :=
      initCurrentTopic_encode (show SuffixAt reader'.buf pos _ from suffix) topicsBegin inside named short
    refine ⟨0, ?_, le_refl 0, by rw [count]; simp; omega⟩
    unfold nextTopic firstTopic
    rw [if_pos (by rw [first]; decide)]
    dsimp only
    rw [if_pos (by rw [count]; simp), initialized]
    rfl
  · -- the walk over the partitions of the topic before has ended, where this topic starts
    let reader' : TProduceRequestReader := { reader with
      currentTopicBegin := reader.currentPartitionBegin
      currentTopicIndex := reader.currentTopicIndex + 1 }
    have initialized := initCurrentTopic_encode (show SuffixAt reader'.buf pos _ from suffix) begin inside named short
    refine ⟨reader.currentTopicIndex + 1, ?_, by omega, by rw [count]; simp; omega⟩
    rw [nextTopic_of_walked started walking walked (by rw [count]; simp; omega), if_pos (by rw [count]; simp),
      initialized]
    rfl

/-- Past the last topic, `NextTopic()` says there is no more. -/
theorem TopicsAt.nextTopic_nil (at_ : reader.TopicsAt pos []) : ∃ after, reader.nextTopic = .ok (false, after) := by
  rcases at_.next with ⟨first, -, count⟩ | ⟨started, -, walking, walked, count⟩
  · exact ⟨_, by
      unfold nextTopic firstTopic
      rw [if_pos (by rw [first]; decide)]
      dsimp only
      rw [if_neg (by rw [count]; simp)]
      rfl⟩
  · exact ⟨_, by rw [nextTopic_of_walked started walking walked (by rw [count]; simp),
      if_neg (by rw [count]; simp)]; rfl⟩

end Topics

/-- `while (NextTopic())` reads every topic the writer wrote, with its name
and its message sets.  By induction on the topics. -/
theorem readTopics_encode {reader : TProduceRequestReader} {pos : Nat} {topics : List TTopicContents}
    (at_ : reader.TopicsAt pos topics) {fuel : Nat} (enough : (topics.flatMap TTopicContents.encode).length < fuel) :
    ∃ after, readTopics fuel reader = some (.ok (topics, true, after)) := by
  induction topics generalizing reader pos fuel with
  | nil =>
      obtain ⟨fuel, rfl⟩ : ∃ rounds, fuel = rounds + 1 := ⟨fuel - 1, by omega⟩
      obtain ⟨after, ended⟩ := at_.nextTopic_nil
      exact ⟨after, by simp only [readTopics, ended]⟩
  | cons topic topics ih =>
      obtain ⟨index, found, started, count⟩ := at_.nextTopic_cons
      have suffix : SuffixAt reader.buf pos (topic.encode ++ topics.flatMap TTopicContents.encode) :=
        at_.suffix.congr (by rw [List.flatMap_cons])
      have ends := at_.ends
      have small := at_.small
      have length := topic.length_encode
      simp only [List.flatMap_cons, List.length_append] at ends small enough
      obtain ⟨named, setsAt⟩ := atTopic_sets suffix (by rw [ends]; push_cast; omega) (by omega)
        (at_.partitions topic List.mem_cons_self) index
      obtain ⟨fuel, rfl⟩ : ∃ rounds, fuel = rounds + 1 := ⟨fuel - 1, by omega⟩
      obtain ⟨walkedReader, setsRead, walked⟩ := readMsgSets_encode setsAt
        (show (topic.msgSets.flatMap TMsgSetContents.encode).length < fuel by omega)
      -- the next topic starts where the walk over this one's partitions ended
      have topicsAt : walkedReader.TopicsAt (pos + topic.encode.length) topics := by
        refine ⟨.inr ⟨by rw [walked.currentTopicIndex]; exact started, by rw [walked.begin, length]; push_cast; ring,
          walked.walked.1, walked.walked.2, by rw [walked.numTopics, walked.currentTopicIndex]; exact count⟩,
          by rw [walked.buf]; exact suffix.skip, ?_, by omega,
          fun other mem => at_.names other (List.mem_cons_of_mem topic mem),
          fun other mem => at_.partitions other (List.mem_cons_of_mem topic mem)⟩
        rw [walked.endPos]
        show reader.endPos = _
        rw [ends]
        push_cast
        ring
      obtain ⟨after, ran⟩ := ih topicsAt (show (topics.flatMap TTopicContents.encode).length < fuel by omega)
      refine ⟨after, ?_⟩
      simp only [readTopics, found, setsRead, ran, named]
      rfl

end TProduceRequestReader

/-! ### The request -/

namespace TProduceRequestContents

variable (request : TProduceRequestContents)

/-- A request's bytes, field by field from its start. -/
theorem suffixAt_encode : SuffixAt request.encode 0 (int32Field request.body.length ++ (int16Field 0 ++
    (int16Field 0 ++ (int32Field request.correlationId ++ (int16Field (lengthOrNull request.clientId.length) ++
      (request.clientId ++ (int16Field request.requiredAcks ++ (int32Field request.replicationTimeout ++
        (int32Field request.topics.length ++ request.topics.flatMap TTopicContents.encode))))))))) :=
  ⟨[], by simp only [encode, body, List.append_assoc, List.nil_append], rfl⟩

/-- The topics start after the header and the client ID. -/
theorem suffixAt_topics :
    SuffixAt request.encode (24 + request.clientId.length) (request.topics.flatMap TTopicContents.encode) := by
  have atTopics := ((((((((request.suffixAt_encode.skipBy (length_int32Field _)).skipBy (length_int16Field _)).skipBy
    (length_int16Field _)).skipBy (length_int32Field _)).skipBy (length_int16Field _)).skip).skipBy
      (length_int16Field _)).skipBy (length_int32Field _)).skipBy (length_int32Field _)
  rwa [show 0 + 4 + 2 + 2 + 4 + 2 + request.clientId.length + 2 + 4 + 4 = 24 + request.clientId.length by omega]
    at atTopics

theorem length_body : request.body.length =
    20 + request.clientId.length + (request.topics.flatMap TTopicContents.encode).length := by
  simp only [body, List.length_append, length_int16Field, length_int32Field]
  omega

theorem length_encode : request.encode.length = 4 + request.body.length := by
  simp only [encode, List.length_append, length_int32Field]

end TProduceRequestContents

open TProduceRequestReader

/-- The topics start after the header and the client ID. -/
theorem topicsBegin_eq (clientIdLength : Nat) :
    (clientIdBegin : Int) + clientIdLength + requiredAcksSize + replicationTimeoutSize + topicCountSize =
      ↑(24 + clientIdLength) := by
  simp only [clientIdBegin, clientIdLenOffset, requestOrResponseSizeSize, apiKeySize, apiVersionSize,
    correlationIdSize, clientIdLenSize, requiredAcksSize, replicationTimeoutSize, topicCountSize]
  push_cast
  ring

/-- `SetRequest()` accepts a request the writer wrote whose client ID and
size fields hold their values: the request ends where its size field says,
and its client ID length and topic count are those written. -/
theorem setRequest_encode {request : TProduceRequestContents} (clientIdShort : request.clientId.length ≤ int16Max)
    (small : request.body.length ≤ int32Max) :
    setRequest request.encode = .ok
      { buf := request.encode, endPos := request.encode.length, clientIdLen := request.clientId.length,
        numTopics := request.topics.length } := by
  have length := request.length_body
  have count : request.topics.length ≤ (request.topics.flatMap TTopicContents.encode).length :=
    length_le_length_flatMap (fun topic => by simp [TTopicContents.encode]) request.topics
  have total := request.length_encode
  simp only [int32Max, int16Max] at small clientIdShort
  have at0 := request.suffixAt_encode
  have at4 := at0.skipBy (length_int32Field _)
  have at6 := at4.skipBy (length_int16Field _)
  have at12 := (at6.skipBy (length_int16Field _)).skipBy (length_int32Field _)
  have atCount := (((at12.skipBy (length_int16Field _)).skip).skipBy (length_int16Field _)).skipBy
    (length_int32Field _)
  have sizeRead := at0.readSigned (by decide) (by omega) (by omega)
  have keyRead : readSigned request.encode requestOrResponseSizeSize apiKeySize = 0 :=
    at4.readSigned (by decide) (by decide) (by decide)
  have versionRead : readSigned request.encode (requestOrResponseSizeSize + apiKeySize) apiVersionSize = 0 :=
    at6.readSigned (by decide) (by decide) (by decide)
  have clientIdLenFits := lengthOrNull_fits (show request.clientId.length < 2 ^ (8 * 2 - 1) by omega)
  have clientIdLenRead : readSigned request.encode clientIdLenOffset clientIdLenSize =
      lengthOrNull request.clientId.length :=
    at12.readSigned (by decide) clientIdLenFits.1 clientIdLenFits.2
  have countRead : readSigned request.encode (clientIdBegin + (request.clientId.length : Int).toNat +
      requiredAcksSize + replicationTimeoutSize) topicCountSize = request.topics.length := by
    rw [Int.toNat_natCast, show topicCountSize = 4 from rfl]
    exact atCount.readSigned (by decide) (by omega) (by omega)
  have sized : getRequestOrResponseSize request.encode = .ok request.encode.length := by
    rw [getRequestOrResponseSize, sizeRead, if_neg (by omega), total, requestOrResponseSizeSize, Int.toNat_natCast,
      Nat.add_comm]
  have header : minSize = 24 := rfl
  -- each check of the source passes, in the order it makes them
  unfold setRequest
  rw [if_neg (by simp only [total, requestOrResponseSizeSize]; omega), sized]
  dsimp only
  rw [if_neg (by omega), if_neg (by omega), if_neg (by rw [keyRead]; decide), if_neg (by rw [versionRead]; decide),
    clientIdLenRead, nullAsEmpty_lengthOrNull, if_neg (by omega), if_neg (by omega), countRead, if_neg (by omega)]

/-- A request the writer wrote whose fields hold their values reads back as
itself, every CRC matching. -/
theorem readRequest_encode {request : TProduceRequestContents} (fits : request.Fits) {fuel : Nat}
    (enough : request.encode.length < fuel) : readRequest fuel request.encode = some (.ok (request, true)) := by
  have length := request.length_body
  have total := request.length_encode
  have clientIdShort := fits.clientId
  have small := fits.size
  simp only [int32Max, int16Max] at small clientIdShort
  have at8 := ((request.suffixAt_encode.skipBy (length_int32Field _)).skipBy (length_int16Field _)).skipBy
    (length_int16Field _)
  have at14 := (at8.skipBy (length_int32Field _)).skipBy (length_int16Field _)
  have atAcks := at14.skip
  have atTimeout := atAcks.skipBy (length_int16Field _)
  let reader : TProduceRequestReader :=
    { buf := request.encode, endPos := request.encode.length, clientIdLen := request.clientId.length,
      numTopics := request.topics.length }
  have topicsAt : reader.TopicsAt (24 + request.clientId.length) request.topics :=
    ⟨.inl ⟨rfl, topicsBegin_eq _, rfl⟩, request.suffixAt_topics, by simp only [reader, total, length]; push_cast; ring, by simp only [int32Max]; omega,
      fits.names, fits.partitions⟩
  obtain ⟨after, ran⟩ := readTopics_encode topicsAt
    (show (request.topics.flatMap TTopicContents.encode).length < fuel by omega)
  -- the header getters
  have correlationIdRead : reader.getCorrelationId = request.correlationId :=
    at8.readSigned (by decide) fits.correlationId.1 fits.correlationId.2
  have clientIdRead : reader.getClientId = request.clientId := by
    rw [getClientId, Int.toNat_natCast]
    exact at14.bytesAt
  have requiredAcksRead : reader.getRequiredAcks = request.requiredAcks := by
    rw [getRequiredAcks, Int.toNat_natCast]
    exact atAcks.readSigned (by decide) fits.requiredAcks.1 fits.requiredAcks.2
  have replicationTimeoutRead : reader.getReplicationTimeout = request.replicationTimeout := by
    rw [getReplicationTimeout, Int.toNat_natCast]
    exact atTimeout.readSigned (by decide) fits.replicationTimeout.1 fits.replicationTimeout.2
  rw [readRequest, setRequest_encode fits.clientId fits.size]
  dsimp only
  rw [ran]
  simp only [reader] at correlationIdRead clientIdRead requiredAcksRead replicationTimeoutRead
  simp only [Option.map, Except.map, correlationIdRead, clientIdRead, requiredAcksRead, replicationTimeoutRead]

/-- The writer's request for contents whose fields hold their values: its
bytes are the encoding, its size field holds the size of the rest, and the
reader reads every field back, every CRC matching. -/
theorem readRequest_writeRequest (resultBuf : List UInt8) {request : TProduceRequestContents} (fits : request.Fits)
    {fuel : Nat} (enough : (writeRequest resultBuf request).length < fuel) :
    writeRequest resultBuf request = request.encode ∧
      readRequest fuel (writeRequest resultBuf request) = some (.ok (request, true)) ∧
      readSigned (writeRequest resultBuf request) 0 4 = (writeRequest resultBuf request).length - 4 := by
  have written := writeRequest_eq_encode resultBuf request
  have total := request.length_encode
  have small := fits.size
  simp only [int32Max] at small
  rw [written] at enough ⊢
  refine ⟨rfl, readRequest_encode fits enough, ?_⟩
  rw [request.suffixAt_encode.readSigned (by decide) (by omega) (by omega), total]
  push_cast
  ring

/-- A request with one topic, one message set and one message. -/
def oneMsgRequest : TProduceRequestContents :=
  ⟨7, [99], 1, 1000, [⟨[116], [⟨3, [⟨.none, [1], [2, 3]⟩]⟩]⟩]⟩

theorem readRequest_writeRequest_oneMsg :
    oneMsgRequest.Fits ∧
      (writeRequest [] oneMsgRequest = oneMsgRequest.encode ∧
        readRequest 100 (writeRequest [] oneMsgRequest) = some (.ok (oneMsgRequest, true)) ∧
        readSigned (writeRequest [] oneMsgRequest) 0 4 = (writeRequest [] oneMsgRequest).length - 4) := by
  have fits : oneMsgRequest.Fits :=
    ⟨by decide, by decide, by decide, by decide, by decide, by decide, by decide⟩
  exact ⟨fits, readRequest_writeRequest [] fits (by rw [writeRequest_eq_encode]; decide)⟩

/-- A request whose first topic's name is longer than `INT16_MAX` bytes does
not read back: the reader refuses the name length the writer stored. -/
theorem readRequest_of_long_name {request : TProduceRequestContents} {topic : TTopicContents}
    {topics : List TTopicContents} (first : request.topics = topic :: topics)
    (clientIdShort : request.clientId.length ≤ int16Max) (small : request.body.length ≤ int32Max)
    (long : int16Max < topic.name.length) (short : topic.name.length + 1 < 2 ^ 16) (fuel : Nat) :
    readRequest (fuel + 1) request.encode = some (.error badTopicNameLen) := by
  have length := request.length_body
  have total := request.length_encode
  have topicLength := topic.length_encode
  rw [first, List.flatMap_cons, List.length_append] at length
  let reader' : TProduceRequestReader :=
    { buf := request.encode, endPos := request.encode.length, clientIdLen := request.clientId.length,
      numTopics := request.topics.length, currentTopicIndex := 0,
      currentTopicBegin := clientIdBegin + (request.clientId.length : Int) + requiredAcksSize +
        replicationTimeoutSize + topicCountSize }
  have topicAt : SuffixAt reader'.buf (24 + request.clientId.length)
      (topic.encode ++ topics.flatMap TTopicContents.encode) := by
    have suffix := request.suffixAt_topics
    rwa [first, List.flatMap_cons] at suffix
  have refused := initCurrentTopic_of_long_name topicAt (topicsBegin_eq _)
    (by simp only [reader', total, length, topicNameLenSize]; push_cast; omega) long short
  rw [readRequest, setRequest_encode clientIdShort small]
  dsimp only
  rw [readTopics, nextTopic]
  dsimp only
  rw [if_pos (by decide), firstTopic]
  dsimp only
  rw [if_pos (by rw [first]; simp), refused]
  rfl

/-- One topic whose name is `INT16_MAX + 1` bytes long. -/
def longTopicNameRequest : TProduceRequestContents :=
  ⟨0, [], 1, 0, [⟨List.replicate 32768 116, []⟩]⟩

theorem readRequest_longTopicNameRequest :
    readRequest 100 (writeRequest [] longTopicNameRequest) = some (.error badTopicNameLen) := by
  rw [writeRequest_eq_encode]
  have small : longTopicNameRequest.body.length ≤ int32Max := by
    simp [TProduceRequestContents.length_body, longTopicNameRequest, TTopicContents.length_encode, int32Max,
      -List.reduceReplicate]
  exact readRequest_of_long_name rfl (by decide) small (by rw [List.length_replicate]; decide)
    (by rw [List.length_replicate]; decide) 99

end Dory.KafkaProto
