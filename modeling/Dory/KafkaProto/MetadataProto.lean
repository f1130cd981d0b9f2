/-
Module: Dory.KafkaProto.MetadataProto
Purpose: `TMetadataProto` (src/dory/kafka_proto/metadata/v0/
  metadata_proto.{h,cc}), the version 0 metadata protocol the daemon's
  metadata fetcher calls: it writes the two kinds of metadata request,
  builds `TMetadata` from a metadata response, and decides whether a topic
  autocreate succeeded.  `BuildMetadataFromResponse` walks the response
  with `TMetadataResponseReader` and feeds the builder every broker, then
  every topic without an error code with its partitions; a partition may be
  sent to when its error code is "none" or "replica not available".  Its
  three `while` loops are recursions that end because a `Next*` call that
  finds an item enters its list or counts it down, and the inner loop keeps
  the count of the outer one.  A `std::string` assigned from a byte range is
  a `String` of one character per byte; a range that ends before it begins
  (what the reader gives for a string length of -1) is `readOutsideBuffer`.
  C++ leaves the order in which a call's arguments are evaluated
  unspecified; the model reads them left to right, which decides only which
  error is reported when several getters would throw.  The counters and logs
  of `TopicAutocreateWasSuccessful` are left out.  As in the reader, asserts
  are not checked.
Trusted boundary: none
Main exports: TKafkaErrorCode, canSendToPartition, assignRange,
  brokerLoop, partitionLoop, topicStep, topicLoop,
  buildMetadataFromResponse, topicAutocreateWasSuccessful,
  writeAllTopicsMetadataRequest, writeSingleTopicMetadataRequest
-/
import Dory.KafkaProto.MetadataRequest
import Dory.KafkaProto.MetadataResponseReader
import Dory.Metadata.Sanity

namespace Dory.KafkaProto

open Dory.Foundation Dory.Foundation.Bytes Dory.TMetadata TMetadataResponseFields TMetadataResponseError

/-! ### Error codes -/

/-! The values of kafka_error_code.h that the protocol compares with. -/

namespace TKafkaErrorCode

def none : Int := 0
def leaderNotAvailable : Int := 5
def replicaNotAvailable : Int := 9

end TKafkaErrorCode

/-- `CanSendToPartition(error_code)`: a partition whose replica is not
available may still be sent to through its leader. -/
def canSendToPartition (errorCode : Int) : Bool :=
  errorCode = TKafkaErrorCode.none || errorCode = TKafkaErrorCode.replicaNotAvailable

/-! ### Strings from the response -/

/-- A `std::string` holding `bytes`, one character per byte. -/
def bytesToString (bytes : List UInt8) : String :=
  String.ofList (bytes.map fun byte => Char.ofNat byte.toNat)

/-- `name.assign(begin, end)` for a range given as offsets from `Buf`: its
bytes, or a fault when it is not a range inside the buffer. -/
def assignRange (buf : List UInt8) (rangeBegin rangeEnd : Nat) : Except TMetadataResponseError (List UInt8) :=
  if rangeBegin ≤ rangeEnd ∧ rangeEnd ≤ buf.length then .ok (bytesAt buf rangeBegin (rangeEnd - rangeBegin))
  else .error readOutsideBuffer

/-! ### What a successful `Next*` call that finds an item does -/

namespace TMetadataResponseReader

variable {reader after : TMetadataResponseReader}

theorem initNamedItem_found {buf : List UInt8} {left offset lengthOffset lengthSize : Nat}
    {itemSize : Nat → Nat} {badLength : TMetadataResponseError} {length : Nat}
    (found : initNamedItem buf left offset lengthOffset lengthSize itemSize badLength = .ok (true, length)) :
    left ≠ 0 := by
  unfold initNamedItem at found
  split at found
  · cases found
  · assumption

theorem initItem_found {buf : List UInt8} {left offset itemSize : Nat}
    (found : initItem buf left offset itemSize = .ok true) : left ≠ 0 := by
  unfold initItem at found
  split at found
  · cases found
  · assumption

theorem initBroker_found (init : reader.initBroker = .ok (true, after)) : reader.brokersLeft ≠ 0 := by
  obtain ⟨⟨found, length⟩, named, rest⟩ := bind_eq_ok init
  cases rest
  exact initNamedItem_found named

theorem initTopic_found (init : reader.initTopic = .ok (true, after)) : reader.topicsLeft ≠ 0 := by
  obtain ⟨⟨found, length⟩, named, rest⟩ := bind_eq_ok init
  cases rest
  exact initNamedItem_found named

theorem initPartition_found (init : reader.initPartition = .ok (true, after)) :
    reader.partitionsLeftInTopic ≠ 0 := by
  obtain ⟨found, item, rest⟩ := bind_eq_ok init
  cases rest
  exact initItem_found item

theorem firstBroker_state {found : Bool} (first : reader.firstBroker = .ok (found, after)) :
    after.state = .inBrokerList := by
  unfold firstBroker at first
  split at first
  · cases first
  · obtain ⟨count, -, init⟩ := bind_eq_ok first
    obtain ⟨length, rfl⟩ := initBroker_eq init
    rfl

/-- A `NextBroker()` that finds a broker is in the broker list and has
entered it or counted it down. -/
theorem nextBroker_found (moved : reader.nextBroker = .ok (true, after)) :
    after.state ≠ .initial ∧ (reader.state = .initial ∨ after.brokersLeft < reader.brokersLeft) := by
  unfold nextBroker at moved
  split at moved
  · rename_i starting
    rw [firstBroker_state moved]
    exact ⟨by decide, .inl starting⟩
  · rename_i listed
    have left := initBroker_found moved
    obtain ⟨length, rfl⟩ := initBroker_eq moved
    exact ⟨listed, .inr (by simp only at left ⊢; omega)⟩

/-- A `NextTopic()` that finds a topic is in the topic list and has entered
it or counted it down. -/
theorem nextTopic_found (moved : reader.nextTopic = .ok (true, after)) :
    ¬after.state.toNat ≤ TState.inBrokerList.toNat ∧
      (reader.state.toNat ≤ TState.inBrokerList.toNat ∨ after.topicsLeft < reader.topicsLeft) := by
  unfold nextTopic at moved
  split at moved
  · rename_i starting
    rw [firstTopic_state moved]
    exact ⟨by decide, .inl starting⟩
  · rename_i listed
    obtain ⟨skipped, skip, init⟩ := bind_eq_ok moved
    have same := (skipRemainingPartitions_keeps skip).topicsLeft
    have left := initTopic_found init
    obtain ⟨length, rfl⟩ := initTopic_eq init
    exact ⟨by simp [TState.toNat], .inr (by simp only at left ⊢; omega)⟩

/-- Every successful `NextPartitionInTopic()` leaves the reader in the
partition list. -/
theorem nextPartitionInTopic_state {found : Bool} (moved : reader.nextPartitionInTopic = .ok (found, after)) :
    after.state = .inPartitionList := by
  unfold nextPartitionInTopic at moved
  split at moved
  · exact (firstPartitionInTopic_keeps moved).2
  · obtain ⟨finished, -, init⟩ := bind_eq_ok moved
    rw [initPartition_eq init]

/-- A `NextPartitionInTopic()` that finds a partition has entered the list
or counted it down. -/
theorem nextPartitionInTopic_found (moved : reader.nextPartitionInTopic = .ok (true, after)) :
    reader.state = .inTopicList ∨ after.partitionsLeftInTopic < reader.partitionsLeftInTopic := by
  by_cases starting : reader.state = .inTopicList
  · exact .inl starting
  · rw [nextPartitionInTopic_of_listed starting] at moved
    obtain ⟨finished, finish, init⟩ := bind_eq_ok moved
    have same := (finishPartition_keeps finish).partitionsLeftInTopic
    have left := initPartition_found init
    rw [initPartition_eq init]
    exact .inr (by simp only at left ⊢; omega)

end TMetadataResponseReader

open TMetadataResponseReader

/-! ### `BuildMetadataFromResponse` -/

namespace TMetadataProto

/-- The loop `while (reader.NextBroker())` of `BuildMetadataFromResponse`:
each broker's host, node ID and port go to `AddBroker`. -/
def brokerLoop (reader : TMetadataResponseReader) (builder : TBuilder) :
    Except TMetadataResponseError (TMetadataResponseReader × TBuilder) :=
  match _moved : reader.nextBroker with
  | .error e => .error e
  | .ok (false, after) => .ok (after, builder)
  | .ok (true, after) => do
      let name ← assignRange after.buf after.getCurrentBrokerHostBegin after.getCurrentBrokerHostEnd
      let nodeId ← after.getCurrentBrokerNodeId
      let port ← after.getCurrentBrokerPort
      -- the port is checked to be a `uint16_t`
      brokerLoop after (builder.addBroker nodeId (bytesToString name) (UInt16.ofNat port.toNat))
termination_by (if reader.state = .initial then 1 else 0, reader.brokersLeft)
decreasing_by
  obtain ⟨entered, progress⟩ := nextBroker_found _moved
  exact countdown_lex entered progress

/-- What one turn of the broker loop does: it stops when no broker is left,
or reads one and adds it. -/
theorem brokerLoop_eq_ok {reader reader' : TMetadataResponseReader} {builder builder' : TBuilder}
    (looped : brokerLoop reader builder = .ok (reader', builder')) :
    reader.nextBroker = .ok (false, reader') ∧ builder' = builder ∨
      ∃ after name nodeId port, reader.nextBroker = .ok (true, after) ∧
        assignRange after.buf after.getCurrentBrokerHostBegin after.getCurrentBrokerHostEnd = .ok name ∧
        after.getCurrentBrokerNodeId = .ok nodeId ∧ after.getCurrentBrokerPort = .ok port ∧
        brokerLoop after (builder.addBroker nodeId (bytesToString name) (UInt16.ofNat port.toNat)) =
          .ok (reader', builder') := by
  rw [brokerLoop] at looped
  split at looped
  · cases looped
  · rename_i after moved
    cases looped
    exact .inl ⟨moved, rfl⟩
  · rename_i after moved
    obtain ⟨name, nameRead, rest⟩ := bind_eq_ok looped
    obtain ⟨nodeId, nodeIdRead, rest⟩ := bind_eq_ok rest
    obtain ⟨port, portRead, rest⟩ := bind_eq_ok rest
    exact .inr ⟨after, name, nodeId, port, moved, nameRead, nodeIdRead, portRead, rest⟩

/-- The broker loop on a reader with no broker left returns at once. -/
theorem brokerLoop_of_done {reader after : TMetadataResponseReader} (builder : TBuilder)
    (moved : reader.nextBroker = .ok (false, after)) : brokerLoop reader builder = .ok (after, builder) := by
  rw [brokerLoop]
  split <;> rename_i found <;> rw [moved] at found <;> cases found
  rfl

/-- The broker loop on a reader that finds a broker adds it and goes on. -/
theorem brokerLoop_of_found {reader after : TMetadataResponseReader} (builder : TBuilder) {name : List UInt8}
    {nodeId port : Int} (moved : reader.nextBroker = .ok (true, after))
    (nameRead : assignRange after.buf after.getCurrentBrokerHostBegin after.getCurrentBrokerHostEnd = .ok name)
    (nodeIdRead : after.getCurrentBrokerNodeId = .ok nodeId) (portRead : after.getCurrentBrokerPort = .ok port) :
    brokerLoop reader builder =
      brokerLoop after (builder.addBroker nodeId (bytesToString name) (UInt16.ofNat port.toNat)) := by
  rw [brokerLoop]
  split <;> rename_i found <;> rw [moved] at found <;> cases found
  simp only [nameRead, nodeIdRead, portRead, ok_bind]

/-- The broker loop makes `AddBroker` calls and nothing else. -/
theorem brokerLoop_calls {reader reader' : TMetadataResponseReader} {builder builder' : TBuilder}
    (looped : brokerLoop reader builder = .ok (reader', builder')) :
    ∃ calls, builder' = builder.addBrokers calls := by
  induction reader, builder using brokerLoop.induct with
  | case1 reader builder e moved =>
      rcases brokerLoop_eq_ok looped with ⟨moved', -⟩ | ⟨_, _, _, _, moved', -⟩ <;> simp [moved] at moved'
  | case2 reader builder after moved =>
      rcases brokerLoop_eq_ok looped with ⟨-, rfl⟩ | ⟨_, _, _, _, moved', -⟩
      · exact ⟨[], rfl⟩
      · simp [moved] at moved'
  | case3 reader builder after moved ih =>
      rcases brokerLoop_eq_ok looped with ⟨moved', -⟩ | ⟨after', name, nodeId, port, moved', -, -, -, rest⟩
      · simp [moved] at moved'
      · rw [moved] at moved'
        cases moved'
        -- the broker read first, then the calls of the rest of the loop
        obtain ⟨calls, rfl⟩ := ih _ _ _ rest
        exact ⟨⟨nodeId, bytesToString name, UInt16.ofNat port.toNat⟩ :: calls, rfl⟩

/-- The loop `while (reader.NextPartitionInTopic())` of
`BuildMetadataFromResponse`: each partition goes to `AddPartitionToTopic`
of the open topic. -/
def partitionLoop (reader : TMetadataResponseReader) (builder : TBuilder) :
    Except TMetadataResponseError (TMetadataResponseReader × TBuilder) :=
  match _moved : reader.nextPartitionInTopic with
  | .error e => .error e
  | .ok (false, after) => .ok (after, builder)
  | .ok (true, after) => do
      let errorCode ← after.getCurrentPartitionErrorCode
      let partitionId ← after.getCurrentPartitionId
      let leaderId ← after.getCurrentPartitionLeaderId
      partitionLoop after
        (builder.addPartitionToTopic partitionId leaderId (canSendToPartition errorCode) (Int16.ofInt errorCode))
termination_by (if reader.state = .inTopicList then 1 else 0, reader.partitionsLeftInTopic)
decreasing_by
  exact countdown_lex (by rw [nextPartitionInTopic_state _moved]; decide) (nextPartitionInTopic_found _moved)

/-- What one turn of the partition loop does: it stops when no partition is
left, or reads one and adds it. -/
theorem partitionLoop_eq_ok {reader reader' : TMetadataResponseReader} {builder builder' : TBuilder}
    (looped : partitionLoop reader builder = .ok (reader', builder')) :
    reader.nextPartitionInTopic = .ok (false, reader') ∧ builder' = builder ∨
      ∃ after errorCode partitionId leaderId, reader.nextPartitionInTopic = .ok (true, after) ∧
        after.getCurrentPartitionErrorCode = .ok errorCode ∧ after.getCurrentPartitionId = .ok partitionId ∧
        after.getCurrentPartitionLeaderId = .ok leaderId ∧
        partitionLoop after (builder.addPartitionToTopic partitionId leaderId (canSendToPartition errorCode)
          (Int16.ofInt errorCode)) = .ok (reader', builder') := by
  rw [partitionLoop] at looped
  split at looped
  · cases looped
  · rename_i after moved
    cases looped
    exact .inl ⟨moved, rfl⟩
  · rename_i after moved
    obtain ⟨errorCode, errorCodeRead, rest⟩ := bind_eq_ok looped
    obtain ⟨partitionId, partitionIdRead, rest⟩ := bind_eq_ok rest
    obtain ⟨leaderId, leaderIdRead, rest⟩ := bind_eq_ok rest
    exact .inr ⟨after, errorCode, partitionId, leaderId, moved, errorCodeRead, partitionIdRead, leaderIdRead, rest⟩

/-- The partition loop on a reader with no partition left returns at once. -/
theorem partitionLoop_of_done {reader after : TMetadataResponseReader} (builder : TBuilder)
    (moved : reader.nextPartitionInTopic = .ok (false, after)) :
    partitionLoop reader builder = .ok (after, builder) := by
  rw [partitionLoop]
  split <;> rename_i found <;> rw [moved] at found <;> cases found
  rfl

/-- The partition loop keeps the current topic, and leaves the reader in the
partition list. -/
theorem partitionLoop_keeps {reader reader' : TMetadataResponseReader} {builder builder' : TBuilder}
    (looped : partitionLoop reader builder = .ok (reader', builder')) :
    KeepsTopics reader reader' ∧ reader'.state = .inPartitionList := by
  induction reader, builder using partitionLoop.induct with
  | case1 reader builder e moved =>
      rcases partitionLoop_eq_ok looped with ⟨moved', -⟩ | ⟨_, _, _, _, moved', -⟩ <;> simp [moved] at moved'
  | case2 reader builder after moved =>
      rcases partitionLoop_eq_ok looped with ⟨moved', -⟩ | ⟨_, _, _, _, moved', -⟩
      · rw [moved] at moved'
        cases moved'
        exact ⟨nextPartitionInTopic_keeps moved, nextPartitionInTopic_state moved⟩
      · simp [moved] at moved'
  | case3 reader builder after moved ih =>
      rcases partitionLoop_eq_ok looped with ⟨moved', -⟩ | ⟨after', _, _, _, moved', -, -, -, rest⟩
      · simp [moved] at moved'
      · rw [moved] at moved'
        cases moved'
        have kept := ih _ _ _ rest
        exact ⟨(nextPartitionInTopic_keeps moved).trans kept.1, kept.2⟩

/-- The partition loop makes `AddPartitionToTopic` calls and nothing
else. -/
theorem partitionLoop_calls {reader reader' : TMetadataResponseReader} {builder builder' : TBuilder}
    (looped : partitionLoop reader builder = .ok (reader', builder')) :
    ∃ calls : List TPartitionCall, builder' = calls.foldl
      (fun builder call =>
        builder.addPartitionToTopic call.partitionId call.brokerId call.canSendToPartition call.errorCode)
      builder := by
  induction reader, builder using partitionLoop.induct with
  | case1 reader builder e moved =>
      rcases partitionLoop_eq_ok looped with ⟨moved', -⟩ | ⟨_, _, _, _, moved', -⟩ <;> simp [moved] at moved'
  | case2 reader builder after moved =>
      rcases partitionLoop_eq_ok looped with ⟨-, rfl⟩ | ⟨_, _, _, _, moved', -⟩
      · exact ⟨[], rfl⟩
      · simp [moved] at moved'
  | case3 reader builder after moved ih =>
      rcases partitionLoop_eq_ok looped with
        ⟨moved', -⟩ | ⟨after', errorCode, partitionId, leaderId, moved', -, -, -, rest⟩
      · simp [moved] at moved'
      · rw [moved] at moved'
        cases moved'
        obtain ⟨calls, rfl⟩ := ih _ _ _ rest
        exact ⟨⟨partitionId, leaderId, canSendToPartition errorCode, Int16.ofInt errorCode⟩ :: calls, rfl⟩

/-- The body of the loop `while (reader.NextTopic())` of
`BuildMetadataFromResponse`, at the topic the reader has found: a topic with
an error code is skipped, and one whose name the builder has had is ignored
(`OpenTopic` returns false and logs it); any other topic is opened, takes its
partitions and is closed. -/
def topicStep (reader : TMetadataResponseReader) (builder : TBuilder) :
    Except TMetadataResponseError (TMetadataResponseReader × TBuilder) := do
  let errorCode ← reader.getCurrentTopicErrorCode
  if errorCode ≠ 0 then pure (reader, builder)
  else
    let name ← assignRange reader.buf reader.getCurrentTopicNameBegin reader.getCurrentTopicNameEnd
    match builder.openTopic (bytesToString name) with
    | (false, builder) => pure (reader, builder)
    | (true, builder) => do
        let (reader, builder) ← partitionLoop reader builder
        pure (reader, builder.closeTopic)

/-- The turn of a topic without an error code that the builder opens: its
partitions, and then `CloseTopic`. -/
theorem topicStep_of_opened {reader after : TMetadataResponseReader} {builder opened filled : TBuilder}
    {name : List UInt8} (errorCodeRead : reader.getCurrentTopicErrorCode = .ok 0)
    (nameRead : assignRange reader.buf reader.getCurrentTopicNameBegin reader.getCurrentTopicNameEnd = .ok name)
    (accepted : builder.openTopic (bytesToString name) = (true, opened))
    (looped : partitionLoop reader opened = .ok (after, filled)) :
    topicStep reader builder = .ok (after, filled.closeTopic) := by
  simp only [topicStep, errorCodeRead, nameRead, accepted, looped, ok_bind, ne_eq, not_true_eq_false, if_false]
  rfl

/-- A topic's turn keeps the count of topics left, and leaves the reader
where it was or in the topic's partition list. -/
theorem topicStep_keeps {reader reader' : TMetadataResponseReader} {builder builder' : TBuilder}
    (stepped : topicStep reader builder = .ok (reader', builder')) :
    reader'.topicsLeft = reader.topicsLeft ∧ (reader'.state = reader.state ∨ reader'.state = .inPartitionList) := by
  obtain ⟨errorCode, -, rest⟩ := bind_eq_ok stepped
  split at rest
  · cases rest
    exact ⟨rfl, .inl rfl⟩
  · obtain ⟨name, -, rest⟩ := bind_eq_ok rest
    split at rest
    · cases rest
      exact ⟨rfl, .inl rfl⟩
    · obtain ⟨⟨after, opened⟩, looped, done⟩ := bind_eq_ok rest
      cases done
      have kept := partitionLoop_keeps looped
      exact ⟨kept.1.topicsLeft, .inr kept.2⟩

/-- A topic's turn is the calls of at most one topic, as `addTopic` makes
them. -/
theorem topicStep_calls {reader reader' : TMetadataResponseReader} {builder builder' : TBuilder}
    (stepped : topicStep reader builder = .ok (reader', builder')) :
    ∃ topics : List TTopicCalls, builder' = topics.foldl TBuilder.addTopic builder := by
  obtain ⟨errorCode, -, rest⟩ := bind_eq_ok stepped
  split at rest
  · -- a topic with an error code makes no call
    cases rest
    exact ⟨[], rfl⟩
  · obtain ⟨name, -, rest⟩ := bind_eq_ok rest
    split at rest
    · rename_i opened refused
      cases rest
      refine ⟨[⟨bytesToString name, []⟩], ?_⟩
      simp [TBuilder.addTopic, refused]
    · rename_i opened accepted
      obtain ⟨⟨after, filled⟩, looped, done⟩ := bind_eq_ok rest
      cases done
      obtain ⟨calls, rfl⟩ := partitionLoop_calls looped
      refine ⟨[⟨bytesToString name, calls⟩], ?_⟩
      simp [TBuilder.addTopic, accepted]

/-- The loop `while (reader.NextTopic())` of `BuildMetadataFromResponse`. -/
def topicLoop (reader : TMetadataResponseReader) (builder : TBuilder) :
    Except TMetadataResponseError TBuilder :=
  match _moved : reader.nextTopic with
  | .error e => .error e
  | .ok (false, _) => .ok builder
  | .ok (true, after) =>
      match _stepped : topicStep after builder with
      | .error e => .error e
      | .ok (reader', builder') => topicLoop reader' builder'
termination_by (if reader.state.toNat ≤ TState.inBrokerList.toNat then 1 else 0, reader.topicsLeft)
decreasing_by
  obtain ⟨entered, progress⟩ := nextTopic_found _moved
  obtain ⟨same, state⟩ := topicStep_keeps _stepped
  -- the topic's partitions leave the reader past the broker list, with the same topics left
  refine countdown_lex ?_ (same ▸ progress)
  rcases state with state | state <;> rw [state]
  · exact entered
  · decide

/-- The topic loop on a reader with no topic left returns at once. -/
theorem topicLoop_of_done {reader after : TMetadataResponseReader} (builder : TBuilder)
    (moved : reader.nextTopic = .ok (false, after)) : topicLoop reader builder = .ok builder := by
  rw [topicLoop]
  split <;> rename_i found <;> rw [moved] at found <;> cases found

/-- The topic loop on a reader that finds a topic takes the topic's turn
and goes on. -/
theorem topicLoop_of_stepped {reader after reader' : TMetadataResponseReader} {builder builder' : TBuilder}
    (moved : reader.nextTopic = .ok (true, after)) (stepped : topicStep after builder = .ok (reader', builder')) :
    topicLoop reader builder = topicLoop reader' builder' := by
  rw [topicLoop]
  split <;> rename_i found <;> rw [moved] at found <;> cases found
  split <;> rename_i result <;> rw [stepped] at result <;> cases result
  rfl

/-- What one turn of the topic loop does: it stops when no topic is left, or
takes the topic's turn and goes on. -/
theorem topicLoop_eq_ok {reader : TMetadataResponseReader} {builder builder' : TBuilder}
    (looped : topicLoop reader builder = .ok builder') :
    (∃ after, reader.nextTopic = .ok (false, after)) ∧ builder' = builder ∨
      ∃ after reader'' builder'', reader.nextTopic = .ok (true, after) ∧
        topicStep after builder = .ok (reader'', builder'') ∧ topicLoop reader'' builder'' = .ok builder' := by
  rw [topicLoop] at looped
  split at looped
  · cases looped
  · rename_i after moved
    cases looped
    exact .inl ⟨⟨after, moved⟩, rfl⟩
  · rename_i after moved
    split at looped
    · cases looped
    · rename_i reader'' builder'' stepped
      exact .inr ⟨after, reader'', builder'', moved, stepped, looped⟩

/-- The topic loop makes the calls of a list of topics, as `addTopic` makes
them. -/
theorem topicLoop_calls {reader : TMetadataResponseReader} {builder builder' : TBuilder}
    (looped : topicLoop reader builder = .ok builder') :
    ∃ topics : List TTopicCalls, builder' = topics.foldl TBuilder.addTopic builder := by
  induction reader, builder using topicLoop.induct with
  | case1 reader builder e moved =>
      rcases topicLoop_eq_ok looped with ⟨⟨_, moved'⟩, -⟩ | ⟨_, _, _, moved', -⟩ <;> simp [moved] at moved'
  | case2 reader builder after moved =>
      rcases topicLoop_eq_ok looped with ⟨-, rfl⟩ | ⟨_, _, _, moved', -⟩
      · exact ⟨[], rfl⟩
      · simp [moved] at moved'
  | case3 reader builder after moved e failed =>
      rcases topicLoop_eq_ok looped with ⟨⟨_, moved'⟩, -⟩ | ⟨after', _, _, moved', stepped, -⟩
      · simp [moved] at moved'
      · rw [moved] at moved'
        cases moved'
        simp [failed] at stepped
  | case4 reader builder after moved reader'' builder'' stepped ih =>
      rcases topicLoop_eq_ok looped with ⟨⟨_, moved'⟩, -⟩ | ⟨after', _, _, moved', stepped', rest⟩
      · simp [moved] at moved'
      · rw [moved] at moved'
        cases moved'
        rw [stepped] at stepped'
        cases stepped'
        -- this topic's calls, then those of the topics after it
        obtain ⟨first, rfl⟩ := topicStep_calls stepped
        obtain ⟨later, rfl⟩ := ih rest
        exact ⟨first ++ later, by rw [List.foldl_append]⟩

/-- `BuildMetadataFromResponse(response_buf, response_buf_size)`: the
brokers of the response, then its topics, then `Build()`.  `OpenBrokerList`
and `CloseBrokerList` only move the builder's `State`, which is read only by
asserts. -/
def buildMetadataFromResponse (engine : TRandomEngine) (responseBuf : List UInt8) :
    Except TMetadataResponseError TMetadata := do
  let (reader, builder) ← brokerLoop { buf := responseBuf } { randomEngine := engine }
  let builder ← topicLoop reader builder
  pure builder.build

/-- Every metadata `BuildMetadataFromResponse` returns is what a new builder
makes of calls that follow its protocol. -/
theorem buildMetadataFromResponse_eq_ofCalls {engine : TRandomEngine} {responseBuf : List UInt8}
    {metadata : TMetadata} (built : buildMetadataFromResponse engine responseBuf = .ok metadata) :
    ∃ brokers topics, metadata = TMetadata.ofCalls engine brokers topics := by
  obtain ⟨⟨reader, builder⟩, brokersRead, rest⟩ := bind_eq_ok built
  obtain ⟨builder', topicsRead, done⟩ := bind_eq_ok rest
  cases done
  obtain ⟨brokers, rfl⟩ := brokerLoop_calls brokersRead
  obtain ⟨topics, rfl⟩ := topicLoop_calls topicsRead
  exact ⟨brokers, topics, rfl⟩

/-- Whatever bytes a broker sends as a metadata response, the metadata the
daemon builds from it passes `SanityCheck()`. -/
theorem buildMetadataFromResponse_sane (engine : TRandomEngine) (responseBuf : List UInt8)
    {metadata : TMetadata} (built : buildMetadataFromResponse engine responseBuf = .ok metadata) :
    Sane metadata := by
  obtain ⟨brokers, topics, rfl⟩ := buildMetadataFromResponse_eq_ofCalls built
  exact ofCalls_sane engine brokers topics

/-- A response of one broker and one topic without partitions. -/
def oneTopicResponse : List UInt8 :=
  [0, 0, 0, 32,  0, 0, 0, 0,  0, 0, 0, 1,  0, 0, 0, 1, 0, 1, 97, 0, 0, 35, 132,
   0, 0, 0, 1,  0, 0, 0, 1, 116,  0, 0, 0, 0]

set_option maxRecDepth 20000 in
theorem buildMetadataFromResponse_oneTopic_sane :
    ∃ metadata, buildMetadataFromResponse ⟨fun _ => 0, 0⟩ oneTopicResponse = .ok metadata ∧
      Sane metadata := by
  -- the loops step through the response one item at a time
  have brokers := (brokerLoop_of_found { randomEngine := ⟨fun _ => 0, 0⟩ }
    (show ({ buf := oneTopicResponse } : TMetadataResponseReader).nextBroker = .ok (true, _) from rfl)
    rfl rfl rfl).trans (brokerLoop_of_done _ rfl)
  obtain ⟨metadata, built⟩ :
      ∃ metadata, buildMetadataFromResponse ⟨fun _ => 0, 0⟩ oneTopicResponse = .ok metadata := ⟨_, by
    rw [buildMetadataFromResponse, bind_of_eq_ok _ brokers]
    apply (bind_of_eq_ok _ ((topicLoop_of_stepped ?first ?stepped).trans
      (topicLoop_of_done _ ?done))).trans ?built
    case first => exact (TMetadataResponseReader.nextTopic_of_brokers_read rfl rfl).trans rfl
    case stepped => exact topicStep_of_opened rfl rfl rfl (partitionLoop_of_done _ rfl)
    case done => exact (TMetadataResponseReader.nextTopic_of_partitions_read rfl rfl).trans rfl
    case built => rfl⟩
  exact ⟨metadata, built, buildMetadataFromResponse_sane _ _ built⟩

/-- `TopicAutocreateWasSuccessful(topic, response_buf, response_buf_size)`,
with `topic` the bytes of the C string: the response's first topic must be
the topic, with the error code "none" or "leader not available" (which is
what a topic just created has). -/
def topicAutocreateWasSuccessful (topic responseBuf : List UInt8) : Except TMetadataResponseError Bool := do
  let (found, reader) ← TMetadataResponseReader.nextTopic { buf := responseBuf }
  if !found then pure false
  else
    let responseTopic ← assignRange reader.buf reader.getCurrentTopicNameBegin reader.getCurrentTopicNameEnd
    if responseTopic ≠ topic then pure false
    else
      let errorCode ← reader.getCurrentTopicErrorCode
      pure (errorCode = TKafkaErrorCode.none || errorCode = TKafkaErrorCode.leaderNotAvailable)

/-! ### The requests -/

/-- `WriteAllTopicsMetadataRequest(result, correlation_id)`. -/
def writeAllTopicsMetadataRequest (result : List UInt8) (correlationId : Int) : List UInt8 :=
  TMetadataRequestWriter.writeAllTopicsRequest result correlationId

/-- `WriteSingleTopicMetadataRequest(result, topic, correlation_id)`, with
`topic` the bytes of the C string, which `std::strlen` measures. -/
def writeSingleTopicMetadataRequest (result topic : List UInt8) (correlationId : Int) : List UInt8 :=
  TMetadataRequestWriter.writeSingleTopicRequest result topic correlationId

end TMetadataProto

end Dory.KafkaProto
