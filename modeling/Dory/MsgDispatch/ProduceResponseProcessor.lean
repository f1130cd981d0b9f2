/-
Module: Dory.MsgDispatch.ProduceResponseProcessor
Purpose: `TProduceResponseProcessor` (src/dory/msg_dispatch/
  produce_response_processor.{h,cc}) over the request types of
  src/dory/msg_dispatch/common.h.  `ProcessResponse` reads a produce response
  with `TProduceResponseReader` and, topic by topic and partition by
  partition, hands each acknowledged message set of the request to the shared
  state (processed or discarded) or to one of the processor's lists
  (immediate resend, resend after pause), erasing it from the request; at a
  bad response every set left goes to `MsgsWithoutAcks`.  The reader checks
  the response lazily, so it can throw after some partitions were handled:
  each function returns the state at the throw beside the error, as the
  caller sees it through its references.  `ProduceProtocol->ProcessAck` and
  the failed delivery attempt limit are parameters (`TDispatchConf`);
  counters, logging and the `MsgStateTracker` calls are left out.  At every
  return, normal or by a throw, the messages still in the request, in the
  processor's lists and released to the shared state are the request's
  messages, up to order and failed attempt counts; on a normal return the
  request is empty.  Release builds define `NDEBUG`, so the processor's
  asserts are not checked.
Trusted boundary: none
Main exports: TMultiPartitionGroup, TAllTopics, TProduceRequest, msgsOf,
  WellFormed, TAckResultAction, TDiscardReason, TDispatchConf,
  TDispatcherSharedState, TProduceResponseProcessor, TAction,
  countFailedDeliveryAttempt, processOneAck, processNoAckMsgs, TAckState,
  ackPartitions, ackTopics, processResponseAcks, processResponse, SameMsgs,
  countFailedDeliveryAttempt_eq, processResponse_sameMsgs,
  processResponse_allTopics_of_ok
-/
import Dory.Msg
import Dory.Foundation.KeyedList
import Dory.KafkaProto.ProduceResponseReader

namespace Dory.MsgDispatch

open Dory.Foundation
open Dory.KafkaProto

/-! ### Requests (common.h) -/

/-- `TMultiPartitionGroup`: each partition with the `Contents` of its
`TMsgSet` (its `DataSize` is not read here). -/
abbrev TMultiPartitionGroup := List (Int × List TMsg)

/-- `TAllTopics`: each topic with its partitions. -/
abbrev TAllTopics := List (String × TMultiPartitionGroup)

/-- `TProduceRequest`: the correlation ID and the messages. -/
abbrev TProduceRequest := Int × TAllTopics

/-- Stated once: the default search gives up on the nested pair. -/
instance : DecidableEq TProduceRequest :=
  @instDecidableEqProd _ _ _ (inferInstanceAs (DecidableEq TAllTopics))

/-- `EmptyAllTopics`: the message sets, in iteration order. -/
def emptyAllTopics (allTopics : TAllTopics) : List (List TMsg) :=
  allTopics.flatMap fun topic => topic.2.map Prod.snd

/-- Every message of a request. -/
def msgsOf (allTopics : TAllTopics) : List TMsg :=
  allTopics.flatMap fun topic => topic.2.flatMap Prod.snd

/-- Both levels are `std::map`s, so their keys are unique. -/
structure WellFormed (allTopics : TAllTopics) : Prop where
  topicsUnique : (KeyedList.keys allTopics).Nodup
  partitionsUnique : ∀ topic ∈ allTopics, (KeyedList.keys topic.2).Nodup

/-- The partitions left under `topic`. -/
def partitionsOf (allTopics : TAllTopics) (topic : String) : TMultiPartitionGroup :=
  (allTopics.lookup topic).getD []

/-- The bytes of a topic name, as `std::string` holds them. -/
def topicBytes (topic : String) : List UInt8 :=
  topic.toList.flatMap String.utf8EncodeChar

/-- `all_topics.find(topic)` for a topic name read from a response. -/
def findTopic (allTopics : TAllTopics) (name : List UInt8) : Option String :=
  (allTopics.find? fun topic => topicBytes topic.1 == name).map Prod.fst

/-! ### The processor and what it reads of the shared state -/

/-- `TProduceProtocol::TAckResultAction`. -/
inductive TAckResultAction where
  | ok
  | resend
  | discard
  | pause
  | discardAndPause
deriving DecidableEq, Repr

/-- `TDiscardFileLogger::TDiscardReason`. -/
inductive TDiscardReason where
  | bug
  | failedDeliveryAttemptLimit
  | kafkaErrorAck
  | serverShutdown
  | noAvailablePartitions
  | rateLimit
  | failedTopicAutocreate
deriving DecidableEq, Repr

/-- What the processor reads of the dispatcher's configuration:
`ProduceProtocol->ProcessAck` and
`Conf.MsgDeliveryConf.MaxFailedDeliveryAttempts`. -/
structure TDispatchConf where
  processAck : Int → TAckResultAction
  maxFailedDeliveryAttempts : Nat

/-- What `TDispatcherSharedState` records of produce responses: `AckCount`,
the messages passed to `Discard` with their reasons, in order, the messages
that got a successful ACK (entered the processed state and were released),
and whether `PauseButton` was pushed. -/
structure TDispatcherSharedState where
  ackCount : Nat := 0
  discarded : List (TMsg × TDiscardReason) := []
  processed : List TMsg := []
  pauseButtonPushed : Bool := false
deriving DecidableEq, Repr

namespace TDispatcherSharedState

/-- `IncrementAckCount()`. -/
def incrementAckCount (ds : TDispatcherSharedState) : TDispatcherSharedState :=
  { ds with ackCount := ds.ackCount + 1 }

/-- `Discard(msg_list, reason)`. -/
def discard (ds : TDispatcherSharedState) (msgs : List TMsg) (reason : TDiscardReason) :
    TDispatcherSharedState :=
  { ds with discarded := ds.discarded ++ msgs.map fun msg => (msg, reason) }

/-- `PauseButton.Push()`. -/
def pushPauseButton (ds : TDispatcherSharedState) : TDispatcherSharedState :=
  { ds with pauseButtonPushed := true }

/-- Every message the shared state has taken over, processed or discarded. -/
def released (ds : TDispatcherSharedState) : List TMsg :=
  ds.processed ++ ds.discarded.map Prod.fst

@[simp] theorem released_incrementAckCount (ds : TDispatcherSharedState) :
    ds.incrementAckCount.released = ds.released := rfl

@[simp] theorem released_pushPauseButton (ds : TDispatcherSharedState) :
    ds.pushPauseButton.released = ds.released := rfl

@[simp] theorem released_discard (ds : TDispatcherSharedState) (msgs : List TMsg)
    (reason : TDiscardReason) : (ds.discard msgs reason).released = ds.released ++ msgs := by
  simp [discard, released, Function.comp_def]

theorem discard_append (ds : TDispatcherSharedState) (first second : List TMsg)
    (reason : TDiscardReason) :
    (ds.discard first reason).discard second reason = ds.discard (first ++ second) reason := by
  simp [discard]

end TDispatcherSharedState

/-- The lists a `TProduceResponseProcessor` keeps. -/
structure TProduceResponseProcessor where
  msgsWithoutAcks : List (List TMsg) := []
  pauseAndResendAckMsgs : List (List TMsg) := []
  immediateResendAckMsgs : List (List TMsg) := []
deriving DecidableEq, Repr

/-- Every message in the processor's lists. -/
def TProduceResponseProcessor.held (processor : TProduceResponseProcessor) : List TMsg :=
  processor.msgsWithoutAcks.flatten ++ processor.pauseAndResendAckMsgs.flatten ++
    processor.immediateResendAckMsgs.flatten

/-- `TProduceResponseProcessor::TAction`. -/
inductive TAction where
  | keepRunning
  | pauseAndDeferFinish
  | pauseAndFinishNow
deriving DecidableEq, Repr

/-- What `ProcessResponseAcks` works on: the reader, what is left of the
request, the processor's lists, the shared state, and the loop's two
flags. -/
structure TAckState where
  reader : TProduceResponseReader := {}
  allTopics : TAllTopics
  processor : TProduceResponseProcessor := {}
  ds : TDispatcherSharedState
  gotPauseAck : Bool := false
  badResponse : Bool := false
deriving DecidableEq, Repr

section Processing

variable (conf : TDispatchConf)

/-- `CountFailedDeliveryAttempt(msg_set, topic)`: count a failed attempt for
each message, and discard those over the limit. -/
def countFailedDeliveryAttempt :
    List TMsg → TDispatcherSharedState → List TMsg × TDispatcherSharedState
  | [], ds => ([], ds)
  | msg :: rest, ds =>
      let msg := msg.countFailedDeliveryAttempt
      if msg.failedDeliveryAttemptCount > conf.maxFailedDeliveryAttempts then
        countFailedDeliveryAttempt rest (ds.discard [msg] .failedDeliveryAttemptLimit)
      else
        let (kept, ds) := countFailedDeliveryAttempt rest ds
        (msg :: kept, ds)

/-- The common body of `ProcessImmediateResendMsgSet` and
`ProcessPauseAndResendMsgSet`: count the failed attempt, and queue what is
left of the set, if anything, on `queue`. -/
def queueForResend (queue : List (List TMsg)) (msgSet : List TMsg) (ds : TDispatcherSharedState) :
    List (List TMsg) × TDispatcherSharedState :=
  let (msgSet, ds) := countFailedDeliveryAttempt conf msgSet ds
  (if msgSet.isEmpty then queue else queue ++ [msgSet], ds)

/-- `ProcessImmediateResendMsgSet(msg_set, topic)`. -/
def processImmediateResendMsgSet (msgSet : List TMsg) (processor : TProduceResponseProcessor)
    (ds : TDispatcherSharedState) : TProduceResponseProcessor × TDispatcherSharedState :=
  let (queue, ds) := queueForResend conf processor.immediateResendAckMsgs msgSet ds
  ({ processor with immediateResendAckMsgs := queue }, ds)

/-- `ProcessPauseAndResendMsgSet(msg_set, topic)`. -/
def processPauseAndResendMsgSet (msgSet : List TMsg) (processor : TProduceResponseProcessor)
    (ds : TDispatcherSharedState) : TProduceResponseProcessor × TDispatcherSharedState :=
  let (queue, ds) := queueForResend conf processor.pauseAndResendAckMsgs msgSet ds
  ({ processor with pauseAndResendAckMsgs := queue }, ds)

/-- `ProcessNoAckMsgs(all_topics)`: every message set left goes to
`MsgsWithoutAcks`; the caller's `all_topics` is then empty. -/
def processNoAckMsgs (allTopics : TAllTopics) (processor : TProduceResponseProcessor) :
    TProduceResponseProcessor :=
  { processor with msgsWithoutAcks := processor.msgsWithoutAcks ++ emptyAllTopics allTopics }

/-- `ProcessOneAck(msg_set, ack, topic)`: `false` for an ACK that calls for a
pause. -/
def processOneAck (msgSet : List TMsg) (ack : Int) (processor : TProduceResponseProcessor)
    (ds : TDispatcherSharedState) : Bool × TProduceResponseProcessor × TDispatcherSharedState :=
  let ds := ds.incrementAckCount
  match conf.processAck ack with
  | .ok => (true, processor, { ds with processed := ds.processed ++ msgSet })
  | .resend =>
      let (processor, ds) := processImmediateResendMsgSet conf msgSet processor ds
      (true, processor, ds)
  | .discard => (true, processor, ds.discard msgSet .kafkaErrorAck)
  | .pause =>
      let (processor, ds) := processPauseAndResendMsgSet conf msgSet processor ds
      (false, processor, ds)
  | .discardAndPause => (false, processor, ds.discard msgSet .kafkaErrorAck)

/-- The inner loop of `ProcessResponseAcks`, over the partitions of the
response's current topic, whose request entry is `topic`: each ACKed set is
processed and its partition erased from the request.  It stops at the end of
the partitions or at one the request lacks (`bad_response`). -/
def ackPartitions (topic : String) (st : TAckState) : Except TProduceResponseError Unit × TAckState :=
  match _advanced : st.reader.nextPartitionInTopic with
  | .error e => (.error e, st)
  | .ok (false, reader) => (.ok (), { st with reader })
  | .ok (true, reader) =>
      match reader.getCurrentPartitionNumber with
      | none => (.error .readOutsideBuffer, { st with reader })
      | some partition =>
          match (partitionsOf st.allTopics topic).lookup partition with
          | none => (.ok (), { st with reader, badResponse := true })
          | some msgSet =>
              match reader.getCurrentPartitionErrorCode with
              | none => (.error .readOutsideBuffer, { st with reader })
              | some ack =>
                  let (acked, processor, ds) := processOneAck conf msgSet ack st.processor st.ds
                  ackPartitions topic { st with
                    reader, processor, ds
                    gotPauseAck := st.gotPauseAck || !acked
                    allTopics := KeyedList.modify st.allTopics topic fun partitions =>
                      KeyedList.erase partitions partition }
termination_by (st.reader.numPartitionsInTopic - st.reader.currentPartitionIndexInTopic).toNat
decreasing_by exact TProduceResponseReader.nextPartitionInTopic_remaining_lt _advanced

/-- The partition walk leaves the reader's topic cursor where it was. -/
theorem ackPartitions_topicCursor (topic : String) (st : TAckState) :
    (ackPartitions conf topic st).2.reader.numTopics = st.reader.numTopics ∧
      (ackPartitions conf topic st).2.reader.currentTopicIndex = st.reader.currentTopicIndex := by
  fun_induction ackPartitions conf topic st with
  | case1 => exact ⟨rfl, rfl⟩
  | case2 st reader advanced | case3 st reader advanced | case4 st reader advanced
  | case5 st reader advanced =>
      rw [TProduceResponseReader.nextPartitionInTopic_frame advanced]
      exact ⟨rfl, rfl⟩
  | case6 st reader advanced _ _ _ _ _ _ _ _ _ _ inductionHypothesis =>
      rw [inductionHypothesis.1, inductionHypothesis.2]
      rw [TProduceResponseReader.nextPartitionInTopic_frame advanced]
      exact ⟨rfl, rfl⟩

/-- The outer loop of `ProcessResponseAcks`, over the response's topics: a
topic the request lacks, or one whose partitions the response does not all
name, ends it (`bad_response`); a topic whose partitions were all handled is
erased from the request. -/
def ackTopics (st : TAckState) : Except TProduceResponseError Unit × TAckState :=
  match _advanced : st.reader.nextTopic with
  | .error e => (.error e, st)
  | .ok (false, reader) => (.ok (), { st with reader })
  | .ok (true, reader) =>
      match findTopic st.allTopics reader.getCurrentTopicName with
      | none => (.ok (), { st with reader, badResponse := true })
      | some topic =>
          match _walked : ackPartitions conf topic { st with reader } with
          | (.error e, after) => (.error e, after)
          | (.ok (), after) =>
              if partitionsOf after.allTopics topic ≠ [] then
                (.ok (), { after with badResponse := true })
              else ackTopics { after with allTopics := KeyedList.erase after.allTopics topic }
termination_by (st.reader.numTopics - st.reader.currentTopicIndex).toNat
decreasing_by
  have cursor := ackPartitions_topicCursor conf topic { st with reader }
  rw [_walked] at cursor
  have remaining := TProduceResponseReader.nextTopic_remaining_lt _advanced
  simp only at cursor ⊢
  rw [cursor.1, cursor.2]
  exact remaining

/-- `ProcessResponseAcks(request)`: after the walk, a request with sets left
is a bad response too, and then every set left goes to `MsgsWithoutAcks`. -/
def processResponseAcks (st : TAckState) : Except TProduceResponseError TAction × TAckState :=
  match ackTopics conf st with
  | (.error e, st) => (.error e, st)
  | (.ok (), st) =>
      if st.badResponse || !st.allTopics.isEmpty then
        (.ok .pauseAndFinishNow, { st with
          processor := processNoAckMsgs st.allTopics st.processor
          allTopics := []
          badResponse := true })
      else (.ok (if st.gotPauseAck then .pauseAndDeferFinish else .keepRunning), st)

/-- `ProcessResponse(request, response_buf, response_buf_size)` with a new
processor and the reader cleared: the action, or the error thrown, and the
state it leaves. -/
def processResponse (request : TProduceRequest) (response : List UInt8)
    (ds : TDispatcherSharedState) : Except TProduceResponseError TAction × TAckState :=
  let st : TAckState := { allTopics := request.2, ds }
  match TProduceResponseReader.setResponse response with
  | .error e => (.error e, st)
  | .ok reader =>
      let st := { st with reader }
      if reader.getCorrelationId ≠ request.1 then
        -- the pause handling reroutes the whole request
        (.ok .pauseAndFinishNow, { st with
          processor := processNoAckMsgs st.allTopics st.processor
          allTopics := [] })
      else processResponseAcks conf st

end Processing

/-! ### The request as the loops consume it -/

section Request

variable {allTopics : TAllTopics} {topic : String}

@[simp] theorem msgsOf_nil : msgsOf [] = [] := rfl

theorem flatten_emptyAllTopics (allTopics : TAllTopics) :
    (emptyAllTopics allTopics).flatten = msgsOf allTopics := by
  induction allTopics with
  | nil => rfl
  | cons topic rest inductionHypothesis =>
      simp only [emptyAllTopics, msgsOf, List.flatMap_cons, List.flatten_append] at inductionHypothesis ⊢
      rw [inductionHypothesis]
      rfl

/-- A set found under `topic` and `partition` comes from a group stored
under `topic`. -/
theorem lookup_of_partitionsOf {partition : Int} {msgSet : List TMsg}
    (found : (partitionsOf allTopics topic).lookup partition = some msgSet) :
    ∃ partitions, allTopics.lookup topic = some partitions ∧
      partitions.lookup partition = some msgSet := by
  unfold partitionsOf at found
  cases stored : allTopics.lookup topic with
  | none => simp [stored] at found
  | some partitions => exact ⟨partitions, rfl, by simpa [stored] using found⟩

/-- Erasing one partition keeps both levels' keys unique. -/
theorem WellFormed.erasePartition (wf : WellFormed allTopics) (topic : String) (partition : Int) :
    WellFormed (KeyedList.modify allTopics topic fun partitions =>
      KeyedList.erase partitions partition) := by
  refine ⟨by simpa using wf.topicsUnique, ?_⟩
  intro entry member
  rcases KeyedList.mem_modify.mp member with ⟨-, kept⟩ | ⟨-, partitions, stored, changed⟩
  · exact wf.partitionsUnique entry kept
  · rw [changed]
    exact KeyedList.nodup_keys_erase (wf.partitionsUnique _ stored) partition

/-- Erasing one topic keeps both levels' keys unique. -/
theorem WellFormed.eraseTopic (wf : WellFormed allTopics) (topic : String) :
    WellFormed (KeyedList.erase allTopics topic) :=
  ⟨KeyedList.nodup_keys_erase wf.topicsUnique topic,
    fun entry member => wf.partitionsUnique entry (KeyedList.mem_erase.mp member).1⟩

/-- Taking one set out of the request: the request's messages are that set's
and those left. -/
theorem msgsOf_erasePartition (wf : WellFormed allTopics) {partition : Int} {msgSet : List TMsg}
    (found : (partitionsOf allTopics topic).lookup partition = some msgSet) :
    (msgsOf allTopics).Perm (msgSet ++ msgsOf (KeyedList.modify allTopics topic fun partitions =>
      KeyedList.erase partitions partition)) := by
  obtain ⟨partitions, stored, inGroup⟩ := lookup_of_partitionsOf found
  have rest := KeyedList.erase_modify_self allTopics topic fun partitions =>
    KeyedList.erase partitions partition
  -- split the topic off, then the partition off the topic's group
  have whole := KeyedList.flatMap_perm_of_lookup wf.topicsUnique stored
    fun entry => entry.2.flatMap Prod.snd
  have group := KeyedList.flatMap_perm_of_lookup (wf.partitionsUnique _ (KeyedList.mem_of_lookup stored))
    inGroup Prod.snd
  have changedStored := KeyedList.lookup_modify_self allTopics topic fun partitions =>
    KeyedList.erase partitions partition
  rw [stored, Option.map_some] at changedStored
  have after := KeyedList.flatMap_perm_of_lookup (wf.erasePartition topic partition).topicsUnique
    changedStored fun entry => entry.2.flatMap Prod.snd
  rw [rest] at after
  unfold msgsOf
  refine whole.trans ?_
  refine ((group.append_right _).trans ?_).trans ((after.append_left msgSet).symm)
  simp only [List.append_assoc]
  exact List.Perm.refl _

/-- Erasing a topic with no partitions left loses no message. -/
theorem msgsOf_eraseTopic (wf : WellFormed allTopics) (empty : partitionsOf allTopics topic = []) :
    (msgsOf (KeyedList.erase allTopics topic)).Perm (msgsOf allTopics) := by
  cases stored : allTopics.lookup topic with
  | none =>
      rw [KeyedList.erase_of_not_mem (KeyedList.lookup_eq_none.mp stored)]
  | some partitions =>
      have noPartitions : partitions = [] := by simpa [partitionsOf, stored] using empty
      subst noPartitions
      exact (KeyedList.flatMap_perm_of_lookup wf.topicsUnique stored
        fun entry => entry.2.flatMap Prod.snd).symm

end Request

/-! ### Conservation

A message set leaves the request only for the shared state or one of the
processor's lists, and `CountFailedDeliveryAttempt` only changes counts or
moves messages to the discarded ones; so at every return of the loops the
three together hold the request's messages. -/

/-- Two lists hold the same messages, up to order and failed attempt counts. -/
def SameMsgs (first second : List TMsg) : Prop :=
  (first.map TMsg.uncounted).Perm (second.map TMsg.uncounted)

namespace SameMsgs

variable {first second third fourth : List TMsg}

theorem refl (msgs : List TMsg) : SameMsgs msgs msgs :=
  List.Perm.refl _

theorem symm (same : SameMsgs first second) : SameMsgs second first :=
  List.Perm.symm same

theorem trans (one : SameMsgs first second) (two : SameMsgs second third) :
    SameMsgs first third :=
  List.Perm.trans one two

theorem of_perm (perm : first.Perm second) : SameMsgs first second :=
  perm.map _

/-- Appended pieces in another order hold the same messages. -/
theorem of_counts (counts : ∀ msg, first.count msg = second.count msg) : SameMsgs first second :=
  of_perm (List.perm_iff_count.mpr counts)

theorem append (left : SameMsgs first second) (right : SameMsgs third fourth) :
    SameMsgs (first ++ third) (second ++ fourth) := by
  unfold SameMsgs at *
  rw [List.map_append, List.map_append]
  exact left.append right

/-- Counting a failed attempt leaves a message the same message. -/
theorem map_countFailedDeliveryAttempt (msgs : List TMsg) :
    SameMsgs (msgs.map TMsg.countFailedDeliveryAttempt) msgs := by
  simp [SameMsgs, Function.comp_def]

end SameMsgs

/-- Every message a state accounts for: left in the request, in the
processor's lists, or released to the shared state. -/
def TAckState.held (st : TAckState) : List TMsg :=
  msgsOf st.allTopics ++ st.processor.held ++ st.ds.released

section Processing

variable (conf : TDispatchConf)

/-- `CountFailedDeliveryAttempt` keeps, counted once more, exactly the
messages within the limit, and discards the others for
`FailedDeliveryAttemptLimit`, in order. -/
theorem countFailedDeliveryAttempt_eq (msgs : List TMsg) (ds : TDispatcherSharedState) :
    countFailedDeliveryAttempt conf msgs ds =
      ((msgs.map TMsg.countFailedDeliveryAttempt).filter fun msg =>
          !decide (msg.failedDeliveryAttemptCount > conf.maxFailedDeliveryAttempts),
        ds.discard ((msgs.map TMsg.countFailedDeliveryAttempt).filter fun msg =>
          decide (msg.failedDeliveryAttemptCount > conf.maxFailedDeliveryAttempts))
          .failedDeliveryAttemptLimit) := by
  induction msgs generalizing ds with
  | nil => simp [countFailedDeliveryAttempt, TDispatcherSharedState.discard]
  | cons msg rest inductionHypothesis =>
      by_cases overLimit : msg.countFailedDeliveryAttempt.failedDeliveryAttemptCount >
          conf.maxFailedDeliveryAttempts
      · -- discarded now, before the rest is counted
        simp only [countFailedDeliveryAttempt, overLimit, if_true, inductionHypothesis,
          TDispatcherSharedState.discard_append, List.map_cons, List.filter_cons, decide_true,
          Bool.not_true, Bool.false_eq_true, if_false]
        rfl
      · simp only [countFailedDeliveryAttempt, overLimit, if_false, inductionHypothesis, List.map_cons,
          List.filter_cons, decide_false, Bool.not_false, if_true, Bool.false_eq_true]

theorem countFailedDeliveryAttempt_sameMsgs (msgs : List TMsg) (ds : TDispatcherSharedState) :
    SameMsgs (msgs ++ ds.released)
      ((countFailedDeliveryAttempt conf msgs ds).1 ++ (countFailedDeliveryAttempt conf msgs ds).2.released) := by
  rw [countFailedDeliveryAttempt_eq, TDispatcherSharedState.released_discard]
  dsimp only
  -- the counted messages split into those kept and those discarded
  have split := List.filter_append_perm
    (fun msg : TMsg => decide (msg.failedDeliveryAttemptCount > conf.maxFailedDeliveryAttempts))
    (msgs.map TMsg.countFailedDeliveryAttempt)
  have counted := (SameMsgs.map_countFailedDeliveryAttempt msgs).symm.append (SameMsgs.refl ds.released)
  refine counted.trans (SameMsgs.of_perm ((split.symm.append_right _).trans ?_))
  rw [List.perm_iff_count]
  intro msg
  simp only [List.count_append]
  omega

/-- A set queued for resend keeps its messages, on the queue or discarded. -/
theorem queueForResend_sameMsgs (queue : List (List TMsg)) (msgSet : List TMsg)
    (ds : TDispatcherSharedState) :
    SameMsgs (queue.flatten ++ msgSet ++ ds.released)
      ((queueForResend conf queue msgSet ds).1.flatten ++ (queueForResend conf queue msgSet ds).2.released) := by
  have counted := countFailedDeliveryAttempt_sameMsgs conf msgSet ds
  rcases result : countFailedDeliveryAttempt conf msgSet ds with ⟨kept, ds'⟩
  rw [result] at counted
  -- what is left is queued unless it is empty, which adds nothing either way
  have queued : (if kept.isEmpty then queue else queue ++ [kept]).flatten = queue.flatten ++ kept := by
    split
    · rename_i empty
      simp [List.isEmpty_iff.mp empty]
    · simp
  simp only [queueForResend, result, queued, List.append_assoc]
  exact (SameMsgs.refl _).append counted

/-- `ProcessOneAck` hands the whole set on, to the shared state or to one of
the processor's lists. -/
theorem processOneAck_sameMsgs (msgSet : List TMsg) (ack : Int) (processor : TProduceResponseProcessor)
    (ds : TDispatcherSharedState) :
    SameMsgs (msgSet ++ processor.held ++ ds.released)
      ((processOneAck conf msgSet ack processor ds).2.1.held ++
        (processOneAck conf msgSet ack processor ds).2.2.released) := by
  have immediate := queueForResend_sameMsgs conf processor.immediateResendAckMsgs msgSet
    ds.incrementAckCount
  have later := queueForResend_sameMsgs conf processor.pauseAndResendAckMsgs msgSet
    ds.incrementAckCount
  unfold processOneAck
  cases conf.processAck ack with
  | ok =>
      simp only [TDispatcherSharedState.released, TDispatcherSharedState.incrementAckCount]
      exact SameMsgs.of_counts fun msg => by
        simp only [List.count_append]
        omega
  | resend =>
      rcases queued : queueForResend conf processor.immediateResendAckMsgs msgSet
        ds.incrementAckCount with ⟨queue, ds'⟩
      rw [queued, TDispatcherSharedState.released_incrementAckCount] at immediate
      simp only [processImmediateResendMsgSet, queued, TProduceResponseProcessor.held]
      -- the set joins the immediate resend queue, next to the other two lists
      refine (SameMsgs.of_counts fun msg => ?_).trans
        (((SameMsgs.refl (processor.msgsWithoutAcks.flatten ++
          processor.pauseAndResendAckMsgs.flatten)).append immediate).trans
            (SameMsgs.of_counts fun msg => ?_)) <;>
      · simp only [List.count_append]
        omega
  | discard =>
      simp only [TDispatcherSharedState.released_discard,
        TDispatcherSharedState.released_incrementAckCount]
      exact SameMsgs.of_counts fun msg => by
        simp only [List.count_append]
        omega
  | pause =>
      rcases queued : queueForResend conf processor.pauseAndResendAckMsgs msgSet
        ds.incrementAckCount with ⟨queue, ds'⟩
      rw [queued, TDispatcherSharedState.released_incrementAckCount] at later
      simp only [processPauseAndResendMsgSet, queued, TProduceResponseProcessor.held]
      refine (SameMsgs.of_counts fun msg => ?_).trans
        (((SameMsgs.refl (processor.msgsWithoutAcks.flatten ++
          processor.immediateResendAckMsgs.flatten)).append later).trans
            (SameMsgs.of_counts fun msg => ?_)) <;>
      · simp only [List.count_append]
        omega
  | discardAndPause =>
      simp only [TDispatcherSharedState.released_discard,
        TDispatcherSharedState.released_incrementAckCount]
      exact SameMsgs.of_counts fun msg => by
        simp only [List.count_append]
        omega

/-- `ProcessOneAck` never adds to `MsgsWithoutAcks`. -/
theorem processOneAck_msgsWithoutAcks (msgSet : List TMsg) (ack : Int)
    (processor : TProduceResponseProcessor) (ds : TDispatcherSharedState) :
    (processOneAck conf msgSet ack processor ds).2.1.msgsWithoutAcks = processor.msgsWithoutAcks := by
  unfold processOneAck
  cases conf.processAck ack <;> rfl

/-- One set handed on by the partition walk leaves the state holding the same
messages. -/
theorem ackOne_sameMsgs {st : TAckState} {topic : String} {partition : Int} {msgSet : List TMsg}
    (ack : Int) (wf : WellFormed st.allTopics)
    (found : (partitionsOf st.allTopics topic).lookup partition = some msgSet) :
    SameMsgs st.held
      (msgsOf (KeyedList.modify st.allTopics topic fun partitions =>
          KeyedList.erase partitions partition) ++
        (processOneAck conf msgSet ack st.processor st.ds).2.1.held ++
        (processOneAck conf msgSet ack st.processor st.ds).2.2.released) := by
  have taken := msgsOf_erasePartition wf found
  have handed := processOneAck_sameMsgs conf msgSet ack st.processor st.ds
  unfold TAckState.held
  generalize msgsOf (KeyedList.modify st.allTopics topic fun partitions =>
    KeyedList.erase partitions partition) = rest at taken ⊢
  refine (SameMsgs.of_perm ((taken.append_right _).append_right _)).trans ?_
  refine (SameMsgs.of_counts fun msg => ?_).trans
    (((SameMsgs.refl rest).append handed).trans (SameMsgs.of_counts fun msg => ?_)) <;>
  · simp only [List.count_append]
    omega

/-- The partition walk, normal or cut short by a throw, leaves the state
holding the same messages, with the request's keys still unique. -/
theorem ackPartitions_sameMsgs (topic : String) (st : TAckState) :
    WellFormed st.allTopics →
      SameMsgs st.held (ackPartitions conf topic st).2.held ∧
        WellFormed (ackPartitions conf topic st).2.allTopics := by
  fun_induction ackPartitions conf topic st with
  | case1 | case2 | case3 | case4 | case5 => exact fun wf => ⟨SameMsgs.refl _, wf⟩
  | case6 st reader advanced partition numbered msgSet found ack coded acked processor ds processed
      inductionHypothesis =>
      intro wf
      have step := ackOne_sameMsgs conf ack wf found
      rw [processed] at step
      obtain ⟨same, stillWellFormed⟩ := inductionHypothesis (wf.erasePartition topic partition)
      exact ⟨step.trans same, stillWellFormed⟩

/-- The partition walk never adds to `MsgsWithoutAcks`. -/
theorem ackPartitions_msgsWithoutAcks (topic : String) (st : TAckState) :
    (ackPartitions conf topic st).2.processor.msgsWithoutAcks = st.processor.msgsWithoutAcks := by
  fun_induction ackPartitions conf topic st with
  | case1 | case2 | case3 | case4 | case5 => rfl
  | case6 st reader advanced partition numbered msgSet found ack coded acked processor ds processed
      inductionHypothesis =>
      have kept := processOneAck_msgsWithoutAcks conf msgSet ack st.processor st.ds
      rw [processed] at kept
      rw [inductionHypothesis]
      exact kept

/-- The topic walk, normal or cut short by a throw, leaves the state holding
the same messages, with the request's keys still unique. -/
theorem ackTopics_sameMsgs (st : TAckState) :
    WellFormed st.allTopics →
      SameMsgs st.held (ackTopics conf st).2.held ∧ WellFormed (ackTopics conf st).2.allTopics := by
  fun_induction ackTopics conf st with
  | case1 | case2 | case3 => exact fun wf => ⟨SameMsgs.refl _, wf⟩
  | case4 st reader advanced topic found e after walked =>
      intro wf
      have walk := ackPartitions_sameMsgs conf topic { st with reader } wf
      rw [walked] at walk
      exact walk
  | case5 st reader advanced topic found after walked left =>
      intro wf
      have walk := ackPartitions_sameMsgs conf topic { st with reader } wf
      rw [walked] at walk
      exact walk
  | case6 st reader advanced topic found after walked empty inductionHypothesis =>
      intro wf
      have walk := ackPartitions_sameMsgs conf topic { st with reader } wf
      rw [walked] at walk
      obtain ⟨same, afterWellFormed⟩ := walk
      -- the topic's partitions were all handled, so erasing it loses nothing
      have emptied : partitionsOf after.allTopics topic = [] := not_not.mp empty
      have erased : SameMsgs after.held
          { after with allTopics := KeyedList.erase after.allTopics topic }.held :=
        SameMsgs.of_perm (((msgsOf_eraseTopic afterWellFormed emptied).symm.append_right _).append_right _)
      obtain ⟨rest, restWellFormed⟩ := inductionHypothesis (afterWellFormed.eraseTopic topic)
      exact ⟨same.trans (erased.trans rest), restWellFormed⟩

/-- The topic walk never adds to `MsgsWithoutAcks`. -/
theorem ackTopics_msgsWithoutAcks (st : TAckState) :
    (ackTopics conf st).2.processor.msgsWithoutAcks = st.processor.msgsWithoutAcks := by
  fun_induction ackTopics conf st with
  | case1 | case2 | case3 => rfl
  | case4 st reader advanced topic found e after walked =>
      have kept := ackPartitions_msgsWithoutAcks conf topic { st with reader }
      rw [walked] at kept
      exact kept
  | case5 st reader advanced topic found after walked left =>
      have kept := ackPartitions_msgsWithoutAcks conf topic { st with reader }
      rw [walked] at kept
      exact kept
  | case6 st reader advanced topic found after walked empty inductionHypothesis =>
      have kept := ackPartitions_msgsWithoutAcks conf topic { st with reader }
      rw [walked] at kept
      rw [inductionHypothesis]
      exact kept

/-- `ProcessNoAckMsgs` moves the request's messages to `MsgsWithoutAcks`. -/
theorem processNoAckMsgs_sameMsgs (st : TAckState) :
    SameMsgs st.held
      { st with processor := processNoAckMsgs st.allTopics st.processor, allTopics := [] }.held :=
  SameMsgs.of_counts fun msg => by
    simp only [TAckState.held, processNoAckMsgs, TProduceResponseProcessor.held, List.flatten_append,
      flatten_emptyAllTopics, msgsOf_nil, List.count_append, List.count_nil]
    omega

theorem processResponseAcks_sameMsgs (st : TAckState) (wf : WellFormed st.allTopics) :
    SameMsgs st.held (processResponseAcks conf st).2.held := by
  have walk := ackTopics_sameMsgs conf st wf
  unfold processResponseAcks
  rcases walked : ackTopics conf st with ⟨result, after⟩
  rw [walked] at walk
  cases result with
  | error e => exact walk.1
  | ok =>
      dsimp only
      split
      · exact walk.1.trans (processNoAckMsgs_sameMsgs after)
      · exact walk.1

/-- `ProcessResponse`, normal or cut short by a throw, leaves the messages of
the request in what is left of it, in the processor's lists, or released to
the shared state. -/
theorem processResponse_sameMsgs (request : TProduceRequest) (response : List UInt8)
    (ds : TDispatcherSharedState) (wf : WellFormed request.2) :
    SameMsgs (msgsOf request.2 ++ ds.released) (processResponse conf request response ds).2.held := by
  have start : SameMsgs (msgsOf request.2 ++ ds.released)
      ({ allTopics := request.2, ds } : TAckState).held :=
    SameMsgs.of_counts fun msg => by
      simp [TAckState.held, TProduceResponseProcessor.held]
  unfold processResponse
  cases TProduceResponseReader.setResponse response with
  | error e => exact start
  | ok reader =>
      dsimp only
      split
      · exact start.trans (processNoAckMsgs_sameMsgs _)
      · exact start.trans (processResponseAcks_sameMsgs conf { reader, allTopics := request.2, ds } wf)

/-- On a normal return the request is empty (`assert(request.second.empty())`). -/
theorem processResponse_allTopics_of_ok {request : TProduceRequest} {response : List UInt8}
    {ds : TDispatcherSharedState} {action : TAction}
    (returned : (processResponse conf request response ds).1 = .ok action) :
    (processResponse conf request response ds).2.allTopics = [] := by
  unfold processResponse at returned ⊢
  dsimp only at returned ⊢
  generalize TProduceResponseReader.setResponse response = parsed at returned ⊢
  rcases parsed with e | reader
  · cases returned
  · dsimp only at returned ⊢
    by_cases mismatched : reader.getCorrelationId ≠ request.1
    · rw [if_pos mismatched]
    · rw [if_neg mismatched] at returned ⊢
      unfold processResponseAcks at returned ⊢
      generalize ackTopics conf { allTopics := request.2, ds, reader } = walked at returned ⊢
      rcases walked with ⟨result, after⟩
      cases result with
      | error e => cases returned
      | ok =>
          dsimp only at returned ⊢
          split
          · rfl
          · rename_i good
            simp only [Bool.or_eq_true, Bool.not_eq_true', List.isEmpty_eq_false_iff, not_or,
              ne_eq, not_not] at good
            exact good.2

/-- A throw leaves `MsgsWithoutAcks` empty: the request's messages not yet
handed on are all still in the request. -/
theorem processResponse_msgsWithoutAcks_of_error {request : TProduceRequest}
    {response : List UInt8} {ds : TDispatcherSharedState} {e : TProduceResponseError}
    (thrown : (processResponse conf request response ds).1 = .error e) :
    (processResponse conf request response ds).2.processor.msgsWithoutAcks = [] := by
  unfold processResponse at thrown ⊢
  dsimp only at thrown ⊢
  generalize TProduceResponseReader.setResponse response = parsed at thrown ⊢
  rcases parsed with e | reader
  · rfl
  · dsimp only at thrown ⊢
    by_cases mismatched : reader.getCorrelationId ≠ request.1
    · rw [if_pos mismatched] at thrown
      cases thrown
    · rw [if_neg mismatched] at thrown ⊢
      unfold processResponseAcks at thrown ⊢
      have kept := ackTopics_msgsWithoutAcks conf { allTopics := request.2, ds, reader }
      generalize ackTopics conf { allTopics := request.2, ds, reader } = walked at thrown kept ⊢
      rcases walked with ⟨result, after⟩
      cases result with
      | error e => exact kept
      | ok =>
          dsimp only at thrown
          split at thrown <;> cases thrown

/-! ### What is left in the processor at each outcome -/

/-- A set is queued for resend after a pause only by an ACK that also sets
`got_pause_ack`. -/
def PauseNoted (st : TAckState) : Prop :=
  st.processor.pauseAndResendAckMsgs = [] ∨ st.gotPauseAck = true

/-- An ACK that does not call for a pause queues nothing for resend after
one. -/
theorem processOneAck_pauseAndResendAckMsgs {msgSet : List TMsg} {ack : Int}
    {processor : TProduceResponseProcessor} {ds : TDispatcherSharedState}
    (acked : (processOneAck conf msgSet ack processor ds).1 = true) :
    (processOneAck conf msgSet ack processor ds).2.1.pauseAndResendAckMsgs =
      processor.pauseAndResendAckMsgs := by
  unfold processOneAck at acked ⊢
  generalize conf.processAck ack = action at acked ⊢
  cases action with
  | ok | resend | discard => rfl
  | pause | discardAndPause => cases acked

theorem ackPartitions_pauseNoted (topic : String) (st : TAckState) :
    PauseNoted st → PauseNoted (ackPartitions conf topic st).2 := by
  fun_induction ackPartitions conf topic st with
  | case1 | case2 | case3 | case4 | case5 => exact id
  | case6 st reader advanced partition numbered msgSet found ack coded acked processor ds processed
      inductionHypothesis =>
      intro noted
      apply inductionHypothesis
      cases ackedEq : acked with
      | false => exact Or.inr (by simp)
      | true =>
          -- no pause ACK: the queue and the flag are as they were
          have same := processOneAck_pauseAndResendAckMsgs conf (by rw [processed]; exact ackedEq)
          rw [processed] at same
          rcases noted with empty | paused
          · exact Or.inl (same.trans empty)
          · exact Or.inr (by simp [paused])

theorem ackTopics_pauseNoted (st : TAckState) : PauseNoted st → PauseNoted (ackTopics conf st).2 := by
  fun_induction ackTopics conf st with
  | case1 | case2 | case3 => exact id
  | case4 st reader advanced topic found e after walked =>
      intro noted
      have walk := ackPartitions_pauseNoted conf topic { st with reader } noted
      rw [walked] at walk
      exact walk
  | case5 st reader advanced topic found after walked left =>
      intro noted
      have walk := ackPartitions_pauseNoted conf topic { st with reader } noted
      rw [walked] at walk
      exact walk
  | case6 st reader advanced topic found after walked empty inductionHypothesis =>
      intro noted
      have walk := ackPartitions_pauseNoted conf topic { st with reader } noted
      rw [walked] at walk
      exact inductionHypothesis walk

/-- What a normal return of `ProcessResponse` leaves in the processor: the
request is empty, `MsgsWithoutAcks` is empty unless the action is
`PauseAndFinishNow`, and nothing waits for resend after a pause when the
action is `KeepRunning`. -/
theorem processResponse_leftovers {request : TProduceRequest} {response : List UInt8}
    {ds : TDispatcherSharedState} {action : TAction}
    (returned : (processResponse conf request response ds).1 = .ok action) :
    (processResponse conf request response ds).2.allTopics = [] ∧
      (action ≠ .pauseAndFinishNow →
        (processResponse conf request response ds).2.processor.msgsWithoutAcks = []) ∧
      (action = .keepRunning →
        (processResponse conf request response ds).2.processor.pauseAndResendAckMsgs = []) := by
  refine ⟨processResponse_allTopics_of_ok conf returned, ?_⟩
  unfold processResponse at returned ⊢
  dsimp only at returned ⊢
  generalize TProduceResponseReader.setResponse response = parsed at returned ⊢
  rcases parsed with e | reader
  · cases returned
  · dsimp only at returned ⊢
    by_cases mismatched : reader.getCorrelationId ≠ request.1
    · rw [if_pos mismatched] at returned ⊢
      cases returned
      exact ⟨fun different => absurd rfl different, fun keep => by cases keep⟩
    · rw [if_neg mismatched] at returned ⊢
      unfold processResponseAcks at returned ⊢
      have kept := ackTopics_msgsWithoutAcks conf { allTopics := request.2, ds, reader }
      have noted := ackTopics_pauseNoted conf { allTopics := request.2, ds, reader } (Or.inl rfl)
      generalize ackTopics conf { allTopics := request.2, ds, reader } = walked at returned kept noted ⊢
      rcases walked with ⟨result, after⟩
      cases result with
      | error e => cases returned
      | ok =>
          dsimp only at returned kept noted ⊢
          split at returned
          · rename_i bad
            rw [if_pos bad]
            cases returned
            exact ⟨fun different => absurd rfl different, fun keep => by cases keep⟩
          · rename_i good
            rw [if_neg good]
            cases returned
            refine ⟨fun _ => kept, fun keep => ?_⟩
            -- `KeepRunning` means no pause ACK, so nothing was queued for after one
            rcases noted with empty | paused
            · exact empty
            · simp [paused] at keep

end Processing

end Dory.MsgDispatch
