/-
Module: Dory.RouterThread
Purpose: The router thread's part in the message states (router_thread.cc),
  as the source computes it.  `HandleMsgAvailable` validates each message
  the channel gave (`ValidateNewMsg`).  A message of a topic the metadata
  lacks is, with topic autocreate on, the occasion of a topic autocreate
  followed by up to three metadata updates, each of which runs
  `UpdateBatchStateForNewMetadata`; a message of an unknown topic, too long,
  of a topic without ok partitions or over its rate limit is discarded (New
  -> Processed); and a metadata update cut short by the shutdown delay ends
  the loop, after which every message the call still holds is discarded,
  the ready batches' messages among them.  A valid AnyPartition message,
  when per-topic batching is on, goes to the per-topic batcher and enters
  Batching when the batcher takes it; the batches the batcher completes,
  then and at batch expiry, go to the brokers' queues, whose `PutNow` moves
  them to SendWait (`RouteAnyPartitionNow`).  What the router learns from
  outside (a message's creation timestamp, the brokers' answers to a topic
  autocreate, the metadata a refresh fetches) is an argument of the calls.
  The dispatcher's messages, which a metadata update discards or reroutes,
  are outside the router.  As in `Dory.MsgStateTracker`, an assert is a
  fault, as a debug build runs it.
Trusted boundary: none
Main exports: TArrival, TAutocreateAnswer, TValidation, TRouterThread,
  TMsgLoop, validateNewMsg, batchMsgs, handleMsgAvailable,
  handleBatchExpiry, updateBatchStateForNewMetadata, setMetadata,
  handleMetadataUpdate, deleteTopics_perm, discardEach_batched
-/
import Dory.MsgStateTracker
import Dory.Batch.PerTopicConservation
import Dory.Metadata
import Dory.MsgRateLimiter

namespace Dory

open Dory.Batch Dory.Batch.TPerTopicBatcher Dory.Foundation TMsgStateTracker

/-! ### Messages with their states -/

/-- Messages the per-topic batcher holds, in the state `HandleMsgAvailable`
moved them to when the batcher took them. -/
def batched (msgs : List TMsg) : List (TMsg × TMsgState) :=
  msgs.map fun msg => (msg, .batching)

/-- Messages the input thread made and the router has not routed yet. -/
def fresh (msgs : List TMsg) : List (TMsg × TMsgState) :=
  msgs.map fun msg => (msg, .new)

/-- Messages in the brokers' queues. -/
def sent (msgs : List TMsg) : List (TMsg × TMsgState) :=
  msgs.map fun msg => (msg, .sendWait)

@[simp] theorem batched_append (first second : List TMsg) :
    batched (first ++ second) = batched first ++ batched second := List.map_append

@[simp] theorem fresh_append (first second : List TMsg) :
    fresh (first ++ second) = fresh first ++ fresh second := List.map_append

@[simp] theorem sent_append (first second : List TMsg) :
    sent (first ++ second) = sent first ++ sent second := List.map_append

@[simp] theorem batched_nil : batched [] = [] := rfl

@[simp] theorem fresh_nil : fresh [] = [] := rfl

@[simp] theorem sent_nil : sent [] = [] := rfl

@[simp] theorem fresh_cons (msg : TMsg) (msgs : List TMsg) : fresh (msg :: msgs) = [(msg, .new)] ++ fresh msgs := rfl

@[simp] theorem batched_singleton (msg : TMsg) : batched [msg] = [(msg, .batching)] := rfl

theorem entered_batched (target : TMsgState) (msgs : List TMsg) :
    entered target (batched msgs) = msgs.map fun msg => (msg, target) := by
  simp [entered, batched]

/-! ### What the router learns from outside -/

/-- What the brokers answer when the router autocreates a topic
(`AutocreateTopic`). -/
inductive TAutocreateAnswer where
  /-- No broker created the topic: one answered `Fail`, or each failed to
  connect or answered `TryOtherBroker`. -/
  | fail
  /-- A broker answered `Success`; `fetched` is the metadata each following
  `HandleMetadataUpdate` gets, in order, `none` where the shutdown delay
  expired while it was fetched. -/
  | success (fetched : List (Option TMetadata))

/-- A message `MsgChannel.Get()` gave, with what the router learns about it
from outside the message: its creation timestamp
(`GetCreationTimestamp()`, which `TMsg` does not record), and the brokers'
answers should its topic be autocreated. -/
structure TArrival where
  msg : TMsg
  created : UInt64
  autocreate : TAutocreateAnswer

/-- What `ValidateNewMsg(msg_ptr)` leaves: the message kept in `msg_ptr`,
`msg_ptr` reset after the message was discarded, or `false` returned after
the shutdown delay expired during a metadata update, the message discarded
too. -/
inductive TValidation where
  | kept
  | discarded
  | shutdown
deriving DecidableEq, Repr

/-- The message, when the validation kept it. -/
def TValidation.survivor (validation : TValidation) (msg : TMsg) : List TMsg :=
  match validation with
  | .kept => [msg]
  | .discarded => []
  | .shutdown => []

namespace TMetadata

/-- The topics of the name map that have ok partitions, in the map's order:
those `UpdateBatchStateForNewMetadata` looks for in the new metadata. -/
def okTopics (metadata : TMetadata) : List String :=
  (metadata.topicNameToIndex.filter fun item => !(metadata.topics.getD item.2 {}).okPartitions.isEmpty).map Prod.fst

/-- A topic as `UpdateBatchStateForNewMetadata` finds it in the new
metadata: absent (`FindTopicIndex` < 0, `none`), or whether it has ok
partitions. -/
def topicHasOkPartitions (metadata : TMetadata) (topic : String) : Option Bool :=
  (metadata.findTopicIndex topic).map fun index => !(metadata.topics.getD index {}).okPartitions.isEmpty

end TMetadata

/-! ### The router -/

/-- The part of `TRouterThread` the message states pass through: the
per-topic batcher, the tracker it shares with the other threads, the
metadata, the rate limiter, and what `ValidateNewMsg` and `RefreshMetadata`
read of the configuration (`Conf.MsgDeliveryConf.TopicAutocreate` and
`CompareMetadataOnRefresh`, `SingleMsgOverhead`, `MessageMaxBytes`). -/
structure TRouterThread where
  perTopicBatcher : TPerTopicBatcher
  msgStateTracker : TMsgStateTracker
  metadata : TMetadata
  msgRateLimiter : TMsgRateLimiter
  topicAutocreate : Bool
  compareMetadataOnRefresh : Bool
  singleMsgOverhead : Nat
  messageMaxBytes : Nat

/-- Where the loop of `HandleMsgAvailable` got to: the batches the per-topic
batcher returned (`ready_batches`), the messages left to route
(`remaining`), the router, and, when a validation returned false, the
messages of the list it had not reached. -/
structure TMsgLoop where
  readyBatches : List (List TMsg)
  remaining : List TMsg
  unvalidated : Option (List TMsg)
  router : TRouterThread

namespace TRouterThread

/-- `Discard(msg, reason)` and the router's other discards of one message
(`DiscardOnShutdownDuringMetadataUpdate(msg)`, the bad topic and long
message discards): the message enters Processed.  The anomaly tracker's
record of the reason is not modelled. -/
def discard (router : TRouterThread) (msg : TMsg × TMsgState) : Except TTrackerFault TRouterThread := do
  let (tracker, _) ← router.msgStateTracker.msgEnterProcessed msg
  pure { router with msgStateTracker := tracker }

/-- `DiscardOnShutdownDuringMetadataUpdate(msg_list)` and its overload for
a list of batches: each message is discarded on its own. -/
def discardEach : TRouterThread → List (TMsg × TMsgState) → Except TTrackerFault TRouterThread
  | router, [] => .ok router
  | router, msg :: rest => do
      let router ← router.discard msg
      discardEach router rest

/-- A discard of `ValidateNewMsg`: the new message enters Processed and
`msg_ptr` is reset. -/
def discardNewMsg (router : TRouterThread) (msg : TMsg) : Except TTrackerFault (TValidation × TRouterThread) := do
  let router ← router.discard (msg, .new)
  pure (.discarded, router)

/-- `RouteAnyPartitionNow(batch_list)`: the batches go to the brokers'
queues, whose `PutNow` has their messages enter SendWait.  Which broker
each batch goes to does not change a count and is not modelled. -/
def routeAnyPartitionNow (router : TRouterThread) (batches : List (List TMsg)) :
    Except TTrackerFault TRouterThread := do
  let (tracker, _) ← router.msgStateTracker.msgEnterSendWaitLists (batches.map batched)
  pure { router with msgStateTracker := tracker }

/-- The loop of `UpdateBatchStateForNewMetadata` over the topics of the old
metadata that had ok partitions, in its name map's order: a topic the new
metadata does not have (`FindTopicIndex` < 0, `none`) has its messages
taken out as deleted, and one the new metadata has with no ok partitions
(`some false`) as unavailable. -/
def deleteTopics (newTopic : String → Option Bool) :
    List String → TPerTopicBatcher → List TMsg × List TMsg × TPerTopicBatcher
  | [], batcher => ([], [], batcher)
  | topic :: rest, batcher =>
      match newTopic topic with
      | none =>
          let (msgs, batcher) := batcher.deleteTopic topic
          let (deleted, unavailable, batcher) := deleteTopics newTopic rest batcher
          (msgs ++ deleted, unavailable, batcher)
      | some false =>
          let (msgs, batcher) := batcher.deleteTopic topic
          let (deleted, unavailable, batcher) := deleteTopics newTopic rest batcher
          (deleted, msgs ++ unavailable, batcher)
      | some true => deleteTopics newTopic rest batcher

/-- `UpdateBatchStateForNewMetadata(old_md, new_md)`: the deleted topics'
messages enter Processed in one list call, and the unavailable topics'
messages are discarded, which is another (`Discard(msg_list)`). -/
def updateBatchStateForNewMetadata (router : TRouterThread) (oldOkTopics : List String)
    (newTopic : String → Option Bool) : Except TTrackerFault TRouterThread := do
  let (deleted, unavailable, batcher) := deleteTopics newTopic oldOkTopics router.perTopicBatcher
  let (tracker, _) ← router.msgStateTracker.msgEnterProcessedList (batched deleted)
  let (tracker, _) ← tracker.msgEnterProcessedList (batched unavailable)
  pure { router with perTopicBatcher := batcher, msgStateTracker := tracker }

/-- `SetMetadata(meta)` on a router that has metadata: the batcher's state
follows the new metadata, which then replaces the old.  `PruneTopics`
drops only tracker entries whose counts are zero, which changes no count
(`TMsgStateTracker`). -/
def setMetadata (router : TRouterThread) (metadata : TMetadata) : Except TTrackerFault TRouterThread := do
  let router ← router.updateBatchStateForNewMetadata router.metadata.okTopics metadata.topicHasOkPartitions
  pure { router with metadata }

/-- `HandleMetadataUpdate()` when `RefreshMetadata` fetched `fetched`:
`false` when the shutdown delay expired while fetching (the dispatcher's
messages, which `EmptyDispatcher()` hands back to be discarded, are outside
the router); with `CompareMetadataOnRefresh`, metadata equal to the
router's is kept as it is; otherwise it replaces the router's
(`ReplaceMetadataOnRefresh`, whose reroute of the dispatcher's messages is
outside the router too). -/
def handleMetadataUpdate (router : TRouterThread) (fetched : Option TMetadata) :
    Except TTrackerFault (Bool × TRouterThread) :=
  match fetched with
  | none => .ok (false, router)
  | some metadata =>
      if router.compareMetadataOnRefresh = true ∧ metadata.beq router.metadata = true then .ok (true, router)
      else do
        let router ← router.setMetadata metadata
        pure (true, router)

/-- `NUM_ATTEMPTS` of `UpdateMetadataAfterTopicAutocreate`. -/
def numAttempts : Nat := 3

/-- The loop of `UpdateMetadataAfterTopicAutocreate(topic)` with `attempts`
metadata updates left, each on the metadata `fetched` gives in turn (past
its end, the router's own: a refresh that finds nothing new): `false` once
an update is cut short by the shutdown delay; `true` once the topic
appears, or after the last attempt whether it appeared or not. -/
def updateMetadataAfterTopicAutocreate (topic : String) :
    Nat → List (Option TMetadata) → TRouterThread → Except TTrackerFault (Bool × TRouterThread)
  | 0, _, router => .ok (true, router)
  | attempts + 1, fetched, router => do
      let (keepRunning, router) ← router.handleMetadataUpdate (fetched.headD (some router.metadata))
      if !keepRunning then pure (false, router)
      else if (router.metadata.findTopicIndex topic).isSome then pure (true, router)
      else updateMetadataAfterTopicAutocreate topic attempts fetched.tail router

/-- `AutocreateTopic(msg)` after the brokers answered: on failure the
message is discarded and the router keeps running; on success the metadata
is updated, and the message is kept, or discarded when an update was cut
short by the shutdown delay, which ends the validation. -/
def autocreateTopic (router : TRouterThread) (msg : TMsg) :
    TAutocreateAnswer → Except TTrackerFault (TValidation × TRouterThread)
  | .fail => router.discardNewMsg msg
  | .success fetched => do
      let (keepRunning, router) ← router.updateMetadataAfterTopicAutocreate msg.topic numAttempts fetched
      if keepRunning then pure (.kept, router)
      else do
        let router ← router.discard (msg, .new)
        pure (.shutdown, router)

/-- The checks of `ValidateNewMsg` on a message whose topic the metadata
has at `topicIndex`: a message too long for the brokers, of a topic with no
ok partitions, or over its topic's rate limit (`WouldExceedLimit`, which
counts the message) is discarded.  `BodyIsTruncated()` is false for every
message the input thread makes (`TryCreateAnyPartitionMsg` and
`TryCreatePartitionKeyMsg` pass `false`), so the first test is the size. -/
def validateFoundMsg (router : TRouterThread) (arrival : TArrival) (topicIndex : Nat) :
    Except TTrackerFault (TValidation × TRouterThread) :=
  if router.messageMaxBytes < arrival.msg.keyAndValueSize + router.singleMsgOverhead then
    router.discardNewMsg arrival.msg
  else if (router.metadata.topics.getD topicIndex {}).okPartitions = [] then router.discardNewMsg arrival.msg
  else
    let (exceeds, limiter) := router.msgRateLimiter.wouldExceedLimit arrival.msg.topic arrival.created
    let router := { router with msgRateLimiter := limiter }
    if exceeds then router.discardNewMsg arrival.msg else .ok (.kept, router)

/-- `ValidateNewMsg(msg_ptr)`: a topic the metadata lacks is, with topic
autocreate on, autocreated; a topic still unknown has the message
discarded; then the checks of a known topic. -/
def validateNewMsg (router : TRouterThread) (arrival : TArrival) : Except TTrackerFault (TValidation × TRouterThread) :=
  match router.metadata.findTopicIndex arrival.msg.topic with
  | some topicIndex => router.validateFoundMsg arrival topicIndex
  | none =>
      if router.topicAutocreate then do
        let (validation, router) ← router.autocreateTopic arrival.msg arrival.autocreate
        match validation with
        | .kept =>
            match router.metadata.findTopicIndex arrival.msg.topic with
            | some topicIndex => router.validateFoundMsg arrival topicIndex
            | none => router.discardNewMsg arrival.msg
        | .discarded => pure (.discarded, router)
        | .shutdown => pure (.shutdown, router)
      else router.discardNewMsg arrival.msg

/-- The rest of the loop body of `HandleMsgAvailable` for a message
`ValidateNewMsg` kept: an AnyPartition message, when per-topic batching is
on, is offered to the batcher, and enters Batching when the batcher takes
it; the batches the batcher returns are collected.  A message not taken is
left to route. -/
def batchMsg (router : TRouterThread) (msg : TMsg) (now : TTimestamp) :
    Except TTrackerFault (List (List TMsg) × Option TMsg × TRouterThread) :=
  if msg.routingType = .anyPartition ∧ router.perTopicBatcher.isEnabled = true then do
    let (ready, left, batcher) := router.perTopicBatcher.addMsg msg now
    let tracker ← match left with
      | none => Prod.fst <$> router.msgStateTracker.msgEnterBatching (msg, .new)
      | some _ => pure router.msgStateTracker
    pure (ready, left, { router with perTopicBatcher := batcher, msgStateTracker := tracker })
  else .ok ([], some msg, router)

/-- The loop of `HandleMsgAvailable`: each message validated, and a kept
one batched; a validation that returns false ends the loop, with the
messages after it not reached. -/
def batchMsgs (now : TTimestamp) : TRouterThread → List TArrival → Except TTrackerFault TMsgLoop
  | router, [] => .ok ⟨[], [], none, router⟩
  | router, arrival :: rest => do
      let (validation, router) ← router.validateNewMsg arrival
      match validation with
      | .shutdown => pure ⟨[], [], some (rest.map TArrival.msg), router⟩
      | .discarded => batchMsgs now router rest
      | .kept => do
          let (ready, left, router) ← router.batchMsg arrival.msg now
          let loop ← batchMsgs now router rest
          pure { loop with readyBatches := ready ++ loop.readyBatches, remaining := left.toList ++ loop.remaining }

/-- `HandleMsgAvailable(now)` on the messages the channel gave: the loop;
then, when it ran to the end, the collected batches to the brokers, and
otherwise (the shutdown delay expired during a topic autocreate) every
message the call still holds discarded on its own: those the loop did not
reach, those left to route, and the ready batches'.  Returned with the
router are the batches it sent and the messages it goes on to `Route`. -/
def handleMsgAvailable (router : TRouterThread) (arrived : List TArrival) (now : TTimestamp) :
    Except TTrackerFault (TRouterThread × List (List TMsg) × List TMsg) := do
  let loop ← batchMsgs now router arrived
  match loop.unvalidated with
  | none => do
      let router ← loop.router.routeAnyPartitionNow loop.readyBatches
      pure (router, loop.readyBatches, loop.remaining)
  | some unvalidated => do
      let router ← loop.router.discardEach (fresh unvalidated)
      let router ← router.discardEach (fresh loop.remaining)
      let router ← router.discardEach (batched loop.readyBatches.flatten)
      pure (router, [], [])

/-- `HandleBatchExpiry(now)`: the batches complete at `now` go to the
brokers, and are returned with the router. -/
def handleBatchExpiry (router : TRouterThread) (now : TTimestamp) :
    Except TTrackerFault (TRouterThread × List (List TMsg)) := do
  let (complete, batcher) := router.perTopicBatcher.getCompleteBatches now
  let router ← routeAnyPartitionNow { router with perTopicBatcher := batcher } complete
  pure (router, complete)

/-! ### The batcher's deleted topics -/

theorem batchOf_deleteTopic_self (batcher : TPerTopicBatcher) (topic : String) :
    batchOf (batcher.deleteTopic topic).2.batchMap topic = [] := by
  unfold TPerTopicBatcher.deleteTopic
  cases found : batcher.batchMap.lookup topic with
  | none => simp [batchOf, KeyedList.groupOf, found]
  | some entry => simp [batchOf, KeyedList.groupOf]

/-- `DeleteTopic(topic)` returns the topic's messages. -/
theorem deleteTopic_fst {batcher : TPerTopicBatcher} (tracked : Tracked batcher) (topic : String) :
    (batcher.deleteTopic topic).1 = ofTopic topic batcher.held := by
  have law := deleteTopic_topic_law tracked topic topic
  rw [(deleteTopic_singleTopic tracked topic).ofTopic_self, batchOf_deleteTopic_self, List.append_nil] at law
  rw [law, held_ofTopic tracked]

/-- `DeleteTopic(topic)` keeps the messages of every other topic. -/
theorem ofTopic_held_deleteTopic {batcher : TPerTopicBatcher} (tracked : Tracked batcher) {topic other : String}
    (different : other ≠ topic) :
    ofTopic other (batcher.deleteTopic topic).2.held = ofTopic other batcher.held := by
  have law := deleteTopic_topic_law tracked topic other
  rw [(deleteTopic_singleTopic tracked topic).ofTopic_other (Ne.symm different), List.nil_append] at law
  rw [held_ofTopic (tracked.deleteTopic topic), law, held_ofTopic tracked]

theorem mem_held_deleteTopic {batcher : TPerTopicBatcher} (tracked : Tracked batcher) {topic : String} {msg : TMsg}
    (held : msg ∈ batcher.held) (different : msg.topic ≠ topic) : msg ∈ (batcher.deleteTopic topic).2.held := by
  have kept : msg ∈ ofTopic msg.topic batcher.held := List.mem_filter.mpr ⟨held, by simp⟩
  rw [← ofTopic_held_deleteTopic tracked different] at kept
  exact (List.mem_filter.mp kept).1

/-- `DeleteTopic(topic)` hands back, and then holds, a reordering of what
the batcher held. -/
theorem deleteTopic_perm {batcher : TPerTopicBatcher} (tracked : Tracked batcher) (topic : String) :
    ((batcher.deleteTopic topic).1 ++ (batcher.deleteTopic topic).2.held).Perm batcher.held := by
  apply perm_of_filter_key_eq TMsg.topic
  intro other
  change ofTopic other _ = ofTopic other _
  rw [ofTopic_append, held_ofTopic (tracked.deleteTopic topic), deleteTopic_topic_law tracked, held_ofTopic tracked]

/-- The loop of `UpdateBatchStateForNewMetadata` hands back, and then
holds, a reordering of what the batcher held, and leaves a batcher
reachable with the same configuration. -/
theorem deleteTopics_perm {config : TPerTopicConfig} (newTopic : String → Option Bool) :
    ∀ (topics : List String) {batcher : TPerTopicBatcher}, Reached config batcher →
      Reached config (deleteTopics newTopic topics batcher).2.2 ∧
        ((deleteTopics newTopic topics batcher).1 ++ (deleteTopics newTopic topics batcher).2.1 ++
          (deleteTopics newTopic topics batcher).2.2.held).Perm batcher.held
  | [], batcher, reached => ⟨reached, by simp [deleteTopics]⟩
  | topic :: rest, batcher, reached => by
      have taken := deleteTopic_perm reached.1 topic
      have later := deleteTopics_perm newTopic rest (reached.step (.deleteTopic topic))
      have stays := deleteTopics_perm newTopic rest reached
      dsimp only [TPerTopicBatcher.step] at later
      unfold deleteTopics
      generalize batcher.deleteTopic topic = split at taken later ⊢
      obtain ⟨msgs, deleted⟩ := split
      dsimp only at taken later ⊢
      generalize deleteTopics newTopic rest deleted = after at later ⊢
      obtain ⟨reached', perm⟩ := later
      -- what the topic had, then what the later topics take and leave
      have whole : (msgs ++ (after.1 ++ (after.2.1 ++ after.2.2.held))).Perm batcher.held := by
        simpa only [List.append_assoc] using (perm.append_left msgs).trans taken
      split
      · -- the topic is gone: its messages join the deleted ones
        exact ⟨reached', by simpa only [List.append_assoc] using whole⟩
      · -- the topic has no ok partitions: its messages join the unavailable ones
        refine ⟨reached', List.Perm.trans ?_ whole⟩
        simpa only [List.append_assoc] using List.perm_append_comm_assoc after.1 msgs (after.2.1 ++ after.2.2.held)
      · exact stays

/-- A batched message of a topic the new metadata dropped is among the
deleted messages, or among the unavailable ones. -/
theorem mem_deleteTopics (newTopic : String → Option Bool) :
    ∀ (topics : List String) {batcher : TPerTopicBatcher} {msg : TMsg}, Tracked batcher →
      msg ∈ batcher.held → msg.topic ∈ topics →
      (newTopic msg.topic = none → msg ∈ (deleteTopics newTopic topics batcher).1) ∧
      (newTopic msg.topic = some false → msg ∈ (deleteTopics newTopic topics batcher).2.1)
  | [], _, _, _, _, listed => absurd listed List.not_mem_nil
  | topic :: rest, batcher, msg, tracked, held, listed => by
      by_cases same : msg.topic = topic
      · -- the topic of the message: its messages are taken out here
        have taken : msg ∈ (batcher.deleteTopic topic).1 := by
          rw [deleteTopic_fst tracked, ← same]
          exact List.mem_filter.mpr ⟨held, by simp⟩
        rw [same]
        constructor
        · intro gone
          simp only [deleteTopics, gone]
          exact List.mem_append_left _ taken
        · intro gone
          simp only [deleteTopics, gone]
          exact List.mem_append_left _ taken
      · -- another topic: the message stays for a later one
        have later : msg.topic ∈ rest := (List.mem_cons.mp listed).resolve_left same
        have kept := mem_held_deleteTopic tracked held same
        have next := mem_deleteTopics newTopic rest (tracked.deleteTopic topic) kept later
        have stays := mem_deleteTopics newTopic rest tracked held later
        unfold deleteTopics
        split
        · exact ⟨fun gone => List.mem_append_right _ (next.1 gone), next.2⟩
        · exact ⟨next.1, fun gone => List.mem_append_right _ (next.2 gone)⟩
        · exact stays

/-! ### Calls on batched messages -/

/-- A list call asking for Processed on a list with a batched message fails
an assert. -/
theorem msgEnterProcessedList_batched {msg : TMsg} {msgs : List TMsg} (member : msg ∈ msgs)
    (tracker : TMsgStateTracker) :
    tracker.msgEnterProcessedList (batched msgs) = .error .assertionFailure := by
  cases msgs with
  | nil => cases member
  | cons first others => exact msgEnterList_of_bad ⟨(first, .batching), .head _, .inr rfl⟩

/-- Discarding a batched message fails an assert. -/
theorem discard_batching (router : TRouterThread) (msg : TMsg) :
    router.discard (msg, .batching) = .error .assertionFailure := by
  rw [discard, msgEnterProcessed, msgEnter_of_not_allowed rfl]
  rfl

/-- Discarding batched messages one by one fails an assert at the first. -/
theorem discardEach_batched (router : TRouterThread) {msgs : List TMsg} (nonempty : msgs ≠ []) :
    router.discardEach (batched msgs) = .error .assertionFailure := by
  obtain ⟨first, others, rfl⟩ := List.exists_cons_of_ne_nil nonempty
  rw [batched, List.map_cons, discardEach, discard_batching]
  rfl

end TRouterThread

end Dory
