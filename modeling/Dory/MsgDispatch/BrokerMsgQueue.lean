/-
Module: Dory.MsgDispatch.BrokerMsgQueue
Purpose: `TBrokerMsgQueue` (src/dory/msg_dispatch/broker_msg_queue.{h,cc}):
  the queue between the router thread and one broker's connector.  It owns a
  `TPerTopicBatcher`, which batches PartitionKey messages only, a
  `TCombinedTopicsBatcher`, and `ReadyList`, the batches ready to send.
  Every call holds `Mutex` (and `Reset` runs after the connector has
  stopped), so a call is one step.  `SenderNotify` is an `eventfd` counting
  semaphore, modelled by its count; `Get` pops it before `NonblockingGet`,
  and a pop at zero, which would block, is read as leaving it at zero.  The
  `TMsgStateTracker` calls and the counters only record statistics and are
  left out.  Over every run, every message put in is delivered once or still
  held, AnyPartition messages never enter the per-topic batcher, the sender
  is signalled whenever batches are ready, and every delivered list is a
  one-topic batch when the lists passed to `PutNow` are.  Release builds
  define `NDEBUG`, so the queue's asserts are not checked.
Trusted boundary: none
Main exports: TGlobalBatchConfig, TBrokerMsgQueue, TExpiryStatus, minOptTs,
  tryBatchPerTopic, tryBatchCombinedTopics, put, putNow, putNowBatch,
  checkBothBatchers, nonblockingGet, get, getAllMsgs, Op, step, Consistent,
  step_perm, brokerMsgQueue_conservation
-/
import Dory.Batch.PerTopicConservation
import Dory.Batch.CombinedTopicsBatcher

namespace Dory.Batch

/-- `TGlobalBatchConfig`, as far as the queue reads it: the per-topic
configuration (a `shared_ptr`, `none` when null) and the combined-topics
one. -/
structure TGlobalBatchConfig where
  perTopicConfig : Option TPerTopicConfig := none
  combinedTopicsConfig : TCombinedTopicsConfig
deriving DecidableEq, Repr

end Dory.Batch

namespace Dory.MsgDispatch

open Dory.Foundation
open Dory.Batch
open Dory.Util

/-- `min_opt_ts(t1, t2)`: the earlier of two optional expiries. -/
def minOptTs : Option TTimestamp → Option TTimestamp → Option TTimestamp
  | some t1, some t2 => some (min t1 t2)
  | some t1, none => some t1
  | none, some t2 => some t2
  | none, none => none

/-- `TBrokerMsgQueue::TExpiryStatus`: a batcher's next complete time before
and after a call. -/
structure TBrokerMsgQueue.TExpiryStatus where
  optInitialExpiry : Option TTimestamp := none
  optFinalExpiry : Option TTimestamp := none
deriving DecidableEq, Repr

/-- `TBrokerMsgQueue`; `senderNotify` is the count of `SenderNotify`. -/
structure TBrokerMsgQueue where
  senderNotify : Nat := 0
  perTopicBatcher : TPerTopicBatcher
  combinedTopicsBatcher : TCombinedTopicsBatcher
  readyList : List (List TMsg) := []
deriving DecidableEq, Repr

namespace TBrokerMsgQueue

/-- `TBrokerMsgQueue(batch_config, msg_state_tracker)`. -/
def init (batchConfig : TGlobalBatchConfig) : TBrokerMsgQueue :=
  { perTopicBatcher := TPerTopicBatcher.init batchConfig.perTopicConfig
    combinedTopicsBatcher := TCombinedTopicsBatcher.init batchConfig.combinedTopicsConfig }

/-- `SenderNotify.Push()`, when `notify`. -/
def pushSenderNotify (queue : TBrokerMsgQueue) (notify : Bool) : TBrokerMsgQueue :=
  if notify then { queue with senderNotify := queue.senderNotify + 1 } else queue

/-- `TryBatchPerTopic(now, msg_ptr, expiry_status)`: the message if it is
still with the caller, the expiry status, and the new queue.  Only a
PartitionKey message is offered to the per-topic batcher. -/
def tryBatchPerTopic (queue : TBrokerMsgQueue) (now : TTimestamp) (msg : TMsg) :
    Option TMsg × TExpiryStatus × TBrokerMsgQueue :=
  if !queue.perTopicBatcher.isEnabled then (some msg, {}, queue)
  else if msg.routingType = .partitionKey then
    let added := queue.perTopicBatcher.addMsg msg now
    (added.2.1, ⟨queue.perTopicBatcher.getNextCompleteTime, added.2.2.getNextCompleteTime⟩,
      { queue with perTopicBatcher := added.2.2, readyList := queue.readyList ++ added.1 })
  else
    (some msg,
      ⟨queue.perTopicBatcher.getNextCompleteTime, queue.perTopicBatcher.getNextCompleteTime⟩, queue)

/-- `TryBatchCombinedTopics(now, msg_ptr, expiry_status)`. -/
def tryBatchCombinedTopics (queue : TBrokerMsgQueue) (now : TTimestamp) (msg : TMsg) :
    Option TMsg × TExpiryStatus × TBrokerMsgQueue :=
  let added := queue.combinedTopicsBatcher.addMsg msg now
  (added.1.2, ⟨queue.combinedTopicsBatcher.getNextCompleteTime, added.2.getNextCompleteTime⟩,
    { queue with combinedTopicsBatcher := added.2, readyList := queue.readyList ++ added.1.1 })

/-- The part of `Put(now, msg)` under `Mutex`: the two expiry statuses and
the new queue.  A message that neither batcher takes goes to the ready list
as a batch of its own. -/
def putLocked (queue : TBrokerMsgQueue) (now : TTimestamp) (msg : TMsg) :
    TExpiryStatus × TExpiryStatus × TBrokerMsgQueue :=
  match queue.tryBatchPerTopic now msg with
  | (some msg, perTopicStatus, queue) =>
      match queue.tryBatchCombinedTopics now msg with
      | (some msg, combinedTopicsStatus, queue) =>
          (perTopicStatus, combinedTopicsStatus,
            { queue with readyList := queue.readyList ++ [[msg]] })
      | (none, combinedTopicsStatus, queue) => (perTopicStatus, combinedTopicsStatus, queue)
  | (none, perTopicStatus, queue) =>
      (perTopicStatus,
        ⟨queue.combinedTopicsBatcher.getNextCompleteTime,
          queue.combinedTopicsBatcher.getNextCompleteTime⟩, queue)

/-- The test at the end of `Put`: the ready list became nonempty, or the
earliest expiry of the two batchers became defined or earlier. -/
def putNotifies (readyListEmptyInitial readyListEmptyFinal : Bool)
    (perTopicStatus combinedTopicsStatus : TExpiryStatus) : Bool :=
  (readyListEmptyInitial && !readyListEmptyFinal) ||
    match minOptTs perTopicStatus.optFinalExpiry combinedTopicsStatus.optFinalExpiry,
        minOptTs perTopicStatus.optInitialExpiry combinedTopicsStatus.optInitialExpiry with
    | some _, none => true
    | some minFinalExpiry, some minInitialExpiry => decide (minFinalExpiry < minInitialExpiry)
    | none, _ => false

/-- `Put(now, msg)`. -/
def put (queue : TBrokerMsgQueue) (now : TTimestamp) (msg : TMsg) : TBrokerMsgQueue :=
  let locked := queue.putLocked now msg
  locked.2.2.pushSenderNotify
    (putNotifies queue.readyList.isEmpty locked.2.2.readyList.isEmpty locked.1 locked.2.1)

/-- `CheckPerTopicBatcher(now, expiry_status)`: the complete batches when the
batcher's next complete time has come. -/
def checkPerTopicBatcher (queue : TBrokerMsgQueue) (now : TTimestamp) :
    List (List TMsg) × TExpiryStatus × TBrokerMsgQueue :=
  match queue.perTopicBatcher.getNextCompleteTime with
  | some initial =>
      if initial ≤ now then
        let complete := queue.perTopicBatcher.getCompleteBatches now
        (complete.1, ⟨some initial, complete.2.getNextCompleteTime⟩,
          { queue with perTopicBatcher := complete.2 })
      else ([], ⟨some initial, some initial⟩, queue)
  | none => ([], {}, queue)

/-- `CheckCombinedTopicsBatcher(now, expiry_status)`: the whole batch when its
next complete time has come. -/
def checkCombinedTopicsBatcher (queue : TBrokerMsgQueue) (now : TTimestamp) :
    List (List TMsg) × TExpiryStatus × TBrokerMsgQueue :=
  match queue.combinedTopicsBatcher.getNextCompleteTime with
  | some initial =>
      if initial ≤ now then
        (queue.combinedTopicsBatcher.takeBatch.1, ⟨some initial, none⟩,
          { queue with combinedTopicsBatcher := queue.combinedTopicsBatcher.takeBatch.2 })
      else ([], ⟨some initial, some initial⟩, queue)
  | none => ([], {}, queue)

/-- `CheckBothBatchers(now, per_topic_status, combined_topics_status)`: both
checks, their batches queued with the earlier initial expiry first. -/
def checkBothBatchers (queue : TBrokerMsgQueue) (now : TTimestamp) :
    TExpiryStatus × TExpiryStatus × TBrokerMsgQueue :=
  let perTopic := queue.checkPerTopicBatcher now
  let combinedTopics := perTopic.2.2.checkCombinedTopicsBatcher now
  let queue := combinedTopics.2.2
  let readyList :=
    match perTopic.2.1.optInitialExpiry, combinedTopics.2.1.optInitialExpiry with
    | some perTopicExpiry, some combinedTopicsExpiry =>
        if perTopicExpiry < combinedTopicsExpiry then
          queue.readyList ++ perTopic.1 ++ combinedTopics.1
        else queue.readyList ++ combinedTopics.1 ++ perTopic.1
    | _, _ => queue.readyList ++ perTopic.1 ++ combinedTopics.1
  (perTopic.2.1, combinedTopics.2.1, { queue with readyList := readyList })

/-- `PutNow(now, msg)`: the message goes to the ready list alone, after any
ready batches of the batchers. -/
def putNow (queue : TBrokerMsgQueue) (now : TTimestamp) (msg : TMsg) : TBrokerMsgQueue :=
  let checked := (queue.checkBothBatchers now).2.2
  ({ checked with readyList := checked.readyList ++ [[msg]] } : TBrokerMsgQueue).pushSenderNotify
    queue.readyList.isEmpty

/-- `PutNow(now, batch)`: the lists go to the ready list as they are. -/
def putNowBatch (queue : TBrokerMsgQueue) (now : TTimestamp) (batch : List (List TMsg)) :
    TBrokerMsgQueue :=
  if batch.isEmpty then queue
  else
    let checked := (queue.checkBothBatchers now).2.2
    ({ checked with readyList := checked.readyList ++ batch } : TBrokerMsgQueue).pushSenderNotify
      queue.readyList.isEmpty

/-- `NonblockingGet(now, next_batch_complete_time, ready_msgs)`: the ready
list, and the earliest next complete time of the batchers if there is one. -/
def nonblockingGet (queue : TBrokerMsgQueue) (now : TTimestamp) :
    (List (List TMsg) × Option TTimestamp) × TBrokerMsgQueue :=
  let checked := queue.checkBothBatchers now
  ((checked.2.2.readyList, minOptTs checked.1.optFinalExpiry checked.2.1.optFinalExpiry),
    { checked.2.2 with readyList := [] })

/-- `SenderNotify.Pop()`: the count less one (at zero the call blocks; the
model leaves the count at zero). -/
def popSenderNotify (queue : TBrokerMsgQueue) : TBrokerMsgQueue :=
  { queue with senderNotify := queue.senderNotify - 1 }

/-- `SenderNotify.Reset()`: the count back to zero. -/
def resetSenderNotify (queue : TBrokerMsgQueue) : TBrokerMsgQueue :=
  { queue with senderNotify := 0 }

/-- `Get(now, next_batch_complete_time, ready_msgs)`: `SenderNotify.Pop()`,
then `NonblockingGet`. -/
def get (queue : TBrokerMsgQueue) (now : TTimestamp) :
    (List (List TMsg) × Option TTimestamp) × TBrokerMsgQueue :=
  queue.popSenderNotify.nonblockingGet now

/-- `GetAllMsgs()`: the ready list, then both batchers' contents, the one
with the earlier expiry first; the returned `ReadyList` is moved from and
left empty. -/
def getAllMsgs (queue : TBrokerMsgQueue) : List (List TMsg) × TBrokerMsgQueue :=
  let perTopicExpiry := queue.perTopicBatcher.getNextCompleteTime
  let combinedTopicsExpiry := queue.combinedTopicsBatcher.getNextCompleteTime
  let perTopic := queue.perTopicBatcher.getAllBatches
  let combinedTopics := queue.combinedTopicsBatcher.takeBatch
  let readyList :=
    match perTopicExpiry, combinedTopicsExpiry with
    | some perTopicExpiry, some combinedTopicsExpiry =>
        if combinedTopicsExpiry < perTopicExpiry then
          queue.readyList ++ combinedTopics.1 ++ perTopic.1
        else queue.readyList ++ perTopic.1 ++ combinedTopics.1
    | _, _ => queue.readyList ++ perTopic.1 ++ combinedTopics.1
  (readyList,
    { queue with
      perTopicBatcher := perTopic.2
      combinedTopicsBatcher := combinedTopics.2
      readyList := [] })

/-- `GetAllOnShutdown()`. -/
def getAllOnShutdown (queue : TBrokerMsgQueue) : List (List TMsg) × TBrokerMsgQueue :=
  queue.getAllMsgs

/-- `Reset()`: `SenderNotify.Reset()`, then `GetAllMsgs()`. -/
def reset (queue : TBrokerMsgQueue) : List (List TMsg) × TBrokerMsgQueue :=
  queue.resetSenderNotify.getAllMsgs

/-- Every message the queue holds: the ready list, then the per-topic
batcher's and the combined-topics batcher's messages. -/
def held (queue : TBrokerMsgQueue) : List TMsg :=
  queue.readyList.flatten ++ queue.perTopicBatcher.held ++ queue.combinedTopicsBatcher.topicMap.held

/-- A list the sender takes as one batch: nonempty, and of one topic. -/
def TopicBatch (batch : List TMsg) : Prop :=
  batch ≠ [] ∧ ∃ topic, SingleTopic topic batch

@[simp] theorem pushSenderNotify_readyList (queue : TBrokerMsgQueue) (notify : Bool) :
    (queue.pushSenderNotify notify).readyList = queue.readyList := by
  unfold pushSenderNotify
  split <;> rfl

@[simp] theorem pushSenderNotify_perTopicBatcher (queue : TBrokerMsgQueue) (notify : Bool) :
    (queue.pushSenderNotify notify).perTopicBatcher = queue.perTopicBatcher := by
  unfold pushSenderNotify
  split <;> rfl

@[simp] theorem pushSenderNotify_combinedTopicsBatcher (queue : TBrokerMsgQueue) (notify : Bool) :
    (queue.pushSenderNotify notify).combinedTopicsBatcher = queue.combinedTopicsBatcher := by
  unfold pushSenderNotify
  split <;> rfl

theorem le_pushSenderNotify (queue : TBrokerMsgQueue) (notify : Bool) :
    queue.senderNotify ≤ (queue.pushSenderNotify notify).senderNotify := by
  unfold pushSenderNotify
  split <;> simp

theorem pos_pushSenderNotify_true (queue : TBrokerMsgQueue) :
    0 < (queue.pushSenderNotify true).senderNotify := by
  simp [pushSenderNotify]

@[simp] theorem popSenderNotify_perTopicBatcher (queue : TBrokerMsgQueue) :
    queue.popSenderNotify.perTopicBatcher = queue.perTopicBatcher := rfl

@[simp] theorem popSenderNotify_combinedTopicsBatcher (queue : TBrokerMsgQueue) :
    queue.popSenderNotify.combinedTopicsBatcher = queue.combinedTopicsBatcher := rfl

@[simp] theorem popSenderNotify_readyList (queue : TBrokerMsgQueue) :
    queue.popSenderNotify.readyList = queue.readyList := rfl

@[simp] theorem resetSenderNotify_perTopicBatcher (queue : TBrokerMsgQueue) :
    queue.resetSenderNotify.perTopicBatcher = queue.perTopicBatcher := rfl

@[simp] theorem resetSenderNotify_combinedTopicsBatcher (queue : TBrokerMsgQueue) :
    queue.resetSenderNotify.combinedTopicsBatcher = queue.combinedTopicsBatcher := rfl

@[simp] theorem resetSenderNotify_readyList (queue : TBrokerMsgQueue) :
    queue.resetSenderNotify.readyList = queue.readyList := rfl

@[simp] theorem held_popSenderNotify (queue : TBrokerMsgQueue) :
    queue.popSenderNotify.held = queue.held := rfl

@[simp] theorem held_resetSenderNotify (queue : TBrokerMsgQueue) :
    queue.resetSenderNotify.held = queue.held := rfl

@[simp] theorem held_pushSenderNotify (queue : TBrokerMsgQueue) (notify : Bool) :
    (queue.pushSenderNotify notify).held = queue.held := by
  simp [held]

/-- `TryBatchPerTopic` either leaves the queue as it was, with the message,
or hands a PartitionKey message to the enabled per-topic batcher's
`AddMsg` and queues what that returns. -/
theorem tryBatchPerTopic_cases (queue : TBrokerMsgQueue) (now : TTimestamp) (msg : TMsg) :
    ((queue.tryBatchPerTopic now msg).1 = some msg ∧ (queue.tryBatchPerTopic now msg).2.2 = queue) ∨
      (queue.perTopicBatcher.isEnabled = true ∧ msg.routingType = .partitionKey ∧
        (queue.tryBatchPerTopic now msg).1 = (queue.perTopicBatcher.addMsg msg now).2.1 ∧
        (queue.tryBatchPerTopic now msg).2.2 =
          { queue with
            perTopicBatcher := (queue.perTopicBatcher.addMsg msg now).2.2
            readyList := queue.readyList ++ (queue.perTopicBatcher.addMsg msg now).1 }) := by
  unfold tryBatchPerTopic
  by_cases enabled : queue.perTopicBatcher.isEnabled = true
  · by_cases keyed : msg.routingType = .partitionKey
    · exact Or.inr ⟨enabled, keyed, by simp [enabled, keyed], by simp [enabled, keyed]⟩
    · exact Or.inl (by simp [enabled, keyed])
  · exact Or.inl (by simp [enabled])

@[simp] theorem tryBatchPerTopic_combinedTopicsBatcher (queue : TBrokerMsgQueue) (now : TTimestamp)
    (msg : TMsg) :
    (queue.tryBatchPerTopic now msg).2.2.combinedTopicsBatcher = queue.combinedTopicsBatcher := by
  rcases tryBatchPerTopic_cases queue now msg with ⟨-, same⟩ | ⟨-, -, -, added⟩
  · rw [same]
  · rw [added]

@[simp] theorem tryBatchCombinedTopics_perTopicBatcher (queue : TBrokerMsgQueue) (now : TTimestamp)
    (msg : TMsg) :
    (queue.tryBatchCombinedTopics now msg).2.2.perTopicBatcher = queue.perTopicBatcher := rfl

/-- An AnyPartition message never reaches the per-topic batcher. -/
theorem tryBatchPerTopic_anyPartition (queue : TBrokerMsgQueue) (now : TTimestamp) {msg : TMsg}
    (anyPartition : msg.routingType = .anyPartition) :
    (queue.tryBatchPerTopic now msg).2.2 = queue := by
  rcases tryBatchPerTopic_cases queue now msg with ⟨-, same⟩ | ⟨-, keyed, -, -⟩
  · exact same
  · rw [anyPartition] at keyed
    cases keyed

/-!
### Phases of a call

A call under `Mutex` runs through phases (the two `TryBatch*` calls, the
checks of both batchers, appending to `ReadyList`).  Each phase keeps both
batchers consistent, only appends one-topic batches to the ready list,
leaves the semaphore alone, and keeps every message it is given.
-/

/-- The invariant of both batchers: the per-topic batcher's own, the
combined-topics batcher's for its configuration, and the per-topic batcher
holds PartitionKey messages only. -/
structure BatchersConsistent (config : TGlobalBatchConfig) (queue : TBrokerMsgQueue) : Prop where
  perTopicTracked : TPerTopicBatcher.Tracked queue.perTopicBatcher
  combinedTopics : TCombinedTopicsBatcher.Consistent config.combinedTopicsConfig
    queue.combinedTopicsBatcher
  partitionKey : ∀ msg ∈ queue.perTopicBatcher.held, msg.routingType = .partitionKey

/-- The invariant reads the batchers only. -/
theorem BatchersConsistent.congr {config : TGlobalBatchConfig} {queue other : TBrokerMsgQueue}
    (consistent : BatchersConsistent config queue)
    (perTopic : other.perTopicBatcher = queue.perTopicBatcher)
    (combinedTopics : other.combinedTopicsBatcher = queue.combinedTopicsBatcher) :
    BatchersConsistent config other := by
  refine ⟨?_, ?_, ?_⟩
  · rw [perTopic]
    exact consistent.perTopicTracked
  · rw [combinedTopics]
    exact consistent.combinedTopics
  · rw [perTopic]
    exact consistent.partitionKey

/-- One phase from `before` to `after` that is given the messages
`received`. -/
structure Phase (config : TGlobalBatchConfig) (before after : TBrokerMsgQueue)
    (received : List TMsg) : Prop where
  consistent : BatchersConsistent config after
  appended : ∃ batches, (∀ batch ∈ batches, TopicBatch batch) ∧
    after.readyList = before.readyList ++ batches
  senderNotify : after.senderNotify = before.senderNotify
  held : after.held.Perm (before.held ++ received)

theorem Phase.refl {config : TGlobalBatchConfig} {queue : TBrokerMsgQueue}
    (consistent : BatchersConsistent config queue) : Phase config queue queue [] :=
  ⟨consistent, ⟨[], fun _ member => (nomatch member), by simp⟩, rfl, by simp⟩

theorem Phase.trans {config : TGlobalBatchConfig} {first second third : TBrokerMsgQueue}
    {received more : List TMsg} (earlier : Phase config first second received)
    (later : Phase config second third more) : Phase config first third (received ++ more) := by
  obtain ⟨batches, shaped, appended⟩ := earlier.appended
  obtain ⟨moreBatches, moreShaped, moreAppended⟩ := later.appended
  refine ⟨later.consistent, ⟨batches ++ moreBatches, ?_, ?_⟩,
    later.senderNotify.trans earlier.senderNotify, ?_⟩
  · intro batch member
    rcases List.mem_append.mp member with old | new
    · exact shaped batch old
    · exact moreShaped batch new
  · rw [moreAppended, appended, List.append_assoc]
  · rw [← List.append_assoc]
    exact later.held.trans (earlier.held.append_right more)

/-- Appending to the ready list adds the lists' messages to what the queue
holds. -/
theorem held_appendReady (queue : TBrokerMsgQueue) (batches : List (List TMsg)) :
    ({ queue with readyList := queue.readyList ++ batches } : TBrokerMsgQueue).held.Perm
      (queue.held ++ batches.flatten) := by
  rw [List.perm_iff_count]
  intro x
  simp only [held, List.flatten_append, List.count_append]
  omega

/-- Appending one-topic batches to the ready list is a phase given their
messages. -/
theorem appendReady_phase {config : TGlobalBatchConfig} {queue : TBrokerMsgQueue}
    (consistent : BatchersConsistent config queue) {batches : List (List TMsg)}
    (shaped : ∀ batch ∈ batches, TopicBatch batch) :
    Phase config queue { queue with readyList := queue.readyList ++ batches } batches.flatten :=
  ⟨consistent.congr rfl rfl, ⟨batches, shaped, rfl⟩, rfl, held_appendReady queue batches⟩

theorem single_topicBatch (msg : TMsg) : ∀ batch ∈ [[msg]], TopicBatch batch := by
  intro batch member
  rw [List.mem_singleton] at member
  subst member
  exact ⟨List.cons_ne_nil _ _, msg.topic, by simp [SingleTopic]⟩

section Phases

variable {config : TGlobalBatchConfig} {queue : TBrokerMsgQueue}
  (consistent : BatchersConsistent config queue)
include consistent

/-- `TryBatchPerTopic` is a phase given the message when the per-topic
batcher takes it, and given nothing when the message is still with the
caller. -/
theorem tryBatchPerTopic_phase (now : TTimestamp) (msg : TMsg) :
    ((queue.tryBatchPerTopic now msg).1 = none ∧
        Phase config queue (queue.tryBatchPerTopic now msg).2.2 [msg]) ∨
      ((queue.tryBatchPerTopic now msg).1 = some msg ∧
        Phase config queue (queue.tryBatchPerTopic now msg).2.2 []) := by
  rcases tryBatchPerTopic_cases queue now msg with ⟨left, same⟩ | ⟨-, keyed, left, added⟩
  · rw [same]
    exact Or.inr ⟨left, Phase.refl consistent⟩
  · have tracked := consistent.perTopicTracked
    have moved := TPerTopicBatcher.addMsg_perm tracked msg now
    -- what the per-topic batcher holds afterwards it held before, or is the message
    have kept : ∀ held ∈ (queue.perTopicBatcher.addMsg msg now).2.2.held,
        held.routingType = .partitionKey := by
      intro held member
      have before := moved.subset (List.mem_append_right _ member)
      rcases List.mem_append.mp before with old | new
      · exact consistent.partitionKey held old
      · rw [List.mem_singleton.mp new]
        exact keyed
    have phase : ∀ received, ((queue.perTopicBatcher.addMsg msg now).1.flatten ++
          (queue.perTopicBatcher.addMsg msg now).2.2.held).Perm
          (queue.perTopicBatcher.held ++ received) →
        Phase config queue (queue.tryBatchPerTopic now msg).2.2 received := by
      intro received accounted
      rw [added]
      refine ⟨⟨tracked.addMsg msg now, consistent.combinedTopics, kept⟩,
        ⟨_, TPerTopicBatcher.addMsg_batches tracked msg now, rfl⟩, rfl, ?_⟩
      rw [List.perm_iff_count] at accounted ⊢
      intro x
      have count := accounted x
      simp only [held, List.flatten_append, List.count_append] at count ⊢
      omega
    rcases TPerTopicBatcher.addMsg_left_cases queue.perTopicBatcher msg now with taken | leaves
    · refine Or.inl ⟨by rw [left, taken], phase [msg] ?_⟩
      simpa [taken] using moved
    · refine Or.inr ⟨by rw [left, leaves], phase [] ?_⟩
      rw [leaves] at moved
      rw [List.perm_iff_count] at moved ⊢
      intro x
      have count := moved x
      simp only [Option.toList_some, List.count_append, List.append_nil] at count ⊢
      omega

/-- `TryBatchCombinedTopics` is a phase given the message when the
combined-topics batcher takes it, and given nothing when the message is
still with the caller. -/
theorem tryBatchCombinedTopics_phase (now : TTimestamp) (msg : TMsg) :
    ((queue.tryBatchCombinedTopics now msg).1 = none ∧
        Phase config queue (queue.tryBatchCombinedTopics now msg).2.2 [msg]) ∨
      ((queue.tryBatchCombinedTopics now msg).1 = some msg ∧
        Phase config queue (queue.tryBatchCombinedTopics now msg).2.2 []) := by
  have combined := consistent.combinedTopics
  have moved := TCombinedTopicsBatcher.addMsg_perm combined msg now
  have phase : ∀ received,
      ((queue.combinedTopicsBatcher.addMsg msg now).1.1.flatten ++
          (queue.combinedTopicsBatcher.addMsg msg now).2.topicMap.held).Perm
        (queue.combinedTopicsBatcher.topicMap.held ++ received) →
      Phase config queue (queue.tryBatchCombinedTopics now msg).2.2 received := by
    intro received accounted
    refine ⟨⟨consistent.perTopicTracked, TCombinedTopicsBatcher.addMsg_consistent combined msg now,
      consistent.partitionKey⟩, ⟨_, TCombinedTopicsBatcher.step_batches combined (.addMsg msg now),
      rfl⟩, rfl, ?_⟩
    rw [List.perm_iff_count] at accounted ⊢
    intro x
    have count := accounted x
    simp only [tryBatchCombinedTopics, held, List.flatten_append, List.count_append] at count ⊢
    omega
  rcases TCombinedTopicsBatcher.addMsg_left queue.combinedTopicsBatcher msg now with
    leaves | ⟨taken, -⟩
  · refine Or.inr ⟨leaves, phase [] ?_⟩
    rw [leaves] at moved
    rw [List.perm_iff_count] at moved ⊢
    intro x
    have count := moved x
    simp only [Option.toList_some, List.count_append, List.append_nil] at count ⊢
    omega
  · refine Or.inl ⟨taken, phase [msg] ?_⟩
    simpa [taken] using moved

/-- The part of `Put` under the lock is a phase given the message: the
per-topic batcher is offered it first, then the combined-topics batcher,
and a message neither takes is queued alone. -/
theorem putLocked_phase (now : TTimestamp) (msg : TMsg) :
    Phase config queue (queue.putLocked now msg).2.2 [msg] := by
  have perTopic := tryBatchPerTopic_phase consistent now msg
  unfold putLocked
  rcases tried : queue.tryBatchPerTopic now msg with ⟨left, perTopicStatus, next⟩
  rw [tried] at perTopic
  rcases perTopic with ⟨taken, phase⟩ | ⟨leaves, phase⟩
  · -- the per-topic batcher took the message
    dsimp only at taken phase
    subst taken
    exact phase
  · dsimp only at leaves phase
    subst leaves
    dsimp only
    have combined := tryBatchCombinedTopics_phase phase.consistent now msg
    rcases triedCombined : next.tryBatchCombinedTopics now msg with ⟨left, combinedStatus, last⟩
    rw [triedCombined] at combined
    rcases combined with ⟨taken, combinedPhase⟩ | ⟨leaves, combinedPhase⟩
    · -- the combined-topics batcher took it
      dsimp only at taken combinedPhase
      subst taken
      dsimp only
      have whole := phase.trans combinedPhase
      rwa [List.nil_append] at whole
    · -- neither did: the message is queued as a batch of its own
      dsimp only at leaves combinedPhase
      subst leaves
      dsimp only
      have whole := (phase.trans combinedPhase).trans
        (appendReady_phase combinedPhase.consistent (single_topicBatch msg))
      simpa using whole

end Phases

/-!
### The checks of `CheckBothBatchers`
-/

theorem checkPerTopicBatcher_cases (queue : TBrokerMsgQueue) (now : TTimestamp) :
    ((queue.checkPerTopicBatcher now).1 = [] ∧ (queue.checkPerTopicBatcher now).2.2 = queue) ∨
      ((queue.checkPerTopicBatcher now).1 = (queue.perTopicBatcher.getCompleteBatches now).1 ∧
        (queue.checkPerTopicBatcher now).2.2 =
          { queue with perTopicBatcher := (queue.perTopicBatcher.getCompleteBatches now).2 }) := by
  unfold checkPerTopicBatcher
  split
  · split
    · exact Or.inr ⟨rfl, rfl⟩
    · exact Or.inl ⟨rfl, rfl⟩
  · exact Or.inl ⟨rfl, rfl⟩

theorem checkCombinedTopicsBatcher_cases (queue : TBrokerMsgQueue) (now : TTimestamp) :
    ((queue.checkCombinedTopicsBatcher now).1 = [] ∧
        (queue.checkCombinedTopicsBatcher now).2.2 = queue) ∨
      ((queue.checkCombinedTopicsBatcher now).1 = queue.combinedTopicsBatcher.takeBatch.1 ∧
        (queue.checkCombinedTopicsBatcher now).2.2 =
          { queue with combinedTopicsBatcher := queue.combinedTopicsBatcher.takeBatch.2 }) := by
  unfold checkCombinedTopicsBatcher
  split
  · split
    · exact Or.inr ⟨rfl, rfl⟩
    · exact Or.inl ⟨rfl, rfl⟩
  · exact Or.inl ⟨rfl, rfl⟩

/-- A check from `before` to `after` that hands back `batches`: the batchers
stay consistent, the ready list and the semaphore are untouched, and the
batches and what is held afterwards are what was held before. -/
structure Check (config : TGlobalBatchConfig) (before after : TBrokerMsgQueue)
    (batches : List (List TMsg)) : Prop where
  consistent : BatchersConsistent config after
  shaped : ∀ batch ∈ batches, TopicBatch batch
  readyList : after.readyList = before.readyList
  senderNotify : after.senderNotify = before.senderNotify
  held : (batches.flatten ++ after.held).Perm before.held

theorem Check.refl {config : TGlobalBatchConfig} {queue : TBrokerMsgQueue}
    (consistent : BatchersConsistent config queue) : Check config queue queue [] :=
  ⟨consistent, fun _ member => (nomatch member), rfl, rfl, by simp⟩

section Checks

variable {config : TGlobalBatchConfig} {queue : TBrokerMsgQueue}
  (consistent : BatchersConsistent config queue)
include consistent

theorem checkPerTopicBatcher_check (now : TTimestamp) :
    Check config queue (queue.checkPerTopicBatcher now).2.2 (queue.checkPerTopicBatcher now).1 := by
  rcases checkPerTopicBatcher_cases queue now with ⟨none, same⟩ | ⟨handed, complete⟩
  · rw [none, same]
    exact Check.refl consistent
  · have tracked := consistent.perTopicTracked
    have kept := TPerTopicBatcher.getCompleteBatches_perm tracked now
    rw [handed, complete]
    refine ⟨⟨tracked.getCompleteBatches now, consistent.combinedTopics, ?_⟩,
      TPerTopicBatcher.getCompleteBatches_batches tracked now, rfl, rfl, ?_⟩
    · intro msg member
      exact consistent.partitionKey msg (kept.subset (List.mem_append_right _ member))
    · rw [List.perm_iff_count] at kept ⊢
      intro x
      have count := kept x
      simp only [held, List.count_append] at count ⊢
      omega

theorem checkCombinedTopicsBatcher_check (now : TTimestamp) :
    Check config queue (queue.checkCombinedTopicsBatcher now).2.2
      (queue.checkCombinedTopicsBatcher now).1 := by
  rcases checkCombinedTopicsBatcher_cases queue now with ⟨none, same⟩ | ⟨handed, taken⟩
  · rw [none, same]
    exact Check.refl consistent
  · have combined := consistent.combinedTopics
    rw [handed, taken]
    refine ⟨⟨consistent.perTopicTracked, TCombinedTopicsBatcher.takeBatch_consistent combined,
      consistent.partitionKey⟩, TTopicMap.get_batches combined.valid, rfl, rfl, ?_⟩
    rw [List.perm_iff_count]
    intro x
    simp only [held, TCombinedTopicsBatcher.takeBatch_fst, TTopicMap.flatten_get,
      TCombinedTopicsBatcher.takeBatch_topicMap, TTopicMap.held_empty, List.count_append,
      List.count_nil]
    omega

/-- `CheckBothBatchers` is a phase given nothing: whichever order it queues
the two checks' batches in, it moves them from the batchers to the ready
list. -/
theorem checkBothBatchers_phase (now : TTimestamp) :
    Phase config queue (queue.checkBothBatchers now).2.2 [] := by
  have perTopic := checkPerTopicBatcher_check consistent now
  have combinedTopics := checkCombinedTopicsBatcher_check perTopic.consistent now
  -- the batches of both checks, in the order queued
  have queued : ∃ batches, batches.Perm ((queue.checkPerTopicBatcher now).1 ++
        ((queue.checkPerTopicBatcher now).2.2.checkCombinedTopicsBatcher now).1) ∧
      (queue.checkBothBatchers now).2.2 =
        { ((queue.checkPerTopicBatcher now).2.2.checkCombinedTopicsBatcher now).2.2 with
          readyList := queue.readyList ++ batches } := by
    unfold checkBothBatchers
    dsimp only
    split
    · split
      · refine ⟨_, List.Perm.refl _, ?_⟩
        rw [List.append_assoc, combinedTopics.readyList, perTopic.readyList]
      · refine ⟨_, List.perm_append_comm, ?_⟩
        rw [List.append_assoc, combinedTopics.readyList, perTopic.readyList]
    · refine ⟨_, List.Perm.refl _, ?_⟩
      rw [List.append_assoc, combinedTopics.readyList, perTopic.readyList]
  obtain ⟨batches, reordered, result⟩ := queued
  rw [result]
  refine ⟨combinedTopics.consistent.congr rfl rfl, ⟨batches, ?_, rfl⟩, ?_, ?_⟩
  · intro batch member
    rcases List.mem_append.mp (reordered.subset member) with first | second
    · exact perTopic.shaped batch first
    · exact combinedTopics.shaped batch second
  · exact combinedTopics.senderNotify.trans perTopic.senderNotify
  · have flat := reordered.flatten
    have first := perTopic.held
    have second := combinedTopics.held
    rw [List.perm_iff_count] at flat first second ⊢
    intro x
    have countFlat := flat x
    have countFirst := first x
    have countSecond := second x
    simp only [held, List.flatten_append, List.count_append, List.append_nil,
      combinedTopics.readyList, perTopic.readyList] at countFlat countFirst countSecond ⊢
    omega

end Checks

/-!
### Where a message goes on `Put`
-/

theorem putLocked_perTopicBatcher (queue : TBrokerMsgQueue) (now : TTimestamp) (msg : TMsg) :
    (queue.putLocked now msg).2.2.perTopicBatcher = (queue.tryBatchPerTopic now msg).2.2.perTopicBatcher := by
  unfold putLocked
  rcases queue.tryBatchPerTopic now msg with ⟨_ | left, status, next⟩
  · rfl
  · dsimp only
    have kept := tryBatchCombinedTopics_perTopicBatcher next now left
    rcases tried : next.tryBatchCombinedTopics now left with ⟨_ | _, _, last⟩ <;>
    · rw [tried] at kept
      exact kept

/-- The combined-topics batcher sees a message only when the per-topic
batcher left it with the caller. -/
theorem putLocked_combinedTopicsBatcher_of_taken (queue : TBrokerMsgQueue) (now : TTimestamp)
    (msg : TMsg) (taken : (queue.tryBatchPerTopic now msg).1 = none) :
    (queue.putLocked now msg).2.2.combinedTopicsBatcher = queue.combinedTopicsBatcher := by
  have kept := tryBatchPerTopic_combinedTopicsBatcher queue now msg
  unfold putLocked
  rcases tried : queue.tryBatchPerTopic now msg with ⟨left, status, next⟩
  rw [tried] at taken kept
  dsimp only at taken kept
  subst taken
  exact kept

/-- `Put` of an AnyPartition message leaves the per-topic batcher as it was. -/
theorem put_anyPartition (queue : TBrokerMsgQueue) (now : TTimestamp) {msg : TMsg}
    (anyPartition : msg.routingType = .anyPartition) :
    (queue.put now msg).perTopicBatcher = queue.perTopicBatcher := by
  rw [put, pushSenderNotify_perTopicBatcher, putLocked_perTopicBatcher,
    tryBatchPerTopic_anyPartition queue now anyPartition]

/-- With the per-topic batcher enabled, `Put` of a PartitionKey message
hands it to the per-topic batcher's `AddMsg`, and the combined-topics
batcher is offered it only when that call leaves it with the caller. -/
theorem put_partitionKey (queue : TBrokerMsgQueue) (now : TTimestamp) {msg : TMsg}
    (enabled : queue.perTopicBatcher.isEnabled = true) (keyed : msg.routingType = .partitionKey) :
    (queue.put now msg).perTopicBatcher = (queue.perTopicBatcher.addMsg msg now).2.2 ∧
      ((queue.perTopicBatcher.addMsg msg now).2.1 = none →
        (queue.put now msg).combinedTopicsBatcher = queue.combinedTopicsBatcher) := by
  have tried : queue.tryBatchPerTopic now msg =
      ((queue.perTopicBatcher.addMsg msg now).2.1,
        ⟨queue.perTopicBatcher.getNextCompleteTime,
          (queue.perTopicBatcher.addMsg msg now).2.2.getNextCompleteTime⟩,
        { queue with
          perTopicBatcher := (queue.perTopicBatcher.addMsg msg now).2.2
          readyList := queue.readyList ++ (queue.perTopicBatcher.addMsg msg now).1 }) := by
    simp [tryBatchPerTopic, enabled, keyed]
  refine ⟨?_, fun taken => ?_⟩
  · rw [put, pushSenderNotify_perTopicBatcher, putLocked_perTopicBatcher, tried]
  · rw [put, pushSenderNotify_combinedTopicsBatcher]
    exact putLocked_combinedTopicsBatcher_of_taken queue now msg (by rw [tried]; exact taken)

/-!
### The invariant of the queue
-/

/-- The invariant of a queue built with `config`: both batchers are
consistent, and the sender has a pending wakeup whenever batches are
ready. -/
structure Consistent (config : TGlobalBatchConfig) (queue : TBrokerMsgQueue) : Prop
    extends BatchersConsistent config queue where
  signalled : queue.readyList ≠ [] → 0 < queue.senderNotify

/-- Every list on the ready list is a one-topic batch. -/
def ReadyBatches (queue : TBrokerMsgQueue) : Prop :=
  ∀ batch ∈ queue.readyList, TopicBatch batch

theorem init_consistent (config : TGlobalBatchConfig) : Consistent config (init config) :=
  ⟨⟨TPerTopicBatcher.Tracked.init config.perTopicConfig,
    TCombinedTopicsBatcher.init_consistent config.combinedTopicsConfig,
    fun _ member => (nomatch member)⟩, fun nonempty => absurd rfl nonempty⟩

theorem init_held (config : TGlobalBatchConfig) : (init config).held = [] := rfl

/-- Ending a call with `SenderNotify.Push()` when the ready list has become
nonempty keeps the invariant. -/
theorem consistent_pushSenderNotify {config : TGlobalBatchConfig} {queue next : TBrokerMsgQueue}
    (consistent : Consistent config queue) (batchers : BatchersConsistent config next)
    (sameCount : next.senderNotify = queue.senderNotify) {notify : Bool}
    (notified : queue.readyList = [] → next.readyList ≠ [] → notify = true) :
    Consistent config (next.pushSenderNotify notify) := by
  refine ⟨batchers.congr (by simp) (by simp), fun nonempty => ?_⟩
  rw [pushSenderNotify_readyList] at nonempty
  by_cases empty : queue.readyList = []
  · rw [notified empty nonempty]
    exact pos_pushSenderNotify_true next
  · have before := consistent.signalled empty
    have after := le_pushSenderNotify next notify
    omega

section Calls

variable {config : TGlobalBatchConfig} {queue : TBrokerMsgQueue}

theorem put_consistent (consistent : Consistent config queue) (now : TTimestamp) (msg : TMsg) :
    Consistent config (queue.put now msg) := by
  have phase := putLocked_phase consistent.toBatchersConsistent now msg
  refine consistent_pushSenderNotify consistent phase.consistent phase.senderNotify ?_
  intro empty nonempty
  simp [putNotifies, empty, nonempty]

theorem putNow_consistent (consistent : Consistent config queue) (now : TTimestamp) (msg : TMsg) :
    Consistent config (queue.putNow now msg) := by
  have phase := checkBothBatchers_phase consistent.toBatchersConsistent now
  unfold putNow
  dsimp only
  apply consistent_pushSenderNotify consistent
  · exact phase.consistent.congr rfl rfl
  · exact phase.senderNotify
  · intro empty _
    simp [empty]

theorem putNowBatch_consistent (consistent : Consistent config queue) (now : TTimestamp)
    (batch : List (List TMsg)) : Consistent config (queue.putNowBatch now batch) := by
  unfold putNowBatch
  split
  · exact consistent
  · have phase := checkBothBatchers_phase consistent.toBatchersConsistent now
    dsimp only
    apply consistent_pushSenderNotify consistent
    · exact phase.consistent.congr rfl rfl
    · exact phase.senderNotify
    · intro empty _
      simp [empty]

/-- After `NonblockingGet` the ready list is empty and the batchers are
consistent, whatever the semaphore's count was. -/
theorem nonblockingGet_consistent (batchers : BatchersConsistent config queue) (now : TTimestamp) :
    Consistent config (queue.nonblockingGet now).2 :=
  ⟨(checkBothBatchers_phase batchers now).consistent.congr rfl rfl,
    fun nonempty => absurd rfl nonempty⟩

theorem getAllMsgs_consistent (batchers : BatchersConsistent config queue) :
    Consistent config queue.getAllMsgs.2 := by
  refine ⟨⟨batchers.perTopicTracked.getAllBatches,
    TCombinedTopicsBatcher.takeBatch_consistent batchers.combinedTopics, ?_⟩,
    fun nonempty => absurd rfl nonempty⟩
  intro msg member
  simp only [getAllMsgs, TPerTopicBatcher.held_getAllBatches] at member
  cases member

/-- `NonblockingGet` hands back what the queue held that is ready, and holds
the rest. -/
theorem nonblockingGet_perm (batchers : BatchersConsistent config queue) (now : TTimestamp) :
    ((queue.nonblockingGet now).1.1.flatten ++ (queue.nonblockingGet now).2.held).Perm queue.held := by
  have moved := (checkBothBatchers_phase batchers now).held
  have taken : (queue.nonblockingGet now).1.1.flatten ++ (queue.nonblockingGet now).2.held =
      (queue.checkBothBatchers now).2.2.held := by
    simp [nonblockingGet, held]
  rw [taken]
  rw [List.append_nil] at moved
  exact moved

/-- `GetAllMsgs` hands back everything the queue held. -/
theorem getAllMsgs_perm (queue : TBrokerMsgQueue) :
    (queue.getAllMsgs.1.flatten ++ queue.getAllMsgs.2.held).Perm queue.held := by
  -- in either order, the ready list and then both batchers' contents
  have ordered : queue.getAllMsgs.1.Perm (queue.readyList ++ queue.perTopicBatcher.getAllBatches.1 ++
      queue.combinedTopicsBatcher.topicMap.get.1) := by
    unfold getAllMsgs
    dsimp only
    split
    · split
      · rw [List.append_assoc, List.append_assoc]
        exact List.perm_append_comm.append_left _
      · exact List.Perm.refl _
    · exact List.Perm.refl _
  have emptied : queue.getAllMsgs.2.held = [] := by
    simp [getAllMsgs, held]
  rw [emptied, List.append_nil]
  have flat := ordered.flatten
  rw [List.flatten_append, List.flatten_append, TPerTopicBatcher.flatten_getAllBatches,
    TTopicMap.flatten_get] at flat
  exact flat

/-- Every list `NonblockingGet` hands back is a one-topic batch, when the
ready list holds only such batches. -/
theorem nonblockingGet_delivered (batchers : BatchersConsistent config queue)
    (ready : ReadyBatches queue) (now : TTimestamp) :
    ∀ batch ∈ (queue.nonblockingGet now).1.1, TopicBatch batch := by
  obtain ⟨batches, shaped, appended⟩ := (checkBothBatchers_phase batchers now).appended
  intro batch member
  simp only [nonblockingGet, appended, List.mem_append] at member
  rcases member with old | new
  · exact ready batch old
  · exact shaped batch new

/-- So is every list `GetAllMsgs` hands back. -/
theorem getAllMsgs_delivered (batchers : BatchersConsistent config queue)
    (ready : ReadyBatches queue) : ∀ batch ∈ queue.getAllMsgs.1, TopicBatch batch := by
  have perTopic := TPerTopicBatcher.getAllBatches_batches batchers.perTopicTracked
  have combinedTopics := TTopicMap.get_batches batchers.combinedTopics.valid
  intro batch member
  unfold getAllMsgs at member
  dsimp only at member
  -- in either order, a batch is from the ready list or from one of the batchers
  have sources : batch ∈ queue.readyList ∨ batch ∈ queue.perTopicBatcher.getAllBatches.1 ∨
      batch ∈ queue.combinedTopicsBatcher.topicMap.get.1 := by
    split at member
    · split at member <;> simp only [TCombinedTopicsBatcher.takeBatch_fst, List.mem_append] at member <;>
        tauto
    · simp only [TCombinedTopicsBatcher.takeBatch_fst, List.mem_append] at member
      tauto
  rcases sources with old | fromPerTopic | fromCombined
  · exact ready batch old
  · exact perTopic batch fromPerTopic
  · exact combinedTopics batch fromCombined

theorem put_held (consistent : BatchersConsistent config queue) (now : TTimestamp) (msg : TMsg) :
    (queue.put now msg).held.Perm (queue.held ++ [msg]) := by
  rw [put, held_pushSenderNotify]
  exact (putLocked_phase consistent now msg).held

theorem putNow_held (consistent : BatchersConsistent config queue) (now : TTimestamp) (msg : TMsg) :
    (queue.putNow now msg).held.Perm (queue.held ++ [msg]) := by
  have checked := (checkBothBatchers_phase consistent now).held
  rw [List.append_nil] at checked
  rw [putNow, held_pushSenderNotify]
  exact (held_appendReady _ [[msg]]).trans (checked.append_right _)

theorem putNowBatch_held (consistent : BatchersConsistent config queue) (now : TTimestamp)
    (batch : List (List TMsg)) :
    (queue.putNowBatch now batch).held.Perm (queue.held ++ batch.flatten) := by
  unfold putNowBatch
  split
  · rename_i empty
    rw [List.isEmpty_iff.mp empty, List.flatten_nil, List.append_nil]
  · have checked := (checkBothBatchers_phase consistent now).held
    rw [List.append_nil] at checked
    rw [held_pushSenderNotify]
    exact (held_appendReady _ batch).trans (checked.append_right _)

/-- A phase appends only one-topic batches. -/
theorem Phase.readyBatches {received : List TMsg} {next : TBrokerMsgQueue}
    (phase : Phase config queue next received) (ready : ReadyBatches queue) : ReadyBatches next := by
  obtain ⟨batches, shaped, appended⟩ := phase.appended
  intro batch member
  rw [appended] at member
  rcases List.mem_append.mp member with old | new
  · exact ready batch old
  · exact shaped batch new

end Calls

/-!
### Runs of calls
-/

/-- One call on the queue. -/
inductive Op where
  | put (now : TTimestamp) (msg : TMsg)
  | putNow (now : TTimestamp) (msg : TMsg)
  | putNowBatch (now : TTimestamp) (batch : List (List TMsg))
  | get (now : TTimestamp)
  | nonblockingGet (now : TTimestamp)
  | getAllOnShutdown
  | reset
deriving DecidableEq, Repr

/-- One call: the lists it delivers, the next complete time `Get` and
`NonblockingGet` report, and the new queue. -/
def step (queue : TBrokerMsgQueue) :
    Op → (List (List TMsg) × Option TTimestamp) × TBrokerMsgQueue
  | .put now msg => (([], none), queue.put now msg)
  | .putNow now msg => (([], none), queue.putNow now msg)
  | .putNowBatch now batch => (([], none), queue.putNowBatch now batch)
  | .get now => queue.get now
  | .nonblockingGet now => queue.nonblockingGet now
  | .getAllOnShutdown => ((queue.getAllOnShutdown.1, none), queue.getAllOnShutdown.2)
  | .reset => ((queue.reset.1, none), queue.reset.2)

/-- The messages a call delivers. -/
def emitted (entry : Entry TBrokerMsgQueue Op (List (List TMsg) × Option TTimestamp)) :
    List TMsg :=
  entry.output.1.flatten

/-- The messages a call gives the queue. -/
def received : Op → List TMsg
  | .put _ msg => [msg]
  | .putNow _ msg => [msg]
  | .putNowBatch _ batch => batch.flatten
  | _ => []

/-- What the callers of `PutNow(now, batch)` pass: one-topic batches, as
`TTopicMap::Get()` returns them. -/
def Op.Allowed : Op → Prop
  | .putNowBatch _ batch => ∀ list ∈ batch, TopicBatch list
  | _ => True

section Step

variable {config : TGlobalBatchConfig} {queue : TBrokerMsgQueue}

theorem step_consistent (consistent : Consistent config queue) (op : Op) :
    Consistent config (step queue op).2 := by
  have batchers := consistent.toBatchersConsistent
  cases op with
  | put now msg => exact put_consistent consistent now msg
  | putNow now msg => exact putNow_consistent consistent now msg
  | putNowBatch now batch => exact putNowBatch_consistent consistent now batch
  | get now =>
      exact nonblockingGet_consistent (batchers.congr (popSenderNotify_perTopicBatcher queue)
        (popSenderNotify_combinedTopicsBatcher queue)) now
  | nonblockingGet now => exact nonblockingGet_consistent batchers now
  | getAllOnShutdown => exact getAllMsgs_consistent batchers
  | reset =>
      exact getAllMsgs_consistent (batchers.congr (resetSenderNotify_perTopicBatcher queue)
        (resetSenderNotify_combinedTopicsBatcher queue))

/-- One call delivers, and then holds, a reordering of what the queue held
and what the call gave it. -/
theorem step_perm (consistent : Consistent config queue) (op : Op) :
    (emitted ⟨queue, op, (step queue op).1, (step queue op).2⟩ ++ (step queue op).2.held).Perm
      (queue.held ++ received op) := by
  have batchers := consistent.toBatchersConsistent
  cases op with
  | put now msg => simpa [emitted, step, received] using put_held batchers now msg
  | putNow now msg => simpa [emitted, step, received] using putNow_held batchers now msg
  | putNowBatch now batch =>
      simpa [emitted, step, received] using putNowBatch_held batchers now batch
  | get now =>
      simpa [emitted, step, received, get] using
        nonblockingGet_perm (batchers.congr (popSenderNotify_perTopicBatcher queue)
          (popSenderNotify_combinedTopicsBatcher queue)) now
  | nonblockingGet now =>
      simpa [emitted, step, received] using nonblockingGet_perm batchers now
  | getAllOnShutdown =>
      simpa [emitted, step, received, getAllOnShutdown] using getAllMsgs_perm queue
  | reset => simpa [emitted, step, received, reset] using getAllMsgs_perm queue.resetSenderNotify

/-- An allowed call leaves only one-topic batches on the ready list. -/
theorem step_readyBatches (consistent : Consistent config queue) (ready : ReadyBatches queue)
    {op : Op} (allowed : op.Allowed) : ReadyBatches (step queue op).2 := by
  have batchers := consistent.toBatchersConsistent
  cases op with
  | put now msg =>
      intro batch member
      simp only [step, put, pushSenderNotify_readyList] at member
      exact (putLocked_phase batchers now msg).readyBatches ready batch member
  | putNow now msg =>
      have checked := (checkBothBatchers_phase batchers now).readyBatches ready
      intro batch member
      simp only [step, putNow, pushSenderNotify_readyList, List.mem_append] at member
      rcases member with old | new
      · exact checked batch old
      · exact single_topicBatch msg batch new
  | putNowBatch now batch =>
      have checked := (checkBothBatchers_phase batchers now).readyBatches ready
      intro list member
      simp only [step, putNowBatch] at member
      split at member
      · exact ready list member
      · simp only [pushSenderNotify_readyList, List.mem_append] at member
        rcases member with old | new
        · exact checked list old
        · exact allowed list new
  | get now => exact fun _ member => (nomatch member)
  | nonblockingGet now => exact fun _ member => (nomatch member)
  | getAllOnShutdown => exact fun _ member => (nomatch member)
  | reset => exact fun _ member => (nomatch member)

/-- Every list a call delivers is a one-topic batch, when the ready list
holds only such batches. -/
theorem step_delivered (consistent : Consistent config queue) (ready : ReadyBatches queue)
    (op : Op) : ∀ batch ∈ (step queue op).1.1, TopicBatch batch := by
  have batchers := consistent.toBatchersConsistent
  cases op with
  | get now =>
      exact nonblockingGet_delivered (batchers.congr (popSenderNotify_perTopicBatcher queue)
        (popSenderNotify_combinedTopicsBatcher queue)) ready now
  | nonblockingGet now => exact nonblockingGet_delivered batchers ready now
  | getAllOnShutdown => exact getAllMsgs_delivered batchers ready
  | reset =>
      exact getAllMsgs_delivered (batchers.congr (resetSenderNotify_perTopicBatcher queue)
        (resetSenderNotify_combinedTopicsBatcher queue)) ready
  | _ => exact fun _ member => (nomatch member)

end Step

/-- The broker queue's conservation law over every run from a new queue, for
every configuration, when the lists passed to `PutNow(now, batch)` are
one-topic batches: (a) the delivered lists, and then what the queue still
holds, are a reordering of every message put in: nothing is lost, nothing is
duplicated; (b) every delivered list is nonempty and of one topic; (c) the
per-topic batcher holds PartitionKey messages only, and (d) `Put` of an
AnyPartition message never touches it; (e) with the per-topic batcher
enabled, `Put` of a PartitionKey message goes to its `AddMsg` first, and the
combined-topics batcher is left as it was when that call takes the
message. -/
theorem brokerMsgQueue_conservation (config : TGlobalBatchConfig) (ops : List Op)
    (allowed : ∀ op ∈ ops, op.Allowed) :
    let run := trace step (init config) ops
    let queue := final step (init config) ops
    (run.flatMap emitted ++ queue.held).Perm (ops.flatMap received) ∧
      (∀ entry ∈ run, ∀ batch ∈ entry.output.1, TopicBatch batch) ∧
      (∀ msg ∈ queue.perTopicBatcher.held, msg.routingType = .partitionKey) ∧
      (∀ entry ∈ run, ∀ now msg, entry.input = .put now msg → msg.routingType = .anyPartition →
        entry.after.perTopicBatcher = entry.before.perTopicBatcher) ∧
      (∀ entry ∈ run, ∀ now msg, entry.input = .put now msg → msg.routingType = .partitionKey →
        entry.before.perTopicBatcher.isEnabled = true →
        entry.after.perTopicBatcher = (entry.before.perTopicBatcher.addMsg msg now).2.2 ∧
          ((entry.before.perTopicBatcher.addMsg msg now).2.1 = none →
            entry.after.combinedTopicsBatcher = entry.before.combinedTopicsBatcher)) := by
  intro run queue
  have start := init_consistent config
  have preserved : ∀ (state : TBrokerMsgQueue) op, Consistent config state →
      Consistent config (step state op).2 := fun _ op consistent => step_consistent consistent op
  refine ⟨?_, ?_, (final_invariant preserved _ ops start).partitionKey, ?_, ?_⟩
  · have law : (run.flatMap emitted ++ held queue).Perm (held (init config) ++ ops.flatMap received) :=
      trace_outputs_perm preserved (fun state op consistent => step_perm consistent op) _ ops start
    rw [init_held, List.nil_append] at law
    exact law
  · -- the ready list keeps one-topic batches along runs of allowed calls
    have preservedReady : ∀ (state : TBrokerMsgQueue) (op : Op), op.Allowed →
        Consistent config state ∧ ReadyBatches state →
          Consistent config (step state op).2 ∧ ReadyBatches (step state op).2 :=
      fun state op allowed holds =>
        ⟨step_consistent holds.1 op, step_readyBatches holds.1 holds.2 allowed⟩
    exact trace_forall_of_allowed (P := fun entry => ∀ batch ∈ entry.output.1, TopicBatch batch)
      preservedReady (fun state op _ holds => step_delivered holds.1 holds.2 op) _ ops allowed
      ⟨start, fun _ member => (nomatch member)⟩
  · intro entry member now msg putting anyPartition
    refine trace_forall (P := fun entry => ∀ now msg, entry.input = .put now msg →
        msg.routingType = .anyPartition → entry.after.perTopicBatcher = entry.before.perTopicBatcher)
      preserved ?_ _ ops start entry member now msg putting anyPartition
    intro state op _ now msg isPut anyPartition
    subst isPut
    exact put_anyPartition state now anyPartition
  · intro entry member now msg putting keyed enabled
    refine trace_forall (P := fun entry => ∀ now msg, entry.input = .put now msg →
        msg.routingType = .partitionKey → entry.before.perTopicBatcher.isEnabled = true →
        entry.after.perTopicBatcher = (entry.before.perTopicBatcher.addMsg msg now).2.2 ∧
          ((entry.before.perTopicBatcher.addMsg msg now).2.1 = none →
            entry.after.combinedTopicsBatcher = entry.before.combinedTopicsBatcher))
      preserved ?_ _ ops start entry member now msg putting keyed enabled
    intro state op _ now msg isPut keyed enabled
    subst isPut
    exact put_partitionKey state now enabled keyed

/-- Both batchers on: per-topic batches of two messages, combined-topics
batches of three. -/
def bothBatchersConfig : TGlobalBatchConfig := ⟨some ⟨{ msgCount := 2 }, []⟩, ⟨{ msgCount := 3 }, [], false⟩⟩

/-- Two PartitionKey messages of `t`, which the per-topic batcher batches;
an AnyPartition message of `u`, which the combined-topics batcher takes; a
`PutNow` batch of two messages of `v`; then a `NonblockingGet`, which
delivers `[u]`, `[v, v]` and `[t, t]`. -/
def batchedRunOps : List Op :=
  [.put 0 ⟨.partitionKey, 0, "t", 1, 0⟩, .put 1 ⟨.anyPartition, 1, "u", 1, 0⟩,
    .putNowBatch 2 [[⟨.anyPartition, 2, "v", 1, 0⟩, ⟨.anyPartition, 2, "v", 1, 0⟩]],
    .put 3 ⟨.partitionKey, 0, "t", 1, 0⟩, .nonblockingGet 4]

theorem brokerMsgQueue_conservation_both_batchers :
    (∀ op ∈ batchedRunOps, op.Allowed) ∧
      ((trace step (init bothBatchersConfig) batchedRunOps).flatMap emitted ++
          (final step (init bothBatchersConfig) batchedRunOps).held).Perm (batchedRunOps.flatMap received) ∧
      ∀ entry ∈ trace step (init bothBatchersConfig) batchedRunOps, ∀ batch ∈ entry.output.1, TopicBatch batch := by
  have allowed : ∀ op ∈ batchedRunOps, op.Allowed := by
    intro op member
    simp only [batchedRunOps, List.mem_cons, List.not_mem_nil, or_false] at member
    rcases member with rfl | rfl | rfl | rfl | rfl
    · trivial
    · trivial
    · -- the `PutNow` batch is one nonempty list of topic `v`
      intro list listed
      rw [List.mem_singleton] at listed
      subst listed
      refine ⟨List.cons_ne_nil _ _, "v", fun msg member => ?_⟩
      simp only [List.mem_cons, List.not_mem_nil, or_false] at member
      rcases member with rfl | rfl <;> rfl
    · trivial
    · trivial
  have law := brokerMsgQueue_conservation bothBatchersConfig batchedRunOps allowed
  exact ⟨allowed, law.1, law.2.1⟩

/-- `PutNow(now, batch)` queues the caller's lists as they are: an empty list
passed in is delivered as an empty batch. -/
theorem brokerMsgQueue_delivers_empty_list :
    (step (step (init ⟨none, ⟨{}, [], false⟩⟩) (.putNowBatch 0 [[]])).2 (.nonblockingGet 0)).1.1 =
      [[]] := by
  decide

end TBrokerMsgQueue

end Dory.MsgDispatch
