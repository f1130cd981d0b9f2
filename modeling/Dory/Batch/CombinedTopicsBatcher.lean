/-
Module: Dory.Batch.CombinedTopicsBatcher
Purpose: `TCombinedTopicsBatcher` (src/dory/batch/combined_topics_batcher.{h,cc}):
  one `TBatcherCore` counting the messages of every batched topic, which are
  stored beside it in a `TTopicMap`.  `BatchingIsEnabled(topic)` reads the
  topic filter (an `unordered_set`, modelled as a list of its topics) as an
  include or exclude list.  A message of a topic that is not batched stays
  with the caller, and is still an occasion to flush the whole batch when its
  time limit has passed.  Over every run of `AddMsg` and `TakeBatch` calls,
  for every configuration, the core's counters describe the map's messages,
  each message passed in is handed back once (grouped per topic, in arrival
  order), held, or left with the caller, and every combined batch handed
  back is within the limits.  Release builds define `NDEBUG`, so its asserts
  are not checked.
Trusted boundary: none
Main exports: TCombinedTopicsConfig, TCombinedTopicsBatcher, batchingIsEnabled,
  batchingIsEnabledFor, addMsg, takeBatch, Op, step, Consistent, step_consistent,
  step_topic_law, combinedTopicsBatcher_run_law
-/
import Mathlib
import Dory.Batch.BatcherCore
import Dory.Util.TopicMap
import Dory.Foundation.Trace

namespace Dory.Batch

open Dory.Foundation
open Dory.Util
open TBatcherCore

/-- `TCombinedTopicsBatcher::TConfig`. -/
structure TCombinedTopicsConfig where
  batchConfig : TBatchConfig
  topicFilter : List String := []
  excludeTopicFilter : Bool := false
deriving DecidableEq, Repr

/-- `TCombinedTopicsBatcher`. -/
structure TCombinedTopicsBatcher where
  coreState : TBatcherCore
  topicFilter : List String
  excludeTopicFilter : Bool
  topicMap : TTopicMap := {}
deriving DecidableEq, Repr

namespace TCombinedTopicsBatcher

/-- `TCombinedTopicsBatcher(config)`. -/
def init (config : TCombinedTopicsConfig) : TCombinedTopicsBatcher :=
  { coreState := { config := config.batchConfig }
    topicFilter := config.topicFilter
    excludeTopicFilter := config.excludeTopicFilter }

/-- `GetConfig()`. -/
def getConfig (batcher : TCombinedTopicsBatcher) : TCombinedTopicsConfig :=
  ⟨batcher.coreState.config, batcher.topicFilter, batcher.excludeTopicFilter⟩

/-- `IsEmpty()`; its assertion that the map is empty too is
`Consistent.isEmpty_eq` below. -/
def isEmpty (batcher : TCombinedTopicsBatcher) : Bool :=
  batcher.coreState.isEmpty

/-- `BatchingIsEnabled()`. -/
def batchingIsEnabled (batcher : TCombinedTopicsBatcher) : Bool :=
  (batcher.excludeTopicFilter || !batcher.topicFilter.isEmpty) &&
    Dory.Batch.batchingIsEnabled batcher.coreState.config

/-- `BatchingIsEnabled(topic)`: the filter's `find(topic) == end()` is the
topic's absence from the list. -/
def batchingIsEnabledFor (batcher : TCombinedTopicsBatcher) (topic : String) : Bool :=
  if !Dory.Batch.batchingIsEnabled batcher.coreState.config then false
  else if batcher.topicFilter.isEmpty then batcher.excludeTopicFilter
  else decide (topic ∉ batcher.topicFilter) == batcher.excludeTopicFilter

/-- `GetNextCompleteTime()`. -/
def getNextCompleteTime (batcher : TCombinedTopicsBatcher) : Option TTimestamp :=
  batcher.coreState.getNextCompleteTime

/-- `TakeBatch()`: every topic's list, and the batcher emptied out. -/
def takeBatch (batcher : TCombinedTopicsBatcher) : List (List TMsg) × TCombinedTopicsBatcher :=
  (batcher.topicMap.get.1,
    { batcher with coreState := batcher.coreState.clearState, topicMap := batcher.topicMap.get.2 })

/-- `AddMsg(msg, now)`: the returned lists, the message if it is still with
the caller, and the new batcher. -/
def addMsg (batcher : TCombinedTopicsBatcher) (msg : TMsg) (now : TTimestamp) :
    (List (List TMsg) × Option TMsg) × TCombinedTopicsBatcher :=
  if !batcher.batchingIsEnabledFor msg.topic then
    -- the message is refused, but its arrival may still flush an expired batch
    match batcher.getNextCompleteTime with
    | some nct =>
        if now ≥ nct then ((batcher.takeBatch.1, some msg), batcher.takeBatch.2)
        else (([], some msg), batcher)
    | none => (([], some msg), batcher)
  else
    match batcher.coreState.processNewMsg now msg with
    | (.leaveMsgAndReturnBatch, core) =>
        ((batcher.topicMap.get.1, some msg),
          { batcher with coreState := core, topicMap := batcher.topicMap.get.2 })
    | (.returnBatchAndTakeMsg, core) =>
        ((batcher.topicMap.get.1, none),
          { batcher with coreState := core, topicMap := batcher.topicMap.get.2.put msg })
    | (.takeMsgAndReturnBatch, core) =>
        (((batcher.topicMap.put msg).get.1, none),
          { batcher with coreState := core, topicMap := (batcher.topicMap.put msg).get.2 })
    | (.takeMsgAndLeaveBatch, core) =>
        (([], none), { batcher with coreState := core, topicMap := batcher.topicMap.put msg })

@[simp] theorem init_topicMap (config : TCombinedTopicsConfig) : (init config).topicMap = {} := rfl

@[simp] theorem takeBatch_fst (batcher : TCombinedTopicsBatcher) :
    batcher.takeBatch.1 = batcher.topicMap.get.1 := rfl

@[simp] theorem takeBatch_topicMap (batcher : TCombinedTopicsBatcher) :
    batcher.takeBatch.2.topicMap = {} := rfl

@[simp] theorem takeBatch_coreState (batcher : TCombinedTopicsBatcher) :
    batcher.takeBatch.2.coreState = batcher.coreState.clearState := rfl

@[simp] theorem takeBatch_getConfig (batcher : TCombinedTopicsBatcher) :
    batcher.takeBatch.2.getConfig = batcher.getConfig := rfl

/-- The topic filter is all that decides which topics are batched, once the
core has batching enabled. -/
theorem batchingIsEnabledFor_congr {batcher other : TCombinedTopicsBatcher}
    (same : batcher.getConfig = other.getConfig) (topic : String) :
    batcher.batchingIsEnabledFor topic = other.batchingIsEnabledFor topic := by
  simp only [getConfig, TCombinedTopicsConfig.mk.injEq] at same
  obtain ⟨config, filter, exclude⟩ := same
  simp only [batchingIsEnabledFor, config, filter, exclude]

/-- A batched topic needs the core's batching enabled. -/
theorem core_enabled_of_batchingIsEnabledFor {batcher : TCombinedTopicsBatcher} {topic : String}
    (enabled : batcher.batchingIsEnabledFor topic = true) :
    Dory.Batch.batchingIsEnabled batcher.coreState.config = true := by
  by_contra disabled
  simp [batchingIsEnabledFor, disabled] at enabled

/-!
### `AddMsg`, path by path
-/

/-- The topic map after an action of the core, given the map before and the
new message. -/
def topicMapAfter : TAction → TTopicMap → TMsg → TTopicMap
  | .leaveMsgAndReturnBatch, _, _ => {}
  | .returnBatchAndTakeMsg, _, msg => TTopicMap.put {} msg
  | .takeMsgAndReturnBatch, _, _ => {}
  | .takeMsgAndLeaveBatch, topicMap, msg => topicMap.put msg

/-- The lists an action of the core hands back. -/
def returnedLists : TAction → TTopicMap → TMsg → List (List TMsg)
  | .leaveMsgAndReturnBatch, topicMap, _ => topicMap.get.1
  | .returnBatchAndTakeMsg, topicMap, _ => topicMap.get.1
  | .takeMsgAndReturnBatch, topicMap, msg => (topicMap.put msg).get.1
  | .takeMsgAndLeaveBatch, _, _ => []

/-- A message of a batched topic goes through the core's action. -/
theorem addMsg_of_enabled {batcher : TCombinedTopicsBatcher} {msg : TMsg} {now : TTimestamp}
    (enabled : batcher.batchingIsEnabledFor msg.topic = true) :
    batcher.addMsg msg now =
      ((returnedLists (batcher.coreState.processNewMsg now msg).1 batcher.topicMap msg,
          leftMsg (batcher.coreState.processNewMsg now msg).1 msg),
        { batcher with
          coreState := (batcher.coreState.processNewMsg now msg).2
          topicMap := topicMapAfter (batcher.coreState.processNewMsg now msg).1
            batcher.topicMap msg }) := by
  rw [addMsg, if_neg (by simp [enabled])]
  rcases batcher.coreState.processNewMsg now msg with ⟨action, core⟩
  cases action <;> rfl

/-- A message of a topic that is not batched stays with the caller, and the
batcher either stays as it was or hands back everything it held. -/
theorem addMsg_of_disabled {batcher : TCombinedTopicsBatcher} {msg : TMsg} {now : TTimestamp}
    (disabled : batcher.batchingIsEnabledFor msg.topic = false) :
    batcher.addMsg msg now = (([], some msg), batcher) ∨
      batcher.addMsg msg now = ((batcher.takeBatch.1, some msg), batcher.takeBatch.2) := by
  rw [addMsg, if_pos (by simp [disabled])]
  cases batcher.getNextCompleteTime with
  | none => exact Or.inl rfl
  | some nct =>
      by_cases due : now ≥ nct
      · exact Or.inr (if_pos due)
      · exact Or.inl (if_neg due)

/-- `AddMsg` keeps the configuration. -/
@[simp] theorem addMsg_getConfig (batcher : TCombinedTopicsBatcher) (msg : TMsg) (now : TTimestamp) :
    (batcher.addMsg msg now).2.getConfig = batcher.getConfig := by
  cases enabled : batcher.batchingIsEnabledFor msg.topic with
  | false =>
      rcases addMsg_of_disabled enabled with unchanged | taken
      · rw [unchanged]
      · rw [taken]
        rfl
  | true =>
      have sameConfig : (batcher.coreState.processNewMsg now msg).2.config =
          batcher.coreState.config :=
        processNewMsg_config (core_enabled_of_batchingIsEnabledFor enabled) rfl
      rw [addMsg_of_enabled enabled]
      simp only [getConfig, sameConfig]

section Actions

variable {topicMap : TTopicMap} (valid : topicMap.Valid)
include valid

theorem topicMapAfter_valid (action : TAction) (msg : TMsg) :
    (topicMapAfter action topicMap msg).Valid := by
  cases action with
  | returnBatchAndTakeMsg => exact TTopicMap.put_valid TTopicMap.empty_valid msg
  | takeMsgAndLeaveBatch => exact TTopicMap.put_valid valid msg
  | _ => exact TTopicMap.empty_valid

/-- The map after an action holds, as a multiset, the core's reading of the
held list after it. -/
theorem held_topicMapAfter_perm (action : TAction) (msg : TMsg) :
    (topicMapAfter action topicMap msg).held.Perm (heldAfter action topicMap.held msg) := by
  cases action with
  | returnBatchAndTakeMsg => exact TTopicMap.held_put_perm TTopicMap.empty_valid msg
  | takeMsgAndLeaveBatch => exact TTopicMap.held_put_perm valid msg
  | _ => exact List.Perm.refl _

/-- The lists an action hands back hold, as a multiset, the core's returned
batch. -/
theorem flatten_returnedLists_perm (action : TAction) (msg : TMsg) :
    (returnedLists action topicMap msg).flatten.Perm (returnedBatch action topicMap.held msg) := by
  cases action with
  | leaveMsgAndReturnBatch => rw [returnedLists, TTopicMap.flatten_get]; rfl
  | returnBatchAndTakeMsg => rw [returnedLists, TTopicMap.flatten_get]; rfl
  | takeMsgAndReturnBatch =>
      rw [returnedLists, TTopicMap.flatten_get]
      exact TTopicMap.held_put_perm valid msg
  | takeMsgAndLeaveBatch => exact List.Perm.refl _

/-- Topic by topic, an action hands back, leaves with the caller, and then
holds exactly the topic's old messages followed by the new one. -/
theorem returnedLists_topic_law (action : TAction) (msg : TMsg) (topic : String) :
    ofTopic topic ((returnedLists action topicMap msg).flatten ++ (leftMsg action msg).toList) ++
        (topicMapAfter action topicMap msg).msgsOf topic =
      topicMap.msgsOf topic ++ ofTopic topic [msg] := by
  cases action with
  | leaveMsgAndReturnBatch =>
      simp [returnedLists, leftMsg, topicMapAfter, TTopicMap.ofTopic_get valid]
  | returnBatchAndTakeMsg =>
      simp [returnedLists, leftMsg, topicMapAfter, TTopicMap.ofTopic_get valid,
        TTopicMap.msgsOf_put TTopicMap.empty_valid]
  | takeMsgAndReturnBatch =>
      simp [returnedLists, leftMsg, topicMapAfter,
        TTopicMap.ofTopic_get (TTopicMap.put_valid valid msg), TTopicMap.msgsOf_put valid]
  | takeMsgAndLeaveBatch =>
      simp [returnedLists, leftMsg, topicMapAfter, TTopicMap.msgsOf_put valid]

/-- Every list an action hands back is nonempty and of one topic. -/
theorem returnedLists_batches (action : TAction) (msg : TMsg) :
    ∀ batch ∈ returnedLists action topicMap msg, batch ≠ [] ∧ ∃ topic, SingleTopic topic batch := by
  cases action with
  | leaveMsgAndReturnBatch => exact TTopicMap.get_batches valid
  | returnBatchAndTakeMsg => exact TTopicMap.get_batches valid
  | takeMsgAndReturnBatch => exact TTopicMap.get_batches (TTopicMap.put_valid valid msg)
  | takeMsgAndLeaveBatch => exact fun _ member => (nomatch member)

end Actions

/-!
### The invariant
-/

/-- The invariant of a batcher built with `config`: the configuration is
unchanged, the map is well formed, the core's counters describe (a
reordering of) the map's messages, the held batch is below the limits, and
the map holds only messages of batched topics. -/
structure Consistent (config : TCombinedTopicsConfig) (batcher : TCombinedTopicsBatcher) : Prop where
  getConfig : batcher.getConfig = config
  valid : batcher.topicMap.Valid
  counted : ∃ msgs, batcher.coreState.Describes msgs ∧ msgs.Perm batcher.topicMap.held
  below : batcher.coreState.BelowLimits
  accepted : ∀ msg ∈ batcher.topicMap.held, batcher.batchingIsEnabledFor msg.topic = true

section Consistent

variable {config : TCombinedTopicsConfig} {batcher : TCombinedTopicsBatcher}
  (consistent : Consistent config batcher)
include consistent

theorem Consistent.coreConfig : batcher.coreState.config = config.batchConfig := by
  rw [← consistent.getConfig]
  rfl

theorem Consistent.msgCount_eq : batcher.coreState.msgCount = batcher.topicMap.held.length := by
  obtain ⟨msgs, describes, perm⟩ := consistent.counted
  rw [describes.msgCount, perm.length_eq]

theorem Consistent.byteCount_eq : batcher.coreState.byteCount = byteCountOf batcher.topicMap.held := by
  obtain ⟨msgs, describes, perm⟩ := consistent.counted
  rw [describes.byteCount, byteCountOf_perm perm]

/-- The assertion of `IsEmpty()`: the core is empty exactly when the map is. -/
theorem Consistent.isEmpty_eq : batcher.isEmpty = batcher.topicMap.isEmpty := by
  rw [Bool.eq_iff_iff, TTopicMap.isEmpty_iff consistent.valid, isEmpty, TBatcherCore.isEmpty,
    beq_iff_eq, consistent.msgCount_eq, List.length_eq_zero_iff]

/-- The map holds nothing of a topic that is not batched. -/
theorem Consistent.msgsOf_disabled {topic : String}
    (disabled : batcher.batchingIsEnabledFor topic = false) : batcher.topicMap.msgsOf topic = [] := by
  rw [← TTopicMap.ofTopic_held consistent.valid, ofTopic, List.filter_eq_nil_iff]
  intro msg member same
  have sameTopic : msg.topic = topic := by simpa using same
  have enabled := consistent.accepted msg member
  rw [sameTopic, disabled] at enabled
  cases enabled

/-- What the batcher holds, handed back in one go, is within the limits. -/
theorem Consistent.held_within : WithinLimits config.batchConfig batcher.topicMap.get.1.flatten := by
  obtain ⟨msgs, describes, perm⟩ := consistent.counted
  rw [← consistent.coreConfig, TTopicMap.flatten_get]
  exact (describes.withinLimits consistent.below).perm perm

end Consistent

theorem init_consistent (config : TCombinedTopicsConfig) : Consistent config (init config) :=
  ⟨rfl, TTopicMap.empty_valid, ⟨[], clearState_describes { config := config.batchConfig },
    List.Perm.refl _⟩, clearState_belowLimits { config := config.batchConfig },
    fun _ member => (nomatch member)⟩

theorem takeBatch_consistent {config : TCombinedTopicsConfig} {batcher : TCombinedTopicsBatcher}
    (consistent : Consistent config batcher) : Consistent config batcher.takeBatch.2 :=
  ⟨consistent.getConfig, TTopicMap.empty_valid, ⟨[], clearState_describes _, List.Perm.refl _⟩,
    clearState_belowLimits _, fun _ member => (nomatch member)⟩

/-- With a batched topic, the action's batcher is consistent again: the core's
reading of the held list after the action describes the new map. -/
theorem addMsg_consistent_of_enabled {config : TCombinedTopicsConfig}
    {batcher : TCombinedTopicsBatcher} (consistent : Consistent config batcher) {msg : TMsg}
    (now : TTimestamp) (enabled : batcher.batchingIsEnabledFor msg.topic = true) :
    Consistent config (batcher.addMsg msg now).2 := by
  obtain ⟨msgs, describes, perm⟩ := consistent.counted
  have coreEnabled := core_enabled_of_batchingIsEnabledFor enabled
  have sameGetConfig := addMsg_getConfig batcher msg now
  rw [addMsg_of_enabled enabled] at sameGetConfig ⊢
  generalize processed : batcher.coreState.processNewMsg now msg = result at sameGetConfig ⊢
  rcases result with ⟨action, core⟩
  refine ⟨sameGetConfig.trans consistent.getConfig, topicMapAfter_valid consistent.valid action msg,
    ⟨heldAfter action msgs msg, processNewMsg_describes coreEnabled processed describes, ?_⟩,
    processNewMsg_belowLimits coreEnabled processed, ?_⟩
  · exact (heldAfter_perm action perm msg).trans
      (held_topicMapAfter_perm consistent.valid action msg).symm
  · -- a held message was held before, or is the new one, of a batched topic
    intro held member
    rw [batchingIsEnabledFor_congr sameGetConfig]
    have before := (held_topicMapAfter_perm consistent.valid action msg).subset member
    cases action <;> simp only [heldAfter, List.mem_append, List.mem_singleton,
      List.not_mem_nil] at before
    · rcases before with rfl
      exact enabled
    · rcases before with old | rfl
      · exact consistent.accepted held old
      · exact enabled

theorem addMsg_consistent {config : TCombinedTopicsConfig} {batcher : TCombinedTopicsBatcher}
    (consistent : Consistent config batcher) (msg : TMsg) (now : TTimestamp) :
    Consistent config (batcher.addMsg msg now).2 := by
  cases enabled : batcher.batchingIsEnabledFor msg.topic with
  | true => exact addMsg_consistent_of_enabled consistent now enabled
  | false =>
      rcases addMsg_of_disabled enabled with unchanged | taken
      · rw [unchanged]
        exact consistent
      · rw [taken]
        exact takeBatch_consistent consistent

/-- Topic by topic, an `AddMsg` hands back, leaves with the caller, and then
holds exactly the topic's old messages followed by the new one. -/
theorem addMsg_topic_law {config : TCombinedTopicsConfig} {batcher : TCombinedTopicsBatcher}
    (consistent : Consistent config batcher) (msg : TMsg) (now : TTimestamp) (topic : String) :
    ofTopic topic ((batcher.addMsg msg now).1.1.flatten ++ (batcher.addMsg msg now).1.2.toList) ++
        (batcher.addMsg msg now).2.topicMap.msgsOf topic =
      batcher.topicMap.msgsOf topic ++ ofTopic topic [msg] := by
  cases enabled : batcher.batchingIsEnabledFor msg.topic with
  | true =>
      rw [addMsg_of_enabled enabled]
      exact returnedLists_topic_law consistent.valid _ msg topic
  | false =>
      rcases addMsg_of_disabled enabled with unchanged | taken
      · -- the refused message is handed back before the held ones, which are
        -- all of other topics
        rw [unchanged]
        by_cases same : msg.topic = topic
        · subst same
          simp [consistent.msgsOf_disabled enabled]
        · simp [ofTopic_singleton, same]
      · rw [taken]
        simp [TTopicMap.ofTopic_get consistent.valid]

/-- An `AddMsg` leaves its message with the caller, or takes it for a
batched topic. -/
theorem addMsg_left (batcher : TCombinedTopicsBatcher) (msg : TMsg) (now : TTimestamp) :
    (batcher.addMsg msg now).1.2 = some msg ∨
      ((batcher.addMsg msg now).1.2 = none ∧ batcher.batchingIsEnabledFor msg.topic = true) := by
  cases enabled : batcher.batchingIsEnabledFor msg.topic with
  | true =>
      rw [addMsg_of_enabled enabled]
      cases (batcher.coreState.processNewMsg now msg).1 with
      | leaveMsgAndReturnBatch => exact Or.inl rfl
      | _ => exact Or.inr ⟨rfl, rfl⟩
  | false =>
      rcases addMsg_of_disabled enabled with unchanged | taken
      · rw [unchanged]
        exact Or.inl rfl
      · rw [taken]
        exact Or.inl rfl

/-- `AddMsg` hands back, leaves with the caller, and then holds a reordering
of what the batcher held and the new message. -/
theorem addMsg_perm {config : TCombinedTopicsConfig} {batcher : TCombinedTopicsBatcher}
    (consistent : Consistent config batcher) (msg : TMsg) (now : TTimestamp) :
    ((batcher.addMsg msg now).1.1.flatten ++ (batcher.addMsg msg now).1.2.toList ++
        (batcher.addMsg msg now).2.topicMap.held).Perm (batcher.topicMap.held ++ [msg]) := by
  apply perm_of_filter_key_eq TMsg.topic
  intro topic
  change ofTopic topic _ = ofTopic topic _
  rw [ofTopic_append, TTopicMap.ofTopic_held (addMsg_consistent consistent msg now).valid,
    addMsg_topic_law consistent, ofTopic_append, TTopicMap.ofTopic_held consistent.valid]

/-!
### Runs of `AddMsg` and `TakeBatch`
-/

/-- One call on the batcher. -/
inductive Op where
  | addMsg (msg : TMsg) (now : TTimestamp)
  | takeBatch
deriving DecidableEq, Repr

/-- One call: the returned lists, the message left with the caller (only for
`AddMsg`), and the new batcher. -/
def step (batcher : TCombinedTopicsBatcher) :
    Op → (List (List TMsg) × Option TMsg) × TCombinedTopicsBatcher
  | .addMsg msg now => batcher.addMsg msg now
  | .takeBatch => ((batcher.takeBatch.1, none), batcher.takeBatch.2)

/-- What a call hands back, in order: the returned lists, then the message it
left with the caller. -/
def emitted (entry : Entry TCombinedTopicsBatcher Op (List (List TMsg) × Option TMsg)) :
    List TMsg :=
  entry.output.1.flatten ++ entry.output.2.toList

/-- What a call gives the batcher. -/
def received : Op → List TMsg
  | .addMsg msg _ => [msg]
  | .takeBatch => []

section Step

variable {config : TCombinedTopicsConfig} {batcher : TCombinedTopicsBatcher}
  (consistent : Consistent config batcher)
include consistent

theorem step_consistent (op : Op) : Consistent config (step batcher op).2 := by
  cases op with
  | addMsg msg now => exact addMsg_consistent consistent msg now
  | takeBatch => exact takeBatch_consistent consistent

/-- Topic by topic, one call hands back, and then holds, exactly the topic's
old messages followed by what the call received of it. -/
theorem step_topic_law (op : Op) (topic : String) :
    ofTopic topic (emitted ⟨batcher, op, (step batcher op).1, (step batcher op).2⟩) ++
        (step batcher op).2.topicMap.msgsOf topic =
      batcher.topicMap.msgsOf topic ++ ofTopic topic (received op) := by
  cases op with
  | addMsg msg now => exact addMsg_topic_law consistent msg now topic
  | takeBatch => simp [emitted, step, received, TTopicMap.ofTopic_get consistent.valid]

/-- Every list a call returns is nonempty and of one topic. -/
theorem step_batches (op : Op) :
    ∀ batch ∈ (step batcher op).1.1, batch ≠ [] ∧ ∃ topic, SingleTopic topic batch := by
  cases op with
  | addMsg msg now =>
      cases enabled : batcher.batchingIsEnabledFor msg.topic with
      | true =>
          simp only [step, addMsg_of_enabled enabled]
          exact returnedLists_batches consistent.valid _ msg
      | false =>
          rcases @addMsg_of_disabled batcher msg now enabled with unchanged | taken
          · simp only [step, unchanged]
            exact fun _ member => (nomatch member)
          · simp only [step, taken, takeBatch_fst]
            exact TTopicMap.get_batches consistent.valid
  | takeBatch => exact TTopicMap.get_batches consistent.valid

/-- Every combined batch a call returns is within the limits. -/
theorem step_within (op : Op) : WithinLimits config.batchConfig (step batcher op).1.1.flatten := by
  cases op with
  | addMsg msg now =>
      cases enabled : batcher.batchingIsEnabledFor msg.topic with
      | true =>
          -- the core's returned batch is within the limits, and the lists
          -- hold it in another order
          obtain ⟨msgs, describes, perm⟩ := consistent.counted
          have coreEnabled := core_enabled_of_batchingIsEnabledFor enabled
          have within : WithinLimits batcher.coreState.config
              (returnedBatch (batcher.coreState.processNewMsg now msg).1 msgs msg) :=
            processNewMsg_returned_within coreEnabled rfl describes consistent.below
          rw [consistent.coreConfig] at within
          simp only [step, addMsg_of_enabled enabled]
          exact (within.perm (returnedBatch_perm _ perm msg)).perm
            (flatten_returnedLists_perm consistent.valid _ msg).symm
      | false =>
          rcases @addMsg_of_disabled batcher msg now enabled with unchanged | taken
          · simp only [step, unchanged]
            exact withinLimits_nil _
          · simp only [step, taken, takeBatch_fst]
            exact consistent.held_within
  | takeBatch => exact consistent.held_within

end Step

/-- A message left with the caller is the message of the call. -/
theorem step_left_msg (batcher : TCombinedTopicsBatcher) (op : Op) (left : TMsg)
    (leaves : (step batcher op).1.2 = some left) : ∃ now, op = .addMsg left now := by
  cases op with
  | addMsg msg now =>
      rcases addMsg_left batcher msg now with kept | ⟨taken, -⟩
      · have same : some msg = some left := kept.symm.trans leaves
        exact ⟨now, by rw [Option.some.inj same]⟩
      · simp only [step, taken] at leaves
        cases leaves
  | takeBatch => cases leaves

/-- The combined-topics batching law over every run, for every configuration:
(a) the core's counters describe the map: both are empty together, and the
count and byte total are the map's; (b) topic by topic, the returned lists,
each call's followed by the message it left with the caller, and then the
held messages, are the topic's input messages in order, and (c) over all
topics they are the input messages reordered; (d) every returned list is
nonempty, of one topic, and a sublist of the input; (e) a message left with
the caller is the call's own, and (f) a message is taken only when batching
is enabled for its topic; (g) every combined batch handed back is within the
count and byte limits. -/
theorem combinedTopicsBatcher_run_law (config : TCombinedTopicsConfig) (ops : List Op) :
    let run := trace step (init config) ops
    let batcher := final step (init config) ops
    (batcher.coreState.isEmpty = batcher.topicMap.isEmpty ∧
      batcher.coreState.msgCount = batcher.topicMap.held.length ∧
      batcher.coreState.byteCount = byteCountOf batcher.topicMap.held) ∧
    (∀ topic, ofTopic topic (run.flatMap emitted) ++ ofTopic topic batcher.topicMap.held =
        ofTopic topic (ops.flatMap received)) ∧
    (run.flatMap emitted ++ batcher.topicMap.held).Perm (ops.flatMap received) ∧
    (∀ entry ∈ run, ∀ batch ∈ entry.output.1, batch ≠ [] ∧
        (∃ topic, SingleTopic topic batch) ∧ batch.Sublist (ops.flatMap received)) ∧
    (∀ entry ∈ run, ∀ left, entry.output.2 = some left → ∃ now, entry.input = .addMsg left now) ∧
    (∀ entry ∈ run, ∀ msg now, entry.input = .addMsg msg now → entry.output.2 = none →
        (init config).batchingIsEnabledFor msg.topic = true) ∧
    (∀ entry ∈ run, WithinLimits config.batchConfig entry.output.1.flatten) := by
  intro run batcher
  have start := init_consistent config
  have preserved : ∀ (state : TCombinedTopicsBatcher) op, Consistent config state →
      Consistent config (step state op).2 := fun _ op consistent => step_consistent consistent op
  have final : Consistent config batcher := final_invariant preserved _ ops start
  -- (b) topic by topic, from the one-call law
  have perTopic : ∀ topic, ofTopic topic (run.flatMap emitted) ++ ofTopic topic batcher.topicMap.held =
      ofTopic topic (ops.flatMap received) := by
    intro topic
    have conserved : ∀ (state : TCombinedTopicsBatcher) op, Consistent config state → ∀ topic,
        (emitted ⟨state, op, (step state op).1, (step state op).2⟩).filter
            (fun msg => TMsg.topic msg == topic) ++ (step state op).2.topicMap.msgsOf topic =
          state.topicMap.msgsOf topic ++ (received op).filter (fun msg => TMsg.topic msg == topic) :=
      fun state op consistent topic => step_topic_law consistent op topic
    have law := trace_outputs_filter TMsg.topic (fun topic state => state.topicMap.msgsOf topic)
      preserved conserved _ ops start topic
    rw [init_topicMap, TTopicMap.msgsOf_empty, List.nil_append] at law
    rw [TTopicMap.ofTopic_held final.valid]
    exact law
  refine ⟨⟨final.isEmpty_eq, final.msgCount_eq, final.byteCount_eq⟩, perTopic, ?_, ?_, ?_, ?_, ?_⟩
  · exact perm_of_filter_key_eq TMsg.topic fun topic => by
      simpa [ofTopic] using perTopic topic
  · -- a returned list is a piece of the emitted stream of its own topic
    intro entry member batch returned
    obtain ⟨nonempty, topic, single⟩ := trace_forall
      (P := fun entry => ∀ batch ∈ entry.output.1, batch ≠ [] ∧ ∃ topic, SingleTopic topic batch)
      preserved (fun state op consistent => step_batches consistent op) _ ops start entry member
      batch returned
    have inRun : (emitted entry).IsInfix (run.flatMap emitted) := by
      rw [List.flatMap_def]
      exact List.infix_of_mem_flatten (List.mem_map_of_mem member)
    have inEmitted : batch.IsInfix (run.flatMap emitted) :=
      (List.infix_of_mem_flatten returned).trans ((List.prefix_append _ _).isInfix.trans inRun)
    exact ⟨nonempty, ⟨topic, single⟩, sublist_of_keyed_piece single inEmitted (perTopic topic)⟩
  · intro entry member left leaves
    exact trace_forall (P := fun entry => ∀ left, entry.output.2 = some left →
        ∃ now, entry.input = .addMsg left now)
      preserved (fun state op _ => step_left_msg state op) _ ops start entry member left leaves
  · intro entry member msg now adding taken
    refine trace_forall (P := fun entry => ∀ msg now, entry.input = .addMsg msg now →
        entry.output.2 = none → (init config).batchingIsEnabledFor msg.topic = true)
      preserved ?_ _ ops start entry member msg now adding taken
    intro state op consistent msg now isAdd taken
    subst isAdd
    rcases addMsg_left state msg now with kept | ⟨-, enabled⟩
    · simp only [step, kept] at taken
      cases taken
    · rw [batchingIsEnabledFor_congr (consistent.getConfig.trans (init_consistent config).getConfig.symm)] at enabled
      exact enabled
  · exact trace_forall (P := fun entry => WithinLimits config.batchConfig entry.output.1.flatten)
      preserved (fun state op consistent => step_within consistent op) _ ops start

end TCombinedTopicsBatcher

end Dory.Batch
