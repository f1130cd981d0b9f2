/-
Module: Dory.Batch.PerTopicBatcher
Purpose: `TPerTopicBatcher` (src/dory/batch/per_topic_batcher.{h,cc}): one
  `TSingleTopicBatcher` per topic in `BatchMap` (an `unordered_map`, modelled
  as a keyed list in one admissible iteration order) and `ExpiryTracker`, a
  `std::multiset` of expiry records ordered by expiry, modelled as a sorted
  list of tree nodes that carry a node identity.  A `TExpiryRef` iterator is
  the identity of the node it points at, or `none` for `end()`.  Insertion
  into the multiset goes to the upper bound of the equal keys, as the
  standard requires.  `SanityCheck()` is modelled as the Boolean test the
  source computes.  The logging branches that report a broken invariant
  (`LOG(...) << "Bug!!!"; assert(false)`) change no state and are omitted:
  release builds define `NDEBUG`, so the asserts are not checked.
Trusted boundary: none
Main exports: TPerTopicBatcher, TConfig, TBatchExpiryRecord, TBatchMapEntry,
  findOrInsertEntry, updateExpiry, addToTopic, addMsg, collectExpired, getCompleteBatches,
  getNextCompleteTime, getAllBatches, deleteTopic, sanityCheck, Op, step
-/
import Dory.Batch.SingleTopicBatcher
import Dory.Foundation.KeyedList
import Dory.Foundation.OrderedBag

namespace Dory.Batch

open Dory.Foundation

/-- `TPerTopicBatcher::TConfig`: a default configuration and per-topic
overrides (an `unordered_map` keyed by topic). -/
structure TPerTopicConfig where
  defaultTopic : TBatchConfig
  perTopic : List (String × TBatchConfig) := []
deriving DecidableEq, Repr

/-- `TConfig::Get(topic)`. -/
def TPerTopicConfig.get (config : TPerTopicConfig) (topic : String) : TBatchConfig :=
  (config.perTopic.lookup topic).getD config.defaultTopic

/-- `TBatchExpiryRecord`: a topic batch with a time limit and its expiry. -/
structure TBatchExpiryRecord where
  expiry : TTimestamp
  topic : String
deriving DecidableEq, Repr

/-- A node of `ExpiryTracker`: its identity and its record. -/
abbrev ExpiryNode := Nat × TBatchExpiryRecord

/-- The multiset's order: `TBatchExpiryRecord::operator<` compares expiries,
here through `Int64.toInt`, which orders `int64_t` values the same way. -/
def expiryKey (node : ExpiryNode) : Int :=
  node.2.expiry.toInt

/-- `TBatchMapEntry`: a topic's batcher and `ExpiryRef`, the identity of its
node in `ExpiryTracker` or `none` for `ExpiryTracker.end()`. -/
structure TBatchMapEntry where
  batcher : TSingleTopicBatcher
  expiryRef : Option Nat := none
deriving DecidableEq, Repr

/-- `TPerTopicBatcher`.  `config` is the `shared_ptr<TConfig>`, `none` when
null; `nextNode` allocates identities for new multiset nodes. -/
structure TPerTopicBatcher where
  config : Option TPerTopicConfig
  batchMap : List (String × TBatchMapEntry) := []
  expiryTracker : List ExpiryNode := []
  nextNode : Nat := 0
deriving DecidableEq, Repr

/-- Remove the multiset node with the given identity (`ExpiryTracker.erase`
of an iterator). -/
def eraseNode (tracker : List ExpiryNode) (node : Nat) : List ExpiryNode :=
  tracker.filter fun other => other.1 ≠ node

/-- `if (ref != ExpiryTracker.end()) ExpiryTracker.erase(ref)`. -/
def eraseRef (tracker : List ExpiryNode) : Option Nat → List ExpiryNode
  | some node => eraseNode tracker node
  | none => tracker

namespace TPerTopicBatcher

/-- `TPerTopicBatcher(config)`. -/
def init (config : Option TPerTopicConfig) : TPerTopicBatcher :=
  { config := config }

/-- `IsEnabled()`: the configuration pointer is not null. -/
def isEnabled (batcher : TPerTopicBatcher) : Bool :=
  batcher.config.isSome

/-- `Config->Get(topic)`.  `AddMsg` dereferences `Config`; the broker queue
calls it only when `IsEnabled()`, and a null configuration is read here as
batching disabled for every topic. -/
def topicConfig (batcher : TPerTopicBatcher) (topic : String) : TBatchConfig :=
  match batcher.config with
  | some config => config.get topic
  | none => {}

/-- `GetNextCompleteTime()`: the expiry of the first node. -/
def getNextCompleteTime (batcher : TPerTopicBatcher) : Option TTimestamp :=
  batcher.expiryTracker.head?.map fun node => node.2.expiry

/-- The `BatchMap.find`/`BatchMap.insert` at the start of `AddMsg`: the
topic's entry, inserted empty with the topic's configuration when absent. -/
def findOrInsertEntry (batcher : TPerTopicBatcher) (topic : String) :
    TBatchMapEntry × TPerTopicBatcher :=
  match batcher.batchMap.lookup topic with
  | some entry => (entry, batcher)
  | none =>
      let entry : TBatchMapEntry := { batcher := TSingleTopicBatcher.init (batcher.topicConfig topic) }
      (entry, { batcher with batchMap := batcher.batchMap ++ [(topic, entry)] })

/-- The expiry read through `entry.ExpiryRef->GetExpiry()`. -/
def refExpiry (tracker : List ExpiryNode) : Option Nat → TTimestamp
  | some node => ((tracker.lookup node).map TBatchExpiryRecord.expiry).getD 0
  | none => 0

/-- The `remove_old_expiry`/`add_new_expiry` block of `AddMsg`: given the
tracker, the allocator, the entry's old reference, the old expiry and the
batch's new next complete time, the new tracker, reference and allocator. -/
def updateExpiry (tracker : List ExpiryNode) (nextNode : Nat) (topic : String)
    (expiryRef : Option Nat) (expiry : TTimestamp) (optNctFinal : Option TTimestamp) :
    List ExpiryNode × Option Nat × Nat :=
  let (removeOldExpiry, addNewExpiry) : Bool × Bool :=
    match expiryRef, optNctFinal with
    | some _, some nctFinal => if nctFinal ≠ expiry then (true, true) else (false, false)
    | some _, none => (true, false)
    | none, some _ => (false, true)
    | none, none => (false, false)
  let (tracker, expiryRef) :=
    match removeOldExpiry, expiryRef with
    | true, some node => (eraseNode tracker node, none)
    | _, _ => (tracker, expiryRef)
  match addNewExpiry, optNctFinal with
  | true, some nctFinal =>
      (OrderedBag.insertUpper expiryKey (nextNode, ⟨nctFinal, topic⟩) tracker,
        some nextNode, nextNode + 1)
  | _, _ => (tracker, expiryRef, nextNode)

theorem updateExpiry_none_none (tracker : List ExpiryNode) (nextNode : Nat) (topic : String)
    (expiry : TTimestamp) : updateExpiry tracker nextNode topic none expiry none =
      (tracker, none, nextNode) := rfl

theorem updateExpiry_none_some (tracker : List ExpiryNode) (nextNode : Nat) (topic : String)
    (expiry final : TTimestamp) : updateExpiry tracker nextNode topic none expiry (some final) =
      (OrderedBag.insertUpper expiryKey (nextNode, ⟨final, topic⟩) tracker, some nextNode,
        nextNode + 1) := rfl

theorem updateExpiry_some_none (tracker : List ExpiryNode) (nextNode : Nat) (topic : String)
    (node : Nat) (expiry : TTimestamp) : updateExpiry tracker nextNode topic (some node) expiry none =
      (eraseNode tracker node, none, nextNode) := rfl

theorem updateExpiry_some_moved (tracker : List ExpiryNode) (nextNode : Nat) (topic : String)
    (node : Nat) {expiry final : TTimestamp} (moved : final ≠ expiry) :
    updateExpiry tracker nextNode topic (some node) expiry (some final) =
      (OrderedBag.insertUpper expiryKey (nextNode, ⟨final, topic⟩) (eraseNode tracker node),
        some nextNode, nextNode + 1) := by
  simp [updateExpiry, moved]

theorem updateExpiry_some_same (tracker : List ExpiryNode) (nextNode : Nat) (topic : String)
    (node : Nat) (expiry : TTimestamp) :
    updateExpiry tracker nextNode topic (some node) expiry (some expiry) =
      (tracker, some node, nextNode) := by
  simp [updateExpiry]

/-- The loop of `GetCompleteBatches(now)` over the multiset from its first
node while the expiry is at most `now`: each visited node's topic batch is
taken, its reference reset and the node erased.  The loop walks the nodes as
they were when it started; erasing the current node does not change the rest
of the walk. -/
def collectExpired (now : TTimestamp) :
    List ExpiryNode → List (String × TBatchMapEntry) → List ExpiryNode →
      List (List TMsg) × List (String × TBatchMapEntry) × List ExpiryNode
  | [], batchMap, tracker => ([], batchMap, tracker)
  | (node, record) :: rest, batchMap, tracker =>
      if record.expiry ≤ now then
        match batchMap.lookup record.topic with
        | none => collectExpired now rest batchMap tracker
        | some entry =>
            let taken := entry.batcher.takeBatch
            let later := collectExpired now rest
              (KeyedList.modify batchMap record.topic fun _ => { batcher := taken.2 })
              (eraseNode tracker node)
            (taken.1 :: later.1, later.2)
      else ([], batchMap, tracker)

/-- `GetCompleteBatches(now)`. -/
def getCompleteBatches (batcher : TPerTopicBatcher) (now : TTimestamp) :
    List (List TMsg) × TPerTopicBatcher :=
  let collected := collectExpired now batcher.expiryTracker batcher.batchMap batcher.expiryTracker
  (collected.1, { batcher with batchMap := collected.2.1, expiryTracker := collected.2.2 })

/-- The batches `AddMsg` appends after the expired ones: the topic's
completed batch when nonempty, then the message the topic batcher left, as a
batch of its own. -/
def completeTopicBatches (completeBatch : List TMsg) (leftMsg : Option TMsg) :
    List (List TMsg) :=
  (if completeBatch.isEmpty then [] else [completeBatch]) ++
    (match leftMsg with
     | some msg => [[msg]]
     | none => [])

/-- The part of `AddMsg` for a topic whose batching is enabled, given the
topic's entry: the topic batcher's `AddMsg`, the update of the topic's expiry
record, and the topic's completed batches. -/
def addToTopic (batcher : TPerTopicBatcher) (topic : String) (entry : TBatchMapEntry)
    (msg : TMsg) (now : TTimestamp) : List (List TMsg) × TPerTopicBatcher :=
  let expiry := refExpiry batcher.expiryTracker entry.expiryRef
  let added := entry.batcher.addMsg msg now
  let updated := updateExpiry batcher.expiryTracker batcher.nextNode topic entry.expiryRef
    expiry added.2.getNextCompleteTime
  (completeTopicBatches added.1.1 added.1.2,
    { batcher with
      batchMap := KeyedList.modify batcher.batchMap topic fun _ =>
        { batcher := added.2, expiryRef := updated.2.1 }
      expiryTracker := updated.1
      nextNode := updated.2.2 })

/-- `AddMsg(msg, now)`: the returned batches, the message if it is still with
the caller, and the new batcher.  The expired batches of every topic come
first, then the topic's own. -/
def addMsg (batcher : TPerTopicBatcher) (msg : TMsg) (now : TTimestamp) :
    List (List TMsg) × Option TMsg × TPerTopicBatcher :=
  let (entry, batcher) := batcher.findOrInsertEntry msg.topic
  if entry.batcher.batchingIsEnabled then
    let added := batcher.addToTopic msg.topic entry msg now
    let expired := added.2.getCompleteBatches now
    (expired.1 ++ added.1, none, expired.2)
  else
    let expired := batcher.getCompleteBatches now
    (expired.1, some msg, expired.2)

/-- `GetAllBatches()`: every nonempty topic batch, in map order; every
batcher emptied and the multiset cleared. -/
def getAllBatches (batcher : TPerTopicBatcher) : List (List TMsg) × TPerTopicBatcher :=
  (batcher.batchMap.filterMap fun item =>
      if item.2.batcher.msgList.isEmpty then none else some item.2.batcher.msgList,
    { batcher with
      batchMap := batcher.batchMap.map fun item =>
        (item.1, { batcher := item.2.batcher.takeBatch.2 })
      expiryTracker := [] })

/-- `DeleteTopic(topic)`: the topic's messages, with its entry and its node
removed. -/
def deleteTopic (batcher : TPerTopicBatcher) (topic : String) :
    List TMsg × TPerTopicBatcher :=
  match batcher.batchMap.lookup topic with
  | none => ([], batcher)
  | some entry =>
      (entry.batcher.takeBatch.1,
        { batcher with
          batchMap := KeyedList.erase batcher.batchMap topic
          expiryTracker := eraseRef batcher.expiryTracker entry.expiryRef })

@[simp] theorem getCompleteBatches_config (batcher : TPerTopicBatcher) (now : TTimestamp) :
    (batcher.getCompleteBatches now).2.config = batcher.config := rfl

@[simp] theorem getCompleteBatches_nextNode (batcher : TPerTopicBatcher) (now : TTimestamp) :
    (batcher.getCompleteBatches now).2.nextNode = batcher.nextNode := rfl

@[simp] theorem findOrInsertEntry_config (batcher : TPerTopicBatcher) (topic : String) :
    (batcher.findOrInsertEntry topic).2.config = batcher.config := by
  unfold findOrInsertEntry
  split <;> rfl

@[simp] theorem addToTopic_config (batcher : TPerTopicBatcher) (topic : String)
    (entry : TBatchMapEntry) (msg : TMsg) (now : TTimestamp) :
    (batcher.addToTopic topic entry msg now).2.config = batcher.config := rfl

@[simp] theorem addToTopic_fst (batcher : TPerTopicBatcher) (topic : String)
    (entry : TBatchMapEntry) (msg : TMsg) (now : TTimestamp) :
    (batcher.addToTopic topic entry msg now).1 =
      completeTopicBatches (entry.batcher.addMsg msg now).1.1 (entry.batcher.addMsg msg now).1.2 :=
  rfl

theorem addToTopic_batchMap (batcher : TPerTopicBatcher) (topic : String)
    (entry : TBatchMapEntry) (msg : TMsg) (now : TTimestamp) :
    (batcher.addToTopic topic entry msg now).2.batchMap =
      KeyedList.modify batcher.batchMap topic fun _ =>
        { batcher := (entry.batcher.addMsg msg now).2
          expiryRef := (updateExpiry batcher.expiryTracker batcher.nextNode topic entry.expiryRef
            (refExpiry batcher.expiryTracker entry.expiryRef)
            (entry.batcher.addMsg msg now).2.getNextCompleteTime).2.1 } := rfl

theorem addToTopic_expiryTracker (batcher : TPerTopicBatcher) (topic : String)
    (entry : TBatchMapEntry) (msg : TMsg) (now : TTimestamp) :
    (batcher.addToTopic topic entry msg now).2.expiryTracker =
      (updateExpiry batcher.expiryTracker batcher.nextNode topic entry.expiryRef
        (refExpiry batcher.expiryTracker entry.expiryRef)
        (entry.batcher.addMsg msg now).2.getNextCompleteTime).1 := rfl

@[simp] theorem flatten_completeTopicBatches (completeBatch : List TMsg) (leftMsg : Option TMsg) :
    (completeTopicBatches completeBatch leftMsg).flatten = completeBatch ++ leftMsg.toList := by
  cases leftMsg <;> by_cases empty : completeBatch = [] <;> simp [completeTopicBatches, empty]

@[simp] theorem addMsg_config (batcher : TPerTopicBatcher) (msg : TMsg) (now : TTimestamp) :
    (batcher.addMsg msg now).2.2.config = batcher.config := by
  rcases found : batcher.findOrInsertEntry msg.topic with ⟨entry, next⟩
  have same := findOrInsertEntry_config batcher msg.topic
  rw [found] at same
  simp only [addMsg, found]
  split <;> simpa using same

@[simp] theorem getAllBatches_config (batcher : TPerTopicBatcher) :
    batcher.getAllBatches.2.config = batcher.config := rfl

@[simp] theorem deleteTopic_config (batcher : TPerTopicBatcher) (topic : String) :
    (batcher.deleteTopic topic).2.config = batcher.config := by
  unfold deleteTopic
  split <;> rfl

/-- The topic configurations depend on the configuration pointer alone. -/
theorem topicConfig_congr {batcher other : TPerTopicBatcher} (same : other.config = batcher.config) :
    other.topicConfig = batcher.topicConfig := by
  funext topic
  simp only [topicConfig, same]

/-- The node `SanityCheck()` finds by scanning the multiset for a topic. -/
def findTopicNode (tracker : List ExpiryNode) (topic : String) : Option Nat :=
  (tracker.find? fun node => node.2.topic == topic).map Prod.fst

/-- `SanityCheck()`. -/
def sanityCheck (batcher : TPerTopicBatcher) : Bool :=
  (batcher.batchMap.all fun item =>
      let found := findTopicNode batcher.expiryTracker item.1
      match item.2.batcher.getNextCompleteTime with
      | some timeLimit =>
          found.isSome && item.2.expiryRef == found &&
            refExpiry batcher.expiryTracker item.2.expiryRef == timeLimit
      | none => item.2.expiryRef.isNone && found.isNone) &&
    (batcher.expiryTracker.all fun node => (batcher.batchMap.lookup node.2.topic).isSome) &&
    decide (batcher.expiryTracker.map (fun node => node.2.topic)).Nodup

/-!
### Calls on the batcher
-/

/-- One call on the batcher. -/
inductive Op where
  | addMsg (msg : TMsg) (now : TTimestamp)
  | getCompleteBatches (now : TTimestamp)
  | getAllBatches
  | deleteTopic (topic : String)
deriving DecidableEq, Repr

/-- What a call hands back: the returned batches, the list `DeleteTopic`
returns, and the message `AddMsg` left with the caller. -/
structure Output where
  batches : List (List TMsg) := []
  deleted : List TMsg := []
  left : Option TMsg := none
deriving DecidableEq, Repr

/-- One call: what it hands back and the new batcher. -/
def step (batcher : TPerTopicBatcher) : Op → Output × TPerTopicBatcher
  | .addMsg msg now =>
      ({ batches := (batcher.addMsg msg now).1, left := (batcher.addMsg msg now).2.1 },
        (batcher.addMsg msg now).2.2)
  | .getCompleteBatches now =>
      ({ batches := (batcher.getCompleteBatches now).1 }, (batcher.getCompleteBatches now).2)
  | .getAllBatches => ({ batches := batcher.getAllBatches.1 }, batcher.getAllBatches.2)
  | .deleteTopic topic =>
      ({ deleted := (batcher.deleteTopic topic).1 }, (batcher.deleteTopic topic).2)

@[simp] theorem step_config (batcher : TPerTopicBatcher) (op : Op) :
    (step batcher op).2.config = batcher.config := by
  cases op <;> simp [step]

end TPerTopicBatcher

end Dory.Batch
