/-
Module: Dory.Batch.ExpiryTracking
Purpose: The invariant that keeps `ExpiryTracker` in step with `BatchMap` in
  `TPerTopicBatcher`: one record per topic whose batch has a next complete
  time, carrying that time, referred to by the topic's entry and by no other.
  Every call keeps it, so every reachable state passes `SanityCheck()`; from
  it, `GetNextCompleteTime()` is the least next complete time over the topic
  batches, and `GetCompleteBatches(now)` takes exactly the batches due at
  `now`, in expiry order, and leaves none due.  As in
  `Dory.Batch.PerTopicBatcher`, asserts are not checked.
Trusted boundary: none
Main exports: batchOf, takeTopics, expiredNodes, TopicBatcher, WellFormed,
  Tracked, Tracked.sanityCheck, collectExpired_eq, getCompleteBatches_eq,
  updateExpiry_spec, Tracked.step, perTopicBatcher_expiry_tracking
-/
import Dory.Batch.PerTopicBatcher

namespace Dory.Batch

open Dory.Foundation

namespace TPerTopicBatcher

/-- The batch held for `topic`, empty when the topic has no entry. -/
def batchOf (batchMap : List (String × TBatchMapEntry)) (topic : String) : List TMsg :=
  KeyedList.groupOf batchMap (fun entry => entry.batcher.msgList) topic

/-- `batchMap` with the batch of every topic in `topics` taken and its
reference reset to `end()`. -/
def takeTopics (batchMap : List (String × TBatchMapEntry)) (topics : List String) :
    List (String × TBatchMapEntry) :=
  batchMap.map fun item =>
    if item.1 ∈ topics then (item.1, { batcher := item.2.batcher.takeBatch.2 }) else item

/-- The nodes the loop of `GetCompleteBatches(now)` visits: the prefix of the
multiset whose expiries are at most `now`. -/
def expiredNodes (tracker : List ExpiryNode) (now : TTimestamp) : List ExpiryNode :=
  tracker.takeWhile fun node => decide (node.2.expiry ≤ now)

/-!
### The held batches and the taking of batches
-/

section BatchMap

variable {batchMap : List (String × TBatchMapEntry)}

theorem batchOf_of_mem (unique : (KeyedList.keys batchMap).Nodup) {topic : String}
    {entry : TBatchMapEntry} (owned : (topic, entry) ∈ batchMap) :
    batchOf batchMap topic = entry.batcher.msgList :=
  KeyedList.groupOf_of_mem unique _ owned

theorem batchOf_of_not_mem {topic : String} (absent : topic ∉ KeyedList.keys batchMap) :
    batchOf batchMap topic = [] :=
  KeyedList.groupOf_of_not_mem _ absent

@[simp] theorem keys_takeTopics (topics : List String) :
    KeyedList.keys (takeTopics batchMap topics) = KeyedList.keys batchMap := by
  simp only [KeyedList.keys, takeTopics, List.map_map]
  congr 1
  funext item
  by_cases taken : item.1 ∈ topics <;> simp [taken]

@[simp] theorem takeTopics_nil : takeTopics batchMap [] = batchMap := by
  simp [takeTopics]

theorem mem_takeTopics {topics : List String} {topic : String} {entry : TBatchMapEntry} :
    (topic, entry) ∈ takeTopics batchMap topics ↔
      (topic ∉ topics ∧ (topic, entry) ∈ batchMap) ∨
      (topic ∈ topics ∧ ∃ old, (topic, old) ∈ batchMap ∧
        entry = { batcher := old.batcher.takeBatch.2 }) := by
  simp only [takeTopics, List.mem_map]
  constructor
  · rintro ⟨⟨first, old⟩, member, changed⟩
    by_cases taken : first ∈ topics
    · simp only [taken, if_true, Prod.mk.injEq] at changed
      obtain ⟨rfl, rfl⟩ := changed
      exact Or.inr ⟨taken, old, member, rfl⟩
    · simp only [taken, if_false, Prod.mk.injEq] at changed
      obtain ⟨rfl, rfl⟩ := changed
      exact Or.inl ⟨taken, member⟩
  · rintro (⟨kept, member⟩ | ⟨taken, old, member, rfl⟩)
    · exact ⟨(topic, entry), member, by simp [kept]⟩
    · exact ⟨(topic, old), member, by simp [taken]⟩

/-- Taking a batch twice takes nothing more, so taking is cumulative. -/
theorem takeTopics_takeTopics (first second : List String) :
    takeTopics (takeTopics batchMap first) second = takeTopics batchMap (first ++ second) := by
  simp only [takeTopics, List.map_map]
  congr 1
  funext item
  by_cases inFirst : item.1 ∈ first
  · -- a batch already taken is empty, and taking it again changes nothing
    simp only [Function.comp_apply, inFirst, if_true, List.mem_append, true_or]
    split <;> rfl
  · by_cases inSecond : item.1 ∈ second <;> simp [inFirst, inSecond]

/-- The loop's change to the visited topic's entry is the taking of that
topic's batch, when the map has unique keys. -/
theorem modify_eq_takeTopics (unique : (KeyedList.keys batchMap).Nodup) {topic : String}
    {entry : TBatchMapEntry} (found : batchMap.lookup topic = some entry) :
    KeyedList.modify batchMap topic (fun _ => { batcher := entry.batcher.takeBatch.2 }) =
      takeTopics batchMap [topic] := by
  have owned := KeyedList.mem_of_lookup found
  unfold KeyedList.modify takeTopics
  apply List.map_congr_left
  rintro ⟨first, value⟩ member
  by_cases same : first = topic
  · subst same
    rw [KeyedList.eq_of_mem unique member owned]
    simp
  · simp [same]

theorem batchOf_takeTopics (unique : (KeyedList.keys batchMap).Nodup) (topics : List String)
    (topic : String) :
    batchOf (takeTopics batchMap topics) topic =
      if topic ∈ topics then [] else batchOf batchMap topic := by
  have takenUnique : (KeyedList.keys (takeTopics batchMap topics)).Nodup := by
    rwa [keys_takeTopics]
  by_cases present : topic ∈ KeyedList.keys batchMap
  · obtain ⟨entry, owned⟩ := KeyedList.mem_keys.mp present
    by_cases taken : topic ∈ topics
    · have member : (topic, { batcher := entry.batcher.takeBatch.2 }) ∈
          takeTopics batchMap topics := mem_takeTopics.mpr (Or.inr ⟨taken, entry, owned, rfl⟩)
      rw [batchOf_of_mem takenUnique member, if_pos taken]
      rfl
    · have member : (topic, entry) ∈ takeTopics batchMap topics :=
        mem_takeTopics.mpr (Or.inl ⟨taken, owned⟩)
      rw [batchOf_of_mem takenUnique member, if_neg taken, batchOf_of_mem unique owned]
  · have takenAbsent : topic ∉ KeyedList.keys (takeTopics batchMap topics) := by
      rwa [keys_takeTopics]
    rw [batchOf_of_not_mem takenAbsent, batchOf_of_not_mem present]
    split <;> rfl

theorem batchOf_modify_of_ne {topic other : String} (change : TBatchMapEntry → TBatchMapEntry)
    (different : other ≠ topic) :
    batchOf (KeyedList.modify batchMap topic change) other = batchOf batchMap other := by
  simp only [batchOf, KeyedList.groupOf, KeyedList.lookup_modify_of_ne change different]

theorem batchOf_modify_self (unique : (KeyedList.keys batchMap).Nodup) {topic : String}
    {entry : TBatchMapEntry} (owned : (topic, entry) ∈ batchMap)
    (change : TBatchMapEntry → TBatchMapEntry) :
    batchOf (KeyedList.modify batchMap topic change) topic = (change entry).batcher.msgList :=
  batchOf_of_mem (by rw [KeyedList.keys_modify]; exact unique)
    (KeyedList.mem_modify.mpr (Or.inr ⟨rfl, entry, owned, rfl⟩))

end BatchMap

/-!
### The expired prefix of the multiset
-/

section Expired

variable {tracker : List ExpiryNode} {now : TTimestamp}

/-- The loop condition `expiry <= now`, read on the multiset's key. -/
theorem due_eq_key_le (now : TTimestamp) :
    (fun node : ExpiryNode => decide (node.2.expiry ≤ now)) =
      fun node => decide (expiryKey node ≤ now.toInt) := by
  funext node
  exact decide_eq_decide.mpr Int64.le_iff_toInt_le

theorem expiry_le_of_mem_expiredNodes {node : ExpiryNode} (member : node ∈ expiredNodes tracker now) :
    node.2.expiry ≤ now := by
  rw [expiredNodes, due_eq_key_le] at member
  exact Int64.le_iff_toInt_le.mpr (OrderedBag.mem_takeWhile_le member : expiryKey node ≤ now.toInt)

/-- In a sorted multiset, every node the loop does not reach is due after
`now`. -/
theorem lt_expiry_of_mem_dropWhile (sorted : OrderedBag.Sorted expiryKey tracker)
    {node : ExpiryNode} (member : node ∈ tracker.dropWhile fun node => decide (node.2.expiry ≤ now)) :
    now < node.2.expiry := by
  rw [due_eq_key_le] at member
  exact Int64.lt_iff_toInt_lt.mpr
    (OrderedBag.bound_lt_of_mem_dropWhile sorted member : now.toInt < expiryKey node)

theorem mem_expiredNodes_or_dropWhile (now : TTimestamp) {node : ExpiryNode} (member : node ∈ tracker) :
    node ∈ expiredNodes tracker now ∨
      node ∈ tracker.dropWhile fun node => decide (node.2.expiry ≤ now) := by
  rw [← List.takeWhile_append_dropWhile (p := fun node : ExpiryNode => decide (node.2.expiry ≤ now))
    (l := tracker)] at member
  exact List.mem_append.mp member

end Expired

/-!
### The invariant
-/

/-- What every topic batcher keeps: it is consistent with the topic's
configuration, holds only messages of its topic, and holds none when the
topic's batching is disabled. -/
structure TopicBatcher (config : TBatchConfig) (topic : String)
    (batcher : TSingleTopicBatcher) : Prop where
  consistent : TSingleTopicBatcher.Consistent config batcher
  singleTopic : SingleTopic topic batcher.msgList
  disabledEmpty : batchingIsEnabled config = false → batcher.msgList = []

namespace TopicBatcher

variable {config : TBatchConfig} {topic : String}

theorem init : TopicBatcher config topic (TSingleTopicBatcher.init config) :=
  ⟨TSingleTopicBatcher.init_consistent config, by simp [SingleTopic], fun _ => rfl⟩

theorem takeBatch {batcher : TSingleTopicBatcher} (kept : TopicBatcher config topic batcher) :
    TopicBatcher config topic batcher.takeBatch.2 :=
  ⟨TSingleTopicBatcher.takeBatch_consistent kept.consistent, by simp [SingleTopic], fun _ => rfl⟩

/-- Everything the topic batcher hands back, leaves with the caller or holds
after an `AddMsg` of a message of its topic is of its topic. -/
theorem addMsg_singleTopic {batcher : TSingleTopicBatcher} (kept : TopicBatcher config topic batcher)
    (enabled : batchingIsEnabled config = true) {msg : TMsg} (topicOf : msg.topic = topic)
    (now : TTimestamp) :
    SingleTopic topic ((batcher.addMsg msg now).1.1 ++ (batcher.addMsg msg now).1.2.toList ++
      (batcher.addMsg msg now).2.msgList) := by
  rw [TSingleTopicBatcher.addMsg_conserves enabled kept.consistent msg now]
  intro held member
  rcases List.mem_append.mp member with old | new
  · exact kept.singleTopic held old
  · rw [List.mem_singleton.mp new]
    exact topicOf

theorem addMsg {batcher : TSingleTopicBatcher} (kept : TopicBatcher config topic batcher)
    (enabled : batchingIsEnabled config = true) {msg : TMsg} (topicOf : msg.topic = topic)
    (now : TTimestamp) : TopicBatcher config topic (batcher.addMsg msg now).2 := by
  have single := kept.addMsg_singleTopic enabled topicOf now
  refine ⟨TSingleTopicBatcher.addMsg_consistent enabled kept.consistent msg now,
    fun held member => single held (List.mem_append_right _ member), ?_⟩
  intro disabled
  rw [enabled] at disabled
  cases disabled

end TopicBatcher

/-- The multiset's own invariant: node identities are unique and below the
allocator, and the nodes are sorted by expiry. -/
structure WellFormed (tracker : List ExpiryNode) (nextNode : Nat) : Prop where
  uniqueNodes : (KeyedList.keys tracker).Nodup
  freshNodes : ∀ node ∈ tracker, node.1 < nextNode
  sorted : OrderedBag.Sorted expiryKey tracker

namespace WellFormed

variable {tracker : List ExpiryNode} {nextNode : Nat}

theorem sublist {smaller : List ExpiryNode} (wellFormed : WellFormed tracker nextNode)
    (sub : smaller.Sublist tracker) : WellFormed smaller nextNode :=
  ⟨wellFormed.uniqueNodes.sublist (sub.map _),
    fun node member => wellFormed.freshNodes node (sub.subset member),
    wellFormed.sorted.sublist sub⟩

theorem eraseNode (wellFormed : WellFormed tracker nextNode) (node : Nat) :
    WellFormed (Dory.Batch.eraseNode tracker node) nextNode :=
  wellFormed.sublist List.filter_sublist

/-- A record inserted under the allocator's next identity keeps the
multiset well formed with the allocator advanced. -/
theorem insertUpper (wellFormed : WellFormed tracker nextNode) (record : TBatchExpiryRecord) :
    WellFormed (OrderedBag.insertUpper expiryKey (nextNode, record) tracker) (nextNode + 1) := by
  have perm : (OrderedBag.insertUpper expiryKey (nextNode, record) tracker).Perm
      ((nextNode, record) :: tracker) := OrderedBag.insertUpper_perm _ _
  refine ⟨?_, ?_, OrderedBag.sorted_insertUpper _ wellFormed.sorted⟩
  · rw [KeyedList.keys, (perm.map Prod.fst).nodup_iff, List.map_cons, List.nodup_cons]
    refine ⟨fun used => ?_, wellFormed.uniqueNodes⟩
    obtain ⟨node, member, same⟩ := List.mem_map.mp used
    have := wellFormed.freshNodes node member
    omega
  · intro node member
    rcases OrderedBag.mem_insertUpper.mp member with rfl | old
    · exact Nat.lt_succ_self nextNode
    · exact Nat.lt_succ_of_lt (wellFormed.freshNodes node old)

end WellFormed

/-- The invariant of `TPerTopicBatcher`: `BatchMap` has unique topics, the
multiset is well formed, each record belongs to the entry of its topic, which
refers to it and whose next complete time is the record's expiry, each entry
with a next complete time has such a record, each entry without one refers to
no record, and each topic batcher keeps `TopicBatcher` for its topic. -/
structure Tracked (batcher : TPerTopicBatcher) : Prop where
  uniqueTopics : (KeyedList.keys batcher.batchMap).Nodup
  wellFormed : WellFormed batcher.expiryTracker batcher.nextNode
  recordEntry : ∀ node ∈ batcher.expiryTracker, ∃ entry,
    (node.2.topic, entry) ∈ batcher.batchMap ∧ entry.expiryRef = some node.1 ∧
      entry.batcher.getNextCompleteTime = some node.2.expiry
  entryRecord : ∀ topic entry, (topic, entry) ∈ batcher.batchMap → ∀ expiry,
    entry.batcher.getNextCompleteTime = some expiry →
      ∃ node, entry.expiryRef = some node ∧ (node, ⟨expiry, topic⟩) ∈ batcher.expiryTracker
  entryUntracked : ∀ topic entry, (topic, entry) ∈ batcher.batchMap →
    entry.batcher.getNextCompleteTime = none → entry.expiryRef = none
  batchers : ∀ topic entry, (topic, entry) ∈ batcher.batchMap →
    TopicBatcher (batcher.topicConfig topic) topic entry.batcher

namespace Tracked

theorem init (config : Option TPerTopicConfig) : Tracked (TPerTopicBatcher.init config) := by
  refine ⟨List.nodup_nil, ⟨List.nodup_nil, ?_, List.Pairwise.nil⟩, ?_, ?_, ?_, ?_⟩ <;>
    simp [TPerTopicBatcher.init]

section Derived

variable {batcher : TPerTopicBatcher} (tracked : Tracked batcher)
include tracked

theorem entry_unique {topic : String} {entry other : TBatchMapEntry}
    (owned : (topic, entry) ∈ batcher.batchMap) (another : (topic, other) ∈ batcher.batchMap) :
    entry = other :=
  KeyedList.eq_of_mem tracked.uniqueTopics owned another

theorem node_eq_of_id {node other : ExpiryNode} (member : node ∈ batcher.expiryTracker)
    (another : other ∈ batcher.expiryTracker) (same : node.1 = other.1) : node = other := by
  obtain ⟨id, record⟩ := node
  obtain ⟨id', record'⟩ := other
  simp only at same
  subst same
  rw [KeyedList.eq_of_mem tracked.wellFormed.uniqueNodes member another]

/-- Two records of one topic are one record. -/
theorem node_eq_of_topic {node other : ExpiryNode} (member : node ∈ batcher.expiryTracker)
    (another : other ∈ batcher.expiryTracker) (same : node.2.topic = other.2.topic) :
    node = other := by
  obtain ⟨entry, owned, ref, -⟩ := tracked.recordEntry node member
  obtain ⟨entry', owned', ref', -⟩ := tracked.recordEntry other another
  rw [same] at owned
  have sameEntry := tracked.entry_unique owned owned'
  subst sameEntry
  apply tracked.node_eq_of_id member another
  rw [ref] at ref'
  exact Option.some.inj ref'

theorem nodup_topics : (batcher.expiryTracker.map fun node => node.2.topic).Nodup := by
  apply List.Nodup.map_on
  · intro node member other another same
    exact tracked.node_eq_of_topic member another same
  · exact List.Nodup.of_map Prod.fst tracked.wellFormed.uniqueNodes

/-- The entry of a record's topic refers to the record and has its expiry. -/
theorem owner {node : ExpiryNode} (member : node ∈ batcher.expiryTracker) {entry : TBatchMapEntry}
    (owned : (node.2.topic, entry) ∈ batcher.batchMap) :
    entry.expiryRef = some node.1 ∧ entry.batcher.getNextCompleteTime = some node.2.expiry := by
  obtain ⟨entry', owned', ref, scheduled⟩ := tracked.recordEntry node member
  rw [tracked.entry_unique owned owned']
  exact ⟨ref, scheduled⟩

/-- A topic whose batch has no next complete time has no record. -/
theorem untracked {topic : String} {entry : TBatchMapEntry} (owned : (topic, entry) ∈ batcher.batchMap)
    (idle : entry.batcher.getNextCompleteTime = none) :
    ∀ node ∈ batcher.expiryTracker, node.2.topic ≠ topic := by
  intro node member same
  rw [← same] at owned
  rw [(tracked.owner member owned).2] at idle
  cases idle

/-- The state of a topic's record, as the update in `AddMsg` and the erase
in `DeleteTopic` find it: either the entry refers to no record and there is
none, or it refers to the topic's only record, whose expiry is the batch's
next complete time. -/
theorem recordState {topic : String} {entry : TBatchMapEntry}
    (owned : (topic, entry) ∈ batcher.batchMap) :
    (entry.expiryRef = none ∧ ∀ node ∈ batcher.expiryTracker, node.2.topic ≠ topic) ∨
      ∃ id expiry, entry.expiryRef = some id ∧ entry.batcher.getNextCompleteTime = some expiry ∧
        (id, ⟨expiry, topic⟩) ∈ batcher.expiryTracker ∧
        ∀ node ∈ batcher.expiryTracker, node.2.topic = topic → node.1 = id := by
  cases scheduled : entry.batcher.getNextCompleteTime with
  | none =>
      exact Or.inl ⟨tracked.entryUntracked topic entry owned scheduled,
        tracked.untracked owned scheduled⟩
  | some expiry =>
      obtain ⟨id, ref, member⟩ := tracked.entryRecord topic entry owned expiry scheduled
      refine Or.inr ⟨id, expiry, ref, rfl, member, ?_⟩
      intro node other same
      rw [tracked.node_eq_of_topic other member same]

theorem findTopicNode_of_mem {id : Nat} {record : TBatchExpiryRecord}
    (member : (id, record) ∈ batcher.expiryTracker) :
    findTopicNode batcher.expiryTracker record.topic = some id := by
  have found := KeyedList.find?_key_of_mem (fun node : ExpiryNode => node.2.topic)
    tracked.nodup_topics member
  simp only at found
  simp [findTopicNode, found]

theorem refExpiry_of_mem {id : Nat} {record : TBatchExpiryRecord}
    (member : (id, record) ∈ batcher.expiryTracker) :
    refExpiry batcher.expiryTracker (some id) = record.expiry := by
  simp [refExpiry, KeyedList.lookup_of_mem tracked.wellFormed.uniqueNodes member]

/-- Every state that keeps the invariant passes `SanityCheck()`. -/
theorem sanityCheck : batcher.sanityCheck = true := by
  unfold TPerTopicBatcher.sanityCheck
  simp only [Bool.and_eq_true, List.all_eq_true, decide_eq_true_eq]
  refine ⟨⟨?_, ?_⟩, tracked.nodup_topics⟩
  · rintro ⟨topic, entry⟩ owned
    rcases tracked.recordState owned with ⟨ref, absent⟩ | ⟨id, expiry, ref, scheduled, member, -⟩
    · have idle : entry.batcher.getNextCompleteTime = none := by
        cases scheduled : entry.batcher.getNextCompleteTime with
        | none => rfl
        | some expiry =>
            obtain ⟨id, ref', -⟩ := tracked.entryRecord topic entry owned expiry scheduled
            rw [ref] at ref'
            cases ref'
      have notFound : findTopicNode batcher.expiryTracker topic = none := by
        unfold findTopicNode
        rw [List.find?_eq_none.mpr (by intro node member; simpa using absent node member)]
        rfl
      simp [idle, ref, notFound]
    · simp [scheduled, ref, tracked.findTopicNode_of_mem member, tracked.refExpiry_of_mem member]
  · rintro ⟨id, record⟩ member
    obtain ⟨entry, owned, -, -⟩ := tracked.recordEntry _ member
    simp [KeyedList.lookup_of_mem tracked.uniqueTopics owned]

/-- The first record has the least expiry. -/
theorem head_le {first : ExpiryNode} {rest : List ExpiryNode}
    (head : batcher.expiryTracker = first :: rest) {node : ExpiryNode}
    (member : node ∈ batcher.expiryTracker) : first.2.expiry ≤ node.2.expiry := by
  have sorted := tracked.wellFormed.sorted
  rw [head] at sorted member
  rcases List.mem_cons.mp member with rfl | later
  · exact Int64.le_iff_toInt_le.mpr (le_refl _)
  · exact Int64.le_iff_toInt_le.mpr ((List.pairwise_cons.mp sorted).1 node later)

end Derived

end Tracked

/-!
### `GetNextCompleteTime()`
-/

section NextCompleteTime

variable {batcher : TPerTopicBatcher} (tracked : Tracked batcher)
include tracked

/-- `GetNextCompleteTime()` is the least next complete time of a topic batch. -/
theorem getNextCompleteTime_eq_some_iff {expiry : TTimestamp} :
    batcher.getNextCompleteTime = some expiry ↔
      (∃ item ∈ batcher.batchMap, item.2.batcher.getNextCompleteTime = some expiry) ∧
      ∀ item ∈ batcher.batchMap, ∀ other, item.2.batcher.getNextCompleteTime = some other →
        expiry ≤ other := by
  constructor
  · intro found
    cases head : batcher.expiryTracker with
    | nil => simp [getNextCompleteTime, head] at found
    | cons first rest =>
        simp only [getNextCompleteTime, head, List.head?_cons, Option.map_some,
          Option.some.injEq] at found
        subst found
        have firstMember : first ∈ batcher.expiryTracker := by
          rw [head]
          exact List.mem_cons_self
        obtain ⟨entry, owned, -, scheduled⟩ := tracked.recordEntry first firstMember
        refine ⟨⟨(first.2.topic, entry), owned, scheduled⟩, ?_⟩
        rintro ⟨topic, entry'⟩ owned' other scheduled'
        obtain ⟨node, -, member⟩ := tracked.entryRecord topic entry' owned' other scheduled'
        exact tracked.head_le head member
  · rintro ⟨⟨⟨topic, entry⟩, owned, scheduled⟩, least⟩
    obtain ⟨node, -, member⟩ := tracked.entryRecord topic entry owned expiry scheduled
    cases head : batcher.expiryTracker with
    | nil =>
        rw [head] at member
        cases member
    | cons first rest =>
        have firstMember : first ∈ batcher.expiryTracker := by
          rw [head]
          exact List.mem_cons_self
        obtain ⟨entry', owned', -, scheduled'⟩ := tracked.recordEntry first firstMember
        have below : expiry ≤ first.2.expiry := least _ owned' _ scheduled'
        have above : first.2.expiry ≤ expiry := tracked.head_le head member
        simp only [getNextCompleteTime, head, List.head?_cons, Option.map_some]
        rw [Int64.le_antisymm above below]

/-- `GetNextCompleteTime()` is empty exactly when no topic batch has a next
complete time. -/
theorem getNextCompleteTime_eq_none_iff :
    batcher.getNextCompleteTime = none ↔
      ∀ item ∈ batcher.batchMap, item.2.batcher.getNextCompleteTime = none := by
  constructor
  · intro found
    have empty : batcher.expiryTracker = [] := by
      simpa [getNextCompleteTime] using found
    rintro ⟨topic, entry⟩ owned
    cases scheduled : entry.batcher.getNextCompleteTime with
    | none => rfl
    | some expiry =>
        obtain ⟨node, -, member⟩ := tracked.entryRecord topic entry owned expiry scheduled
        rw [empty] at member
        cases member
  · intro idle
    cases head : batcher.expiryTracker with
    | nil => simp [getNextCompleteTime, head]
    | cons first rest =>
        have firstMember : first ∈ batcher.expiryTracker := by
          rw [head]
          exact List.mem_cons_self
        obtain ⟨entry, owned, -, scheduled⟩ := tracked.recordEntry first firstMember
        rw [idle _ owned] at scheduled
        cases scheduled

end NextCompleteTime

/-!
### The loop of `GetCompleteBatches(now)`

The loop walks the multiset from its first node while the expiry is at most
`now`.  With unique topics in the map, a map entry for every visited topic
and no topic visited twice, it returns the visited topics' batches in order,
takes exactly those batches, and erases exactly the visited nodes.
-/

/-- The loop over `pending`, from any map and any multiset. -/
theorem collectExpired_eq (now : TTimestamp) :
    ∀ (pending : List ExpiryNode) (batchMap : List (String × TBatchMapEntry))
      (tracker : List ExpiryNode),
      (KeyedList.keys batchMap).Nodup →
      (∀ node ∈ pending, node.2.topic ∈ KeyedList.keys batchMap) →
      (pending.map fun node => node.2.topic).Nodup →
      collectExpired now pending batchMap tracker =
        ((expiredNodes pending now).map fun node => batchOf batchMap node.2.topic,
          takeTopics batchMap ((expiredNodes pending now).map fun node => node.2.topic),
          tracker.filter fun node => decide (node.1 ∉ KeyedList.keys (expiredNodes pending now))) := by
  intro pending
  induction pending with
  | nil =>
      intro batchMap tracker _ _ _
      simp [collectExpired, expiredNodes]
  | cons visited rest inductionHypothesis =>
      obtain ⟨node, record⟩ := visited
      intro batchMap tracker unique covered distinct
      simp only [List.map_cons, List.nodup_cons] at distinct
      by_cases due : record.expiry ≤ now
      · -- the visited topic has an entry: its batch is taken and its node erased
        have present : record.topic ∈ KeyedList.keys batchMap := covered _ List.mem_cons_self
        obtain ⟨entry, found⟩ : ∃ entry, batchMap.lookup record.topic = some entry := by
          cases found : batchMap.lookup record.topic with
          | none => exact absurd present (KeyedList.lookup_eq_none.mp found)
          | some entry => exact ⟨entry, rfl⟩
        have expiredCons : expiredNodes ((node, record) :: rest) now =
            (node, record) :: expiredNodes rest now := by
          simp [expiredNodes, due]
        have restCovered : ∀ later ∈ rest, later.2.topic ∈
            KeyedList.keys (KeyedList.modify batchMap record.topic
              fun _ => { batcher := entry.batcher.takeBatch.2 }) := by
          intro later member
          rw [KeyedList.keys_modify]
          exact covered later (List.mem_cons_of_mem _ member)
        rw [collectExpired, if_pos due, found]
        simp only
        rw [inductionHypothesis _ _ (by rwa [KeyedList.keys_modify]) restCovered distinct.2,
          expiredCons]
        refine Prod.ext ?_ (Prod.ext ?_ ?_)
        · -- later topics differ from the visited one, so their batches are untouched
          simp only [List.map_cons, List.cons.injEq]
          refine ⟨by simp [batchOf, KeyedList.groupOf, found], List.map_congr_left fun later member => ?_⟩
          have different : later.2.topic ≠ record.topic := by
            intro same
            apply distinct.1
            rw [← same]
            exact List.mem_map.mpr ⟨later, List.takeWhile_subset _ member, rfl⟩
          exact batchOf_modify_of_ne _ different
        · simp only [modify_eq_takeTopics unique found, takeTopics_takeTopics, List.map_cons]
          rfl
        · -- erasing the visited node and then the later ones erases them all
          simp only [eraseNode, List.filter_filter, KeyedList.keys, List.map_cons]
          congr 1
          funext other
          rw [Bool.eq_iff_iff]
          simp only [Bool.and_eq_true, decide_eq_true_eq, List.mem_cons, not_or]
          constructor
          · rintro ⟨kept, different⟩
            exact ⟨different, of_decide_eq_true kept⟩
          · rintro ⟨different, kept⟩
            exact ⟨decide_eq_true kept, different⟩
      · have expiredCons : expiredNodes ((node, record) :: rest) now = [] := by
          simp [expiredNodes, due]
        rw [collectExpired, if_neg due, expiredCons]
        simp

/-- `GetCompleteBatches(now)` on a state that keeps the invariant: the batches
of the expired nodes' topics in multiset order, those batches taken, and the
multiset left with the nodes the loop did not reach. -/
theorem getCompleteBatches_eq {batcher : TPerTopicBatcher} (tracked : Tracked batcher)
    (now : TTimestamp) :
    batcher.getCompleteBatches now =
      ((expiredNodes batcher.expiryTracker now).map fun node => batchOf batcher.batchMap node.2.topic,
        { batcher with
          batchMap := takeTopics batcher.batchMap
            ((expiredNodes batcher.expiryTracker now).map fun node => node.2.topic)
          expiryTracker := batcher.expiryTracker.dropWhile fun node => decide (node.2.expiry ≤ now) }) := by
  have covered : ∀ node ∈ batcher.expiryTracker, node.2.topic ∈ KeyedList.keys batcher.batchMap := by
    intro node member
    obtain ⟨entry, owned, -, -⟩ := tracked.recordEntry node member
    exact KeyedList.mem_keys_of_mem owned
  have whole : expiredNodes batcher.expiryTracker now ++
      batcher.expiryTracker.dropWhile (fun node => decide (node.2.expiry ≤ now)) =
        batcher.expiryTracker :=
    List.takeWhile_append_dropWhile
  have erased := KeyedList.filter_not_mem_keys_append
    (by rw [whole]; exact tracked.wellFormed.uniqueNodes)
  rw [whole] at erased
  unfold getCompleteBatches
  rw [collectExpired_eq now _ _ _ tracked.uniqueTopics covered tracked.nodup_topics, erased]

/-- Erasing the node a topic's entry refers to removes exactly that topic's
record. -/
theorem mem_eraseNode_iff {tracker : List ExpiryNode} {id : Nat} {expiry : TTimestamp}
    {topic : String} (unique : (KeyedList.keys tracker).Nodup)
    (member : (id, ⟨expiry, topic⟩) ∈ tracker)
    (owner : ∀ node ∈ tracker, node.2.topic = topic → node.1 = id) {node : ExpiryNode} :
    node ∈ eraseNode tracker id ↔ node ∈ tracker ∧ node.2.topic ≠ topic := by
  simp only [eraseNode, List.mem_filter, decide_eq_true_eq]
  constructor
  · rintro ⟨present, other⟩
    exact ⟨present, fun same => other (owner node present same)⟩
  · rintro ⟨present, other⟩
    refine ⟨present, fun same => other ?_⟩
    obtain ⟨id', record⟩ := node
    simp only at same
    subst same
    rw [KeyedList.eq_of_mem unique present member]

/-- A record inserted under a new identity is found under that identity. -/
theorem mem_insertRecord_iff {tracker : List ExpiryNode} {nextNode : Nat} {final : TTimestamp}
    {topic : String} {node : ExpiryNode} :
    node ∈ OrderedBag.insertUpper expiryKey (nextNode, ⟨final, topic⟩) tracker ↔
      node ∈ tracker ∨
        (some final = some node.2.expiry ∧ some nextNode = some node.1 ∧ node.2.topic = topic) := by
  rw [OrderedBag.mem_insertUpper, or_comm]
  apply or_congr_right
  constructor
  · rintro rfl
    exact ⟨rfl, rfl, rfl⟩
  · obtain ⟨id, expiry, topic'⟩ := node
    rintro ⟨sameExpiry, sameId, sameTopic⟩
    simp only [Option.some.injEq] at sameExpiry sameId sameTopic
    subst sameExpiry sameId sameTopic
    rfl

/-- What the update of a topic's expiry record in `AddMsg` leaves: a well
formed multiset that holds the other topics' records and, when the batch has
a next complete time, one record of the topic with that time under the new
reference. -/
structure UpdatedRecord (tracker : List ExpiryNode) (topic : String)
    (optNctFinal : Option TTimestamp) (updated : List ExpiryNode × Option Nat × Nat) : Prop where
  wellFormed : WellFormed updated.1 updated.2.2
  mem_iff : ∀ node, node ∈ updated.1 ↔ (node ∈ tracker ∧ node.2.topic ≠ topic) ∨
    (optNctFinal = some node.2.expiry ∧ updated.2.1 = some node.1 ∧ node.2.topic = topic)
  untracked : optNctFinal = none → updated.2.1 = none
  tracked : ∀ final, optNctFinal = some final → ∃ id, updated.2.1 = some id

/-- The `remove_old_expiry`/`add_new_expiry` block, from either state of the
topic's record: none and no reference, or the topic's only record under the
reference with the expiry read through it. -/
theorem updateExpiry_spec {tracker : List ExpiryNode} {nextNode : Nat} {topic : String}
    {expiryRef : Option Nat} {expiry : TTimestamp} (optNctFinal : Option TTimestamp)
    (wellFormed : WellFormed tracker nextNode)
    (old : (expiryRef = none ∧ ∀ node ∈ tracker, node.2.topic ≠ topic) ∨
      ∃ id, expiryRef = some id ∧ (id, ⟨expiry, topic⟩) ∈ tracker ∧
        ∀ node ∈ tracker, node.2.topic = topic → node.1 = id) :
    UpdatedRecord tracker topic optNctFinal
      (updateExpiry tracker nextNode topic expiryRef expiry optNctFinal) := by
  rcases old with ⟨rfl, absent⟩ | ⟨id, rfl, member, owner⟩
  · have kept : ∀ node, node ∈ tracker ↔ node ∈ tracker ∧ node.2.topic ≠ topic :=
      fun node => ⟨fun present => ⟨present, absent node present⟩, And.left⟩
    cases optNctFinal with
    | none =>
        rw [updateExpiry_none_none]
        refine ⟨wellFormed, fun node => ?_, fun _ => rfl, fun _ idle => nomatch idle⟩
        simp [← kept node]
    | some final =>
        rw [updateExpiry_none_some]
        refine ⟨wellFormed.insertUpper _, fun node => ?_, fun idle => (nomatch idle),
          fun _ _ => ⟨nextNode, rfl⟩⟩
        rw [mem_insertRecord_iff, ← kept node]
  · have erased : ∀ node, node ∈ eraseNode tracker id ↔ node ∈ tracker ∧ node.2.topic ≠ topic :=
      fun node => mem_eraseNode_iff wellFormed.uniqueNodes member owner
    cases optNctFinal with
    | none =>
        rw [updateExpiry_some_none]
        refine ⟨wellFormed.eraseNode id, fun node => ?_, fun _ => rfl, fun _ idle => nomatch idle⟩
        simp [← erased node]
    | some final =>
        by_cases moved : final ≠ expiry
        · rw [updateExpiry_some_moved _ _ _ _ moved]
          refine ⟨(wellFormed.eraseNode id).insertUpper _, fun node => ?_, fun idle => (nomatch idle),
            fun _ _ => ⟨nextNode, rfl⟩⟩
          rw [mem_insertRecord_iff, ← erased node]
        · -- the record already has the new time and stays
          rw [not_not] at moved
          subst moved
          rw [updateExpiry_some_same]
          refine ⟨wellFormed, fun node => ?_, fun idle => (nomatch idle), fun _ _ => ⟨id, rfl⟩⟩
          constructor
          · intro present
            by_cases same : node.2.topic = topic
            · have sameId := owner node present same
              obtain ⟨id', record⟩ := node
              simp only at sameId
              subst sameId
              rw [KeyedList.eq_of_mem wellFormed.uniqueNodes present member] at same ⊢
              exact Or.inr ⟨rfl, rfl, rfl⟩
            · exact Or.inl ⟨present, same⟩
          · rintro (⟨present, -⟩ | ⟨sameExpiry, sameId, sameTopic⟩)
            · exact present
            · obtain ⟨id', expiry', topic'⟩ := node
              simp only [Option.some.injEq] at sameExpiry sameId sameTopic
              subst sameExpiry sameId sameTopic
              exact member

/-- The multiset after `DeleteTopic` erases the topic's reference: the other
topics' records. -/
theorem mem_eraseRef_iff {tracker : List ExpiryNode} {nextNode : Nat} {topic : String}
    {expiryRef : Option Nat} {expiry : TTimestamp} (wellFormed : WellFormed tracker nextNode)
    (old : (expiryRef = none ∧ ∀ node ∈ tracker, node.2.topic ≠ topic) ∨
      ∃ id, expiryRef = some id ∧ (id, ⟨expiry, topic⟩) ∈ tracker ∧
        ∀ node ∈ tracker, node.2.topic = topic → node.1 = id) {node : ExpiryNode} :
    node ∈ eraseRef tracker expiryRef ↔ node ∈ tracker ∧ node.2.topic ≠ topic := by
  rcases old with ⟨rfl, absent⟩ | ⟨id, rfl, member, owner⟩
  · exact ⟨fun present => ⟨present, absent node present⟩, And.left⟩
  · exact mem_eraseNode_iff wellFormed.uniqueNodes member owner

theorem eraseRef_sublist (tracker : List ExpiryNode) (expiryRef : Option Nat) :
    (eraseRef tracker expiryRef).Sublist tracker := by
  cases expiryRef with
  | none => exact List.Sublist.refl tracker
  | some node => exact List.filter_sublist

/-!
### Every call keeps the invariant
-/

namespace Tracked

variable {batcher : TPerTopicBatcher} (tracked : Tracked batcher)
include tracked

/-- The state of a topic's record as `AddMsg` reads it through the entry's
reference. -/
theorem refRecord {topic : String} {entry : TBatchMapEntry}
    (owned : (topic, entry) ∈ batcher.batchMap) :
    (entry.expiryRef = none ∧ ∀ node ∈ batcher.expiryTracker, node.2.topic ≠ topic) ∨
      ∃ id, entry.expiryRef = some id ∧
        (id, ⟨refExpiry batcher.expiryTracker entry.expiryRef, topic⟩) ∈ batcher.expiryTracker ∧
        ∀ node ∈ batcher.expiryTracker, node.2.topic = topic → node.1 = id := by
  rcases tracked.recordState owned with none | ⟨id, expiry, ref, -, member, owner⟩
  · exact Or.inl none
  · refine Or.inr ⟨id, ref, ?_, owner⟩
    rw [ref, tracked.refExpiry_of_mem member]
    exact member

theorem getCompleteBatches (now : TTimestamp) : Tracked (batcher.getCompleteBatches now).2 := by
  rw [getCompleteBatches_eq tracked now]
  have laterSub : (batcher.expiryTracker.dropWhile fun node => decide (node.2.expiry ≤ now)).Sublist
      batcher.expiryTracker := (List.dropWhile_suffix _).sublist
  -- a node the loop did not reach is the record of a topic whose batch was not taken
  have notTaken : ∀ node ∈ batcher.expiryTracker.dropWhile fun node => decide (node.2.expiry ≤ now),
      node.2.topic ∉ (expiredNodes batcher.expiryTracker now).map fun node => node.2.topic := by
    intro node later taken
    obtain ⟨other, expired, same⟩ := List.mem_map.mp taken
    have sameNode := tracked.node_eq_of_topic (List.takeWhile_subset _ expired)
      (laterSub.subset later) same
    subst sameNode
    exact Int64.not_le.mpr (lt_expiry_of_mem_dropWhile tracked.wellFormed.sorted later)
      (expiry_le_of_mem_expiredNodes expired)
  refine ⟨?_, tracked.wellFormed.sublist laterSub, ?_, ?_, ?_, ?_⟩
  · simpa using tracked.uniqueTopics
  · intro node later
    obtain ⟨entry, owned, ref, scheduled⟩ := tracked.recordEntry node (laterSub.subset later)
    exact ⟨entry, mem_takeTopics.mpr (Or.inl ⟨notTaken node later, owned⟩), ref, scheduled⟩
  · intro topic entry owned expiry scheduled
    rcases mem_takeTopics.mp owned with ⟨kept, old⟩ | ⟨-, old, -, rfl⟩
    · obtain ⟨node, ref, member⟩ := tracked.entryRecord topic entry old expiry scheduled
      refine ⟨node, ref, ?_⟩
      rcases mem_expiredNodes_or_dropWhile now member with expired | later
      · exact absurd (List.mem_map.mpr ⟨_, expired, rfl⟩) kept
      · exact later
    · simp at scheduled
  · intro topic entry owned idle
    rcases mem_takeTopics.mp owned with ⟨-, old⟩ | ⟨-, old, -, rfl⟩
    · exact tracked.entryUntracked topic entry old idle
    · rfl
  · intro topic entry owned
    rcases mem_takeTopics.mp owned with ⟨-, old⟩ | ⟨-, old, member, rfl⟩
    · exact tracked.batchers topic entry old
    · exact (tracked.batchers topic old member).takeBatch

/-- Finding or inserting the topic's entry keeps the invariant, returns an
entry of the map, and leaves the multiset and every held batch as they were. -/
theorem findOrInsertEntry (topic : String) :
    Tracked (batcher.findOrInsertEntry topic).2 ∧
      (topic, (batcher.findOrInsertEntry topic).1) ∈ (batcher.findOrInsertEntry topic).2.batchMap ∧
      (batcher.findOrInsertEntry topic).2.expiryTracker = batcher.expiryTracker ∧
      (batcher.findOrInsertEntry topic).2.nextNode = batcher.nextNode ∧
      ∀ other, batchOf (batcher.findOrInsertEntry topic).2.batchMap other =
        batchOf batcher.batchMap other := by
  unfold TPerTopicBatcher.findOrInsertEntry
  cases found : batcher.batchMap.lookup topic with
  | some entry => exact ⟨tracked, KeyedList.mem_of_lookup found, rfl, rfl, fun _ => rfl⟩
  | none =>
      have absent := KeyedList.lookup_eq_none.mp found
      have unique : (KeyedList.keys (batcher.batchMap ++
          [(topic, { batcher := TSingleTopicBatcher.init (batcher.topicConfig topic) })])).Nodup := by
        rw [KeyedList.keys_append, KeyedList.keys_singleton, List.nodup_append]
        refine ⟨tracked.uniqueTopics, List.nodup_singleton topic, ?_⟩
        intro key present other new same
        rw [List.mem_singleton] at new
        subst new same
        exact absent present
      -- an entry of the new map is an old entry or the new, empty one
      have memberCases : ∀ {other entry}, (other, entry) ∈ batcher.batchMap ++
          [(topic, { batcher := TSingleTopicBatcher.init (batcher.topicConfig topic) })] →
          (other, entry) ∈ batcher.batchMap ∨
            (other = topic ∧ entry = { batcher := TSingleTopicBatcher.init (batcher.topicConfig topic) }) := by
        intro other entry member
        rcases List.mem_append.mp member with old | new
        · exact Or.inl old
        · simp only [List.mem_singleton, Prod.mk.injEq] at new
          exact Or.inr new
      refine ⟨⟨unique, tracked.wellFormed, ?_, ?_, ?_, ?_⟩,
        List.mem_append_right _ (List.mem_singleton_self _), rfl, rfl, ?_⟩
      · intro node member
        obtain ⟨entry, owned, ref, scheduled⟩ := tracked.recordEntry node member
        exact ⟨entry, List.mem_append_left _ owned, ref, scheduled⟩
      · intro other entry owned expiry scheduled
        rcases memberCases owned with old | ⟨rfl, rfl⟩
        · exact tracked.entryRecord other entry old expiry scheduled
        · simp at scheduled
      · intro other entry owned idle
        rcases memberCases owned with old | ⟨rfl, rfl⟩
        · exact tracked.entryUntracked other entry old idle
        · rfl
      · intro other entry owned
        rcases memberCases owned with old | ⟨rfl, rfl⟩
        · exact tracked.batchers other entry old
        · exact TopicBatcher.init
      · intro other
        by_cases present : other ∈ KeyedList.keys batcher.batchMap
        · obtain ⟨entry, owned⟩ := KeyedList.mem_keys.mp present
          rw [batchOf_of_mem unique (List.mem_append_left _ owned),
            batchOf_of_mem tracked.uniqueTopics owned]
        · rw [batchOf_of_not_mem present]
          by_cases same : other = topic
          · subst same
            rw [batchOf_of_mem unique (List.mem_append_right _ (List.mem_singleton_self _))]
            rfl
          · apply batchOf_of_not_mem
            simp [present, same]

/-- The enabled part of `AddMsg` keeps the invariant. -/
theorem addToTopic {topic : String} {entry : TBatchMapEntry}
    (owned : (topic, entry) ∈ batcher.batchMap) (enabled : entry.batcher.batchingIsEnabled = true)
    {msg : TMsg} (topicOf : msg.topic = topic) (now : TTimestamp) :
    Tracked (batcher.addToTopic topic entry msg now).2 := by
  have kept := tracked.batchers topic entry owned
  have configEnabled : batchingIsEnabled (batcher.topicConfig topic) = true := by
    rw [← kept.consistent.batchingIsEnabled_eq]
    exact enabled
  have updated := updateExpiry_spec (entry.batcher.addMsg msg now).2.getNextCompleteTime
    tracked.wellFormed (tracked.refRecord owned)
  refine ⟨by simpa [addToTopic_batchMap] using tracked.uniqueTopics, updated.wellFormed,
    ?_, ?_, ?_, ?_⟩
  · intro node member
    rw [addToTopic_expiryTracker] at member
    rw [addToTopic_batchMap]
    rcases (updated.mem_iff node).mp member with ⟨old, other⟩ | ⟨scheduled, ref, same⟩
    · obtain ⟨entry', owned', ref', scheduled'⟩ := tracked.recordEntry node old
      exact ⟨entry', KeyedList.mem_modify.mpr (Or.inl ⟨other, owned'⟩), ref', scheduled'⟩
    · rw [same]
      exact ⟨_, KeyedList.mem_modify.mpr (Or.inr ⟨rfl, entry, owned, rfl⟩), ref, scheduled⟩
  · intro other entry' owned' expiry scheduled
    rw [addToTopic_batchMap] at owned'
    rw [addToTopic_expiryTracker]
    rcases KeyedList.mem_modify.mp owned' with ⟨different, old⟩ | ⟨same, value, -, changed⟩
    · obtain ⟨node, ref, member⟩ := tracked.entryRecord other entry' old expiry scheduled
      exact ⟨node, ref, (updated.mem_iff _).mpr (Or.inl ⟨member, different⟩)⟩
    · simp only at same changed
      subst same changed
      obtain ⟨id, ref⟩ := updated.tracked expiry scheduled
      exact ⟨id, ref, (updated.mem_iff _).mpr (Or.inr ⟨scheduled, ref, rfl⟩)⟩
  · intro other entry' owned' idle
    rw [addToTopic_batchMap] at owned'
    rcases KeyedList.mem_modify.mp owned' with ⟨-, old⟩ | ⟨-, value, -, changed⟩
    · exact tracked.entryUntracked other entry' old idle
    · simp only at changed
      subst changed
      exact updated.untracked idle
  · intro other entry' owned'
    rw [addToTopic_batchMap] at owned'
    rcases KeyedList.mem_modify.mp owned' with ⟨-, old⟩ | ⟨same, value, -, changed⟩
    · exact tracked.batchers other entry' old
    · simp only at same changed
      subst same changed
      exact kept.addMsg configEnabled topicOf now

theorem addMsg (msg : TMsg) (now : TTimestamp) : Tracked (batcher.addMsg msg now).2.2 := by
  obtain ⟨inserted, owned, -, -, -⟩ := tracked.findOrInsertEntry msg.topic
  rcases found : batcher.findOrInsertEntry msg.topic with ⟨entry, next⟩
  rw [found] at inserted owned
  simp only [TPerTopicBatcher.addMsg, found]
  split
  · rename_i enabled
    exact (inserted.addToTopic owned enabled rfl now).getCompleteBatches now
  · exact inserted.getCompleteBatches now

theorem getAllBatches : Tracked batcher.getAllBatches.2 := by
  have memberCases : ∀ {topic entry}, (topic, entry) ∈ batcher.getAllBatches.2.batchMap →
      ∃ old, (topic, old) ∈ batcher.batchMap ∧ entry = { batcher := old.batcher.takeBatch.2 } := by
    intro topic entry member
    simp only [TPerTopicBatcher.getAllBatches, List.mem_map, Prod.mk.injEq] at member
    obtain ⟨⟨topic', old⟩, owned, rfl, rfl⟩ := member
    exact ⟨old, owned, rfl⟩
  refine ⟨?_, ⟨List.nodup_nil, ?_, List.Pairwise.nil⟩, ?_, ?_, ?_, ?_⟩
  · simpa [TPerTopicBatcher.getAllBatches] using tracked.uniqueTopics
  · simp [TPerTopicBatcher.getAllBatches]
  · simp [TPerTopicBatcher.getAllBatches]
  · intro topic entry owned expiry scheduled
    obtain ⟨old, -, rfl⟩ := memberCases owned
    simp at scheduled
  · intro topic entry owned _
    obtain ⟨old, -, rfl⟩ := memberCases owned
    rfl
  · intro topic entry owned
    obtain ⟨old, member, rfl⟩ := memberCases owned
    exact (tracked.batchers topic old member).takeBatch

theorem deleteTopic (topic : String) : Tracked (batcher.deleteTopic topic).2 := by
  unfold TPerTopicBatcher.deleteTopic
  cases found : batcher.batchMap.lookup topic with
  | none => exact tracked
  | some entry =>
      have owned := KeyedList.mem_of_lookup found
      have remaining : ∀ node, node ∈ eraseRef batcher.expiryTracker entry.expiryRef ↔
          node ∈ batcher.expiryTracker ∧ node.2.topic ≠ topic :=
        fun node => mem_eraseRef_iff tracked.wellFormed (tracked.refRecord owned)
      refine ⟨KeyedList.nodup_keys_erase tracked.uniqueTopics topic,
        tracked.wellFormed.sublist (eraseRef_sublist _ _), ?_, ?_, ?_, ?_⟩
      · intro node member
        obtain ⟨old, other⟩ := (remaining node).mp member
        obtain ⟨entry', owned', ref, scheduled⟩ := tracked.recordEntry node old
        exact ⟨entry', KeyedList.mem_erase.mpr ⟨owned', other⟩, ref, scheduled⟩
      · intro other entry' owned' expiry scheduled
        obtain ⟨old, different⟩ := KeyedList.mem_erase.mp owned'
        obtain ⟨node, ref, member⟩ := tracked.entryRecord other entry' old expiry scheduled
        exact ⟨node, ref, (remaining _).mpr ⟨member, different⟩⟩
      · intro other entry' owned' idle
        exact tracked.entryUntracked other entry' (KeyedList.mem_erase.mp owned').1 idle
      · intro other entry' owned'
        exact tracked.batchers other entry' (KeyedList.mem_erase.mp owned').1

theorem step (op : Op) : Tracked (TPerTopicBatcher.step batcher op).2 := by
  cases op with
  | addMsg msg now => exact tracked.addMsg msg now
  | getCompleteBatches now => exact tracked.getCompleteBatches now
  | getAllBatches => exact tracked.getAllBatches
  | deleteTopic topic => exact tracked.deleteTopic topic

end Tracked

/-!
### What `GetCompleteBatches(now)` returns
-/

section CompleteBatches

variable {batcher : TPerTopicBatcher} (tracked : Tracked batcher)
include tracked

/-- The loop visits a topic exactly when its batch is due at `now`. -/
theorem mem_expiredTopics_iff (now : TTimestamp) (topic : String) :
    topic ∈ (expiredNodes batcher.expiryTracker now).map (fun node => node.2.topic) ↔
      ∃ entry expiry, (topic, entry) ∈ batcher.batchMap ∧
        entry.batcher.getNextCompleteTime = some expiry ∧ expiry ≤ now := by
  constructor
  · intro visited
    obtain ⟨node, expired, rfl⟩ := List.mem_map.mp visited
    obtain ⟨entry, owned, -, scheduled⟩ :=
      tracked.recordEntry node (List.takeWhile_subset _ expired)
    exact ⟨entry, node.2.expiry, owned, scheduled, expiry_le_of_mem_expiredNodes expired⟩
  · rintro ⟨entry, expiry, owned, scheduled, due⟩
    obtain ⟨node, -, member⟩ := tracked.entryRecord topic entry owned expiry scheduled
    rcases mem_expiredNodes_or_dropWhile now member with expired | later
    · exact List.mem_map.mpr ⟨_, expired, rfl⟩
    · exact absurd due (Int64.not_le.mpr (lt_expiry_of_mem_dropWhile tracked.wellFormed.sorted later))

/-- A visited node's topic batch is its entry's batch: nonempty, and due at the
node's expiry. -/
theorem expired_batch {now : TTimestamp} {node : ExpiryNode}
    (expired : node ∈ expiredNodes batcher.expiryTracker now) :
    ∃ entry, (node.2.topic, entry) ∈ batcher.batchMap ∧
      entry.batcher.getNextCompleteTime = some node.2.expiry ∧
      batchOf batcher.batchMap node.2.topic = entry.batcher.msgList ∧ entry.batcher.msgList ≠ [] := by
  obtain ⟨entry, owned, -, scheduled⟩ :=
    tracked.recordEntry node (List.takeWhile_subset _ expired)
  exact ⟨entry, owned, scheduled, batchOf_of_mem tracked.uniqueTopics owned,
    (tracked.batchers _ entry owned).consistent.msgList_ne_nil scheduled⟩

/-- The visited nodes come in non-decreasing expiry order. -/
theorem expiredNodes_ordered (now : TTimestamp) :
    (expiredNodes batcher.expiryTracker now).Pairwise
      fun first second => first.2.expiry ≤ second.2.expiry := by
  have sorted : OrderedBag.Sorted expiryKey (expiredNodes batcher.expiryTracker now) :=
    tracked.wellFormed.sorted.sublist (List.takeWhile_sublist _)
  exact sorted.imp fun ordered => Int64.le_iff_toInt_le.mpr ordered

theorem expiredTopics_nodup (now : TTimestamp) :
    ((expiredNodes batcher.expiryTracker now).map fun node => node.2.topic).Nodup :=
  tracked.nodup_topics.sublist ((List.takeWhile_sublist _).map _)

/-- After `GetCompleteBatches(now)` no batch is due at `now`. -/
theorem getCompleteBatches_none_due (now : TTimestamp) :
    ∀ item ∈ (batcher.getCompleteBatches now).2.batchMap, ∀ expiry,
      item.2.batcher.getNextCompleteTime = some expiry → now < expiry := by
  have after := tracked.getCompleteBatches now
  rintro ⟨topic, entry⟩ owned expiry scheduled
  obtain ⟨node, -, member⟩ := after.entryRecord topic entry owned expiry scheduled
  rw [getCompleteBatches_eq tracked now] at member
  exact lt_expiry_of_mem_dropWhile tracked.wellFormed.sorted member

end CompleteBatches

/-- Every state reachable from a new batcher keeps the invariant. -/
theorem tracked_final (config : Option TPerTopicConfig) (ops : List Op) :
    Tracked (final step (init config) ops) :=
  final_invariant (fun _ op tracked => tracked.step op) (init config) ops (Tracked.init config)

/-- The expiry tracking law, in every state reached by any calls from a new
batcher: the state keeps `Tracked` and passes `SanityCheck()`;
`GetNextCompleteTime()` is the least next complete time of a topic batch, and
empty exactly when no batch has one; `GetCompleteBatches(now)` returns the
batches of the visited topics, which are exactly the topics due at `now`, each
once, in non-decreasing expiry order, each nonempty and due at its node's
expiry, and leaves no batch due at `now`. -/
theorem perTopicBatcher_expiry_tracking (config : TPerTopicConfig) (ops : List Op)
    (now : TTimestamp) :
    let batcher := final step (init (some config)) ops
    Tracked batcher ∧ batcher.sanityCheck = true ∧
      (∀ expiry, batcher.getNextCompleteTime = some expiry ↔
        (∃ item ∈ batcher.batchMap, item.2.batcher.getNextCompleteTime = some expiry) ∧
        ∀ item ∈ batcher.batchMap, ∀ other, item.2.batcher.getNextCompleteTime = some other →
          expiry ≤ other) ∧
      (batcher.getNextCompleteTime = none ↔
        ∀ item ∈ batcher.batchMap, item.2.batcher.getNextCompleteTime = none) ∧
      (batcher.getCompleteBatches now).1 =
        (expiredNodes batcher.expiryTracker now).map
          (fun node => batchOf batcher.batchMap node.2.topic) ∧
      (∀ topic, topic ∈ (expiredNodes batcher.expiryTracker now).map (fun node => node.2.topic) ↔
        ∃ entry expiry, (topic, entry) ∈ batcher.batchMap ∧
          entry.batcher.getNextCompleteTime = some expiry ∧ expiry ≤ now) ∧
      ((expiredNodes batcher.expiryTracker now).map fun node => node.2.topic).Nodup ∧
      (expiredNodes batcher.expiryTracker now).Pairwise
        (fun first second => first.2.expiry ≤ second.2.expiry) ∧
      (∀ node ∈ expiredNodes batcher.expiryTracker now, ∃ entry,
        (node.2.topic, entry) ∈ batcher.batchMap ∧
        entry.batcher.getNextCompleteTime = some node.2.expiry ∧
        batchOf batcher.batchMap node.2.topic = entry.batcher.msgList ∧
        entry.batcher.msgList ≠ []) ∧
      (∀ item ∈ (batcher.getCompleteBatches now).2.batchMap, ∀ expiry,
        item.2.batcher.getNextCompleteTime = some expiry → now < expiry) := by
  intro batcher
  have tracked : Tracked batcher := tracked_final (some config) ops
  refine ⟨tracked, tracked.sanityCheck, fun expiry => getNextCompleteTime_eq_some_iff tracked,
    getNextCompleteTime_eq_none_iff tracked, ?_, mem_expiredTopics_iff tracked now,
    expiredTopics_nodup tracked now, expiredNodes_ordered tracked now,
    fun node expired => expired_batch tracked expired, getCompleteBatches_none_due tracked now⟩
  rw [getCompleteBatches_eq tracked now]

end TPerTopicBatcher

end Dory.Batch
